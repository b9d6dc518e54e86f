import Mathlib.Algebra.Order.Group.Multiset
import Mathlib.Data.List.Induction
import Mathlib.Tactic.Abel
import Rigplane.Poller.CommandQueue

/-!
# The order of the command queue

The queue is one list of pending entries, whatever its segments: taking one entry at a time returns
the head of that list, draining returns all of it, removing an entry erases it, and an ordered entry
goes to its end.  A coalesced entry goes into the last segment, behind every ordered entry.

`Before` is what the order promises of two entries: one that was put by `put_ordered` keeps its
place against every other entry, and two PTT entries keep theirs.
-/

namespace Rigplane.Poller

variable {T P : Type} [DecidableEq T]

/-! ## Segments -/

namespace CommandQueueSegment

theorem values_nil_of_none {d : Dict (CoalescingKey T) (CommandQueueEntry T P)}
    (h : ∀ key, d.get? key = none) : d.values = [] := by
  refine List.eq_nil_iff_forall_not_mem.mpr fun entry hmem => ?_
  obtain ⟨key, hkey⟩ := Dict.mem_values.mp hmem
  rw [h key] at hkey
  cases hkey

/-- A segment lists its ordered entries, its PTT entries and the others, of which an ordered segment
has only the first and a coalesced one only the rest. -/
theorem entries_eq (s : CommandQueueSegment T P) :
    s.entries = s.ordered ++ (s.ptt ++ s.dedup.values) := by
  rw [entries]
  cases hkind : s.kind with
  | ordered =>
      obtain ⟨hptt, hdedup⟩ := s.ordered_only hkind
      simp [hptt, values_nil_of_none hdedup]
  | coalesced => simp [s.coalesced_only hkind]

/-- In a coalesced segment the PTT entries come first. -/
theorem ptt_first (s : CommandQueueSegment T P) : s.entries.Pairwise fun first second =>
    second.command.isPtt = true → second.ordered = true ∨ first.command.isPtt = true := by
  rw [entries]
  cases s.kind with
  | ordered =>
      exact List.pairwise_of_forall_mem_list fun _ _ second hsecond _ =>
        .inl (s.ordered_ordered second hsecond)
  | coalesced =>
      have hplain {entry : CommandQueueEntry T P} (hmem : entry ∈ s.dedup.values) :
          entry.command.isPtt = false := by
        obtain ⟨key, hkey⟩ := Dict.mem_values.mp hmem
        exact (s.dedup_key key entry hkey).2.1
      refine List.pairwise_append.mpr ⟨?_, ?_, fun first hfirst _ _ _ => ?_⟩
      · exact List.pairwise_of_forall_mem_list fun first hfirst _ _ _ =>
          .inr (s.ptt_isPtt first hfirst).1
      · exact List.pairwise_of_forall_mem_list fun _ _ second hsecond hptt =>
          absurd hptt (by simp [hplain hsecond])
      · exact .inr (s.ptt_isPtt first hfirst).1

theorem hasCommands_iff (s : CommandQueueSegment T P) : s.hasCommands = true ↔ s.entries ≠ [] := by
  rw [entries_eq, hasCommands, Dict.values]
  cases s.ordered <;> cases s.ptt <;> cases s.dedup.items <;> simp

theorem pop_some {s s' : CommandQueueSegment T P} {entry : CommandQueueEntry T P}
    (h : s.pop = some (entry, s')) : s.entries = entry :: s'.entries := by
  rw [entries_eq, entries_eq]
  rw [pop] at h
  split at h
  · rename_i rest hordered
    cases h
    simp only [shrink_ordered, shrink_ptt, shrink_dedup, hordered, List.cons_append]
  · rename_i hordered
    split at h
    · rename_i rest hptt
      cases h
      simp only [shrink_ordered, shrink_ptt, shrink_dedup, hordered, hptt, List.nil_append,
        List.cons_append]
    · rename_i hptt
      split at h
      · rename_i key rest hitems
        cases h
        simp only [shrink_ordered, shrink_ptt, shrink_dedup, hordered, hptt, Dict.values, hitems,
          Dict.items_erase_head hitems, List.nil_append, List.map_cons]
      · cases h

theorem pop_none {s : CommandQueueSegment T P} (h : s.pop = none) : s.entries = [] := by
  rw [entries_eq, Dict.values]
  rw [pop] at h
  split at h
  · cases h
  · rename_i hordered
    split at h
    · cases h
    · rename_i hptt
      split at h
      · cases h
      · rename_i hitems
        rw [hordered, hptt, hitems]
        rfl

theorem remove_some {s s' : CommandQueueSegment T P} {identity : Nat}
    (h : s.remove identity = some s') :
    s.entries.any (·.identity = identity) = true ∧
      s'.entries = s.entries.eraseP (·.identity = identity) := by
  rw [entries_eq, entries_eq, List.eraseP_append, List.eraseP_append, List.any_append,
    List.any_append]
  rw [remove] at h
  split at h
  · rename_i hordered
    cases h
    rw [shrink_ordered, if_pos hordered, hordered]
    exact ⟨rfl, rfl⟩
  · rename_i hordered
    split at h
    · rename_i hptt
      cases h
      rw [shrink_ptt, if_neg hordered, if_pos hptt, hptt]
      exact ⟨by simp, rfl⟩
    · rename_i hptt
      split at h
      · rename_i key entry hfind
        cases h
        rw [shrink_dedup, if_neg hordered, if_neg hptt,
          Dict.values_erase_of_find (p := (·.identity = identity)) hfind]
        refine ⟨?_, rfl⟩
        have hmem : entry ∈ s.dedup.values :=
          List.mem_map.mpr ⟨(key, entry), List.mem_of_find?_eq_some hfind, rfl⟩
        have hidentity := List.find?_some hfind
        have hany : s.dedup.values.any (·.identity = identity) = true :=
          List.any_eq_true.mpr ⟨entry, hmem, hidentity⟩
        rw [hany]
        simp
      · cases h

theorem remove_none {s : CommandQueueSegment T P} {identity : Nat} (h : s.remove identity = none) :
    s.entries.any (·.identity = identity) = false := by
  rw [entries_eq, List.any_append, List.any_append]
  rw [remove] at h
  split at h
  · cases h
  · rename_i hordered
    split at h
    · cases h
    · rename_i hptt
      split at h
      · cases h
      · rename_i hfind
        rw [eq_false_of_ne_true hordered, eq_false_of_ne_true hptt, Bool.false_or, Bool.false_or]
        rw [List.find?_eq_none] at hfind
        refine List.any_eq_false.mpr fun entry hmem => ?_
        obtain ⟨item, hitem, rfl⟩ := List.mem_map.mp hmem
        exact hfind item hitem

end CommandQueueSegment

/-! ## The queue as one list -/

namespace CommandQueue

variable {q : CommandQueue T P} {identity : Nat} {command : Command T P}

/-- The entries that wait, in the order of the segments. -/
def pending (q : CommandQueue T P) : List (CommandQueueEntry T P) :=
  q.segments.flatMap (·.entries)

theorem hasCommands_iff : q.hasCommands = true ↔ q.pending ≠ [] := by
  rw [hasCommands, pending, List.any_eq_true, ne_eq, List.flatMap_eq_nil_iff]
  constructor
  · rintro ⟨segment, hmem, hcommands⟩ hnil
    exact (segment.hasCommands_iff.mp hcommands) (hnil segment hmem)
  · intro h
    by_contra hnone
    refine h fun segment hmem => ?_
    by_contra hentries
    exact hnone ⟨segment, hmem, segment.hasCommands_iff.mpr hentries⟩

/-- A segment that is left empty is dropped. -/
theorem flatMap_trim (segment : CommandQueueSegment T P) (rest : List (CommandQueueSegment T P)) :
    (if segment.hasCommands then segment :: rest else rest).flatMap (·.entries) =
      segment.entries ++ rest.flatMap (·.entries) := by
  split
  · rfl
  · rename_i hcommands
    have hnil : segment.entries = [] := by
      by_contra hentries
      exact hcommands (segment.hasCommands_iff.mpr hentries)
    rw [hnil]
    rfl

theorem takeFrom_spec (segments : List (CommandQueueSegment T P)) :
    (takeFrom segments).1 = (segments.flatMap (·.entries)).head? ∧
      (takeFrom segments).2.flatMap (·.entries) = (segments.flatMap (·.entries)).tail := by
  induction segments with
  | nil => exact ⟨rfl, rfl⟩
  | cons segment rest ih =>
      rw [takeFrom, List.flatMap_cons]
      split
      · rename_i entry segment' hpop
        rw [CommandQueueSegment.pop_some hpop, flatMap_trim]
        exact ⟨rfl, rfl⟩
      · rename_i hpop
        rw [CommandQueueSegment.pop_none hpop]
        exact ih

/-- Taking an entry returns the head of the pending ones. -/
theorem takeEntry_spec (q : CommandQueue T P) :
    q.takeEntry.1 = q.pending.head? ∧ q.takeEntry.2.pending = q.pending.tail := by
  obtain ⟨hentry, hrest⟩ := takeFrom_spec q.segments
  rw [takeEntry]
  split
  · rename_i entry htake
    exact ⟨htake ▸ hentry, hrest⟩
  · rename_i htake
    exact ⟨htake ▸ hentry, hrest⟩

theorem notify_takeEntry (h : q.notify = true ↔ q.pending ≠ []) :
    q.takeEntry.2.notify = true ↔ q.takeEntry.2.pending ≠ [] := by
  obtain ⟨hentry, hrest⟩ := takeFrom_spec q.segments
  have hpending : (takeFrom q.segments).2.flatMap (·.entries) = q.pending.tail := hrest
  rw [takeEntry]
  split
  · rename_i entry htake
    have hne : q.pending ≠ [] := fun hnil => by
      rw [htake, show q.segments.flatMap (·.entries) = q.pending from rfl, hnil] at hentry
      cases hentry
    rw [Bool.and_eq_true, hasCommands_iff, h]
    exact and_iff_right hne
  · rename_i htake
    have hnil : q.pending = [] := by
      rw [htake] at hentry
      exact List.head?_eq_none_iff.mp hentry.symm
    rw [hnil] at hpending
    exact iff_of_false Bool.false_ne_true fun hne => hne hpending

theorem removeFrom_spec (identity : Nat) (segments : List (CommandQueueSegment T P)) :
    match removeFrom identity segments with
    | some segments' => segments'.flatMap (·.entries) =
        (segments.flatMap (·.entries)).eraseP (·.identity = identity)
    | none => (segments.flatMap (·.entries)).any (·.identity = identity) = false := by
  induction segments with
  | nil => rfl
  | cons segment rest ih =>
      rw [removeFrom]
      cases hremove : segment.remove identity with
      | some segment' =>
          obtain ⟨hany, herase⟩ := CommandQueueSegment.remove_some hremove
          simp only [flatMap_trim, List.flatMap_cons, List.eraseP_append, hany, if_true, herase]
      | none =>
          have hany := CommandQueueSegment.remove_none hremove
          cases hrest : removeFrom identity rest with
          | some segments' =>
              rw [hrest] at ih
              simp only [Option.map_some, List.flatMap_cons, List.eraseP_append, hany, ih]
              rfl
          | none =>
              rw [hrest] at ih
              simp only [Option.map_none, List.flatMap_cons, List.any_append, hany, ih]
              rfl

/-- Removing an entry erases it. -/
theorem removePending_spec (q : CommandQueue T P) (identity : Nat) :
    (q.removePending identity).2.pending = q.pending.eraseP (·.identity = identity) := by
  have hspec := removeFrom_spec identity q.segments
  rw [removePending]
  split
  · rename_i segments hremove
    rw [hremove] at hspec
    exact hspec
  · rename_i hremove
    rw [hremove] at hspec
    refine (List.eraseP_of_forall_not fun entry hmem => ?_).symm
    exact List.any_eq_false.mp hspec entry hmem

theorem notify_removePending (h : q.notify = true ↔ q.pending ≠ []) :
    (q.removePending identity).2.notify = true ↔ (q.removePending identity).2.pending ≠ [] := by
  have hspec := removePending_spec q identity
  rw [removePending] at hspec ⊢
  split at hspec
  · rename_i segments hremove
    simp only at hspec ⊢
    rw [Bool.and_eq_true, hasCommands_iff, h]
    refine and_iff_right_of_imp fun hne hnil => hne ?_
    rw [hnil] at hspec
    exact hspec
  · exact h

theorem recordScopeDemand_segments (q : CommandQueue T P) (command : Command T P) :
    (q.recordScopeDemand command).segments = q.segments := by
  rw [recordScopeDemand]
  split <;> rfl

theorem putOrdered_spec (q : CommandQueue T P) (identity : Nat) (command : Command T P)
    (future : Option Nat) :
    (q.putOrdered identity command future).pending =
      q.pending ++ [{ identity, command, future, ordered := true }] := by
  rw [putOrdered, pending, recordScopeDemand_segments, List.flatMap_append]
  rfl

theorem coalescedTail_spec (q : CommandQueue T P) :
    q.pending = q.coalescedTail.1.flatMap (·.entries) ++ q.coalescedTail.2.1.entries := by
  rw [coalescedTail]
  split
  · rename_i segment hlast
    split
    · obtain ⟨front, hfront⟩ := List.getLast?_eq_some_iff.mp hlast
      rw [pending, hfront, List.dropLast_concat, List.flatMap_append]
      simp
    · exact (List.append_nil _).symm
  · rename_i hlast
    rw [pending, List.getLast?_eq_none_iff.mp hlast]
    rfl

theorem put_spec (q : CommandQueue T P) (identity : Nat) (command : Command T P) :
    (q.put identity command).pending = q.coalescedTail.1.flatMap (·.entries) ++
      (putInto q.coalescedTail.2 { identity, command } rfl).entries := by
  have htail : (q.recordScopeDemand command).coalescedTail = q.coalescedTail := by
    rw [coalescedTail, coalescedTail, recordScopeDemand_segments]
  rw [put, htail, pending, List.flatMap_append]
  simp

end CommandQueue

/-! ## Runs -/

/-- An entry gave its place to a later one with its key, in the segment that held it. -/
structure Replacement (T P : Type) [DecidableEq T] where
  segment : CommandQueueSegment T P
  old : CommandQueueEntry T P
  new : CommandQueueEntry T P
  stood : segment.dedup.get? new.command.key = some old

/-- The queue with the futures of its entries, and what became of the entries so far. -/
structure QueueHistory (T P : Type) [DecidableEq T] where
  queue : CommandQueue T P := {}
  /-- The number of entries built so far. -/
  built : Nat := 0
  cancelled : List Nat := []
  /-- The entries whose future has not called back yet. -/
  awaiting : List (CommandQueueEntry T P) := []
  accepted : List (CommandQueueEntry T P) := []
  returned : List (CommandQueueEntry T P) := []
  removed : List (CommandQueueEntry T P) := []
  replaced : List (Replacement T P) := []

inductive QueueCall (T P : Type) where
  | put (command : Command T P)
  | putOrdered (command : Command T P) (future : Option Nat)
  | takeEntry
  | removePending (identity : Nat)
  | drainEntries
  | cancel (future : Nat)
  /-- The done callback of the `index`th awaiting entry runs, if its future is cancelled. -/
  | callBack (index : Nat)

namespace QueueHistory

/-- The entry that an entry replaces. -/
def displaced (q : CommandQueue T P) (entry : CommandQueueEntry T P) : List (Replacement T P) :=
  if entry.command.isPtt then []
  else
    match h : q.coalescedTail.2.1.dedup.get? entry.command.key with
    | some old => [⟨q.coalescedTail.2.1, old, entry, h⟩]
    | none => []

def put (w : QueueHistory T P) (command : Command T P) : QueueHistory T P :=
  { w with
    queue := w.queue.put w.built command
    built := w.built + 1
    accepted := w.accepted ++ [{ identity := w.built, command }]
    replaced := w.replaced ++ displaced w.queue { identity := w.built, command } }

def putOrdered (w : QueueHistory T P) (command : Command T P) (future : Option Nat) :
    QueueHistory T P :=
  let entry : CommandQueueEntry T P := { identity := w.built, command, future, ordered := true }
  { w with
    queue := w.queue.putOrdered w.built command future
    built := w.built + 1
    accepted := w.accepted ++ [entry]
    awaiting := if future.isSome then w.awaiting ++ [entry] else w.awaiting }

def takeEntry (w : QueueHistory T P) : QueueHistory T P :=
  { w with
    queue := w.queue.takeEntry.2
    returned := w.returned ++ w.queue.takeEntry.1.toList }

def removePending (w : QueueHistory T P) (identity : Nat) : QueueHistory T P :=
  { w with
    queue := (w.queue.removePending identity).2
    removed := w.removed ++ (w.queue.pending.find? (·.identity = identity)).toList }

def drainEntries (w : QueueHistory T P) : QueueHistory T P :=
  { w with
    queue := w.queue.drainEntries.2
    returned := w.returned ++ w.queue.drainEntries.1 }

/-- `remove_cancelled`. -/
def callBack (w : QueueHistory T P) (index : Nat) : QueueHistory T P :=
  match w.awaiting[index]? with
  | none => w
  | some entry =>
      if entry.future.any (· ∈ w.cancelled) then
        let w := { w with awaiting := w.awaiting.eraseIdx index }
        match entry.command with
        | .pttOff => w
        | _ => w.removePending entry.identity
      else w

def step (w : QueueHistory T P) : QueueCall T P → QueueHistory T P
  | .put command => w.put command
  | .putOrdered command future => w.putOrdered command future
  | .takeEntry => w.takeEntry
  | .removePending identity => w.removePending identity
  | .drainEntries => w.drainEntries
  | .cancel future => { w with cancelled := future :: w.cancelled }
  | .callBack index => w.callBack index

def run (calls : List (QueueCall T P)) : QueueHistory T P := calls.foldl step {}

/-- `take_entry`, called a number of times. -/
def takeTimes (q : CommandQueue T P) :
    Nat → List (Option (CommandQueueEntry T P)) × CommandQueue T P
  | 0 => ([], q)
  | n + 1 =>
      let (entries, rest) := takeTimes q.takeEntry.2 n
      (q.takeEntry.1 :: entries, rest)

/-- Two entries that keep the order of their calls wherever they stand. -/
def Before (first second : CommandQueueEntry T P) : Prop :=
  first.ordered = true ∨ second.ordered = true ∨
      first.command.isPtt = true ∧ second.command.isPtt = true →
    first.identity < second.identity

/-- What every run keeps. -/
structure Kept (w : QueueHistory T P) : Prop where
  numbered : w.accepted.map (·.identity) = List.range w.built
  conserved : (w.returned ++ (w.removed ++ (w.replaced.map (·.old) ++ w.queue.pending))).Perm
    w.accepted
  inOrder : (w.returned ++ w.queue.pending).Pairwise Before
  replaced : ∀ r ∈ w.replaced, r.old.identity < r.new.identity ∧ r.new ∈ w.accepted
  notify : w.queue.notify = true ↔ w.queue.pending ≠ []

theorem Kept.initial : Kept ({} : QueueHistory T P) where
  numbered := rfl
  conserved := .refl _
  inOrder := .nil
  replaced := by simp
  notify := iff_of_false Bool.false_ne_true fun h => h rfl

/-- Every entry that is anywhere is older than the next one. -/
theorem Kept.older {w : QueueHistory T P} (h : w.Kept) {entry : CommandQueueEntry T P}
    (hmem : entry ∈ w.returned ∨ entry ∈ w.queue.pending) : entry.identity < w.built := by
  have haccepted : entry ∈ w.accepted := by
    refine h.conserved.mem_iff.mp ?_
    simp only [List.mem_append]
    exact hmem.imp_right fun hpending => .inr (.inr hpending)
  rw [← List.mem_range, ← h.numbered]
  exact List.mem_map_of_mem haccepted

theorem numbered_snoc {w : QueueHistory T P} (h : w.Kept) {entry : CommandQueueEntry T P}
    (hidentity : entry.identity = w.built) :
    (w.accepted ++ [entry]).map (·.identity) = List.range (w.built + 1) := by
  rw [List.map_append, h.numbered, List.range_succ, List.map_singleton, hidentity]

/-- What leaves the pending entries goes to one of the other lists, and what comes was accepted. -/
theorem conserved_step {α : Type} {returned removed replaced pending accepted : List α}
    (returned' removed' replaced' pending' accepted' : List α)
    (h : (returned ++ (removed ++ (replaced ++ pending))).Perm accepted)
    (hstep : (returned' ++ (removed' ++ (replaced' ++ pending'))).Perm (pending ++ accepted')) :
    ((returned ++ returned') ++
        ((removed ++ removed') ++ ((replaced ++ replaced') ++ pending'))).Perm
      (accepted ++ accepted') := by
  simp only [← Multiset.coe_eq_coe, ← Multiset.coe_add] at h hstep ⊢
  calc ((returned : Multiset α) + returned') + ((removed + removed') + ((replaced + replaced') +
          pending'))
      = returned + (removed + replaced) + (returned' + (removed' + (replaced' + pending'))) := by
        abel
    _ = returned + (removed + (replaced + pending)) + accepted' := by
        rw [hstep]
        abel
    _ = accepted + accepted' := by rw [h]

theorem Kept.putOrdered {w : QueueHistory T P} (h : w.Kept) (command : Command T P)
    (future : Option Nat) : (w.putOrdered command future).Kept where
  numbered := numbered_snoc h rfl
  conserved := by
    have hstep := conserved_step [] [] [] _ _ h.conserved
      (.refl (w.queue.pending ++ [{ identity := w.built, command, future, ordered := true }]))
    simp only [List.append_nil] at hstep
    simp only [QueueHistory.putOrdered, CommandQueue.putOrdered_spec]
    exact hstep
  inOrder := by
    simp only [QueueHistory.putOrdered, CommandQueue.putOrdered_spec]
    rw [← List.append_assoc]
    refine List.pairwise_append.mpr ⟨h.inOrder, List.pairwise_singleton _ _, ?_⟩
    intro first hfirst second hsecond _
    rw [List.mem_singleton.mp hsecond]
    exact h.older (List.mem_append.mp hfirst)
  replaced := fun r hr => by
    obtain ⟨hlater, hmem⟩ := h.replaced r hr
    exact ⟨hlater, List.mem_append_left _ hmem⟩
  notify := by
    simp only [QueueHistory.putOrdered, CommandQueue.putOrdered_spec]
    exact iff_of_true rfl (List.append_ne_nil_of_right_ne_nil _ (List.cons_ne_nil _ _))

theorem Kept.takeEntry {w : QueueHistory T P} (h : w.Kept) : w.takeEntry.Kept := by
  obtain ⟨hentry, hrest⟩ := CommandQueue.takeEntry_spec w.queue
  have hcut : w.queue.takeEntry.1.toList ++ w.queue.takeEntry.2.pending = w.queue.pending := by
    rw [hentry, hrest]
    cases w.queue.pending <;> rfl
  constructor
  · exact h.numbered
  · have hstep := conserved_step w.queue.takeEntry.1.toList [] [] w.queue.takeEntry.2.pending []
      h.conserved (by simp [hcut])
    simp only [List.append_nil] at hstep
    exact hstep
  · show ((w.returned ++ w.queue.takeEntry.1.toList) ++ w.queue.takeEntry.2.pending).Pairwise Before
    rw [List.append_assoc, hcut]
    exact h.inOrder
  · exact h.replaced
  · exact CommandQueue.notify_takeEntry h.notify

theorem Kept.drainEntries {w : QueueHistory T P} (h : w.Kept) : w.drainEntries.Kept where
  numbered := h.numbered
  conserved := by
    have hstep := conserved_step w.queue.pending [] [] [] [] h.conserved (by simp)
    rw [List.append_nil, List.append_nil w.accepted, List.append_nil (w.replaced.map _)] at hstep
    exact hstep
  inOrder := by
    show ((w.returned ++ w.queue.pending) ++ []).Pairwise Before
    rw [List.append_nil]
    exact h.inOrder
  replaced := h.replaced
  notify := iff_of_false Bool.false_ne_true fun hne => hne rfl

theorem find_append_eraseP {α : Type} (p : α → Bool) (l : List α) :
    ((l.find? p).toList ++ l.eraseP p).Perm l := by
  induction l with
  | nil => exact .nil
  | cons a l ih =>
      rw [List.find?_cons, List.eraseP_cons]
      cases hp : p a with
      | true => exact .refl _
      | false => exact List.perm_middle.trans (ih.cons a)

theorem Kept.removePending {w : QueueHistory T P} (h : w.Kept) (identity : Nat) :
    (w.removePending identity).Kept := by
  have herase := CommandQueue.removePending_spec w.queue identity
  constructor
  · exact h.numbered
  · have hstep := conserved_step [] (w.queue.pending.find? (·.identity = identity)).toList []
      (w.queue.removePending identity).2.pending [] h.conserved
      (by simpa [herase] using find_append_eraseP _ _)
    simp only [List.append_nil] at hstep
    exact hstep
  · show (w.returned ++ (w.queue.removePending identity).2.pending).Pairwise Before
    rw [herase]
    exact h.inOrder.sublist ((List.Sublist.refl _).append List.eraseP_sublist)
  · exact h.replaced
  · exact CommandQueue.notify_removePending h.notify

/-! ### Coalesced entries -/

omit [DecidableEq T] in
/-- Nothing is promised of two entries that are neither ordered nor PTT. -/
theorem before_of_plain {first second : CommandQueueEntry T P}
    (hfirst : first.command.isPtt = false ∧ first.ordered = false)
    (hsecond : second.ordered = false) :
    Before first second := by
  rintro (h | h | ⟨h, -⟩)
  · exact absurd h (by simp [hfirst.2])
  · exact absurd h (by simp [hsecond])
  · exact absurd h (by simp [hfirst.1])

theorem mem_values_set {d : Dict (CoalescingKey T) (CommandQueueEntry T P)} {key : CoalescingKey T}
    {entry other : CommandQueueEntry T P} (h : other ∈ (d.set key entry).values) :
    other = entry ∨ other ∈ d.values := by
  obtain ⟨key', hget⟩ := Dict.mem_values.mp h
  rw [Dict.get?_set] at hget
  split at hget
  · exact .inl (Option.some.inj hget).symm
  · exact .inr (Dict.mem_values.mpr ⟨key', hget⟩)

/-- The tail segment lists its PTT entries and then the others. -/
theorem tail_entries (tail : { segment : CommandQueueSegment T P // segment.kind = .coalesced }) :
    tail.1.entries = tail.1.ptt ++ tail.1.dedup.values := by
  rw [CommandQueueSegment.entries, tail.2]

theorem putInto_ptt {tail : { segment : CommandQueueSegment T P // segment.kind = .coalesced }}
    {entry : CommandQueueEntry T P} {h : entry.ordered = false}
    (hptt : entry.command.isPtt = true) :
    (CommandQueue.putInto tail entry h).entries =
      tail.1.ptt ++ ([entry] ++ tail.1.dedup.values) := by
  rw [CommandQueue.putInto, dif_pos hptt, CommandQueueSegment.entries]
  simp only [CommandQueueSegment.pushPtt, tail.2, List.append_assoc]

theorem putInto_plain {tail : { segment : CommandQueueSegment T P // segment.kind = .coalesced }}
    {entry : CommandQueueEntry T P} {h : entry.ordered = false}
    (hptt : entry.command.isPtt = false) :
    (CommandQueue.putInto tail entry h).entries =
      tail.1.ptt ++ (tail.1.dedup.set entry.command.key entry).values := by
  rw [CommandQueue.putInto, dif_neg (by simp [hptt]), CommandQueueSegment.entries]
  simp only [CommandQueueSegment.setDedup, tail.2]

/-- An entry comes in, and the one it displaces goes. -/
theorem putInto_perm (q : CommandQueue T P) (entry : CommandQueueEntry T P)
    (h : entry.ordered = false) :
    ((displaced q entry).map (·.old) ++
        (CommandQueue.putInto q.coalescedTail.2 entry h).entries).Perm
      (q.coalescedTail.2.1.entries ++ [entry]) := by
  rw [tail_entries]
  cases hptt : entry.command.isPtt with
  | true =>
      rw [putInto_ptt hptt, displaced, if_pos hptt, List.append_assoc]
      exact List.perm_append_comm.append_left q.coalescedTail.2.1.ptt
  | false =>
      rw [putInto_plain hptt, displaced, if_neg (by simp [hptt])]
      split
      · rename_i old hold
        have hperm := Dict.values_perm_set (w := entry) hold
        exact (List.perm_middle.symm.trans (hperm.append_left _)).trans
          (((List.perm_append_singleton entry _).symm.append_left _).trans
            (.of_eq (List.append_assoc _ _ _).symm))
      · rename_i hnone
        rw [Dict.values_set_of_none hnone, List.append_assoc]
        exact .refl _

omit [DecidableEq T] in
/-- The entries that a coalesced one comes after, and those it goes before. -/
theorem pairwise_insert {front back : List (CommandQueueEntry T P)} {entry : CommandQueueEntry T P}
    (h : (front ++ back).Pairwise Before) (hfront : ∀ other ∈ front, Before other entry)
    (hback : ∀ other ∈ back, Before entry other) :
    (front ++ ([entry] ++ back)).Pairwise Before := by
  obtain ⟨hf, hb, hcross⟩ := List.pairwise_append.mp h
  refine List.pairwise_append.mpr ⟨hf, List.pairwise_cons.mpr ⟨hback, hb⟩, ?_⟩
  intro first hfirst second hsecond
  rcases List.mem_cons.mp hsecond with rfl | hsecond
  · exact hfront first hfirst
  · exact hcross first hfirst second hsecond

theorem putInto_pairwise {tail : { segment : CommandQueueSegment T P // segment.kind = .coalesced }}
    {front : List (CommandQueueEntry T P)} {entry : CommandQueueEntry T P}
    (h : (front ++ tail.1.entries).Pairwise Before)
    (holder : ∀ other ∈ front ++ tail.1.entries, other.identity < entry.identity)
    (hentry : entry.ordered = false) :
    (front ++ (CommandQueue.putInto tail entry hentry).entries).Pairwise Before := by
  rw [tail_entries] at h holder
  have hplain {other : CommandQueueEntry T P} (hmem : other ∈ tail.1.dedup.values) :
      other.command.isPtt = false ∧ other.ordered = false := by
    obtain ⟨key, hkey⟩ := Dict.mem_values.mp hmem
    exact (tail.1.dedup_key key other hkey).2
  cases hptt : entry.command.isPtt with
  | true =>
      rw [putInto_ptt hptt, ← List.append_assoc]
      rw [← List.append_assoc] at h
      refine pairwise_insert h (fun other hother _ => ?_) fun other hother => ?_
      · exact holder other (by rw [← List.append_assoc]; exact List.mem_append_left _ hother)
      · rintro (hordered | hordered | ⟨-, hother'⟩)
        · exact absurd hordered (by simp [hentry])
        · exact absurd hordered (by simp [(hplain hother).2])
        · exact absurd hother' (by simp [(hplain hother).1])
  | false =>
      have hnew {other : CommandQueueEntry T P}
          (hmem : other ∈ (tail.1.dedup.set entry.command.key entry).values) :
          other.command.isPtt = false ∧ other.ordered = false := by
        rcases mem_values_set hmem with rfl | hmem
        · exact ⟨hptt, hentry⟩
        · exact hplain hmem
      rw [putInto_plain hptt, ← List.append_assoc]
      rw [← List.append_assoc] at h holder
      obtain ⟨hfront, -, hcross⟩ := List.pairwise_append.mp h
      refine List.pairwise_append.mpr ⟨hfront, ?_, fun first hfirst second hsecond => ?_⟩
      · exact List.pairwise_of_forall_mem_list fun first hfirst second hsecond =>
          before_of_plain (hnew hfirst) (hnew hsecond).2
      · rcases mem_values_set hsecond with rfl | hsecond
        · exact fun _ => holder first (List.mem_append_left _ hfirst)
        · exact hcross first hfirst second hsecond

theorem of_mem_displaced {q : CommandQueue T P} {entry : CommandQueueEntry T P}
    {r : Replacement T P} (h : r ∈ displaced q entry) :
    r.new = entry ∧ r.old ∈ q.coalescedTail.2.1.entries := by
  rw [displaced] at h
  split at h
  · cases h
  · split at h
    · rename_i old hold
      rw [List.mem_singleton.mp h, tail_entries]
      exact ⟨rfl, List.mem_append_right _ (Dict.mem_values.mpr ⟨_, hold⟩)⟩
    · cases h

theorem mem_putInto {tail : { segment : CommandQueueSegment T P // segment.kind = .coalesced }}
    {entry : CommandQueueEntry T P} {h : entry.ordered = false} :
    entry ∈ (CommandQueue.putInto tail entry h).entries := by
  cases hptt : entry.command.isPtt with
  | true =>
      rw [putInto_ptt hptt]
      simp
  | false =>
      rw [putInto_plain hptt]
      exact List.mem_append_right _ (Dict.mem_values.mpr ⟨_, Dict.get?_set_self _ _ _⟩)

theorem Kept.put {w : QueueHistory T P} (h : w.Kept) (command : Command T P) :
    (w.put command).Kept := by
  have hpending := CommandQueue.coalescedTail_spec w.queue
  have hput := CommandQueue.put_spec w.queue w.built command
  constructor
  · exact numbered_snoc h rfl
  · have hperm := putInto_perm w.queue { identity := w.built, command } rfl
    have hstep := conserved_step [] []
      ((displaced w.queue { identity := w.built, command }).map (·.old))
      (w.queue.put w.built command).pending [{ identity := w.built, command }] h.conserved (by
        rw [hput, hpending, List.append_assoc]
        show ((displaced w.queue { identity := w.built, command }).map (·.old) ++ (_ ++ _)).Perm _
        exact (List.perm_append_comm_assoc _ _ _).trans (hperm.append_left _))
    simp only [List.append_nil] at hstep
    rw [← List.map_append] at hstep
    exact hstep
  · show (w.returned ++ (w.queue.put w.built command).pending).Pairwise Before
    rw [hput, ← List.append_assoc]
    refine putInto_pairwise ?_ ?_ rfl
    · rw [List.append_assoc, ← hpending]
      exact h.inOrder
    · rw [List.append_assoc, ← hpending]
      exact fun other hother => h.older (List.mem_append.mp hother)
  · intro r hr
    rcases List.mem_append.mp hr with hr | hr
    · obtain ⟨hlater, hmem⟩ := h.replaced r hr
      exact ⟨hlater, List.mem_append_left _ hmem⟩
    · obtain ⟨hnew, hold⟩ := of_mem_displaced hr
      rw [hnew]
      refine ⟨h.older (.inr ?_), List.mem_append_right _ (List.mem_singleton_self _)⟩
      rw [hpending]
      exact List.mem_append_right _ hold
  · refine iff_of_true rfl ?_
    show (w.queue.put w.built command).pending ≠ []
    rw [hput]
    exact List.append_ne_nil_of_right_ne_nil _ (List.ne_nil_of_mem mem_putInto)

/-! ### Every run -/

theorem Kept.callBack {w : QueueHistory T P} (h : w.Kept) (index : Nat) :
    (w.callBack index).Kept := by
  rw [QueueHistory.callBack]
  split
  · exact h
  · split
    · have hawaiting : ({ w with awaiting := w.awaiting.eraseIdx index }).Kept :=
        ⟨h.numbered, h.conserved, h.inOrder, h.replaced, h.notify⟩
      split
      · exact hawaiting
      · exact hawaiting.removePending _
    · exact h

theorem Kept.step {w : QueueHistory T P} (h : w.Kept) (call : QueueCall T P) :
    (w.step call).Kept := by
  cases call with
  | put command => exact h.put command
  | putOrdered command future => exact h.putOrdered command future
  | takeEntry => exact h.takeEntry
  | removePending identity => exact h.removePending identity
  | drainEntries => exact h.drainEntries
  | cancel future => exact ⟨h.numbered, h.conserved, h.inOrder, h.replaced, h.notify⟩
  | callBack index => exact h.callBack index

theorem Kept.run (calls : List (QueueCall T P)) : (run calls).Kept := by
  induction calls using List.reverseRecOn with
  | nil => exact .initial
  | append_singleton calls call ih =>
      rw [QueueHistory.run, List.foldl_append]
      exact ih.step call

theorem takeFrom_of_nil {segments : List (CommandQueueSegment T P)}
    (h : segments.flatMap (·.entries) = []) : CommandQueue.takeFrom segments = (none, []) := by
  induction segments with
  | nil => rfl
  | cons segment rest ih =>
      obtain ⟨hsegment, hrest⟩ := List.append_eq_nil_iff.mp h
      rw [CommandQueue.takeFrom]
      split
      · rename_i entry segment' hpop
        exact absurd ((CommandQueueSegment.pop_some hpop).symm.trans hsegment)
          (List.cons_ne_nil _ _)
      · exact ih hrest

theorem drainEntries_takeEntry (q : CommandQueue T P) :
    q.takeEntry.2.drainEntries.2 = q.drainEntries.2 := by
  rw [CommandQueue.takeEntry]
  split <;> rfl

/-- Taking the entries one by one returns those that a drain returns, and then `None`. -/
theorem takeTimes_drain (q : CommandQueue T P) :
    takeTimes q (q.pending.length + 1) =
      (q.drainEntries.1.map some ++ [none], q.drainEntries.2) := by
  show takeTimes q (q.pending.length + 1) = (q.pending.map some ++ [none], q.drainEntries.2)
  induction hpending : q.pending generalizing q with
  | nil =>
      have hnone : q.takeEntry = (none, q.drainEntries.2) := by
        rw [CommandQueue.takeEntry, takeFrom_of_nil hpending]
        rfl
      rw [List.length_nil, takeTimes, takeTimes, hnone]
      rfl
  | cons entry rest ih =>
      obtain ⟨hhead, htail⟩ := CommandQueue.takeEntry_spec q
      rw [hpending] at hhead htail
      rw [List.length_cons, takeTimes, ih q.takeEntry.2 htail, hhead, drainEntries_takeEntry]
      rfl

/-- Of any run of calls, whose entries are numbered as they were put: each was returned once, or
removed, or replaced by a later entry with its key in its segment, or it waits.  What was returned
and what waits stand in the order that `Before` promises, and in a segment the PTT entries come
first.  The event is set while entries wait, and taking them one by one returns what a drain
would. -/
theorem queue_safe (calls : List (QueueCall T P)) :
    (run calls).accepted.map (·.identity) = List.range (run calls).built ∧
      ((run calls).returned ++ ((run calls).removed ++
        ((run calls).replaced.map (·.old) ++ (run calls).queue.pending))).Perm
            (run calls).accepted ∧
      (∀ r ∈ (run calls).replaced, r.old.command.key = r.new.command.key ∧
        r.old.identity < r.new.identity ∧ r.new ∈ (run calls).accepted) ∧
      ((run calls).returned ++ (run calls).queue.pending).Pairwise Before ∧
      (∀ segment ∈ (run calls).queue.segments, segment.entries.Pairwise fun first second =>
        second.command.isPtt = true → second.ordered = true ∨ first.command.isPtt = true) ∧
      ((run calls).queue.notify = true ↔ (run calls).queue.hasCommands = true) ∧
      takeTimes (run calls).queue ((run calls).queue.pending.length + 1) =
        ((run calls).queue.drainEntries.1.map some ++ [none],
          (run calls).queue.drainEntries.2) := by
  have h := Kept.run calls
  refine ⟨h.numbered, h.conserved, ?_, h.inOrder, ?_, ?_, takeTimes_drain _⟩
  · intro r hr
    exact ⟨(r.segment.dedup_key _ _ r.stood).1, h.replaced r hr⟩
  · exact fun segment _ => segment.ptt_first
  · rw [CommandQueue.hasCommands_iff]
    exact h.notify

end QueueHistory

end Rigplane.Poller
