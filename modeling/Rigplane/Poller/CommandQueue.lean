import Rigplane.Lib.Dict
import Rigplane.StatePipeline.FieldPath

/-!
# The command queue

`CommandQueue` of `runtime/_poller_types.py`: a list of segments, each either one ordered entry or a
coalesced group of PTT entries and of entries by their coalescing key.  The consumer takes entries
one at a time or drains them all.

A command class that the queue does not look into is `other`, with a type of its own.  An entry has
the number of the call that built it, for its identity, and its `ordered` flag says which of the two
calls it was; of what else an entry carries the queue reads nothing.
-/

namespace Rigplane.Poller

open StatePipeline

/-- A queued command, or `None`. -/
inductive Command (T P : Type) where
  | intent (name : String) (target : Option FieldPath) (payload : P)
  | pttOn
  | pttOff
  | enableScope (generation : Int)
  | disableScope (generation : Int)
  | other (type : T) (payload : P)
  | absent

/-- `(cmd.name, cmd.target)` of an intent, the type of any other command. -/
inductive CoalescingKey (T : Type) where
  | intent (name : String) (target : Option FieldPath)
  | pttOn
  | pttOff
  | enableScope
  | disableScope
  | other (type : T)
  | absent
deriving DecidableEq

namespace Command

variable {T P : Type}

def isPtt : Command T P → Bool
  | pttOn | pttOff => true
  | _ => false

def key : Command T P → CoalescingKey T
  | intent name target _ => .intent name target
  | pttOn => .pttOn
  | pttOff => .pttOff
  | enableScope _ => .enableScope
  | disableScope _ => .disableScope
  | other type _ => .other type
  | absent => .absent

/-- The generation of a scope demand. -/
def scopeGeneration : Command T P → Option Int
  | enableScope generation | disableScope generation => some generation
  | _ => none

end Command

structure CommandQueueEntry (T P : Type) where
  identity : Nat
  command : Command T P
  future : Option Nat := none
  /-- The entry was put by `put_ordered`. -/
  ordered : Bool := false

inductive SegmentKind where
  | coalesced
  | ordered
deriving DecidableEq

/-- `_CommandQueueSegment`. -/
structure CommandQueueSegment (T P : Type) [DecidableEq T] where
  kind : SegmentKind
  ptt : List (CommandQueueEntry T P) := []
  dedup : Dict (CoalescingKey T) (CommandQueueEntry T P) := .empty
  ordered : List (CommandQueueEntry T P) := []
  /-- An ordered segment holds nothing else. -/
  ordered_only : kind = .ordered → ptt = [] ∧ ∀ key, dedup.get? key = none
  coalesced_only : kind = .coalesced → ordered = []
  ptt_isPtt : ∀ entry ∈ ptt, entry.command.isPtt = true ∧ entry.ordered = false
  dedup_key : ∀ key entry, dedup.get? key = some entry →
    entry.command.key = key ∧ entry.command.isPtt = false ∧ entry.ordered = false
  ordered_ordered : ∀ entry ∈ ordered, entry.ordered = true

namespace CommandQueueSegment

variable {T P : Type} [DecidableEq T]

/-- `coalesced()`. -/
def coalesced : CommandQueueSegment T P where
  kind := .coalesced
  ordered_only := by simp
  coalesced_only := by simp
  ptt_isPtt := by simp
  dedup_key := by simp
  ordered_ordered := by simp

/-- `ordered_entry(entry)`. -/
def orderedEntry (entry : CommandQueueEntry T P) (h : entry.ordered = true) :
    CommandQueueSegment T P where
  kind := .ordered
  ordered := [entry]
  ordered_only := by simp
  coalesced_only := by simp
  ptt_isPtt := by simp
  dedup_key := by simp
  ordered_ordered := by simpa using h

def hasCommands (s : CommandQueueSegment T P) : Bool :=
  !s.ptt.isEmpty || !s.dedup.items.isEmpty || !s.ordered.isEmpty

def entries (s : CommandQueueSegment T P) : List (CommandQueueEntry T P) :=
  match s.kind with
  | .ordered => s.ordered
  | .coalesced => s.ptt ++ s.dedup.values

/-- `segment.ptt.append(entry)`. -/
def pushPtt (s : CommandQueueSegment T P) (entry : CommandQueueEntry T P)
    (hkind : s.kind = .coalesced) (h : entry.command.isPtt = true ∧ entry.ordered = false) :
    CommandQueueSegment T P :=
  { s with
    ptt := s.ptt ++ [entry]
    ordered_only := fun hordered => by simp [hkind] at hordered
    ptt_isPtt := fun other hother => by
      rcases List.mem_append.mp hother with hmem | hmem
      · exact s.ptt_isPtt other hmem
      · rw [List.mem_singleton.mp hmem]
        exact h }

/-- `segment.dedup[key] = entry`. -/
def setDedup (s : CommandQueueSegment T P) (entry : CommandQueueEntry T P)
    (hkind : s.kind = .coalesced) (h : entry.command.isPtt = false ∧ entry.ordered = false) :
    CommandQueueSegment T P :=
  { s with
    dedup := s.dedup.set entry.command.key entry
    ordered_only := fun hordered => by simp [hkind] at hordered
    dedup_key := fun key other hother => by
      rw [Dict.get?_set] at hother
      split at hother
      · rename_i hkey
        cases hother
        exact ⟨hkey.symm, h⟩
      · exact s.dedup_key key other hother }

/-- The segment with fewer entries. -/
def shrink (s : CommandQueueSegment T P) (ptt ordered : List (CommandQueueEntry T P))
    (dedup : Dict (CoalescingKey T) (CommandQueueEntry T P)) (hptt : ptt ⊆ s.ptt)
    (hordered : ordered ⊆ s.ordered)
    (hdedup : ∀ key entry, dedup.get? key = some entry → s.dedup.get? key = some entry) :
    CommandQueueSegment T P :=
  { s with
    ptt
    ordered
    dedup
    ordered_only := fun h => by
      obtain ⟨hempty, hnone⟩ := s.ordered_only h
      refine ⟨List.subset_nil.mp (hempty ▸ hptt), fun key => ?_⟩
      cases hget : dedup.get? key with
      | none => rfl
      | some entry =>
          have hheld := hdedup key entry hget
          rw [hnone key] at hheld
          cases hheld
    coalesced_only := fun h => List.subset_nil.mp (s.coalesced_only h ▸ hordered)
    ptt_isPtt := fun entry hmem => s.ptt_isPtt entry (hptt hmem)
    dedup_key := fun key entry hget => s.dedup_key key entry (hdedup key entry hget)
    ordered_ordered := fun entry hmem => s.ordered_ordered entry (hordered hmem) }

section Shrink

variable {s : CommandQueueSegment T P} {ptt ordered : List (CommandQueueEntry T P)}
  {dedup : Dict (CoalescingKey T) (CommandQueueEntry T P)} {hptt : ptt ⊆ s.ptt}
  {hordered : ordered ⊆ s.ordered}
  {hdedup : ∀ key entry, dedup.get? key = some entry → s.dedup.get? key = some entry}

@[simp] theorem shrink_ptt : (s.shrink ptt ordered dedup hptt hordered hdedup).ptt = ptt := rfl

@[simp] theorem shrink_ordered :
    (s.shrink ptt ordered dedup hptt hordered hdedup).ordered = ordered := rfl

@[simp] theorem shrink_dedup :
    (s.shrink ptt ordered dedup hptt hordered hdedup).dedup = dedup := rfl

end Shrink

/-- What `take_entry` takes from a segment: an ordered entry, else a PTT entry, else the entry of
the oldest key. -/
def pop (s : CommandQueueSegment T P) :
    Option (CommandQueueEntry T P × CommandQueueSegment T P) :=
  match hordered : s.ordered with
  | entry :: rest => some (entry, s.shrink s.ptt rest s.dedup (List.Subset.refl _)
      (hordered ▸ List.subset_cons_self _ _) fun _ _ h => h)
  | [] =>
      match hptt : s.ptt with
      | entry :: rest => some (entry, s.shrink rest s.ordered s.dedup
          (hptt ▸ List.subset_cons_self _ _) (List.Subset.refl _) fun _ _ h => h)
      | [] =>
          match s.dedup.items with
          | (key, entry) :: _ => some (entry, s.shrink s.ptt s.ordered (s.dedup.erase key)
              (List.Subset.refl _) (List.Subset.refl _) fun other _ h => by
                rw [Dict.get?_erase] at h
                split at h
                · cases h
                · exact h)
          | [] => none

/-- The segment without the entry of an identity, if it holds it. -/
def remove (s : CommandQueueSegment T P) (identity : Nat) : Option (CommandQueueSegment T P) :=
  if s.ordered.any (·.identity = identity) then
    some (s.shrink s.ptt (s.ordered.eraseP (·.identity = identity)) s.dedup (List.Subset.refl _)
      List.eraseP_subset fun _ _ h => h)
  else if s.ptt.any (·.identity = identity) then
    some (s.shrink (s.ptt.eraseP (·.identity = identity)) s.ordered s.dedup List.eraseP_subset
      (List.Subset.refl _) fun _ _ h => h)
  else
    match s.dedup.items.find? (·.2.identity = identity) with
    | some (key, _) => some (s.shrink s.ptt s.ordered (s.dedup.erase key)
        (List.Subset.refl _) (List.Subset.refl _) fun other _ h => by
          rw [Dict.get?_erase] at h
          split at h
          · cases h
          · exact h)
    | none => none

end CommandQueueSegment

/-- `CommandQueue`. -/
structure CommandQueue (T P : Type) [DecidableEq T] where
  segments : List (CommandQueueSegment T P) := []
  /-- `_notify.is_set()`. -/
  notify : Bool := false
  scopeDemandGeneration : Int := 0

namespace CommandQueue

variable {T P : Type} [DecidableEq T]

def hasCommands (q : CommandQueue T P) : Bool := q.segments.any (·.hasCommands)

/-- `_record_scope_demand`. -/
def recordScopeDemand (q : CommandQueue T P) (command : Command T P) : CommandQueue T P :=
  match command.scopeGeneration with
  | some generation =>
      { q with scopeDemandGeneration := max q.scopeDemandGeneration generation }
  | none => q

/-- `_coalesced_tail`: the segments before the one that takes the next coalesced entry, and that
segment, with the fact that it is one. -/
def coalescedTail (q : CommandQueue T P) : List (CommandQueueSegment T P) ×
    { segment : CommandQueueSegment T P // segment.kind = .coalesced } :=
  match q.segments.getLast? with
  | some segment =>
      if h : segment.kind = .coalesced then (q.segments.dropLast, ⟨segment, h⟩)
      else (q.segments, ⟨.coalesced, rfl⟩)
  | none => ([], ⟨.coalesced, rfl⟩)

/-- The segment with a coalesced entry, which `put` built. -/
def putInto (segment : { segment : CommandQueueSegment T P // segment.kind = .coalesced })
    (entry : CommandQueueEntry T P) (h : entry.ordered = false) : CommandQueueSegment T P :=
  if hptt : entry.command.isPtt = true then segment.1.pushPtt entry segment.2 ⟨hptt, h⟩
  else segment.1.setDedup entry segment.2 ⟨by simpa using hptt, h⟩

def put (q : CommandQueue T P) (identity : Nat) (command : Command T P) : CommandQueue T P :=
  let q := q.recordScopeDemand command
  let entry : CommandQueueEntry T P := { identity, command }
  { q with
    segments := q.coalescedTail.1 ++ [putInto q.coalescedTail.2 entry rfl]
    notify := true }

def putOrdered (q : CommandQueue T P) (identity : Nat) (command : Command T P)
    (future : Option Nat) : CommandQueue T P :=
  let q := q.recordScopeDemand command
  { q with
    segments := q.segments ++ [.orderedEntry { identity, command, future, ordered := true } rfl]
    notify := true }

/-- The loop of `take_entry`: the entry, and the segments that stay. -/
def takeFrom : List (CommandQueueSegment T P) →
    Option (CommandQueueEntry T P) × List (CommandQueueSegment T P)
  | [] => (none, [])
  | segment :: rest =>
      match segment.pop with
      | some (entry, segment) =>
          (some entry, if segment.hasCommands then segment :: rest else rest)
      | none => takeFrom rest

def takeEntry (q : CommandQueue T P) : Option (CommandQueueEntry T P) × CommandQueue T P :=
  let q' : CommandQueue T P := { q with segments := (takeFrom q.segments).2 }
  match (takeFrom q.segments).1 with
  | some entry => (some entry, { q' with notify := q.notify && q'.hasCommands })
  | none => (none, { q' with notify := false })

/-- The loop of `remove_pending`. -/
def removeFrom (identity : Nat) :
    List (CommandQueueSegment T P) → Option (List (CommandQueueSegment T P))
  | [] => none
  | segment :: rest =>
      match segment.remove identity with
      | some segment => some (if segment.hasCommands then segment :: rest else rest)
      | none => (removeFrom identity rest).map (segment :: ·)

def removePending (q : CommandQueue T P) (identity : Nat) : Bool × CommandQueue T P :=
  match removeFrom identity q.segments with
  | some segments =>
      let q' : CommandQueue T P := { q with segments }
      (true, { q' with notify := q.notify && q'.hasCommands })
  | none => (false, q)

def drainEntries (q : CommandQueue T P) : List (CommandQueueEntry T P) × CommandQueue T P :=
  (q.segments.flatMap (·.entries), { q with segments := [], notify := false })

end CommandQueue

end Rigplane.Poller
