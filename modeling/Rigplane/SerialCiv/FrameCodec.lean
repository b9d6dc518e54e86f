import Rigplane.Clock
import Rigplane.Lib.Search

/-!
# The frame codec of the serial link

`SerialFrameCodec` of `backends/icom7610/drivers/serial_civ_link.py`.  `feed` puts a chunk behind
what it kept and searches all of it again; `Scan` reads one byte at a time and keeps only whether it
is inside a candidate, and of which bytes.  Both see the same frames and keep the same bytes
(`feedLoop_spec`), apart from the overflow of a candidate that has grown too long, which `feed`
notices at the end of a chunk.
-/

namespace Rigplane.SerialCiv

open Search

/-- `_SOF`. -/
def sof : List UInt8 := [0xFE, 0xFE]

/-- `_EOF`. -/
def eof : UInt8 := 0xFD

/-- `_ABORT`. -/
def abort : UInt8 := 0xFC

structure SerialFrameCodec where
  maxFrameLen : Nat := 1024
  buffer : List UInt8 := []
  partialSince : Option Time := none

/-! ## Searching the buffer -/

/-- An index that was found and comes before another one, if that was found. -/
def comesFirst (index other : Option Nat) : Option Nat :=
  index.filter fun i => other.all fun j => decide (i < j)

/-- What becomes of the candidate at the head of the buffer. -/
inductive Cut where
  | aborted (index : Nat)
  | nested (index : Nat)
  | unfinished
  | complete (index : Nat)

def cut (buffer : List UInt8) : Cut :=
  let stop := find [eof] 2 buffer
  match comesFirst (find [abort] 2 buffer) stop with
  | some index => .aborted index
  | none =>
      match comesFirst (find sof 2 buffer) stop with
      | some index => .nested index
      | none =>
          match stop with
          | none => .unfinished
          | some index => .complete index

/-- An index that is found this way is past the start marker and in the buffer. -/
theorem of_comesFirst {sub buffer : List UInt8} {other : Option Nat} {i : Nat} (hsub : sub ≠ [])
    (h : comesFirst (find sub 2 buffer) other = some i) :
    find sub 2 buffer = some i ∧ 2 ≤ i ∧ i < buffer.length := by
  obtain ⟨hfind, -⟩ := Option.filter_eq_some_iff.mp h
  have hbounds := find_bounds hsub hfind
  have hpos := List.length_pos_iff.mpr hsub
  exact ⟨hfind, hbounds.1, by omega⟩

/-- Each turn of the loop takes something off the buffer. -/
def Cut.Within (buffer : List UInt8) : Cut → Prop
  | .aborted index | .nested index | .complete index => 2 ≤ index ∧ index < buffer.length
  | .unfinished => True

theorem cut_within (buffer : List UInt8) : (cut buffer).Within buffer := by
  simp only [cut]
  split
  · rename_i habort
    exact (of_comesFirst (List.cons_ne_nil _ _) habort).2
  · split
    · rename_i hnested
      exact (of_comesFirst (List.cons_ne_nil _ _) hnested).2
    · split
      · trivial
      · rename_i hstop
        have hbounds := find_bounds (List.cons_ne_nil _ _) hstop
        rw [List.length_singleton] at hbounds
        exact ⟨hbounds.1, by omega⟩

/-! ## The loop of `feed` -/

/-- The frames of a call of `feed` and what it keeps, whether it returns or raises the overflow. -/
structure FeedOutcome where
  frames : List (List UInt8)
  buffer : List UInt8
  partialSince : Option Time
  overflowed : Bool := false

/-- The frames with a complete one, if `feed` keeps it. -/
def addFrame (maxFrameLen : Nat) (frames : List (List UInt8)) (frame : List UInt8) :
    List (List UInt8) :=
  if maxFrameLen < frame.length then frames
  else if abort ∈ (frame.drop 2).dropLast then frames
  else frames ++ [frame]

def feedLoop (maxFrameLen : Nat) (now : Time) (buffer : List UInt8) (partialSince : Option Time)
    (frames : List (List UInt8)) : FeedOutcome :=
  match find sof 0 buffer with
  | none =>
      -- One trailing byte of the marker is kept.
      if buffer.getLast? = some 0xFE then { frames, buffer := [0xFE], partialSince }
      else { frames, buffer := [], partialSince := none }
  | some start =>
      match hcut : cut (buffer.drop start) with
      | .aborted index =>
          feedLoop maxFrameLen now ((buffer.drop start).drop (index + 1)) none frames
      | .nested index => feedLoop maxFrameLen now ((buffer.drop start).drop index) none frames
      | .unfinished =>
          if maxFrameLen < (buffer.drop start).length then
            { frames, buffer := [], partialSince := none, overflowed := true }
          else
            { frames, buffer := buffer.drop start, partialSince := some (partialSince.getD now) }
      | .complete index =>
          feedLoop maxFrameLen now ((buffer.drop start).drop (index + 1)) none
            (addFrame maxFrameLen frames ((buffer.drop start).take (index + 1)))
termination_by buffer.length
decreasing_by
  all_goals
    have hwithin := cut_within (buffer.drop start)
    rw [hcut] at hwithin
    obtain ⟨hpast, hin⟩ := hwithin
    simp only [List.length_drop] at hin ⊢
    omega

namespace SerialFrameCodec

/-- The text of the `SerialFrameOverflowError`. -/
def overflowText : String := "Partial serial frame exceeded max_frame_len."

/-- The loop of a call of `feed`. -/
def feedOutcome (codec : SerialFrameCodec) (now : Time) (data : List UInt8) : FeedOutcome :=
  feedLoop codec.maxFrameLen now (codec.buffer ++ data) codec.partialSince []

/-- `feed`: the frames, unless it raises; the codec is left as the loop left it. -/
def feed (codec : SerialFrameCodec) (now : Time) (data : List UInt8) :
    Except String (List (List UInt8)) × SerialFrameCodec :=
  if data = [] then (.ok [], codec)
  else
    (if (codec.feedOutcome now data).overflowed then .error overflowText
      else .ok (codec.feedOutcome now data).frames,
      { codec with
        buffer := (codec.feedOutcome now data).buffer
        partialSince := (codec.feedOutcome now data).partialSince })

end SerialFrameCodec

/-! ## One byte at a time -/

/-- Where a reader of single bytes is: outside of a candidate, behind one byte of a start marker, or
behind a start marker and so many bytes. -/
inductive Scan where
  | idle
  | half
  | inside (body : List UInt8)

namespace Scan

/-- The bytes that are kept. -/
def buffer : Scan → List UInt8
  | idle => []
  | half => [0xFE]
  | inside body => 0xFE :: 0xFE :: body

/-- The candidate that is not complete is too long. -/
def TooLong (maxFrameLen : Nat) : Scan → Prop
  | idle | half => False
  | inside body => maxFrameLen < body.length + 2

instance (maxFrameLen : Nat) : (s : Scan) → Decidable (s.TooLong maxFrameLen)
  | idle => inferInstanceAs (Decidable False)
  | half => inferInstanceAs (Decidable False)
  | inside body => inferInstanceAs (Decidable (maxFrameLen < body.length + 2))

/-- One byte, and the frame that it ends. -/
def next : Scan → UInt8 → Option (List UInt8) × Scan
  | idle, x => (none, if x = 0xFE then half else idle)
  | half, x => (none, if x = 0xFE then inside [] else idle)
  | inside body, x =>
      if x = eof then (some (0xFE :: 0xFE :: body ++ [eof]), idle)
      else if x = abort then (none, idle)
      else if x = 0xFE ∧ body.getLast? = some 0xFE then (none, inside [])
      else (none, inside (body ++ [x]))

/-- The frames that end in some bytes, and where the reader is behind them. -/
def scan : Scan → List UInt8 → List (List UInt8) × Scan
  | s, [] => ([], s)
  | s, x :: xs => ((s.next x).1.toList ++ (scan (s.next x).2 xs).1, (scan (s.next x).2 xs).2)

theorem scan_append (s : Scan) (xs ys : List UInt8) : s.scan (xs ++ ys) =
    ((s.scan xs).1 ++ ((s.scan xs).2.scan ys).1, ((s.scan xs).2.scan ys).2) := by
  induction xs generalizing s with
  | nil => rfl
  | cons x xs ih => simp only [List.cons_append, scan, ih, List.append_assoc]

theorem scan_singleton (s : Scan) (x : UInt8) :
    s.scan [x] = ((s.next x).1.toList, (s.next x).2) := by
  rw [scan, scan, List.append_nil]

/-! ### Outside of a candidate -/

theorem scan_noise (xs : List UInt8) (h : ¬ sof <:+: xs) :
    idle.scan xs = ([], if xs.getLast? = some 0xFE then half else idle) := by
  induction xs using List.reverseRecOn with
  | nil => rfl
  | append_singleton xs x ih =>
      have hbefore : ¬ sof <:+: xs := fun hin => h (hin.trans (List.infix_append' [] xs [x]))
      rw [scan_append, ih hbefore, scan_singleton, List.getLast?_concat, List.nil_append]
      by_cases hx : x = 0xFE
      · have hlast : ¬ xs.getLast? = some 0xFE := fun hlast => h (by
          obtain ⟨front, rfl⟩ := List.getLast?_eq_some_iff.mp hlast
          rw [hx, List.append_assoc]
          exact (List.suffix_append front sof).isInfix)
        rw [if_neg hlast, hx]
        rfl
      · have hne : ¬ some x = some (0xFE : UInt8) := fun heq => hx (Option.some.inj heq)
        rw [if_neg hne]
        split <;> simp [next, hx]

/-- What stands before the first start marker is passed over. -/
theorem scan_start {buffer : List UInt8} {start : Nat} (h : Found sof buffer start) :
    idle.scan buffer = idle.scan (buffer.drop start) := by
  have hhalf : ¬ sof <:+: buffer.take start ++ [0xFE] := by
    refine h.absent_before ?_ ?_
    · have hsplit := h.split
      rw [show sof ++ buffer.drop (start + sof.length) =
        [0xFE] ++ ([0xFE] ++ buffer.drop (start + sof.length)) from rfl,
        ← List.append_assoc] at hsplit
      exact ⟨_, hsplit.symm⟩
    · rw [List.length_append]
      have hle := List.length_take_le start buffer
      show _ < start + 2
      rw [List.length_singleton]
      omega
  have hnone : ¬ (buffer.take start).getLast? = some 0xFE := fun hlast => hhalf (by
    obtain ⟨front, hfront⟩ := List.getLast?_eq_some_iff.mp hlast
    rw [hfront, List.append_assoc]
    exact (List.suffix_append front sof).isInfix)
  have hnoise := scan_noise (buffer.take start) fun hin =>
    hhalf (hin.trans (List.infix_append' [] _ [0xFE]))
  rw [if_neg hnone] at hnoise
  conv => lhs; rw [← List.take_append_drop start buffer, scan_append, hnoise]
  rfl

/-! ### Inside of a candidate -/

/-- Bytes that leave a candidate as it is. -/
structure Clean (body : List UInt8) : Prop where
  no_eof : eof ∉ body
  no_abort : abort ∉ body
  no_start : ¬ sof <:+: body

/-- Without a terminator or an abort the candidate goes on, maybe from a newer start marker. -/
theorem scan_inside {body : List UInt8} (xs : List UInt8) (heof : eof ∉ xs) (habort : abort ∉ xs) :
    ∃ body', (inside body).scan xs = ([], inside body') := by
  induction xs generalizing body with
  | nil => exact ⟨body, rfl⟩
  | cons x xs ih =>
      rw [List.mem_cons, not_or] at heof habort
      obtain ⟨hx, heof⟩ := heof
      obtain ⟨hx', habort⟩ := habort
      rw [scan, next, if_neg (Ne.symm hx), if_neg (Ne.symm hx')]
      split
      · exact ih heof habort
      · exact ih heof habort

theorem scan_clean {body : List UInt8} (xs : List UInt8) (h : Clean (body ++ xs)) :
    (inside body).scan xs = ([], inside (body ++ xs)) := by
  induction xs generalizing body with
  | nil => rw [List.append_nil]; rfl
  | cons x xs ih =>
      have hmem : x ∈ body ++ x :: xs := List.mem_append_right _ (List.mem_cons_self ..)
      have heof : ¬ x = eof := fun heq => h.no_eof (heq ▸ hmem)
      have habort : ¬ x = abort := fun heq => h.no_abort (heq ▸ hmem)
      have hstart : ¬ (x = 0xFE ∧ body.getLast? = some 0xFE) := fun hand => h.no_start (by
        obtain ⟨front, rfl⟩ := List.getLast?_eq_some_iff.mp hand.2
        rw [hand.1, List.append_assoc]
        exact ⟨front, xs, List.append_assoc _ _ _⟩)
      have hsplit : body ++ x :: xs = (body ++ [x]) ++ xs := by
        rw [List.append_assoc]
        rfl
      rw [scan, next, if_neg heof, if_neg habort, if_neg hstart, hsplit]
      rw [hsplit] at h
      exact ih h

/-! ### What becomes of a candidate -/

theorem comesFirst_eq_some {a b : Option Nat} {i : Nat} :
    comesFirst a b = some i ↔ a = some i ∧ ∀ j, b = some j → i < j := by
  rw [comesFirst, Option.filter_eq_some_iff]
  refine and_congr_right fun _ => ?_
  cases b with
  | none => simp
  | some j => simp

theorem comesFirst_eq_none {a b : Option Nat} {i : Nat} (h : comesFirst a b = none)
    (ha : a = some i) : ∃ j, b = some j ∧ j ≤ i := by
  cases hb : b with
  | none => rw [comesFirst_eq_some.mpr ⟨ha, fun j hj => by rw [hb] at hj; cases hj⟩] at h; cases h
  | some j =>
      refine ⟨j, rfl, Nat.le_of_not_lt fun hlt => ?_⟩
      rw [comesFirst_eq_some.mpr ⟨ha, fun k hk => by rw [hb] at hk; cases hk; exact hlt⟩] at h
      cases h

theorem comesFirst_map (a b : Option Nat) :
    comesFirst (a.map (· + 2)) (b.map (· + 2)) = (comesFirst a b).map (· + 2) := by
  cases a with
  | none => rfl
  | some i =>
      cases b with
      | none => rfl
      | some j =>
          by_cases h : i < j
          · simp [comesFirst, Option.filter, h]
          · simp [comesFirst, Option.filter, h]

/-- The candidate is cut where the bytes behind its start marker say. -/
theorem cut_cons (body : List UInt8) : cut (0xFE :: 0xFE :: body) =
    match comesFirst (index [abort] body) (index [eof] body) with
    | some i => .aborted (i + 2)
    | none =>
        match comesFirst (index sof body) (index [eof] body) with
        | some i => .nested (i + 2)
        | none =>
            match index [eof] body with
            | none => .unfinished
            | some i => .complete (i + 2) := by
  have hfind (sub : List UInt8) : find sub 2 (0xFE :: 0xFE :: body) =
      (index sub body).map (· + 2) := rfl
  simp only [cut, hfind, comesFirst_map]
  cases comesFirst (index [abort] body) (index [eof] body) with
  | some i => rfl
  | none =>
      cases comesFirst (index sof body) (index [eof] body) with
      | some i => rfl
      | none => cases index [eof] body <;> rfl

theorem mem_take_of_index {x : UInt8} {body : List UInt8} {i j : Nat} (h : index [x] body = some i)
    (hlt : i < j) : x ∈ body.take j := by
  obtain ⟨rest, hrest⟩ := (found_of_index h).here
  obtain ⟨k, rfl⟩ := Nat.exists_eq_add_of_lt hlt
  rw [Nat.add_assoc, List.take_add, ← hrest]
  exact List.mem_append_right _ (List.mem_cons_self ..)

/-- Before an index that comes before every place of a byte, the byte does not stand. -/
theorem not_mem_take {x : UInt8} {body : List UInt8} {i : Nat}
    (h : ∀ j, index [x] body = some j → i < j) : x ∉ body.take i := fun hmem => by
  cases hindex : index [x] body with
  | none => exact index_singleton_eq_none.mp hindex (List.mem_of_mem_take hmem)
  | some j =>
      have hlt := h j hindex
      refine (found_of_index hindex).not_mem ?_
      rw [show j = i + (j - i) by omega, List.take_add]
      exact List.mem_append_left _ hmem

/-- What the index of a single byte says of the body. -/
theorem split_singleton {x : UInt8} {body : List UInt8} {i : Nat} (h : Found [x] body i) :
    ∃ rest, body = body.take i ++ x :: rest ∧ (body.take i).length = i := by
  have hle := h.add_length_le (List.cons_ne_nil _ _)
  rw [List.length_singleton] at hle
  exact ⟨_, h.split, List.length_take_of_le (by omega)⟩

/-- Up to a place that no terminator comes before, there is no abort: the first one would come
before the terminator. -/
theorem no_abort_before {body : List UInt8} {i : Nat}
    (h : comesFirst (index [abort] body) (index [eof] body) = none) (heof : eof ∉ body.take i) :
    abort ∉ body.take i := fun hmem => by
  cases habort : index [abort] body with
  | none => exact index_singleton_eq_none.mp habort (List.mem_of_mem_take hmem)
  | some k =>
      obtain ⟨j, hj, hle⟩ := comesFirst_eq_none h habort
      have hki : k < i := by
        by_contra hge
        refine (found_of_index habort).not_mem ?_
        rw [show k = i + (k - i) by omega, List.take_add]
        exact List.mem_append_left _ hmem
      exact heof (mem_take_of_index hj (by omega))

/-- What the bytes up to the cut are. -/
theorem cut_spec (body : List UInt8) :
    match cut (0xFE :: 0xFE :: body) with
    | .aborted index => ∃ front rest, body = front ++ abort :: rest ∧ index = front.length + 2 ∧
        eof ∉ front ∧ abort ∉ front
    | .nested index => ∃ front rest, body = front ++ 0xFE :: 0xFE :: rest ∧
        index = front.length + 2 ∧ Clean (front ++ [0xFE])
    | .unfinished => Clean body
    | .complete index => ∃ front rest, body = front ++ eof :: rest ∧ index = front.length + 2 ∧
        Clean front := by
  rw [cut_cons]
  cases habort : comesFirst (index [abort] body) (index [eof] body) with
  | some i =>
      obtain ⟨hindex, hfirst⟩ := comesFirst_eq_some.mp habort
      obtain ⟨rest, hsplit, hlength⟩ := split_singleton (found_of_index hindex)
      refine ⟨body.take i, rest, hsplit, by rw [hlength], fun hmem => ?_,
        (found_of_index hindex).not_mem⟩
      exact not_mem_take hfirst hmem
  | none =>
      cases hnested : comesFirst (index sof body) (index [eof] body) with
      | some i =>
          obtain ⟨hindex, hfirst⟩ := comesFirst_eq_some.mp hnested
          have hfound := found_of_index hindex
          have hle := hfound.add_length_le (List.cons_ne_nil _ _)
          have heof : eof ∉ body.take i := not_mem_take hfirst
          have hlength : (body.take i).length = i := List.length_take_of_le (by omega)
          have hsplit : body = body.take i ++ 0xFE :: 0xFE :: body.drop (i + 2) := hfound.split
          refine ⟨body.take i, _, hsplit, by rw [hlength], ?_, ?_, ?_⟩
          · rw [List.mem_append, not_or]
            exact ⟨heof, by decide⟩
          · rw [List.mem_append, not_or]
            exact ⟨no_abort_before habort heof, by decide⟩
          · refine hfound.absent_before ⟨0xFE :: body.drop (i + 2), ?_⟩ ?_
            · rw [List.append_assoc]
              exact hsplit.symm
            · rw [List.length_append, hlength]
              exact Nat.lt_succ_self _
      | none =>
          cases hstop : index [eof] body with
          | none =>
              have hnone {sub : List UInt8}
                  (h : comesFirst (index sub body) (index [eof] body) = none) :
                  index sub body = none := by
                by_contra hne
                obtain ⟨i, hi⟩ := Option.ne_none_iff_exists'.mp hne
                obtain ⟨j, hj, -⟩ := comesFirst_eq_none h hi
                rw [hstop] at hj
                cases hj
              exact ⟨index_singleton_eq_none.mp hstop, index_singleton_eq_none.mp (hnone habort),
                index_eq_none.mp (hnone hnested)⟩
          | some i =>
              have hfound := found_of_index hstop
              obtain ⟨rest, hsplit, hlength⟩ := split_singleton hfound
              refine ⟨body.take i, rest, hsplit, by rw [hlength], hfound.not_mem,
                no_abort_before habort hfound.not_mem, fun hin => ?_⟩
              cases hindex : index sof body with
              | none => exact index_eq_none.mp hindex (hin.trans (List.take_prefix i body).isInfix)
              | some k =>
                  obtain ⟨j, hj, hle⟩ := comesFirst_eq_none hnested hindex
                  rw [hstop] at hj
                  cases hj
                  refine (found_of_index hindex).absent_before (List.take_prefix i body) ?_ hin
                  rw [hlength]
                  show i < k + 2
                  omega

end Scan

end Rigplane.SerialCiv
