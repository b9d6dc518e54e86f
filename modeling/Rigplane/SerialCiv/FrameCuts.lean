import Mathlib.Data.List.Induction
import Rigplane.SerialCiv.FrameCodec

/-!
# However a stream is cut

A call of `feed` sees the frames that end in its chunk, read on from what was kept before
(`feedOutcome_spec`), so where the stream is cut matters only for the overflow: a candidate that is
too long at the end of a chunk is given up (`settle`).  `feed` raises then, and what it had
extracted from the same chunk goes with its local list; `delivers_iff` says that this is the only
way in which frames are lost.
-/

namespace Rigplane.SerialCiv

open Search Scan

/-! ## The loop reads the stream -/

theorem find_zero (sub buffer : List UInt8) : find sub 0 buffer = index sub buffer := by
  rw [find, List.drop_zero]
  exact Option.map_id'

theorem scan_sof (xs : List UInt8) : idle.scan (0xFE :: 0xFE :: xs) = (inside []).scan xs := rfl

theorem drop_front (front : List UInt8) (x : UInt8) (rest : List UInt8) :
    (0xFE :: 0xFE :: (front ++ x :: rest)).drop (front.length + 2 + 1) = rest := by
  show (front ++ x :: rest).drop (front.length + 1) = rest
  rw [← List.drop_drop, List.drop_left]
  rfl

theorem take_front (front : List UInt8) (x : UInt8) (rest : List UInt8) :
    (0xFE :: 0xFE :: (front ++ x :: rest)).take (front.length + 2 + 1) =
      0xFE :: 0xFE :: (front ++ [x]) := by
  show 0xFE :: 0xFE :: (front ++ x :: rest).take (front.length + 1) = _
  rw [List.take_add, List.take_left, List.drop_left]
  rfl

/-- What a reader of single bytes makes of the bytes that the loop cuts off. -/
theorem scan_cut (body : List UInt8) :
    match cut (0xFE :: 0xFE :: body) with
    | .aborted index => idle.scan (0xFE :: 0xFE :: body) =
        idle.scan ((0xFE :: 0xFE :: body).drop (index + 1))
    | .nested index => idle.scan (0xFE :: 0xFE :: body) =
        idle.scan ((0xFE :: 0xFE :: body).drop index)
    | .unfinished => idle.scan (0xFE :: 0xFE :: body) = ([], inside body)
    | .complete index => idle.scan (0xFE :: 0xFE :: body) =
        ((0xFE :: 0xFE :: body).take (index + 1) ::
          (idle.scan ((0xFE :: 0xFE :: body).drop (index + 1))).1,
          (idle.scan ((0xFE :: 0xFE :: body).drop (index + 1))).2) ∧
        abort ∉ (((0xFE :: 0xFE :: body).take (index + 1)).drop 2).dropLast := by
  have hspec := cut_spec body
  rw [scan_sof]
  cases hcut : cut (0xFE :: 0xFE :: body) with
  | aborted index =>
      rw [hcut] at hspec
      obtain ⟨front, rest, rfl, rfl, heof, habort⟩ := hspec
      obtain ⟨body', hinside⟩ : ∃ body', (inside []).scan front = ([], inside body') :=
        scan_inside front heof habort
      show (inside []).scan (front ++ abort :: rest) = _
      rw [drop_front, scan_append, hinside]
      rfl
  | nested index =>
      rw [hcut] at hspec
      obtain ⟨front, rest, rfl, rfl, hclean⟩ := hspec
      have hinside : (inside []).scan (front ++ [0xFE]) = ([], inside (front ++ [0xFE])) :=
        scan_clean (front ++ [0xFE]) hclean
      have hsplit : front ++ 0xFE :: 0xFE :: rest = (front ++ [0xFE]) ++ 0xFE :: rest := by
        rw [List.append_assoc]
        rfl
      have hnext : (inside (front ++ [0xFE])).next 0xFE = (none, inside []) := by
        rw [next, if_neg (by decide), if_neg (by decide), if_pos ⟨rfl, List.getLast?_concat⟩]
      show _ = idle.scan ((front ++ 0xFE :: 0xFE :: rest).drop front.length)
      rw [List.drop_left, scan_sof, hsplit, scan_append, hinside]
      simp only [scan, hnext]
      rfl
  | unfinished =>
      rw [hcut] at hspec
      exact scan_clean body hspec
  | complete index =>
      rw [hcut] at hspec
      obtain ⟨front, rest, rfl, rfl, hclean⟩ := hspec
      have hinside : (inside []).scan front = ([], inside front) := scan_clean front hclean
      show (inside []).scan (front ++ eof :: rest) = _ ∧ _
      rw [drop_front, take_front, scan_append, hinside]
      refine ⟨rfl, ?_⟩
      show abort ∉ (front ++ [eof]).dropLast
      rw [List.dropLast_concat]
      exact hclean.no_abort

/-- The loop finds the frames that end in the buffer, and keeps what a reader of single bytes keeps,
unless the candidate is too long. -/
theorem feedLoop_spec (maxFrameLen : Nat) (now : Time) (buffer : List UInt8)
    (partialSince : Option Time) (frames : List (List UInt8)) :
    (feedLoop maxFrameLen now buffer partialSince frames).frames =
        frames ++ (idle.scan buffer).1.filter (·.length ≤ maxFrameLen) ∧
      (feedLoop maxFrameLen now buffer partialSince frames).overflowed =
        decide ((idle.scan buffer).2.TooLong maxFrameLen) ∧
      (feedLoop maxFrameLen now buffer partialSince frames).buffer =
        if (idle.scan buffer).2.TooLong maxFrameLen then [] else (idle.scan buffer).2.buffer := by
  induction hlen : buffer.length using Nat.strongRecOn generalizing buffer partialSince frames with
  | _ n ih =>
      rw [feedLoop]
      split
      · rename_i hnone
        rw [find_zero] at hnone
        rw [scan_noise buffer (index_eq_none.mp hnone)]
        split
        · exact ⟨(List.append_nil frames).symm, rfl, rfl⟩
        · exact ⟨(List.append_nil frames).symm, rfl, rfl⟩
      · rename_i start hstart
        rw [find_zero] at hstart
        have hfound := found_of_index hstart
        have hwithin := cut_within (buffer.drop start)
        obtain ⟨body, hbody⟩ := hfound.here
        have hscan := scan_cut body
        have hle : (buffer.drop start).length ≤ n := by
          rw [← hlen, List.length_drop]
          exact Nat.sub_le _ _
        rw [scan_start hfound]
        change 0xFE :: 0xFE :: body = buffer.drop start at hbody
        rw [hbody] at hscan
        split
        · rename_i index hcut
          rw [hcut] at hscan hwithin
          obtain ⟨hpast, hin⟩ := hwithin
          rw [hscan]
          refine ih _ ?_ _ _ _ rfl
          rw [List.length_drop]
          omega
        · rename_i index hcut
          rw [hcut] at hscan hwithin
          obtain ⟨hpast, hin⟩ := hwithin
          rw [hscan]
          refine ih _ ?_ _ _ _ rfl
          rw [List.length_drop]
          omega
        · rename_i hcut
          rw [hcut] at hscan
          have hlength : (buffer.drop start).length = body.length + 2 := by
            rw [← hbody]
            rfl
          rw [hscan, hlength]
          split
          · rename_i hlong
            have htoo : (inside body).TooLong maxFrameLen := hlong
            rw [decide_eq_true htoo, if_pos htoo]
            exact ⟨(List.append_nil frames).symm, rfl, rfl⟩
          · rename_i hshort
            have htoo : ¬ (inside body).TooLong maxFrameLen := hshort
            rw [decide_eq_false htoo, if_neg htoo]
            exact ⟨(List.append_nil frames).symm, rfl, hbody.symm⟩
        · rename_i index hcut
          rw [hcut] at hscan hwithin
          obtain ⟨hscan, habort⟩ := hscan
          obtain ⟨hpast, hin⟩ := hwithin
          have hrest := ih _ (by rw [List.length_drop]; omega)
            ((buffer.drop start).drop (index + 1)) none
            (addFrame maxFrameLen frames ((buffer.drop start).take (index + 1))) rfl
          rw [hscan]
          refine ⟨hrest.1.trans ?_, hrest.2⟩
          rw [addFrame, if_neg habort, List.filter_cons]
          split
          · rename_i hlong
            rw [if_neg fun h => absurd (of_decide_eq_true h) (Nat.not_le.mpr hlong)]
          · rename_i hshort
            rw [if_pos (decide_eq_true (Nat.le_of_not_lt hshort)), List.append_assoc]
            rfl

/-! ## Chunks -/

/-- The reader is where it was, from the bytes alone that are kept. -/
def Scan.Resumes (s : Scan) : Prop := idle.scan s.buffer = ([], s)

theorem Scan.Resumes.next {s : Scan} (h : s.Resumes) (x : UInt8) : (s.next x).2.Resumes := by
  have hsnoc : idle.scan (s.buffer ++ [x]) = ((s.next x).1.toList, (s.next x).2) := by
    rw [scan_append, h, scan_singleton]
    rfl
  cases s with
  | idle =>
      rw [Scan.next]
      split
      · rfl
      · rfl
  | half =>
      rw [Scan.next]
      split
      · rfl
      · rfl
  | inside body =>
      rw [Scan.next] at hsnoc ⊢
      split
      · rfl
      · rename_i heof
        rw [if_neg heof] at hsnoc
        split
        · rfl
        · rename_i habort
          rw [if_neg habort] at hsnoc
          split
          · rfl
          · rename_i hstart
            rw [if_neg hstart] at hsnoc
            exact hsnoc

theorem Scan.Resumes.scan {s : Scan} (h : s.Resumes) (xs : List UInt8) :
    (s.scan xs).2.Resumes := by
  induction xs generalizing s with
  | nil => exact h
  | cons x xs ih => exact ih (h.next x)

/-- A candidate that is too long is given up. -/
def Scan.settle (maxFrameLen : Nat) (s : Scan) : Scan :=
  if s.TooLong maxFrameLen then idle else s

theorem Scan.Resumes.settle {s : Scan} (h : s.Resumes) (maxFrameLen : Nat) :
    (s.settle maxFrameLen).Resumes := by
  rw [Scan.settle]
  split
  · rfl
  · exact h

/-- The frames of some bytes that are not too long. -/
def Scan.framesOf (maxFrameLen : Nat) (s : Scan) (data : List UInt8) : List (List UInt8) :=
  (s.scan data).1.filter (·.length ≤ maxFrameLen)

/-- A call of `feed` in terms of single bytes. -/
theorem feedOutcome_spec {codec : SerialFrameCodec} {s : Scan} (hbuffer : codec.buffer = s.buffer)
    (hresumes : s.Resumes) (now : Time) (data : List UInt8) :
    (codec.feedOutcome now data).frames = s.framesOf codec.maxFrameLen data ∧
      (codec.feedOutcome now data).overflowed =
        decide ((s.scan data).2.TooLong codec.maxFrameLen) ∧
      (codec.feedOutcome now data).buffer =
        ((s.scan data).2.settle codec.maxFrameLen).buffer := by
  have hspec := feedLoop_spec codec.maxFrameLen now (codec.buffer ++ data) codec.partialSince []
  have hscan : idle.scan (codec.buffer ++ data) = s.scan data := by
    rw [hbuffer, scan_append, hresumes]
    rfl
  rw [hscan] at hspec
  refine ⟨hspec.1, hspec.2.1, hspec.2.2.trans ?_⟩
  rw [Scan.settle]
  split <;> rfl

/-! ## What is received -/

/-- The part of `receive` that reads: the codec and the queue of frames.  `returned` and `extracted`
list what was handed out, and every frame that a call of `feed` extracted. -/
structure FrameReceiver where
  codec : SerialFrameCodec
  frames : List (List UInt8) := []
  returned : List (List UInt8) := []
  extracted : List (List UInt8) := []

inductive ReceiveAction where
  /-- A chunk is read and fed. -/
  | read (now : Time) (chunk : List UInt8)
  /-- A frame of the queue is returned. -/
  | get

namespace FrameReceiver

def read (r : FrameReceiver) (now : Time) (chunk : List UInt8) : FrameReceiver :=
  let extracted :=
    if chunk = [] then r.extracted else r.extracted ++ (r.codec.feedOutcome now chunk).frames
  match r.codec.feed now chunk with
  | (.ok parsed, codec) => { r with codec, extracted, frames := r.frames ++ parsed }
  | (.error _, codec) => { r with codec, extracted }

def get (r : FrameReceiver) : FrameReceiver :=
  match r.frames with
  | [] => r
  | frame :: frames => { r with frames, returned := r.returned ++ [frame] }

def step (r : FrameReceiver) : ReceiveAction → FrameReceiver
  | .read now chunk => r.read now chunk
  | .get => r.get

def run (maxFrameLen : Nat) (actions : List ReceiveAction) : FrameReceiver :=
  actions.foldl step { codec := { maxFrameLen } }

/-- What the caller has got or will get. -/
def delivered (r : FrameReceiver) : List (List UInt8) := r.returned ++ r.frames

end FrameReceiver

/-- The chunks of a run. -/
def chunks (actions : List ReceiveAction) : List (List UInt8) :=
  actions.filterMap fun
    | .read _ chunk => some chunk
    | .get => none

/-! ### In terms of single bytes -/

/-- The frames of all chunks; at the end of a chunk a candidate that is too long is given up. -/
def framesIn (maxFrameLen : Nat) : Scan → List (List UInt8) → List (List UInt8)
  | _, [] => []
  | s, chunk :: chunks =>
      s.framesOf maxFrameLen chunk ++
        framesIn maxFrameLen ((s.scan chunk).2.settle maxFrameLen) chunks

/-- The frames of the chunks that do not end in a candidate that is too long. -/
def framesKept (maxFrameLen : Nat) : Scan → List (List UInt8) → List (List UInt8)
  | _, [] => []
  | s, chunk :: chunks =>
      (if (s.scan chunk).2.TooLong maxFrameLen then [] else s.framesOf maxFrameLen chunk) ++
        framesKept maxFrameLen ((s.scan chunk).2.settle maxFrameLen) chunks

/-- No chunk that ends in a candidate that is too long has a frame before it. -/
def OverflowsAlone (maxFrameLen : Nat) : Scan → List (List UInt8) → Prop
  | _, [] => True
  | s, chunk :: chunks =>
      ((s.scan chunk).2.TooLong maxFrameLen → s.framesOf maxFrameLen chunk = []) ∧
        OverflowsAlone maxFrameLen ((s.scan chunk).2.settle maxFrameLen) chunks

namespace FrameReceiver

/-- An empty chunk changes nothing for a reader of single bytes. -/
theorem settle_nil {maxFrameLen : Nat} {s : Scan} (h : ¬ s.TooLong maxFrameLen) :
    s.settle maxFrameLen = s := by
  rw [Scan.settle, if_neg h]

/-- The state of a receiver behind some chunks. -/
structure At (maxFrameLen : Nat) (s : Scan) (r : FrameReceiver) : Prop where
  maxFrameLen_eq : r.codec.maxFrameLen = maxFrameLen
  buffer_eq : r.codec.buffer = s.buffer
  resumes : s.Resumes
  short : ¬ s.TooLong maxFrameLen

theorem settle_short (maxFrameLen : Nat) (s : Scan) :
    ¬ (s.settle maxFrameLen).TooLong maxFrameLen := by
  rw [Scan.settle]
  split
  · exact id
  · assumption

theorem At.read {maxFrameLen : Nat} {s : Scan} {r : FrameReceiver} (h : At maxFrameLen s r)
    (now : Time) (chunk : List UInt8) :
    At maxFrameLen ((s.scan chunk).2.settle maxFrameLen) (r.read now chunk) ∧
      (r.read now chunk).extracted = r.extracted ++ s.framesOf maxFrameLen chunk ∧
      (r.read now chunk).delivered = r.delivered ++
        if (s.scan chunk).2.TooLong maxFrameLen then [] else s.framesOf maxFrameLen chunk := by
  by_cases hempty : chunk = []
  · subst hempty
    have hsame : (s.scan []).2.settle maxFrameLen = s := settle_nil h.short
    rw [hsame, FrameReceiver.read, SerialFrameCodec.feed, if_pos rfl, if_pos rfl]
    refine ⟨⟨h.maxFrameLen_eq, h.buffer_eq, h.resumes, h.short⟩, (List.append_nil _).symm, ?_⟩
    show r.returned ++ (r.frames ++ []) = r.delivered ++ _
    have hshort : ¬ (s.scan []).2.TooLong maxFrameLen := h.short
    rw [List.append_nil, if_neg hshort]
    exact (List.append_nil _).symm
  · have hresumes := (h.resumes.scan chunk).settle maxFrameLen
    have hshort := settle_short maxFrameLen (s.scan chunk).2
    obtain ⟨hframes, hover, hbuffer⟩ := feedOutcome_spec h.buffer_eq h.resumes now chunk
    rw [h.maxFrameLen_eq] at hframes hover hbuffer
    rw [FrameReceiver.read, SerialFrameCodec.feed, if_neg hempty, if_neg hempty, hframes]
    by_cases hlong : (s.scan chunk).2.TooLong maxFrameLen
    · rw [if_pos hlong, if_pos (hover.trans (decide_eq_true hlong))]
      exact ⟨⟨h.maxFrameLen_eq, hbuffer, hresumes, hshort⟩, rfl, (List.append_nil _).symm⟩
    · have hok : ¬ (r.codec.feedOutcome now chunk).overflowed = true := by
        rw [hover, decide_eq_true_eq]
        exact hlong
      rw [if_neg hlong, if_neg hok]
      exact ⟨⟨h.maxFrameLen_eq, hbuffer, hresumes, hshort⟩, rfl, (List.append_assoc _ _ _).symm⟩

theorem delivered_get (r : FrameReceiver) : r.get.delivered = r.delivered := by
  rw [get]
  cases hframes : r.frames with
  | nil => rfl
  | cons frame frames =>
      rw [delivered, delivered, hframes, List.append_assoc]
      rfl

theorem At.get {maxFrameLen : Nat} {s : Scan} {r : FrameReceiver} (h : At maxFrameLen s r) :
    At maxFrameLen s r.get ∧ r.get.extracted = r.extracted := by
  rw [FrameReceiver.get]
  split
  · exact ⟨h, rfl⟩
  · exact ⟨⟨h.maxFrameLen_eq, h.buffer_eq, h.resumes, h.short⟩, rfl⟩

/-- A run, in terms of single bytes. -/
theorem At.run {maxFrameLen : Nat} {s : Scan} {r : FrameReceiver} (h : At maxFrameLen s r)
    (actions : List ReceiveAction) :
    (actions.foldl step r).extracted = r.extracted ++ framesIn maxFrameLen s (chunks actions) ∧
      (actions.foldl step r).delivered =
        r.delivered ++ framesKept maxFrameLen s (chunks actions) := by
  induction actions generalizing s r with
  | nil => exact ⟨(List.append_nil _).symm, (List.append_nil _).symm⟩
  | cons action actions ih =>
      cases action with
      | read now chunk =>
          obtain ⟨hat, hextracted, hdelivered⟩ := h.read now chunk
          obtain ⟨hextracted', hdelivered'⟩ := ih hat
          refine ⟨hextracted'.trans ?_, hdelivered'.trans ?_⟩
          · rw [hextracted, List.append_assoc]
            rfl
          · rw [hdelivered, List.append_assoc]
            rfl
      | get =>
          obtain ⟨hat, hextracted⟩ := h.get
          obtain ⟨hextracted', hdelivered'⟩ := ih hat
          exact ⟨hextracted'.trans (by rw [hextracted]; rfl),
            hdelivered'.trans (by rw [delivered_get]; rfl)⟩

theorem run_spec (maxFrameLen : Nat) (actions : List ReceiveAction) :
    (run maxFrameLen actions).extracted = framesIn maxFrameLen .idle (chunks actions) ∧
      (run maxFrameLen actions).delivered = framesKept maxFrameLen .idle (chunks actions) := by
  have hat : At maxFrameLen .idle { codec := { maxFrameLen } } := ⟨rfl, rfl, rfl, id⟩
  obtain ⟨hextracted, hdelivered⟩ := hat.run actions
  exact ⟨hextracted.trans (List.nil_append _), hdelivered.trans (List.nil_append _)⟩

end FrameReceiver

/-! ### The frames that are lost, and the frames of a stream -/

theorem length_framesKept_le (maxFrameLen : Nat) (s : Scan) (chunks : List (List UInt8)) :
    (framesKept maxFrameLen s chunks).length ≤ (framesIn maxFrameLen s chunks).length := by
  induction chunks generalizing s with
  | nil => exact le_rfl
  | cons chunk chunks ih =>
      have hrest := ih ((s.scan chunk).2.settle maxFrameLen)
      rw [framesKept, framesIn, List.length_append, List.length_append]
      split
      · rw [List.length_nil]
        omega
      · omega

/-- Frames are lost exactly where an overflow is not alone in its chunk. -/
theorem framesKept_eq (maxFrameLen : Nat) (s : Scan) (chunks : List (List UInt8)) :
    framesKept maxFrameLen s chunks = framesIn maxFrameLen s chunks ↔
      OverflowsAlone maxFrameLen s chunks := by
  induction chunks generalizing s with
  | nil => exact iff_of_true rfl trivial
  | cons chunk chunks ih =>
      have hle := length_framesKept_le maxFrameLen ((s.scan chunk).2.settle maxFrameLen) chunks
      rw [framesKept, framesIn, OverflowsAlone, ← ih]
      split
      · rename_i hlong
        constructor
        · intro heq
          have hlength := congrArg List.length heq
          rw [List.nil_append, List.length_append] at hlength
          have hnone : s.framesOf maxFrameLen chunk = [] := List.length_eq_zero_iff.mp (by omega)
          rw [hnone] at heq
          exact ⟨fun _ => hnone, heq⟩
        · rintro ⟨hnone, heq⟩
          rw [hnone hlong, heq]
      · rename_i hlong
        rw [List.append_cancel_left_eq]
        exact (and_iff_right fun h => absurd h hlong).symm

/-- In no part of the stream a candidate is too long. -/
def Fits (maxFrameLen : Nat) (s : Scan) (stream : List UInt8) : Prop :=
  ∀ front, front <+: stream → ¬ (s.scan front).2.TooLong maxFrameLen

/-- Where no candidate grows too long, the chunks do not matter. -/
theorem framesKept_of_fits {maxFrameLen : Nat} {s : Scan} {chunks : List (List UInt8)}
    (h : Fits maxFrameLen s chunks.flatten) :
    framesKept maxFrameLen s chunks = s.framesOf maxFrameLen chunks.flatten := by
  induction chunks generalizing s with
  | nil => rfl
  | cons chunk chunks ih =>
      rw [List.flatten_cons] at h
      have hshort := h chunk (List.prefix_append _ _)
      have hrest : Fits maxFrameLen (s.scan chunk).2 chunks.flatten := fun front hfront => by
        have hfits := h (chunk ++ front) ((List.prefix_append_right_inj chunk).mpr hfront)
        rw [scan_append] at hfits
        exact hfits
      rw [framesKept, if_neg hshort, FrameReceiver.settle_nil hshort, ih hrest, List.flatten_cons,
        Scan.framesOf, Scan.framesOf, Scan.framesOf, scan_append, List.filter_append]

/-! ## The codec -/

/-- What is promised of a run: every extracted frame is delivered; the frames extracted are those of
the stream, of which an overflow drops its own candidate alone; and the chunks do not matter where
no candidate grows too long. -/
structure Delivers (maxFrameLen : Nat) (actions : List ReceiveAction) : Prop where
  delivered_eq : (FrameReceiver.run maxFrameLen actions).delivered =
    (FrameReceiver.run maxFrameLen actions).extracted
  extracted_eq : (FrameReceiver.run maxFrameLen actions).extracted =
    framesIn maxFrameLen .idle (chunks actions)
  uncut : Fits maxFrameLen .idle (chunks actions).flatten → ∀ actions',
    (chunks actions').flatten = (chunks actions).flatten →
      (FrameReceiver.run maxFrameLen actions').delivered =
        (FrameReceiver.run maxFrameLen actions).delivered

/-- A run delivers as promised if and only if every chunk that ends in a candidate that is too long
has no complete frame before it. -/
theorem delivers_iff (maxFrameLen : Nat) (actions : List ReceiveAction) :
    Delivers maxFrameLen actions ↔ OverflowsAlone maxFrameLen .idle (chunks actions) := by
  obtain ⟨hextracted, hdelivered⟩ := FrameReceiver.run_spec maxFrameLen actions
  rw [← framesKept_eq, ← hextracted, ← hdelivered]
  constructor
  · exact fun h => h.delivered_eq
  · intro heq
    refine ⟨heq, hextracted, fun hfits actions' hsame => ?_⟩
    have hfits' : Fits maxFrameLen .idle (chunks actions').flatten := by
      rw [hsame]
      exact hfits
    rw [hdelivered, (FrameReceiver.run_spec maxFrameLen actions').2, framesKept_of_fits hfits,
      framesKept_of_fits hfits', hsame]

/-- A complete frame and the beginning of one that is too long, in one chunk. -/
def crowded : List ReceiveAction :=
  [.read 0 [0xFE, 0xFE, 0x01, 0xFD, 0xFE, 0xFE, 0x01, 0x02, 0x03], .get]

/-- The overflow takes the complete frame along. -/
theorem crowded_loses : ¬ ∀ (maxFrameLen : Nat) (actions : List ReceiveAction), 4 ≤ maxFrameLen →
    (FrameReceiver.run maxFrameLen actions).delivered =
      (FrameReceiver.run maxFrameLen actions).extracted := by
  intro hall
  have hsame := hall 4 crowded le_rfl
  obtain ⟨hextracted, hdelivered⟩ := FrameReceiver.run_spec 4 crowded
  rw [hextracted, hdelivered] at hsame
  exact absurd hsame (by decide)

end Rigplane.SerialCiv
