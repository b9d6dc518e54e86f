import Rigplane.Civ.Frame

/-!
# Framing of CI-V streams

A stream of built frames with noise between them is cut where it was joined, and each frame is
read back as what it was built from.  `iter_civ_frames` looks for the terminator from the command
on, so that a frame is found whole where none of its body is the terminator.
-/

namespace Rigplane.Civ

/-! ## Scanning -/

theorem iterCivFrames_short {payload : List UInt8} (h : payload.length ≤ 4) :
    iterCivFrames payload = [] := by
  rw [iterCivFrames, if_pos h]

@[simp] theorem iterCivFrames_nil : iterCivFrames [] = [] := iterCivFrames_short (Nat.zero_le _)

/-- A byte where no preamble begins is passed over. -/
theorem iterCivFrames_skip {byte : UInt8} {payload : List UInt8}
    (h : (byte :: payload).take 2 ≠ preamble) :
    iterCivFrames (byte :: payload) = iterCivFrames payload := by
  rw [iterCivFrames, if_neg h]
  split
  · next hlen =>
      rw [iterCivFrames_short]
      simp only [List.length_cons] at hlen
      omega
  · rfl

/-- The noise of a line: no preamble, and no half of one at the end. -/
structure Quiet (noise : List UInt8) : Prop where
  noPair : ¬ preamble <:+: noise
  noHalf : noise.getLast? ≠ some 0xFE

theorem Quiet.tail {byte : UInt8} {noise : List UInt8} (h : Quiet (byte :: noise)) :
    Quiet noise where
  noPair := fun hp => h.noPair (List.infix_cons hp)
  noHalf := by
    intro hl
    rcases noise with _ | ⟨b, noise⟩
    · cases hl
    · exact h.noHalf (by rw [List.getLast?_cons_cons]; exact hl)

theorem Quiet.head {byte : UInt8} {noise rest : List UInt8} (h : Quiet (byte :: noise)) :
    (byte :: (noise ++ rest)).take 2 ≠ preamble := by
  intro hp
  rcases noise with _ | ⟨b, noise⟩
  · have hb : byte = 0xFE := (List.cons.inj hp).1
    exact h.noHalf (by rw [hb]; rfl)
  · have hb : [byte, b] = preamble := hp
    refine h.noPair ⟨[], noise, ?_⟩
    rw [← hb]
    rfl

theorem iterCivFrames_noise {noise : List UInt8} (h : Quiet noise) (rest : List UInt8) :
    iterCivFrames (noise ++ rest) = iterCivFrames rest := by
  induction noise with
  | nil => rfl
  | cons byte noise ih => rw [List.cons_append, iterCivFrames_skip h.head, ih h.tail]

/-- Bytes without a preamble hold no frame. -/
theorem iterCivFrames_noPair {noise : List UInt8} (h : ¬ preamble <:+: noise) :
    iterCivFrames noise = [] := by
  induction noise with
  | nil => exact iterCivFrames_nil
  | cons byte noise ih =>
      rw [iterCivFrames_skip, ih fun hp => h (List.infix_cons hp)]
      intro hp
      exact h ⟨[], (byte :: noise).drop 2, by rw [← hp]; exact List.take_append_drop 2 _⟩

theorem findIdx?_append_terminator {body : List UInt8} (h : terminator ∉ body)
    (rest : List UInt8) :
    (body ++ terminator :: rest).findIdx? (· == terminator) = some body.length := by
  induction body with
  | nil => rfl
  | cons byte body ih =>
      rw [List.mem_cons, not_or] at h
      have hb : (byte == terminator) = false := beq_eq_false_iff_ne.mpr (Ne.symm h.1)
      rw [List.cons_append, List.findIdx?_cons, hb, ih h.2]
      rfl

/-- A frame whose body is free of the terminator is found whole, whatever its addresses are. -/
theorem iterCivFrames_envelope {body : List UInt8} (h : terminator ∉ body)
    (toAddr fromAddr : UInt8) (rest : List UInt8) :
    iterCivFrames (envelope toAddr fromAddr body ++ rest) =
      envelope toAddr fromAddr body :: iterCivFrames rest := by
  have hsize : (envelope toAddr fromAddr body).length = body.length + 5 := by simp [envelope]
  have hlen : ¬ (envelope toAddr fromAddr body ++ rest).length ≤ 4 := by
    rw [List.length_append, hsize]
    omega
  have hpre : (envelope toAddr fromAddr body ++ rest).take 2 = preamble := rfl
  have hdrop : (envelope toAddr fromAddr body ++ rest).drop 4 = body ++ terminator :: rest := by
    simp [envelope]
  rw [iterCivFrames, if_neg hlen, if_pos hpre]
  simp only [hdrop, findIdx?_append_terminator h]
  rw [← hsize, List.take_left, List.drop_left]

/-! ## Streams -/

/-- One frame of a stream with the noise before it: what `_build_from_map` gets. -/
structure Piece where
  noise : List UInt8
  wire : WireTuple
  toAddr : UInt8
  fromAddr : UInt8
  data : List UInt8
  receiver : Option UInt8

namespace Piece

/-- The bytes of the frame. -/
def bytes (p : Piece) : List UInt8 :=
  buildFromMap p.wire p.toAddr p.fromAddr p.data p.receiver

/-- The frame as it was asked for. -/
def asked (p : Piece) : CivFrame :=
  let (command, sub, constant) := decodeWireTuple p.wire
  ⟨p.toAddr, p.fromAddr, command, sub, constant ++ p.data, p.receiver⟩

/-- The sub byte is present wherever the command carries one, the command is not the receiver
prefix, and no byte behind the addresses is the terminator. -/
structure Ok (p : Piece) : Prop where
  quiet : Quiet p.noise
  command : p.wire.command ≠ cmdReceiverPrefix
  sub : commandCarriesSub p.wire.command = true → p.wire.rest ≠ []
  clean : terminator ∉ p.receiver.toList ++ p.wire.command :: (p.wire.rest ++ p.data)

/-- What stands between the addresses and the terminator. -/
def body (p : Piece) : List UInt8 :=
  match p.receiver with
  | some receiver => cmdReceiverPrefix :: receiver :: p.wire.command :: (p.wire.rest ++ p.data)
  | none => p.wire.command :: (p.wire.rest ++ p.data)

/-- The split of a wire tuple loses no byte and has a sub byte where the command carries one. -/
theorem decode_spec {wire : WireTuple}
    (hsub : commandCarriesSub wire.command = true → wire.rest ≠ []) :
    ∃ sub constant, decodeWireTuple wire = (wire.command, sub, constant) ∧
      sub.isSome = commandCarriesSub wire.command ∧ sub.toList ++ constant = wire.rest := by
  obtain ⟨command, _ | ⟨first, more⟩⟩ := wire
  · refine ⟨none, [], rfl, ?_, rfl⟩
    cases hc : commandCarriesSub command with
    | false => rfl
    | true => exact absurd rfl (hsub hc)
  · cases hc : commandCarriesSub command with
    | false => exact ⟨none, first :: more, by simp [decodeWireTuple, hc], rfl, rfl⟩
    | true => exact ⟨some first, more, by simp [decodeWireTuple, hc], rfl, rfl⟩

theorem bytes_eq (p : Piece) (h : p.Ok) : p.bytes = envelope p.toAddr p.fromAddr p.body := by
  obtain ⟨sub, constant, hdec, _, hrest⟩ := decode_spec h.sub
  unfold bytes buildFromMap body
  rw [hdec, ← hrest]
  cases p.receiver with
  | none => simp [buildCivFrame_eq]
  | some receiver => simp [buildCmd29Frame_eq]

theorem body_clean (p : Piece) (h : p.Ok) : terminator ∉ p.body := by
  have hc := h.clean
  unfold body
  cases hr : p.receiver with
  | none => simpa [hr] using hc
  | some receiver =>
      rw [hr] at hc
      intro hm
      rcases List.mem_cons.mp hm with ht | hm
      · exact absurd ht (by decide)
      · exact hc hm

theorem parse_bytes (p : Piece) (h : p.Ok) : parseCivFrame p.bytes = .ok p.asked := by
  obtain ⟨sub, constant, hdec, hsub, hrest⟩ := decode_spec h.sub
  have hbuilt : ∀ receiver, splitPayload p.toAddr p.fromAddr p.wire.command
      (p.wire.rest ++ p.data) receiver =
        ⟨p.toAddr, p.fromAddr, p.wire.command, sub, constant ++ p.data, receiver⟩ := by
    intro receiver
    rw [← hrest, List.append_assoc]
    exact splitPayload_built hsub
  have hasked : p.asked = splitPayload p.toAddr p.fromAddr p.wire.command
      (p.wire.rest ++ p.data) p.receiver := by
    rw [hbuilt]
    simp [asked, hdec]
  rw [bytes_eq p h, hasked]
  unfold body
  cases p.receiver with
  | none =>
      rw [parseCivFrame_envelope]
      split
      · rw [if_neg h.command]
      · rfl
  | some receiver =>
      rw [parseCivFrame_envelope]
      simp only [if_true, splitPrefixed_eq]

end Piece

/-- The bytes of a stream. -/
def stream (pieces : List Piece) (tail : List UInt8) : List UInt8 :=
  pieces.flatMap (fun p => p.noise ++ p.bytes) ++ tail

/-- A stream of frames with noise around them is cut into exactly these frames, in order, and
each is parsed into what it was built from. -/
theorem iterCivFrames_stream (pieces : List Piece) (tail : List UInt8)
    (h : ∀ p ∈ pieces, p.Ok) (htail : ¬ preamble <:+: tail) :
    iterCivFrames (stream pieces tail) = pieces.map Piece.bytes ∧
      ∀ p ∈ pieces, parseCivFrame p.bytes = .ok p.asked := by
  refine ⟨?_, fun p hp => p.parse_bytes (h p hp)⟩
  induction pieces with
  | nil => exact iterCivFrames_noPair htail
  | cons p pieces ih =>
      have hp := h p List.mem_cons_self
      have hsplit : stream (p :: pieces) tail =
          p.noise ++ (envelope p.toAddr p.fromAddr p.body ++ stream pieces tail) := by
        simp [stream, p.bytes_eq hp]
      rw [hsplit, iterCivFrames_noise hp.quiet,
        iterCivFrames_envelope (p.body_clean hp), ih fun q hq => h q (by simp [hq]),
        List.map_cons, p.bytes_eq hp]

/-- The stream of a plain request, a reply in noise and a request for the second receiver. -/
theorem iterCivFrames_stream_three :
    let pieces : List Piece :=
      [⟨[], ⟨0x14, [0x0A]⟩, 0x98, 0xE0, [0x01, 0x28], none⟩,
        ⟨[0x00, 0xFE, 0xFD], ⟨0x03, []⟩, 0xE0, 0x98, [0x00, 0x40, 0x07, 0x14, 0x00], none⟩,
        ⟨[0xFC], ⟨0x16, [0x02]⟩, 0x98, 0xE0, [], some 0x01⟩]
    iterCivFrames (stream pieces [0xFE]) = pieces.map Piece.bytes ∧
      ∀ p ∈ pieces, parseCivFrame p.bytes = .ok p.asked := by
  refine iterCivFrames_stream _ _ ?_ (by decide)
  intro p hp
  simp only [List.mem_cons, List.not_mem_nil, or_false] at hp
  rcases hp with rfl | rfl | rfl
  all_goals exact ⟨⟨by decide, by decide⟩, by decide, by decide, by decide⟩

/-- A plain frame whose command is the terminator is cut short, though its other bytes are none
and its command carries no sub byte. -/
theorem iterCivFrames_cuts_terminator :
    commandCarriesSub 0xFD = false ∧
      buildFromMap ⟨0xFD, []⟩ 0x98 0xE0 [] none = [0xFE, 0xFE, 0x98, 0xE0, 0xFD, 0xFD] ∧
      iterCivFrames (buildFromMap ⟨0xFD, []⟩ 0x98 0xE0 [] none) =
        [[0xFE, 0xFE, 0x98, 0xE0, 0xFD]] := by
  refine ⟨by decide, by decide, ?_⟩
  have hbytes : buildFromMap ⟨0xFD, []⟩ 0x98 0xE0 [] none =
      envelope 0x98 0xE0 [] ++ [0xFD] := by decide
  rw [hbytes, iterCivFrames, if_neg (by decide), if_pos (by decide)]
  have hfound : ((envelope 0x98 0xE0 [] ++ [0xFD]).drop 4).findIdx? (· == terminator) = some 0 := by
    decide
  rw [hfound]
  exact congrArg _ (iterCivFrames_short (by decide))

end Rigplane.Civ
