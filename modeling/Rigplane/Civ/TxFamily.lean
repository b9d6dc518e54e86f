import Rigplane.Civ.Framing

/-!
# The TX family of raw CI-V frames

`runtime/tx_interlock.py` decides on the bytes of a raw frame whether it keys the transmitter.
Its envelope parser is written apart from the parser of `commands/_frame.py`: it refuses a marker
byte inside the envelope and reads other sub-commands.
-/

namespace Rigplane.Civ

def civFrameHead : UInt8 := 0xFE

def civFrameTail : UInt8 := 0xFD

def civFrameCollision : UInt8 := 0xFC

def civTxFamilyCommand : UInt8 := 0x1C

/-- PTT and tuner. -/
def civTxFamilySubs : List UInt8 := [0x00, 0x01]

def civVoiceTxMemoryCommand : UInt8 := 0x28

def civVoiceTxMemorySub : UInt8 := 0x00

def civReceiverPrefixCommand : UInt8 := 0x29

def civSubByteCommands : List UInt8 := [civTxFamilyCommand, civVoiceTxMemoryCommand]

/-- `sub in _CIV_TX_FAMILY_SUBS`. -/
def inTxFamilySubs : Option UInt8 → Bool
  | some sub => civTxFamilySubs.contains sub
  | none => false

/-- `_is_tx_family_civ_command`. -/
def isTxFamilyCivCommand (command : UInt8) (sub : Option UInt8) (data : List UInt8) : Bool :=
  if command = civReceiverPrefixCommand then
    match data with
    | _ :: inner :: rest =>
        if inner = civReceiverPrefixCommand then true
        else if inner = civTxFamilyCommand then
          match rest with
          | innerSub :: innerData => inTxFamilySubs (some innerSub) && !innerData.isEmpty
          | [] => true
        else if inner = civVoiceTxMemoryCommand then
          match rest with
          | innerSub :: _ => innerSub == civVoiceTxMemorySub
          | [] => true
        else false
    | _ => true
  else if command = civTxFamilyCommand then inTxFamilySubs sub && !data.isEmpty
  else if command = civVoiceTxMemoryCommand then sub == some civVoiceTxMemorySub
  else false

/-- A byte that may not stand inside an envelope. -/
def isMarker (byte : UInt8) : Bool :=
  byte == civFrameHead || byte == civFrameTail || byte == civFrameCollision

/-- `_unwrap_civ_frame`. -/
def unwrapCivFrame (frame : List UInt8) : Option (UInt8 × Option UInt8 × List UInt8) :=
  if frame.length < 6 ∨ frame[0]? ≠ some civFrameHead ∨ frame[1]? ≠ some civFrameHead ∨
      frame.getLast? ≠ some civFrameTail then none
  else if (frame.drop 2).dropLast.any isMarker then none
  else
    match frame[4]? with
    | some command =>
        if civSubByteCommands.contains command then
          if frame.length < 7 then none
          else some (command, frame[5]?, (frame.drop 6).dropLast)
        else if command = civReceiverPrefixCommand then
          some (command, none, (frame.drop 5).dropLast)
        else some (command, none, [])
    -- Not reached, since the frame has six bytes.
    | none => none

/-- `classify_raw_civ_frame_tx_family`. -/
def classifyRawCivFrameTxFamily (frame : List UInt8) : Option Bool :=
  match unwrapCivFrame frame with
  | none => none
  | some (command, sub, data) => some (isTxFamilyCivCommand command sub data)

/-- `_is_exact_dekey_triple`. -/
def isExactDekeyTriple (command : UInt8) (sub : Option UInt8) (data : List UInt8) : Bool :=
  if command = civTxFamilyCommand then inTxFamilySubs sub && data == [0x00]
  else if command = civVoiceTxMemoryCommand then
    sub == some civVoiceTxMemorySub && data == [0x00]
  else false

/-- `_is_transmission_end_triple`. -/
def isTransmissionEndTriple (command : UInt8) (sub : Option UInt8) (data : List UInt8) : Bool :=
  if command = civTxFamilyCommand then sub == some 0x00 && data == [0x00]
  else if command = civVoiceTxMemoryCommand then
    sub == some civVoiceTxMemorySub && data == [0x00]
  else false

/-- A test of a triple, bare or inside a receiver prefix of exactly four bytes. -/
def isExactRaw (triple : UInt8 → Option UInt8 → List UInt8 → Bool) (frame : List UInt8) : Bool :=
  match unwrapCivFrame frame with
  | none => false
  | some (command, sub, data) =>
      if command = civReceiverPrefixCommand then
        match data with
        | [_, inner, innerSub, value] => triple inner (some innerSub) [value]
        | _ => false
      else triple command sub data

/-- `is_exact_raw_dekey_frame`. -/
def isExactRawDekeyFrame (frame : List UInt8) : Bool := isExactRaw isExactDekeyTriple frame

/-- `is_exact_raw_transmission_end_frame`. -/
def isExactRawTransmissionEndFrame (frame : List UInt8) : Bool :=
  isExactRaw isTransmissionEndTriple frame

/-! ## What the wire parser makes of a frame -/

/-- A PTT or tuner actuation. -/
def CivFrame.ActuatesPtt (frame : CivFrame) : Prop :=
  frame.command = 0x1C ∧ (frame.sub = some 0x00 ∨ frame.sub = some 0x01) ∧ frame.data ≠ []

/-- The command of the voice TX memory, followed by its transmit sub byte. -/
def CivFrame.VoiceTx (frame : CivFrame) : Prop :=
  frame.command = 0x28 ∧ (frame.sub.toList ++ frame.data).head? = some 0x00

/-- The bytes of one actuation with exactly one data byte, which is zero, bare or behind a receiver
prefix. -/
def CarriesOneZero (frame : List UInt8) : Prop :=
  ∃ toAddr fromAddr receiver command sub,
    (receiver = [] ∨ ∃ r, receiver = [0x29, r]) ∧
      (command = 0x1C ∧ (sub = 0x00 ∨ sub = 0x01) ∨ command = 0x28 ∧ sub = 0x00) ∧
      frame = envelope toAddr fromAddr (receiver ++ [command, sub, 0x00])

/-! ## Envelopes -/

/-- Six bytes between the head and the tail of a frame are an envelope. -/
theorem eq_envelope {frame : List UInt8} (hlen : ¬ frame.length < 6)
    (h0 : frame[0]? = some 0xFE) (h1 : frame[1]? = some 0xFE)
    (hlast : frame.getLast? = some 0xFD) :
    ∃ toAddr fromAddr command payload, frame = envelope toAddr fromAddr (command :: payload) := by
  rcases frame with _ | ⟨a, _ | ⟨b, _ | ⟨toAddr, _ | ⟨fromAddr, _ | ⟨command, rest⟩⟩⟩⟩⟩
  all_goals try (simp at hlen; done)
  simp only [List.getElem?_cons_zero, Option.some.injEq] at h0
  simp only [List.getElem?_cons_succ, List.getElem?_cons_zero, Option.some.injEq] at h1
  have hne : rest ≠ [] := by
    rintro rfl
    simp at hlen
  have hrest : rest.getLast hne = 0xFD := by
    rw [List.getLast?_eq_getLast_of_ne_nil (by simp)] at hlast
    simpa [List.getLast_cons, hne] using hlast
  refine ⟨toAddr, fromAddr, command, rest.dropLast, ?_⟩
  rw [h0, h1, envelope, List.cons_append, terminator, ← hrest, List.dropLast_append_getLast]

/-- The parts of an envelope without a marker byte. -/
theorem unwrapCivFrame_envelope {toAddr fromAddr command : UInt8} {payload : List UInt8}
    (h : (toAddr :: fromAddr :: command :: payload).any isMarker = false) :
    unwrapCivFrame (envelope toAddr fromAddr (command :: payload)) =
      if civSubByteCommands.contains command then
        match payload with
        | sub :: data => some (command, some sub, data)
        | [] => none
      else if command = civReceiverPrefixCommand then some (command, none, payload)
      else some (command, none, []) := by
  have hlast : (envelope toAddr fromAddr (command :: payload)).getLast? = some terminator := by
    simp [envelope, List.getLast?_cons]
  have hin : ((envelope toAddr fromAddr (command :: payload)).drop 2).dropLast =
      toAddr :: fromAddr :: command :: payload := by
    have : (envelope toAddr fromAddr (command :: payload)).drop 2 =
        (toAddr :: fromAddr :: command :: payload) ++ [terminator] := by simp [envelope]
    rw [this, List.dropLast_concat]
  have hok : ¬ ((envelope toAddr fromAddr (command :: payload)).length < 6 ∨
      (envelope toAddr fromAddr (command :: payload))[0]? ≠ some civFrameHead ∨
      (envelope toAddr fromAddr (command :: payload))[1]? ≠ some civFrameHead ∨
      (envelope toAddr fromAddr (command :: payload)).getLast? ≠ some civFrameTail) := by
    rw [hlast]
    simp [envelope, civFrameHead, civFrameTail, terminator]
  have hcommand : (envelope toAddr fromAddr (command :: payload))[4]? = some command := rfl
  have hdata : ((envelope toAddr fromAddr (command :: payload)).drop 5).dropLast = payload := by
    have : (envelope toAddr fromAddr (command :: payload)).drop 5 = payload ++ [terminator] := by
      simp [envelope]
    rw [this, List.dropLast_concat]
  rw [unwrapCivFrame, if_neg hok, hin, h, hcommand, hdata]
  cases payload with
  | nil => simp [envelope]
  | cons sub data =>
      have hmore : ((envelope toAddr fromAddr (command :: sub :: data)).drop 6).dropLast =
        data := by
        have : (envelope toAddr fromAddr (command :: sub :: data)).drop 6 =
            data ++ [terminator] := by simp [envelope]
        rw [this, List.dropLast_concat]
      have hsub : (envelope toAddr fromAddr (command :: sub :: data))[5]? = some sub := rfl
      have hlen : ¬ (envelope toAddr fromAddr (command :: sub :: data)).length < 7 := by
        simp [envelope]
      simp [hmore, hsub, hlen]

/-- A frame that unwraps is an envelope without a marker byte. -/
theorem unwrapCivFrame_some {frame : List UInt8} {triple : UInt8 × Option UInt8 × List UInt8}
    (h : unwrapCivFrame frame = some triple) :
    ∃ toAddr fromAddr command payload, frame = envelope toAddr fromAddr (command :: payload) ∧
      (toAddr :: fromAddr :: command :: payload).any isMarker = false := by
  have h' := h
  rw [unwrapCivFrame] at h'
  split at h'
  · cases h'
  · next hok =>
      simp only [not_or, not_not] at hok
      obtain ⟨hlen, h0, h1, hlast⟩ := hok
      split at h'
      · cases h'
      · next hmark =>
          obtain ⟨toAddr, fromAddr, command, payload, rfl⟩ := eq_envelope hlen h0 h1 hlast
          refine ⟨toAddr, fromAddr, command, payload, rfl, ?_⟩
          have : (envelope toAddr fromAddr (command :: payload)).drop 2 =
              (toAddr :: fromAddr :: command :: payload) ++ [terminator] := by simp [envelope]
          rw [this, List.dropLast_concat] at hmark
          simpa using hmark

theorem not_mem_of_no_marker {bytes : List UInt8} (h : bytes.any isMarker = false) :
    terminator ∉ bytes := by
  intro hm
  have := List.any_eq_false.mp h _ hm
  exact this (by decide)

/-! ## Frames outside the family -/

/-- A command and what follows it where the classifier finds no actuation. -/
structure Harmless (command : UInt8) (payload : List UInt8) : Prop where
  bare : command ≠ civReceiverPrefixCommand
  ptt : command = civTxFamilyCommand →
    ∃ sub data, payload = sub :: data ∧ (inTxFamilySubs (some sub) && !data.isEmpty) = false
  voice : command = civVoiceTxMemoryCommand →
    ∃ sub data, payload = sub :: data ∧ sub ≠ civVoiceTxMemorySub

theorem splitPayload_command (toAddr fromAddr command : UInt8) (payload : List UInt8)
    (receiver : Option UInt8) :
    (splitPayload toAddr fromAddr command payload receiver).command = command := by
  unfold splitPayload
  split
  · split <;> rfl
  · rfl

/-- The wire parser agrees on what is harmless, though it reads no sub byte of a voice memory
command. -/
theorem Harmless.split {command : UInt8} {payload : List UInt8} (h : Harmless command payload)
    (toAddr fromAddr : UInt8) (receiver : Option UInt8) :
    (splitPayload toAddr fromAddr command payload receiver).command ≠ 0x29 ∧
      ¬ (splitPayload toAddr fromAddr command payload receiver).ActuatesPtt ∧
      ¬ (splitPayload toAddr fromAddr command payload receiver).VoiceTx := by
  have hsame := splitPayload_command toAddr fromAddr command payload receiver
  refine ⟨fun hprefix => h.bare (hsame.symm.trans hprefix), ?_⟩
  by_cases hc : command = civTxFamilyCommand
  · obtain ⟨sub, data, rfl, hq⟩ := h.ptt hc
    subst hc
    have hsplit : splitPayload toAddr fromAddr civTxFamilyCommand (sub :: data) receiver =
        ⟨toAddr, fromAddr, civTxFamilyCommand, some sub, data, receiver⟩ := rfl
    rw [hsplit]
    constructor
    · rintro ⟨_, hsub, hdata⟩
      have hin : inTxFamilySubs (some sub) = true := by
        rcases hsub with hs | hs <;> cases hs <;> rfl
      rw [hin, Bool.true_and, Bool.not_eq_false', List.isEmpty_iff] at hq
      exact hdata hq
    · rintro ⟨hcommand, _⟩
      exact absurd hcommand (by simp [civTxFamilyCommand])
  · by_cases hv : command = civVoiceTxMemoryCommand
    · obtain ⟨sub, data, rfl, hq⟩ := h.voice hv
      subst hv
      have hsplit : splitPayload toAddr fromAddr civVoiceTxMemoryCommand (sub :: data) receiver =
          ⟨toAddr, fromAddr, civVoiceTxMemoryCommand, none, sub :: data, receiver⟩ := rfl
      rw [hsplit]
      constructor
      · rintro ⟨hcommand, _⟩
        exact absurd hcommand (by simp [civVoiceTxMemoryCommand])
      · rintro ⟨_, hhead⟩
        exact hq (Option.some.inj hhead)
    · constructor
      · rintro ⟨hcommand, _⟩
        exact hc (hsame.symm.trans hcommand)
      · rintro ⟨hcommand, _⟩
        exact hv (hsame.symm.trans hcommand)

/-- An envelope that the classifier lets through: bare, or behind one receiver prefix. -/
theorem harmless_of_classify {toAddr fromAddr command : UInt8} {payload : List UInt8}
    (hmark : (toAddr :: fromAddr :: command :: payload).any isMarker = false)
    (h : classifyRawCivFrameTxFamily (envelope toAddr fromAddr (command :: payload)) =
      some false) :
    Harmless command payload ∨
      command = civReceiverPrefixCommand ∧ ∃ receiver inner rest,
        payload = receiver :: inner :: rest ∧ Harmless inner rest := by
  rw [classifyRawCivFrameTxFamily, unwrapCivFrame_envelope hmark] at h
  by_cases hp : command = civReceiverPrefixCommand
  · subst hp
    rw [if_neg (by decide), if_pos rfl] at h
    simp only [isTxFamilyCivCommand, if_true, Option.some.injEq] at h
    refine .inr ⟨rfl, ?_⟩
    rcases payload with _ | ⟨receiver, _ | ⟨inner, rest⟩⟩
    · cases h
    · cases h
    · refine ⟨receiver, inner, rest, rfl, ?_, ?_, ?_⟩
      · rintro rfl
        simp at h
      · rintro rfl
        rcases rest with _ | ⟨sub, data⟩
        · simp [civTxFamilyCommand, civReceiverPrefixCommand] at h
        · exact ⟨sub, data, rfl, by simpa [civTxFamilyCommand, civReceiverPrefixCommand] using h⟩
      · rintro rfl
        rcases rest with _ | ⟨sub, data⟩
        · simp [civTxFamilyCommand, civReceiverPrefixCommand, civVoiceTxMemoryCommand] at h
        · refine ⟨sub, data, rfl, ?_⟩
          simpa [civTxFamilyCommand, civReceiverPrefixCommand, civVoiceTxMemoryCommand] using h
  · refine .inl ⟨hp, ?_, ?_⟩
    · rintro rfl
      rcases payload with _ | ⟨sub, data⟩
      · simp [civSubByteCommands] at h
      · refine ⟨sub, data, rfl, ?_⟩
        simpa [civSubByteCommands, isTxFamilyCivCommand, hp] using h
    · rintro rfl
      rcases payload with _ | ⟨sub, data⟩
      · simp [civSubByteCommands] at h
      · refine ⟨sub, data, rfl, ?_⟩
        simpa [civSubByteCommands, isTxFamilyCivCommand, civTxFamilyCommand,
          civVoiceTxMemoryCommand, civReceiverPrefixCommand] using h

/-- The wire sees one frame in what the classifier lets through, and no actuation in it. -/
theorem classify_false {frame : List UInt8}
    (h : classifyRawCivFrameTxFamily frame = some false) :
    iterCivFrames frame = [frame] ∧ ∃ parsed, parseCivFrame frame = .ok parsed ∧
      parsed.command ≠ 0x29 ∧ ¬ parsed.ActuatesPtt ∧ ¬ parsed.VoiceTx := by
  have hun : ∃ triple, unwrapCivFrame frame = some triple := by
    unfold classifyRawCivFrameTxFamily at h
    split at h
    · cases h
    · next command sub data hu => exact ⟨_, hu⟩
  obtain ⟨triple, hu⟩ := hun
  obtain ⟨toAddr, fromAddr, command, payload, rfl, hmark⟩ := unwrapCivFrame_some hu
  constructor
  · have hclean : terminator ∉ command :: payload := by
      intro hm
      exact not_mem_of_no_marker hmark (List.mem_cons_of_mem _ (List.mem_cons_of_mem _ hm))
    have hiter := iterCivFrames_envelope hclean toAddr fromAddr []
    rw [List.append_nil, iterCivFrames_nil] at hiter
    exact hiter
  · rw [parseCivFrame_envelope]
    rcases harmless_of_classify hmark h with hq | ⟨rfl, receiver, inner, rest, rfl, hq⟩
    · refine ⟨splitPayload toAddr fromAddr command payload none, ?_, hq.split ..⟩
      split
      · exact if_neg hq.bare
      · rfl
    · refine ⟨splitPayload toAddr fromAddr inner rest (some receiver), ?_, hq.split ..⟩
      simp only [civReceiverPrefixCommand, cmdReceiverPrefix, if_true, splitPrefixed_eq]

/-! ## Exact de-keys -/

theorem dekey_of_transmissionEnd {command : UInt8} {sub : Option UInt8} {data : List UInt8}
    (h : isTransmissionEndTriple command sub data = true) :
    isExactDekeyTriple command sub data = true := by
  unfold isTransmissionEndTriple at h
  unfold isExactDekeyTriple
  split at h
  · next hc =>
      rw [Bool.and_eq_true] at h
      rw [if_pos hc, Bool.and_eq_true]
      refine ⟨?_, h.2⟩
      rw [beq_iff_eq.mp h.1]
      rfl
  · next hc =>
      rw [if_neg hc]
      exact h

theorem isExactRaw_mono {t t' : UInt8 → Option UInt8 → List UInt8 → Bool}
    (himp : ∀ command sub data, t command sub data = true → t' command sub data = true)
    {frame : List UInt8} (h : isExactRaw t frame = true) : isExactRaw t' frame = true := by
  unfold isExactRaw at h ⊢
  split at h
  · cases h
  · split
    · next hc =>
        rw [if_pos hc] at h
        split at h
        · exact himp _ _ _ h
        · cases h
    · next hc =>
        rw [if_neg hc] at h
        exact himp _ _ _ h

/-- The three actuations that a de-key may be. -/
theorem isExactDekeyTriple_iff {command : UInt8} {sub : Option UInt8} {data : List UInt8} :
    isExactDekeyTriple command sub data = true ↔
      data = [0x00] ∧ (command = 0x1C ∧ (sub = some 0x00 ∨ sub = some 0x01) ∨
        command = 0x28 ∧ sub = some 0x00) := by
  have hsubs : inTxFamilySubs sub = true ↔ sub = some 0x00 ∨ sub = some 0x01 := by
    cases sub <;> simp [inTxFamilySubs, civTxFamilySubs]
  unfold isExactDekeyTriple
  split
  · next hc =>
      subst hc
      rw [Bool.and_eq_true, hsubs]
      simp [civTxFamilyCommand, and_comm]
  · next hc =>
      split
      · next hv =>
          subst hv
          simp [civVoiceTxMemoryCommand, civVoiceTxMemorySub, and_comm]
      · next hv =>
          simp only [civTxFamilyCommand, civVoiceTxMemoryCommand] at hc hv
          simp [hc, hv]

/-- A de-key is of the family, though it ends a transmission. -/
theorem isTxFamily_of_dekey {command : UInt8} {sub : Option UInt8} {data : List UInt8}
    (h : isExactDekeyTriple command sub data = true) :
    isTxFamilyCivCommand command sub data = true := by
  obtain ⟨rfl, ⟨rfl, rfl | rfl⟩ | ⟨rfl, rfl⟩⟩ := isExactDekeyTriple_iff.mp h <;> rfl

theorem dekey_frame {frame : List UInt8} (h : isExactRawDekeyFrame frame = true) :
    classifyRawCivFrameTxFamily frame = some true ∧ CarriesOneZero frame := by
  unfold isExactRawDekeyFrame isExactRaw at h
  split at h
  · cases h
  · next command sub data hu =>
      obtain ⟨toAddr, fromAddr, head, payload, rfl, hmark⟩ := unwrapCivFrame_some hu
      have hclass : classifyRawCivFrameTxFamily (envelope toAddr fromAddr (head :: payload)) =
          some (isTxFamilyCivCommand command sub data) := by
        rw [classifyRawCivFrameTxFamily, hu]
      rw [hclass]
      rw [unwrapCivFrame_envelope hmark] at hu
      split at h
      · next hp =>
          subst hp
          split at h
          · next receiver inner innerSub value =>
              -- Only the receiver prefix unwraps without a sub byte and with data.
              have hhead : head = civReceiverPrefixCommand ∧
                  payload = [receiver, inner, innerSub, value] := by
                split at hu
                · next hin =>
                    split at hu
                    · cases hu
                      exact absurd hin (by decide)
                    · cases hu
                · split at hu
                  · next hp =>
                      cases hu
                      exact ⟨hp, rfl⟩
                  · cases hu
              obtain ⟨rfl, rfl⟩ := hhead
              obtain ⟨hv, hkind⟩ := isExactDekeyTriple_iff.mp h
              cases hv
              refine ⟨?_, toAddr, fromAddr, [0x29, receiver], inner, innerSub,
                .inr ⟨receiver, rfl⟩, ?_, rfl⟩
              · rcases hkind with ⟨rfl, hs | hs⟩ | ⟨rfl, hs⟩ <;> cases hs <;> rfl
              · simpa using hkind
          · cases h
      · next hp =>
          obtain ⟨rfl, hkind⟩ := isExactDekeyTriple_iff.mp h
          refine ⟨congrArg some (isTxFamily_of_dekey h), toAddr, fromAddr, [], command, ?_⟩
          split at hu
          · split at hu
            · next innerSub data =>
                cases hu
                refine ⟨innerSub, .inl rfl, ?_, rfl⟩
                simpa using hkind
            · cases hu
          · next hin =>
              split at hu
              · next hp' => cases hu; exact absurd hp' hp
              · cases hu

/-- What the classifier lets through is one frame without an actuation for the wire parser too, also
behind a receiver prefix, of which there is no second one; and an exact de-key is a frame of the
family with one zero data byte. -/
theorem classifyRawCivFrameTxFamily_sound (frame : List UInt8) :
    (classifyRawCivFrameTxFamily frame = some false →
      iterCivFrames frame = [frame] ∧ ∃ parsed, parseCivFrame frame = .ok parsed ∧
        parsed.command ≠ 0x29 ∧ ¬ parsed.ActuatesPtt ∧ ¬ parsed.VoiceTx) ∧
    (isExactRawTransmissionEndFrame frame = true → isExactRawDekeyFrame frame = true) ∧
    (isExactRawDekeyFrame frame = true →
      classifyRawCivFrameTxFamily frame = some true ∧ CarriesOneZero frame) :=
  ⟨classify_false, isExactRaw_mono fun _ _ _ => dekey_of_transmissionEnd, dekey_frame⟩

/-- A PTT read behind a receiver prefix passes, and a prefixed PTT off is an exact de-key. -/
theorem classifyRawCivFrameTxFamily_sound_read :
    (iterCivFrames [0xFE, 0xFE, 0x98, 0xE0, 0x29, 0x00, 0x1C, 0x00, 0xFD] =
      [[0xFE, 0xFE, 0x98, 0xE0, 0x29, 0x00, 0x1C, 0x00, 0xFD]]) ∧
    classifyRawCivFrameTxFamily [0xFE, 0xFE, 0x98, 0xE0, 0x29, 0x00, 0x1C, 0x00, 0x00, 0xFD] =
      some true :=
  ⟨((classifyRawCivFrameTxFamily_sound _).1 (by decide)).1,
    ((classifyRawCivFrameTxFamily_sound _).2.2 (by decide)).1⟩

end Rigplane.Civ
