import Mathlib.Data.List.Basic

/-!
# CI-V frames

The builders and the parser of `commands/_frame.py`, and `iter_civ_frames` of `core/civ.py`.
-/

namespace Rigplane.Civ

/-- `_CMD_RECEIVER_PREFIX`. -/
def cmdReceiverPrefix : UInt8 := 0x29

/-- `_CMD_PREAMP`. -/
def cmdPreamp : UInt8 := 0x16

/-- `_PREAMBLE`. -/
def preamble : List UInt8 := [0xFE, 0xFE]

/-- `_TERMINATOR`. -/
def terminator : UInt8 := 0xFD

/-- `_COMMANDS_WITH_SUB`. -/
def commandsWithSub : List UInt8 :=
  [0x14, 0x15, 0x1C, 0x1A, 0x21, 0x27, 0x16, 0x1B, 0x12, 0x19]

/-- `command_carries_sub`. -/
def commandCarriesSub (command : UInt8) : Bool := commandsWithSub.contains command

/-- `CivFrame`. -/
structure CivFrame where
  toAddr : UInt8
  fromAddr : UInt8
  command : UInt8
  sub : Option UInt8 := none
  data : List UInt8 := []
  receiver : Option UInt8 := none
deriving DecidableEq

/-! ## Building -/

/-- `build_civ_frame`, where no data is the empty data. -/
def buildCivFrame (toAddr fromAddr command : UInt8) (sub : Option UInt8) (data : List UInt8) :
    List UInt8 :=
  preamble ++ [toAddr, fromAddr, command] ++ sub.toList ++ data ++ [terminator]

/-- `build_cmd29_frame`. -/
def buildCmd29Frame (toAddr fromAddr command : UInt8) (sub : Option UInt8) (data : List UInt8)
    (receiver : UInt8) : List UInt8 :=
  let inner := [command] ++ sub.toList ++ data
  buildCivFrame toAddr fromAddr cmdReceiverPrefix none ([receiver] ++ inner)

/-- A wire tuple of a command map: a command and the other constant bytes of its frame. -/
structure WireTuple where
  command : UInt8
  rest : List UInt8
deriving DecidableEq

/-- `decode_wire_tuple`: the command, the sub-command and the bytes before the data. -/
def decodeWireTuple (wire : WireTuple) : UInt8 × Option UInt8 × List UInt8 :=
  match wire.rest with
  | sub :: more =>
      if commandCarriesSub wire.command then (wire.command, some sub, more)
      else (wire.command, none, wire.rest)
  | [] => (wire.command, none, [])

/-- `_build_from_map`, from the wire tuple it has looked up; the receiver is that of a `command29`
frame. -/
def buildFromMap (wire : WireTuple) (toAddr fromAddr : UInt8) (data : List UInt8)
    (receiver : Option UInt8) : List UInt8 :=
  let (command, sub, constant) := decodeWireTuple wire
  match receiver with
  | some receiver => buildCmd29Frame toAddr fromAddr command sub (constant ++ data) receiver
  | none => buildCivFrame toAddr fromAddr command sub (constant ++ data)

/-! ## Parsing -/

/-- The reasons of the `ValueError` of `parse_civ_frame`. -/
inductive FrameError where
  | tooShort (length : Nat)
  | badPreamble (head : List UInt8)
  | noTerminator (last : Option UInt8)
deriving DecidableEq

/-- A byte as two hexadecimal digits. -/
def hexByte (byte : UInt8) : String :=
  String.ofList [Nat.digitChar (byte.toNat / 16), Nat.digitChar (byte.toNat % 16)]

def FrameError.message : FrameError → String
  | .tooShort length => "CI-V frame too short: " ++ toString length ++ " bytes"
  | .badPreamble head => "Invalid CI-V preamble: " ++ String.join (head.map hexByte)
  | .noTerminator last => "Missing CI-V terminator: " ++ String.join (last.toList.map hexByte)

/-- The frame of a command and what follows it, its sub-command first where it carries one. -/
def splitPayload (toAddr fromAddr command : UInt8) (payload : List UInt8)
    (receiver : Option UInt8) : CivFrame :=
  match payload with
  | sub :: data =>
      if commandCarriesSub command then ⟨toAddr, fromAddr, command, some sub, data, receiver⟩
      else ⟨toAddr, fromAddr, command, none, payload, receiver⟩
  | [] => ⟨toAddr, fromAddr, command, none, [], receiver⟩

/-- The frame inside a receiver prefix.  The source asks for the preamp command on its own, which
`command_carries_sub` has already answered. -/
def splitPrefixed (toAddr fromAddr receiver command : UInt8) (payload : List UInt8) : CivFrame :=
  match payload with
  | sub :: data =>
      if commandCarriesSub command then
        ⟨toAddr, fromAddr, command, some sub, data, some receiver⟩
      else if command = cmdPreamp then
        ⟨toAddr, fromAddr, command, some sub, data, some receiver⟩
      else ⟨toAddr, fromAddr, command, none, payload, some receiver⟩
  | [] => ⟨toAddr, fromAddr, command, none, [], some receiver⟩

/-- `parse_civ_frame`. -/
def parseCivFrame (data : List UInt8) : Except FrameError CivFrame :=
  if data.length < 6 then .error (.tooShort data.length)
  else if data.take 2 ≠ preamble then .error (.badPreamble (data.take 2))
  else if data.getLast? ≠ some terminator then .error (.noTerminator data.getLast?)
  else
    match data.drop 2 with
    | toAddr :: fromAddr :: command :: tail =>
        match tail.dropLast with
        | receiver :: realCommand :: inner =>
            if command = cmdReceiverPrefix then
              .ok (splitPrefixed toAddr fromAddr receiver realCommand inner)
            else .ok (splitPayload toAddr fromAddr command tail.dropLast none)
        | payload => .ok (splitPayload toAddr fromAddr command payload none)
    -- Not reached, since the data has six bytes.
    | _ => .error (.tooShort data.length)

/-- `iter_civ_frames`, on the payload from the index of its loop on. -/
def iterCivFrames (payload : List UInt8) : List (List UInt8) :=
  if payload.length ≤ 4 then []
  else if payload.take 2 = preamble then
    match (payload.drop 4).findIdx? (· == terminator) with
    | none => []
    | some found => payload.take (found + 5) :: iterCivFrames (payload.drop (found + 5))
  else iterCivFrames (payload.drop 1)
termination_by payload.length
decreasing_by
  · simp only [List.length_drop]
    omega
  · simp only [List.length_drop]
    omega

/-! ## Reading back the builders -/

/-- A frame is its preamble, two addresses, a body and the terminator. -/
def envelope (toAddr fromAddr : UInt8) (body : List UInt8) : List UInt8 :=
  0xFE :: 0xFE :: toAddr :: fromAddr :: (body ++ [terminator])

theorem parseCivFrame_envelope (toAddr fromAddr command : UInt8) (payload : List UInt8) :
    parseCivFrame (envelope toAddr fromAddr (command :: payload)) =
      match payload with
      | receiver :: realCommand :: inner =>
          if command = cmdReceiverPrefix then
            .ok (splitPrefixed toAddr fromAddr receiver realCommand inner)
          else .ok (splitPayload toAddr fromAddr command payload none)
      | _ => .ok (splitPayload toAddr fromAddr command payload none) := by
  have hlast : (envelope toAddr fromAddr (command :: payload)).getLast? = some terminator := by
    simp [envelope, List.getLast?_cons]
  have hlen : ¬ (envelope toAddr fromAddr (command :: payload)).length < 6 := by
    simp [envelope]
  have hpre : (envelope toAddr fromAddr (command :: payload)).take 2 = preamble := rfl
  have hdrop : (envelope toAddr fromAddr (command :: payload)).drop 2 =
      toAddr :: fromAddr :: command :: (payload ++ [terminator]) := rfl
  simp only [parseCivFrame, hlen, hpre, hlast, hdrop, ne_eq, not_true_eq_false, if_false,
    List.dropLast_concat]
  rcases payload with _ | ⟨receiver, _ | ⟨realCommand, inner⟩⟩ <;> rfl

theorem splitPrefixed_eq (toAddr fromAddr receiver command : UInt8) (payload : List UInt8) :
    splitPrefixed toAddr fromAddr receiver command payload =
      splitPayload toAddr fromAddr command payload (some receiver) := by
  cases payload with
  | nil => rfl
  | cons sub data =>
      simp only [splitPrefixed, splitPayload]
      split
      · rfl
      · next hc =>
          have hne : command ≠ cmdPreamp := by
            rintro rfl
            exact hc (by decide)
          rw [if_neg hne]

/-- The body of a built frame. -/
theorem buildCivFrame_eq (toAddr fromAddr command : UInt8) (sub : Option UInt8)
    (data : List UInt8) :
    buildCivFrame toAddr fromAddr command sub data =
      envelope toAddr fromAddr (command :: (sub.toList ++ data)) := by
  simp [buildCivFrame, envelope, preamble]

theorem buildCmd29Frame_eq (toAddr fromAddr command : UInt8) (sub : Option UInt8)
    (data : List UInt8) (receiver : UInt8) :
    buildCmd29Frame toAddr fromAddr command sub data receiver =
      envelope toAddr fromAddr
        (cmdReceiverPrefix :: receiver :: command :: (sub.toList ++ data)) := by
  simp [buildCmd29Frame, buildCivFrame_eq]

/-- The parser finds the sub-command where the builder has put it. -/
theorem splitPayload_built {toAddr fromAddr command : UInt8} {sub : Option UInt8}
    {data : List UInt8} {receiver : Option UInt8}
    (hsub : sub.isSome = commandCarriesSub command) :
    splitPayload toAddr fromAddr command (sub.toList ++ data) receiver =
      ⟨toAddr, fromAddr, command, sub, data, receiver⟩ := by
  cases sub with
  | some sub => simp [splitPayload, ← hsub]
  | none =>
      cases data with
      | nil => rfl
      | cons first more => simp [splitPayload, ← hsub]

end Rigplane.Civ
