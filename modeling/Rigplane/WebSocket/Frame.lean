import Mathlib.Data.List.Basic
import Rigplane.Lib.BigEndian

/-!
# WebSocket frames

`make_frame` and `_read_one_frame` of `ws.py`.  A masked frame is written with the four bytes that
`os.urandom` gave; the reader takes from a stream that ends where its bytes end.
-/

namespace Rigplane.WebSocket

def wsOpContinuation : UInt8 := 0x0

def wsOpText : UInt8 := 0x1

def wsOpBinary : UInt8 := 0x2

def wsOpClose : UInt8 := 0x8

def wsOpPing : UInt8 := 0x9

def wsOpPong : UInt8 := 0xA

/-- `_RSV1`. -/
def rsv1Bit : UInt8 := 0x40

/-- `_MAX_WS_FRAME`. -/
def maxWsFrame : Nat := 64 * 1024

/-- `_MAX_MESSAGE_BYTES`. -/
def maxMessageBytes : Nat := 4 * maxWsFrame

/-- `_MAX_FRAGMENTS`. -/
def maxFragments : Nat := 64

/-- The four bytes of a mask. -/
structure MaskKey where
  bytes : List UInt8
  length_eq : bytes.length = 4
deriving DecidableEq

/-- `b ^ mask_key[i % 4]` for each byte. -/
def applyMask (key : List UInt8) (data : List UInt8) : List UInt8 :=
  data.mapIdx fun i b => b ^^^ key.getD (i % 4) 0

def firstByte (opcode : UInt8) (fin rsv1 : Bool) : UInt8 :=
  let base := (if fin then 0x80 else 0x00) ||| (opcode &&& 0x0F)
  if rsv1 then base ||| rsv1Bit else base

/-- The length field, and its seven bits in the second byte with the mask bit. -/
def header (firstByte maskBit : UInt8) (length : Nat) : List UInt8 :=
  if length ≤ 125 then [firstByte, maskBit ||| UInt8.ofNat length]
  else if length ≤ 65535 then [firstByte, maskBit ||| 126] ++ BigEndian.bytes 2 length
  else [firstByte, maskBit ||| 127] ++ BigEndian.bytes 8 length

/-- `make_frame`, with the key of a masked frame. -/
def makeFrame (opcode : UInt8) (payload : List UInt8) (fin rsv1 : Bool) (mask : Option MaskKey) :
    List UInt8 :=
  match mask with
  | none => header (firstByte opcode fin rsv1) 0 payload.length ++ payload
  | some key =>
      header (firstByte opcode fin rsv1) 0x80 payload.length ++ key.bytes ++
        applyMask key.bytes payload

structure Frame where
  opcode : UInt8
  payload : List UInt8
  fin : Bool
  rsv1 : Bool
deriving DecidableEq

inductive ReadError where
  /-- `IncompleteReadError`. -/
  | incomplete
  /-- `WebSocketError`. -/
  | protocol (message : String)
  /-- `_FrameTooLargeError`. -/
  | tooLarge (message : String)
deriving DecidableEq

/-- `reader.readexactly`. -/
def readExactly (n : Nat) (input : List UInt8) : Except ReadError (List UInt8 × List UInt8) :=
  if n ≤ input.length then .ok (input.take n, input.drop n) else .error .incomplete

/-- The payload length, extended where the seven bits say so. -/
def readLength (payloadLen : Nat) (input : List UInt8) : Except ReadError (Nat × List UInt8) :=
  if payloadLen = 126 then do
    let (ext, rest) ← readExactly 2 input
    return (BigEndian.value ext, rest)
  else if payloadLen = 127 then do
    let (ext, rest) ← readExactly 8 input
    return (BigEndian.value ext, rest)
  else .ok (payloadLen, input)

/-- The payload, unmasked with the key before it if the frame is masked. -/
def readPayload (masked : Bool) (payloadLen : Nat) (input : List UInt8) :
    Except ReadError (List UInt8 × List UInt8) :=
  if masked then do
    let (key, rest) ← readExactly 4 input
    let (raw, rest) ← readExactly payloadLen rest
    return (applyMask key raw, rest)
  else readExactly payloadLen input

/-- `_read_one_frame`, with the rest of the stream. -/
def readOneFrame (deflate : Bool) (input : List UInt8) : Except ReadError (Frame × List UInt8) := do
  let (head, rest) ← readExactly 2 input
  let byte0 := head.getD 0 0
  let byte1 := head.getD 1 0
  let rsv1 := byte0 &&& rsv1Bit != 0
  let rsv23 := (byte0 >>> 4) &&& 0x03
  if rsv23 ≠ 0 then .error (.protocol s!"non-zero RSV2/RSV3 bits: 0x{rsv23}")
  else if rsv1 && !deflate then
    .error (.protocol "RSV1 set but permessage-deflate not negotiated")
  else do
    let (payloadLen, rest) ← readLength (byte1 &&& 0x7F).toNat rest
    if payloadLen > maxWsFrame then
      .error (.tooLarge s!"frame payload {payloadLen} exceeds max {maxWsFrame}")
    else do
      let (payload, rest) ← readPayload (byte1 &&& 0x80 != 0) payloadLen rest
      return (⟨byte0 &&& 0x0F, payload, byte0 &&& 0x80 != 0, rsv1⟩, rest)

/-! ## The stream gets shorter -/

theorem readExactly_le {n : Nat} {input data rest : List UInt8}
    (h : readExactly n input = .ok (data, rest)) : rest.length + n = input.length := by
  unfold readExactly at h
  split at h
  · cases h
    rw [List.length_drop]
    omega
  · cases h

theorem readLength_le {payloadLen length : Nat} {input rest : List UInt8}
    (h : readLength payloadLen input = .ok (length, rest)) : rest.length ≤ input.length := by
  have hext : ∀ n, (do
      let (ext, rest) ← readExactly n input
      return (BigEndian.value ext, rest)) = Except.ok (length, rest) →
      rest.length ≤ input.length := by
    intro n hn
    cases hread : readExactly n input with
    | error error => rw [hread] at hn; cases hn
    | ok read =>
        rw [hread] at hn
        cases hn
        have := readExactly_le hread
        omega
  unfold readLength at h
  split at h
  · exact hext 2 h
  · split at h
    · exact hext 8 h
    · cases h
      exact Nat.le_refl _

theorem readPayload_le {masked : Bool} {payloadLen : Nat} {input payload rest : List UInt8}
    (h : readPayload masked payloadLen input = .ok (payload, rest)) :
    rest.length ≤ input.length := by
  cases masked with
  | false =>
      have := readExactly_le (show readExactly payloadLen input = _ from h)
      omega
  | true =>
      rw [readPayload, if_pos rfl] at h
      cases hkey : readExactly 4 input with
      | error error => rw [hkey] at h; cases h
      | ok key =>
          rw [hkey] at h
          cases hraw : readExactly payloadLen key.2 with
          | error error =>
              simp only [bind, Except.bind, hraw] at h
              cases h
          | ok raw =>
              simp only [bind, Except.bind, hraw] at h
              cases h
              have h4 := readExactly_le hkey
              have hn := readExactly_le hraw
              omega

/-- A frame takes at least its two first bytes. -/
theorem readOneFrame_lt {deflate : Bool} {input rest : List UInt8} {frame : Frame}
    (h : readOneFrame deflate input = .ok (frame, rest)) : rest.length < input.length := by
  unfold readOneFrame at h
  cases hhead : readExactly 2 input with
  | error error => rw [hhead] at h; cases h
  | ok head =>
      have htwo := readExactly_le hhead
      simp only [hhead, bind, Except.bind] at h
      split at h
      · cases h
      · split at h
        · cases h
        · split at h
          · cases h
          · rename_i length hlength
            have hl := readLength_le hlength
            split at h
            · cases h
            · split at h
              · cases h
              · rename_i payload hpayload
                have hp := readPayload_le hpayload
                cases h
                omega

/-! ## Reading back -/

theorem readExactly_append (data rest : List UInt8) :
    readExactly data.length (data ++ rest) = .ok (data, rest) := by
  simp [readExactly]

theorem applyMask_applyMask (key data : List UInt8) :
    applyMask key (applyMask key data) = data := by
  refine List.ext_getElem (by simp [applyMask]) fun i _ _ => ?_
  simp only [applyMask, List.getElem_mapIdx]
  rw [UInt8.xor_assoc, UInt8.xor_self, UInt8.xor_zero]

@[simp] theorem length_applyMask (key data : List UInt8) :
    (applyMask key data).length = data.length := by
  simp [applyMask]

/-- The first byte says again what it was made from. -/
theorem firstByte_spec {opcode : UInt8} (h : opcode.toNat < 16) (fin rsv1 : Bool) :
    firstByte opcode fin rsv1 &&& 0x0F = opcode ∧
    (firstByte opcode fin rsv1 &&& 0x80 != 0) = fin ∧
    (firstByte opcode fin rsv1 &&& rsv1Bit != 0) = rsv1 ∧
    (firstByte opcode fin rsv1 >>> 4) &&& 0x03 = 0 := by
  have hall : ∀ (o : Fin 16) (fin rsv1 : Bool),
      firstByte (.ofNat o) fin rsv1 &&& 0x0F = .ofNat o ∧
      (firstByte (.ofNat o) fin rsv1 &&& 0x80 != 0) = fin ∧
      (firstByte (.ofNat o) fin rsv1 &&& rsv1Bit != 0) = rsv1 ∧
      (firstByte (.ofNat o) fin rsv1 >>> 4) &&& 0x03 = 0 := by decide +kernel
  have ho := hall ⟨opcode.toNat, h⟩ fin rsv1
  rwa [UInt8.ofNat_toNat] at ho

theorem secondByte_spec (masked : Bool) {n : Nat} (h : n < 128) :
    (((if masked then 0x80 else 0) ||| UInt8.ofNat n) &&& 0x7F).toNat = n ∧
    (((if masked then 0x80 else 0) ||| UInt8.ofNat n) &&& 0x80 != 0) = masked := by
  have hall : ∀ (masked : Bool) (n : Fin 128),
      (((if masked then 0x80 else 0) ||| UInt8.ofNat n) &&& 0x7F).toNat = n ∧
      (((if masked then 0x80 else 0) ||| UInt8.ofNat n) &&& 0x80 != 0) = masked := by
    decide +kernel
  exact hall masked ⟨n, h⟩

/-- The second byte and the length field give the length and the mask bit back. -/
theorem header_spec (firstByte : UInt8) (masked : Bool) {length : Nat} (h : length ≤ maxWsFrame) :
    ∃ second ext, header firstByte (if masked then 0x80 else 0) length =
        [firstByte, second] ++ ext ∧
      (second &&& 0x80 != 0) = masked ∧
      ∀ rest, readLength (second &&& 0x7F).toNat (ext ++ rest) = .ok (length, rest) := by
  have hfits : length < 256 ^ 8 := by
    simp only [maxWsFrame] at h
    omega
  unfold header
  split
  · obtain ⟨hlength, hmask⟩ := secondByte_spec masked (n := length) (by omega)
    refine ⟨_, [], rfl, hmask, fun rest => ?_⟩
    rw [hlength, readLength, if_neg (by omega), if_neg (by omega)]
    rfl
  · split
    · obtain ⟨hlength, hmask⟩ := secondByte_spec masked (n := 126) (by omega)
      refine ⟨_, _, rfl, hmask, fun rest => ?_⟩
      have hread := readExactly_append (BigEndian.bytes 2 length) rest
      rw [BigEndian.length_bytes] at hread
      have hvalue : BigEndian.value (BigEndian.bytes 2 length) = length :=
        BigEndian.value_bytes (by omega)
      show readLength (((if masked then 0x80 else 0) ||| UInt8.ofNat 126) &&& 0x7F).toNat _ = _
      rw [hlength, readLength, if_pos rfl, hread]
      show Except.ok (BigEndian.value (BigEndian.bytes 2 length), rest) = _
      rw [hvalue]
    · obtain ⟨hlength, hmask⟩ := secondByte_spec masked (n := 127) (by omega)
      refine ⟨_, _, rfl, hmask, fun rest => ?_⟩
      have hread := readExactly_append (BigEndian.bytes 8 length) rest
      rw [BigEndian.length_bytes] at hread
      show readLength (((if masked then 0x80 else 0) ||| UInt8.ofNat 127) &&& 0x7F).toNat _ = _
      rw [hlength, readLength, if_neg (by omega), if_pos rfl, hread]
      show Except.ok (BigEndian.value (BigEndian.bytes 8 length), rest) = _
      rw [BigEndian.value_bytes hfits]

theorem readPayload_none (payload rest : List UInt8) :
    readPayload false payload.length (payload ++ rest) = .ok (payload, rest) := by
  rw [readPayload, if_neg (by simp)]
  exact readExactly_append payload rest

theorem readPayload_some (key : MaskKey) (payload rest : List UInt8) :
    readPayload true payload.length (key.bytes ++ applyMask key.bytes payload ++ rest) =
      .ok (payload, rest) := by
  have hkey := readExactly_append key.bytes (applyMask key.bytes payload ++ rest)
  have hdata := readExactly_append (applyMask key.bytes payload) rest
  rw [key.length_eq] at hkey
  rw [length_applyMask] at hdata
  rw [readPayload, if_pos rfl, List.append_assoc, hkey]
  show (do
    let (raw, rest) ← readExactly payload.length (applyMask key.bytes payload ++ rest)
    return (applyMask key.bytes raw, rest)) = _
  rw [hdata]
  show Except.ok (applyMask key.bytes (applyMask key.bytes payload), rest) = _
  rw [applyMask_applyMask]

/-- A frame that `make_frame` wrote is read back, at the front of any stream. -/
theorem readOneFrame_makeFrame {opcode : UInt8} (hopcode : opcode.toNat < 16)
    {payload : List UInt8} (hsize : payload.length ≤ maxWsFrame) (fin : Bool) {rsv1 deflate : Bool}
    (hdeflate : rsv1 = true → deflate = true) (mask : Option MaskKey) (rest : List UInt8) :
    readOneFrame deflate (makeFrame opcode payload fin rsv1 mask ++ rest) =
      .ok (⟨opcode, payload, fin, rsv1⟩, rest) := by
  obtain ⟨hop, hfin, hrsv1, hrsv23⟩ := firstByte_spec hopcode fin rsv1
  obtain ⟨body, hbody, hread⟩ : ∃ body,
      makeFrame opcode payload fin rsv1 mask =
        header (firstByte opcode fin rsv1) (if mask.isSome then 0x80 else 0) payload.length ++
            body ∧
      readPayload mask.isSome payload.length (body ++ rest) = .ok (payload, rest) := by
    cases mask with
    | none => exact ⟨payload, rfl, readPayload_none payload rest⟩
    | some key =>
        exact ⟨key.bytes ++ applyMask key.bytes payload, List.append_assoc _ _ _,
          readPayload_some key payload rest⟩
  obtain ⟨second, ext, hheader, hmask, hlength⟩ :=
    header_spec (firstByte opcode fin rsv1) mask.isSome hsize
  have hhead := readExactly_append [firstByte opcode fin rsv1, second] (ext ++ (body ++ rest))
  have hallowed : (rsv1 && !deflate) = false := by
    cases rsv1 with
    | false => rfl
    | true => rw [hdeflate rfl]; rfl
  rw [hbody, hheader, List.append_assoc, List.append_assoc, readOneFrame]
  have hhead' : readExactly 2 ([firstByte opcode fin rsv1, second] ++ (ext ++ (body ++ rest))) =
    .ok ([firstByte opcode fin rsv1, second], ext ++ (body ++ rest)) := hhead
  rw [hhead']
  simp only [bind, Except.bind, List.getD_cons_zero, List.getD_cons_succ, hrsv23, ne_eq,
    not_true_eq_false, if_false, hrsv1, hallowed, Bool.false_eq_true, hlength,
    Nat.not_lt.mpr hsize, hmask, hread, hop, hfin]
  rfl

end Rigplane.WebSocket
