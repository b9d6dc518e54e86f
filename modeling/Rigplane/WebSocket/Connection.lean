import Rigplane.WebSocket.Frame

/-!
# An established WebSocket connection

`recv` of `WebSocketConnection` in `ws.py`, with `_compress` and `_decompress`.

The stream is the list of the bytes that are still to be read, and ends where they end; a write is
taken by the transport.  A frame that is cut off or refused leaves the stream as it was before the
frame, though the source has read some bytes of it by then.  `zlib` is a parameter: `deflate` is a
raw `compressobj` that is flushed with `Z_SYNC_FLUSH`, `inflate` a raw `decompressobj`.  The clock
is left out, as `recv` only notes the time.
-/

namespace Rigplane.WebSocket

/-! ## Compression -/

/-- `_DEFLATE_TAIL`. -/
def deflateTail : List UInt8 := [0x00, 0x00, 0xFF, 0xFF]

structure Zlib where
  deflate : List UInt8 → List UInt8
  /-- `none` where it raises. -/
  inflate : List UInt8 → Option (List UInt8)

/-- What `zlib` documents: raw inflate undoes raw deflate, and a sync flush ends with an empty
stored block. -/
structure Zlib.Lawful (zlib : Zlib) : Prop where
  inflate_deflate : ∀ data, zlib.inflate (zlib.deflate data) = some data
  tail_suffix : ∀ data, deflateTail <:+ zlib.deflate data

/-- `_compress`. -/
def compress (zlib : Zlib) (data : List UInt8) : List UInt8 :=
  let out := zlib.deflate data
  if deflateTail <:+ out then out.take (out.length - deflateTail.length) else out

/-- `_decompress`. -/
def decompress (zlib : Zlib) (data : List UInt8) : Option (List UInt8) :=
  zlib.inflate (data ++ deflateTail)

theorem decompress_compress {zlib : Zlib} (h : zlib.Lawful) (data : List UInt8) :
    decompress zlib (compress zlib data) = some data := by
  obtain ⟨body, hbody⟩ := h.tail_suffix data
  have hcut : compress zlib data = body := by
    rw [compress, if_pos (h.tail_suffix data), ← hbody, List.length_append, Nat.add_sub_cancel,
      List.take_left' rfl]
  rw [decompress, hcut, hbody, h.inflate_deflate]

/-! ## The connection -/

structure WebSocketConnection where
  deflate : Bool
  maskOutgoing : Bool
  /-- The key that `os.urandom` gives for the frame with that number. -/
  urandom : Nat → MaskKey
  input : List UInt8
  closed : Bool := false
  /-- `is_closing` of the writer. -/
  writerClosing : Bool := false
  fragmentedOpcode : UInt8 := 0
  fragmentedRsv1 : Bool := false
  fragments : List (List UInt8) := []
  /-- What was written, a write an element. -/
  written : List (List UInt8) := []

/-- How a `recv` ends. -/
inductive Received where
  | message (opcode : UInt8) (payload : List UInt8)
  /-- `EOFError`. -/
  | eof (reason : String)
  /-- `WebSocketError`. -/
  | webSocketError (message : String)
  /-- `zlib.error`. -/
  | zlibError
deriving DecidableEq

namespace WebSocketConnection

/-- A frame that the connection builds, masked in the client role. -/
def outgoing (s : WebSocketConnection) (opcode : UInt8) (payload : List UInt8) : List UInt8 :=
  makeFrame opcode payload true false
    (if s.maskOutgoing then some (s.urandom s.written.length) else none)

/-- `_send_raw` of a frame. -/
def sendFrame (s : WebSocketConnection) (opcode : UInt8) (payload : List UInt8) :
    WebSocketConnection :=
  { s with written := s.written ++ [s.outgoing opcode payload] }

/-- `close`. -/
def close (s : WebSocketConnection) (code : Nat) (reason : String) : WebSocketConnection :=
  let sent :=
    if s.closed then s
    else
      { s.sendFrame wsOpClose (BigEndian.bytes 2 code ++ reason.toUTF8.toList) with closed := true }
  { sent with writerClosing := true }

/-- The message is complete: it is inflated if it came with RSV1 on a connection with deflate. -/
def deliver (s : WebSocketConnection) (zlib : Zlib) (opcode : UInt8) (compressed : Bool)
    (data : List UInt8) : Received :=
  if compressed && s.deflate then
    match decompress zlib data with
    | some data => .message opcode data
    | none => .zlibError
  else .message opcode data

/-- Nothing is held of a message. -/
def forget (s : WebSocketConnection) : WebSocketConnection :=
  { s with fragments := [], fragmentedOpcode := 0, fragmentedRsv1 := false }

/-- A continuation frame. -/
def continuation (s : WebSocketConnection) (zlib : Zlib) (frame : Frame) :
    WebSocketConnection × Option Received :=
  if s.fragments = [] then (s, some (.webSocketError "unexpected continuation frame"))
  else if maxFragments < s.fragments.length + 1 ∨
      maxMessageBytes < (s.fragments.map List.length).sum + frame.payload.length then
    (s.forget.close 1009 "message too large", some (.eof "message too large"))
  else
    let fragments := s.fragments ++ [frame.payload]
    if frame.fin then
      (s.forget, some (s.deliver zlib s.fragmentedOpcode s.fragmentedRsv1 fragments.flatten))
    else ({ s with fragments := fragments }, none)

/-- What `recv` does with a frame; `none` where it reads on. -/
def handleFrame (s : WebSocketConnection) (zlib : Zlib) (frame : Frame) :
    WebSocketConnection × Option Received :=
  if frame.opcode = wsOpPing then (s.sendFrame wsOpPong frame.payload, none)
  else if frame.opcode = wsOpPong then (s, none)
  else if frame.opcode = wsOpClose then
    let closed := { s with closed := true }
    (if s.writerClosing then closed else closed.sendFrame wsOpClose frame.payload,
      some (.eof "WebSocket closed"))
  else if frame.opcode = wsOpContinuation then s.continuation zlib frame
  else if frame.fin then (s, some (s.deliver zlib frame.opcode frame.rsv1 frame.payload))
  else
    ({ s with
        fragmentedOpcode := frame.opcode
        fragmentedRsv1 := frame.rsv1
        fragments := [frame.payload] }, none)

theorem close_input (s : WebSocketConnection) (code : Nat) (reason : String) :
    (s.close code reason).input = s.input := by
  simp only [close]
  split
  · rfl
  · rfl

theorem continuation_input (s : WebSocketConnection) (zlib : Zlib) (frame : Frame) :
    (s.continuation zlib frame).1.input = s.input := by
  simp only [continuation]
  split
  · rfl
  · split
    · exact close_input _ _ _
    · split
      · rfl
      · rfl

theorem handleFrame_input (s : WebSocketConnection) (zlib : Zlib) (frame : Frame) :
    (s.handleFrame zlib frame).1.input = s.input := by
  simp only [handleFrame]
  split
  · rfl
  · split
    · rfl
    · split
      · show (if s.writerClosing then _ else _ : WebSocketConnection).input = s.input
        split
        · rfl
        · rfl
      · split
        · exact continuation_input s zlib frame
        · split
          · rfl
          · rfl

/-- `recv`: frames are read until one ends it. -/
def recv (zlib : Zlib) (s : WebSocketConnection) : WebSocketConnection × Received :=
  match hread : readOneFrame s.deflate s.input with
  | .error .incomplete => (s, .eof "connection closed")
  | .error (.protocol message) => (s, .webSocketError message)
  | .error (.tooLarge _) => (s.close 1009 "frame too large", .eof "frame too large")
  | .ok (frame, rest) =>
      match hframe : { s with input := rest }.handleFrame zlib frame with
      | (t, some received) => (t, received)
      | (t, none) =>
          have : t.input.length < s.input.length := by
            have hrest := handleFrame_input { s with input := rest } zlib frame
            rw [hframe] at hrest
            rw [hrest]
            exact readOneFrame_lt hread
          recv zlib t
termination_by s.input.length

theorem recv_eq (zlib : Zlib) (s : WebSocketConnection) :
    s.recv zlib =
      match readOneFrame s.deflate s.input with
      | .error .incomplete => (s, .eof "connection closed")
      | .error (.protocol message) => (s, .webSocketError message)
      | .error (.tooLarge _) => (s.close 1009 "frame too large", .eof "frame too large")
      | .ok (frame, rest) =>
          match { s with input := rest }.handleFrame zlib frame with
          | (t, some received) => (t, received)
          | (t, none) => t.recv zlib := by
  rw [recv]
  split
  · rename_i h
    simp only [h]
  · rename_i h
    simp only [h]
  · rename_i h
    simp only [h]
  · rename_i h
    simp only [h]
    split
    · rename_i h
      simp only [h]
    · rename_i h
      simp only [h]

end WebSocketConnection

end Rigplane.WebSocket
