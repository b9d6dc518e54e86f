import Rigplane.WebSocket.Connection

/-!
# Messages over a WebSocket connection

A peer cuts its messages into fragments and writes pings and pongs between any two frames.  What it
wrote with `make_frame` is what `recv` returns, a message a call, and each ping is answered.
-/

namespace Rigplane.WebSocket

/-! ## What a peer writes -/

structure Control where
  isPing : Bool
  payload : List UInt8
  mask : Option MaskKey
  small : payload.length ≤ maxWsFrame

def Control.bytes (control : Control) : List UInt8 :=
  makeFrame (if control.isPing then wsOpPing else wsOpPong) control.payload true false control.mask

/-- A fragment, and the control frames before it. -/
structure Fragment where
  before : List Control
  data : List UInt8
  mask : Option MaskKey
  small : data.length ≤ maxWsFrame

def Fragment.bytes (fragment : Fragment) (opcode : UInt8) (fin rsv1 : Bool) : List UInt8 :=
  fragment.before.flatMap Control.bytes ++ makeFrame opcode fragment.data fin rsv1 fragment.mask

/-- The continuation frames, the last of them final. -/
def continuationBytes : List Fragment → List UInt8
  | [] => []
  | fragment :: rest =>
      fragment.bytes wsOpContinuation rest.isEmpty false ++ continuationBytes rest

/-- A text or binary message as it is sent: cut into fragments, compressed before that or not. -/
structure Message (zlib : Zlib) where
  isBinary : Bool
  compressed : Bool
  payload : List UInt8
  first : Fragment
  rest : List Fragment
  count : rest.length + 1 ≤ maxFragments
  total : first.data.length + (rest.map fun f => f.data.length).sum ≤ maxMessageBytes
  cut : first.data ++ rest.flatMap Fragment.data =
    if compressed then compress zlib payload else payload

namespace Message

variable {zlib : Zlib}

def opcode (message : Message zlib) : UInt8 := if message.isBinary then wsOpBinary else wsOpText

def bytes (message : Message zlib) : List UInt8 :=
  message.first.bytes message.opcode message.rest.isEmpty message.compressed ++
    continuationBytes message.rest

/-- The control frames of a message, in the order of the wire. -/
def controls (message : Message zlib) : List Control :=
  message.first.before ++ message.rest.flatMap Fragment.before

end Message

/-- The payloads of the pings. -/
def pings (controls : List Control) : List (List UInt8) :=
  (controls.filter Control.isPing).map Control.payload

theorem pings_append (a b : List Control) : pings (a ++ b) = pings a ++ pings b := by
  simp [pings]

namespace WebSocketConnection

/-- `recv`, called a number of times. -/
def recvMany (zlib : Zlib) : Nat → WebSocketConnection → WebSocketConnection × List Received
  | 0, s => (s, [])
  | n + 1, s =>
      let (t, received) := s.recv zlib
      let (u, others) := recvMany zlib n t
      (u, received :: others)

/-- A pong for each payload, in order. -/
def answer (s : WebSocketConnection) (payloads : List (List UInt8)) : WebSocketConnection :=
  payloads.foldl (fun s payload => s.sendFrame wsOpPong payload) s

theorem answer_append (s : WebSocketConnection) (a b : List (List UInt8)) :
    s.answer (a ++ b) = (s.answer a).answer b := List.foldl_append

/-- Pongs are all that an answer writes. -/
theorem answer_eq (s : WebSocketConnection) (payloads : List (List UInt8)) :
    s.answer payloads = { s with
      written := s.written ++ payloads.mapIdx fun i payload => makeFrame wsOpPong payload true false
        (if s.maskOutgoing then some (s.urandom (s.written.length + i)) else none) } := by
  induction payloads generalizing s with
  | nil => simp [answer]
  | cons payload rest ih =>
      show (s.sendFrame wsOpPong payload).answer rest = _
      rw [ih]
      simp only [sendFrame, outgoing, List.mapIdx_cons, List.append_assoc, List.cons_append,
        List.nil_append, List.length_append, List.length_cons, List.length_nil, Nat.add_zero,
        Nat.zero_add, Nat.add_assoc, Nat.add_comm 1]

/-- A new connection, before a `recv`. -/
def init (deflate maskOutgoing : Bool) (urandom : Nat → MaskKey) (input : List UInt8) :
    WebSocketConnection :=
  { deflate := deflate, maskOutgoing := maskOutgoing, urandom := urandom, input := input }

/-! ## One frame -/

/-- `recv` on a stream that begins with a frame. -/
theorem recv_makeFrame (zlib : Zlib) {s : WebSocketConnection} {opcode : UInt8}
    {payload rest : List UInt8} {fin rsv1 : Bool} {mask : Option MaskKey}
    (hinput : s.input = makeFrame opcode payload fin rsv1 mask ++ rest)
    (hopcode : opcode.toNat < 16) (hsize : payload.length ≤ maxWsFrame)
    (hdeflate : rsv1 = true → s.deflate = true) :
    s.recv zlib =
      match { s with input := rest }.handleFrame zlib ⟨opcode, payload, fin, rsv1⟩ with
      | (t, some received) => (t, received)
      | (t, none) => t.recv zlib := by
  have hread := readOneFrame_makeFrame hopcode hsize fin hdeflate mask rest
  rw [← hinput] at hread
  have hrecv := recv_eq zlib s
  simp only [hread] at hrecv
  exact hrecv

theorem recv_nil (zlib : Zlib) {s : WebSocketConnection} (h : s.input = []) :
    s.recv zlib = (s, .eof "connection closed") := by
  rw [recv_eq, h]
  rfl

/-- Control frames are passed over, and each ping is answered. -/
theorem recv_controls (zlib : Zlib) (controls : List Control) {s : WebSocketConnection}
    {rest : List UInt8} (hinput : s.input = controls.flatMap Control.bytes ++ rest) :
    s.recv zlib = ({ s with input := rest }.answer (pings controls)).recv zlib := by
  induction controls generalizing s with
  | nil =>
      rw [List.flatMap_nil, List.nil_append] at hinput
      rw [← hinput]
      rfl
  | cons control controls ih =>
      rw [List.flatMap_cons, List.append_assoc] at hinput
      cases hping : control.isPing with
      | true =>
          simp only [Control.bytes, hping, if_true] at hinput
          rw [recv_makeFrame zlib hinput (by decide) control.small (by simp)]
          show WebSocketConnection.recv zlib (sendFrame _ wsOpPong control.payload) = _
          rw [ih rfl]
          simp only [pings, List.filter_cons, hping, if_true, List.map_cons]
          rfl
      | false =>
          simp only [Control.bytes, hping, Bool.false_eq_true, if_false] at hinput
          rw [recv_makeFrame zlib hinput (by decide) control.small (by simp)]
          show WebSocketConnection.recv zlib _ = _
          rw [ih rfl]
          simp only [pings, List.filter_cons, hping, Bool.false_eq_true, if_false]

@[simp] theorem answer_input (s : WebSocketConnection) (payloads : List (List UInt8)) :
    (s.answer payloads).input = s.input := by rw [answer_eq]

@[simp] theorem answer_deflate (s : WebSocketConnection) (payloads : List (List UInt8)) :
    (s.answer payloads).deflate = s.deflate := by rw [answer_eq]

/-- The next stream does not matter to an answer. -/
theorem answer_withInput (s : WebSocketConnection) (payloads : List (List UInt8))
    (rest : List UInt8) :
    { s.answer payloads with input := rest } = { s with input := rest }.answer payloads := by
  rw [answer_eq, answer_eq]

/-- `recv` on a stream that begins with a fragment and the control frames before it. -/
theorem recv_fragment (zlib : Zlib) {s : WebSocketConnection} (fragment : Fragment)
    {opcode : UInt8} {fin rsv1 : Bool} {rest : List UInt8}
    (hinput : s.input = fragment.bytes opcode fin rsv1 ++ rest) (hopcode : opcode.toNat < 16)
    (hdeflate : rsv1 = true → s.deflate = true) :
    s.recv zlib =
      match ({ s with input := rest }.answer (pings fragment.before)).handleFrame zlib
        ⟨opcode, fragment.data, fin, rsv1⟩ with
      | (t, some received) => (t, received)
      | (t, none) => t.recv zlib := by
  rw [Fragment.bytes, List.append_assoc] at hinput
  rw [recv_controls zlib fragment.before hinput,
    recv_makeFrame zlib (answer_input _ _) hopcode fragment.small (by simpa using hdeflate)]
  simp only [answer_withInput]

/-! ## One message -/

/-- A fragment for which there is room is kept, and the last one completes the message. -/
theorem continuation_of_room (zlib : Zlib) {s : WebSocketConnection} {f : Frame}
    (hheld : s.fragments ≠ []) (hcount : s.fragments.length + 1 ≤ maxFragments)
    (htotal : (s.fragments.map List.length).sum + f.payload.length ≤ maxMessageBytes) :
    s.continuation zlib f =
      if f.fin then
        (s.forget, some (s.deliver zlib s.fragmentedOpcode s.fragmentedRsv1
          (s.fragments ++ [f.payload]).flatten))
      else ({ s with fragments := s.fragments ++ [f.payload] }, none) := by
  rw [continuation, if_neg hheld, if_neg]
  rw [not_or, Nat.not_lt, Nat.not_lt]
  exact ⟨hcount, htotal⟩

/-- The fragments after the first complete the message. -/
theorem recv_continuations (zlib : Zlib) (fragments : List Fragment) {s : WebSocketConnection}
    {more : List UInt8} (hne : fragments ≠ []) (hheld : s.fragments ≠ [])
    (hinput : s.input = continuationBytes fragments ++ more)
    (hcount : s.fragments.length + fragments.length ≤ maxFragments)
    (htotal : (s.fragments.map List.length).sum + (fragments.map fun f => f.data.length).sum ≤
      maxMessageBytes) :
    s.recv zlib =
      ({ s.forget with input := more }.answer (pings (fragments.flatMap Fragment.before)),
        s.deliver zlib s.fragmentedOpcode s.fragmentedRsv1
          (s.fragments.flatten ++ fragments.flatMap Fragment.data)) := by
  induction fragments generalizing s with
  | nil => exact absurd rfl hne
  | cons fragment rest ih =>
      simp only [continuationBytes, List.append_assoc] at hinput
      simp only [List.length_cons] at hcount
      simp only [List.map_cons, List.sum_cons] at htotal
      have hroom := continuation_of_room zlib
        (s := { s with input := continuationBytes rest ++ more }.answer (pings fragment.before))
        (f := ⟨wsOpContinuation, fragment.data, rest.isEmpty, false⟩)
      simp only [answer_eq] at hroom
      rw [recv_fragment zlib fragment hinput (by decide) (by simp), answer_eq]
      show (match WebSocketConnection.continuation _ zlib _ with
        | (t, some received) => (t, received)
        | (t, none) => WebSocketConnection.recv zlib t) = _
      rw [hroom hheld (by omega) (by show _ + fragment.data.length ≤ _; omega)]
      cases rest with
      | nil =>
          simp only [List.isEmpty_nil, if_true, List.flatMap_singleton, answer_eq,
            List.flatten_append, List.flatten_singleton]
          rfl
      | cons next rest =>
          simp only [List.isEmpty_cons, Bool.false_eq_true, if_false]
          rw [ih (by simp) (by simp) rfl (by simp; simp at hcount; omega)
            (by simp at htotal ⊢; omega)]
          simp only [List.flatMap_cons, pings_append, answer_append, List.flatten_append,
            List.flatten_singleton, List.append_assoc]
          rw [answer_eq { s.forget with input := more } (pings fragment.before)]
          rfl

theorem handleFrame_data (zlib : Zlib) (s : WebSocketConnection) (message : Message zlib)
    (data : List UInt8) (fin rsv1 : Bool) :
    s.handleFrame zlib ⟨message.opcode, data, fin, rsv1⟩ =
      if fin then (s, some (s.deliver zlib message.opcode rsv1 data))
      else
        ({ s with
            fragmentedOpcode := message.opcode, fragmentedRsv1 := rsv1, fragments := [data] },
          none) := by
  cases hbinary : message.isBinary with
  | true =>
      simp only [Message.opcode, hbinary, if_true]
      rfl
  | false =>
      simp only [Message.opcode, hbinary, Bool.false_eq_true, if_false]
      rfl

/-- What was sent is delivered, inflated where it was compressed. -/
theorem deliver_cut {zlib : Zlib} (hz : zlib.Lawful) {s : WebSocketConnection}
    (message : Message zlib) (hdeflate : message.compressed = true → s.deflate = true) :
    s.deliver zlib message.opcode message.compressed
        (message.first.data ++ message.rest.flatMap Fragment.data) =
      .message message.opcode message.payload := by
  rw [message.cut]
  cases hc : message.compressed with
  | true =>
      simp only [deliver, hdeflate hc, Bool.and_self, if_true, decompress_compress hz]
  | false => rfl

theorem recv_message {zlib : Zlib} (hz : zlib.Lawful) (message : Message zlib)
    {s : WebSocketConnection} {more : List UInt8} (hnothing : s.forget = s)
    (hdeflate : message.compressed = true → s.deflate = true)
    (hinput : s.input = message.bytes ++ more) :
    s.recv zlib = ({ s with input := more }.answer (pings message.controls),
      .message message.opcode message.payload) := by
  have hopcode : message.opcode.toNat < 16 := by
    cases hbinary : message.isBinary with
    | true => simp only [Message.opcode, hbinary, if_true]; decide
    | false => simp only [Message.opcode, hbinary, Bool.false_eq_true, if_false]; decide
  have hdeliver := deliver_cut hz message hdeflate
  have hcount := message.count
  have htotal := message.total
  rw [Message.bytes, List.append_assoc] at hinput
  rw [recv_fragment zlib message.first hinput hopcode hdeflate, handleFrame_data, answer_eq]
  cases hrest : message.rest with
  | nil =>
      rw [hrest] at hdeliver
      simp only [List.flatMap_nil, List.append_nil] at hdeliver
      simp only [List.isEmpty_nil, if_true, Message.controls, hrest, List.flatMap_nil,
        List.append_nil, answer_eq]
      rw [← hdeliver]
      rfl
  | cons fragment rest =>
      rw [hrest] at hdeliver hcount htotal
      simp only [List.isEmpty_cons, Bool.false_eq_true, if_false]
      rw [recv_continuations zlib (fragment :: rest) (by simp) (by simp) rfl
        (by simp at hcount ⊢; omega) (by simpa using htotal)]
      simp only [Message.controls, hrest, pings_append, answer_append, List.flatten_singleton]
      rw [answer_eq { s with input := more } (pings message.first.before), ← hdeliver, ← hnothing]
      rfl

theorem forget_answer {s : WebSocketConnection} (h : s.forget = s) (rest : List UInt8)
    (payloads : List (List UInt8)) :
    ({ s with input := rest }.answer payloads).forget =
    { s with input := rest }.answer payloads := by
  rw [answer_eq, ← h]
  rfl

/-! ## All messages -/

/-- The messages are received in order, and the pings before the last control frames answered. -/
theorem recvMany_messages {zlib : Zlib} (hz : zlib.Lawful) (messages : List (Message zlib))
    {s : WebSocketConnection} {more : List UInt8} (hnothing : s.forget = s)
    (hdeflate : ∀ message ∈ messages, message.compressed = true → s.deflate = true)
    (hinput : s.input = messages.flatMap Message.bytes ++ more) :
    s.recvMany zlib messages.length =
      ({ s with input := more }.answer (pings (messages.flatMap Message.controls)),
        messages.map fun message => .message message.opcode message.payload) := by
  induction messages generalizing s with
  | nil =>
      rw [List.flatMap_nil, List.nil_append] at hinput
      rw [← hinput]
      rfl
  | cons message messages ih =>
      rw [List.flatMap_cons, List.append_assoc] at hinput
      have hone := recv_message hz message hnothing
        (hdeflate message List.mem_cons_self) hinput
      have hothers := ih (s := { s with input := messages.flatMap Message.bytes ++ more }.answer
          (pings message.controls)) (forget_answer hnothing _ _)
        (fun m hm hc => by simpa using hdeflate m (List.mem_cons_of_mem _ hm) hc)
        (answer_input _ _)
      rw [answer_withInput] at hothers
      rw [List.length_cons, recvMany, hone]
      simp only [hothers, List.flatMap_cons, pings_append, answer_append, List.map_cons]

/-- One call more. -/
theorem recvMany_succ (zlib : Zlib) (n : Nat) (s : WebSocketConnection) :
    s.recvMany zlib (n + 1) =
      (((s.recvMany zlib n).1.recv zlib).1,
        (s.recvMany zlib n).2 ++ [((s.recvMany zlib n).1.recv zlib).2]) := by
  induction n generalizing s with
  | zero => rfl
  | succ n ih =>
      show ((recvMany zlib (n + 1) (s.recv zlib).1).1,
        (s.recv zlib).2 :: (recvMany zlib (n + 1) (s.recv zlib).1).2) = _
      rw [ih (s.recv zlib).1]
      rfl

/-- Called until the stream ends, `recv` returns exactly the messages, in order, and what it writes
is one pong for each ping, with its payload. -/
theorem recv_round_trip {zlib : Zlib} (hz : zlib.Lawful) (deflate maskOutgoing : Bool)
    (urandom : Nat → MaskKey) (messages : List (Message zlib)) (last : List Control)
    (hdeflate : ∀ message ∈ messages, message.compressed = true → deflate = true) :
    ∃ t, (init deflate maskOutgoing urandom
        (messages.flatMap Message.bytes ++ last.flatMap Control.bytes)).recvMany zlib
          (messages.length + 1) =
        (t, (messages.map fun message => .message message.opcode message.payload) ++
          [.eof "connection closed"]) ∧
      t.written = (pings (messages.flatMap Message.controls ++ last)).mapIdx fun i payload =>
        makeFrame wsOpPong payload true false
          (if maskOutgoing then some (urandom i) else none) := by
  obtain ⟨s, hs⟩ : ∃ s, s = init deflate maskOutgoing urandom
    (messages.flatMap Message.bytes ++ last.flatMap Control.bytes) := ⟨_, rfl⟩
  have hmessages := recvMany_messages hz messages (s := s) (by rw [hs]; rfl)
    (by rw [hs]; exact hdeflate) (show s.input = _ ++ last.flatMap Control.bytes by rw [hs]; rfl)
  have hlast := recv_controls zlib last
    (show ({ s with input := last.flatMap Control.bytes }.answer
      (pings (messages.flatMap Message.controls))).input = last.flatMap Control.bytes ++ [] by
        rw [answer_input, List.append_nil])
  replace hlast := hlast.trans (recv_nil zlib (answer_input _ _))
  rw [← hs, recvMany_succ, hmessages]
  refine ⟨_, by rw [hlast], ?_⟩
  simp only [answer_withInput, ← answer_append, ← pings_append]
  rw [answer_eq, hs]
  simp [init]

end WebSocketConnection

/-! ## A compressed message with a ping inside it -/

/-- `zlib` on the bytes of `Hi`; elsewhere a stored form of the data. -/
def zlibOfHi : Zlib where
  deflate data :=
    if data = [72, 105] then [242, 200, 4, 0, 0, 0, 255, 255] else 0 :: data ++ deflateTail
  inflate data :=
    if data = [242, 200, 4, 0, 0, 0, 255, 255] then some [72, 105]
    else some (data.tail.take (data.tail.length - deflateTail.length))

theorem zlibOfHi_lawful : zlibOfHi.Lawful where
  inflate_deflate := by
    intro data
    by_cases h : data = [72, 105]
    · simp [zlibOfHi, h]
    · simp [zlibOfHi, h, deflateTail]
  tail_suffix := by
    intro data
    by_cases h : data = [72, 105]
    · simp only [zlibOfHi, h, if_true]
      decide
    · simp only [zlibOfHi, h, if_false]
      exact List.suffix_append _ _

def hi : Message zlibOfHi where
  isBinary := false
  compressed := true
  payload := [72, 105]
  first := ⟨[], [242, 200], none, by decide⟩
  rest := [⟨[⟨true, [1], some ⟨[9, 8, 7, 6], rfl⟩, by decide⟩], [4, 0], none, by decide⟩]
  count := by decide
  total := by decide
  cut := by decide

theorem recv_round_trip_hi : ∃ t, (WebSocketConnection.init true false
    (fun _ => ⟨[1, 2, 3, 4], rfl⟩)
    ([hi].flatMap Message.bytes ++ [].flatMap Control.bytes)).recvMany zlibOfHi 2 =
      (t, [.message wsOpText [72, 105], .eof "connection closed"]) ∧
    t.written = [makeFrame wsOpPong [1] true false none] :=
  WebSocketConnection.recv_round_trip zlibOfHi_lawful true false
    (fun _ => ⟨[1, 2, 3, 4], rfl⟩) [hi] []
    (by simp)

end Rigplane.WebSocket
