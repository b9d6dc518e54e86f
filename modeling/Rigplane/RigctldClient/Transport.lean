import Rigplane.Lib.Runs
import Mathlib.Algebra.Group.Nat.Defs
import Mathlib.Data.List.Basic

/-!
# The client of an external rigctld

`RigctldTransport` of `backends/rigctld_client/transport.py`, over a server that answers each
command with lines of its choice, in the order of the commands.  A byte carries the number of the
exchange whose command it answers, which no operation reads.

An answer is chosen as a whole and delivered in pieces, so a line may arrive in parts and at any
time. The gate lets one exchange at a time through, so there is one in progress at most.  It
captures the connection when it starts, and somebody else may close or replace the connection
meanwhile.  A step is what happens between two awaits.  A deadline may pass at any time, also the
millisecond of `_drain_stale` and of the resynchronisation.

What ends an exchange is its outcome.  `_parse_rprt`, to which a `command` hands its last line, only
decides between success and errors, and is not followed here.
-/

namespace Rigplane.RigctldClient

/-- A byte of the answer to the command of an exchange. -/
structure Byte where
  owner : Nat
  value : UInt8
deriving DecidableEq

/-- A TCP connection, with its `StreamReader`. -/
structure Connection where
  /-- The exchanges whose commands the server has not answered, oldest first. -/
  unanswered : List Nat := []
  /-- What is on its way from the server. -/
  wire : List Byte := []
  buffer : List Byte := []
  eof : Bool := false
deriving DecidableEq

inductive Kind where
  /-- `query`, of so many lines. -/
  | query (responseLines : Nat)
  | command
deriving DecidableEq

inductive Stage where
  /-- In `_drain_stale`. -/
  | draining
  /-- In `_write_line`, at its drain, or in `_read_line`. -/
  | reading
  /-- At a read of the resynchronisation of `command`. -/
  | resync
deriving DecidableEq

structure Exchange where
  id : Nat
  kind : Kind
  connection : Nat
  stage : Stage := .draining
  /-- The lines taken so far as its answer. -/
  lines : List (List Byte) := []
deriving DecidableEq

inductive Outcome where
  /-- `query` returns its lines. -/
  | returned
  /-- `query` raises on a status line. -/
  | status
  /-- `command` hands its line to `_parse_rprt`. -/
  | parsed
  | undecodable
  /-- The `ValueError` of a line over the limit. -/
  | overlong
  /-- It raises before it writes: the connection is closing, the guard refuses, or the command is
  empty or cannot be encoded. -/
  | refused
  /-- The connection has timed out, failed or ended, and is closed. -/
  | closed
  | cancelled
deriving DecidableEq

structure Ended where
  exchange : Exchange
  outcome : Outcome
  /-- Part of its answer had not been read. -/
  unread : Bool
deriving DecidableEq

structure RigctldTransport where
  connections : List Connection := []
  /-- The connection of `_reader`, until it is retired. -/
  current : Option Nat := none
  exchange : Option Exchange := none
  /-- Exchanges started so far. -/
  started : Nat := 0
  ended : List Ended := []
deriving DecidableEq

/-! ## Lines -/

/-- The limit of a `StreamReader`. -/
def limit : Nat := 2 ^ 16

inductive ReadLine where
  | line (raw rest : List Byte)
  /-- The line is over the limit; what was scanned is dropped. -/
  | overrun (rest : List Byte)
  | eof
  /-- It waits for more. -/
  | pending
deriving DecidableEq

/-- `StreamReader.readline`.  At the end of the stream what is left counts as a line. -/
def Connection.readline (c : Connection) : ReadLine :=
  match c.buffer.findIdx? (·.value = 10) with
  | some i => if limit < i then .overrun (c.buffer.drop (i + 1))
      else .line (c.buffer.take (i + 1)) (c.buffer.drop (i + 1))
  | none =>
      if limit < c.buffer.length then .overrun []
      else if ¬ c.eof then .pending
      else if c.buffer = [] then .eof
      else .line c.buffer []

/-- `raw.decode("ascii")` succeeds. -/
def Ascii (raw : List Byte) : Prop := ∀ b ∈ raw, b.value < 128

instance (raw : List Byte) : Decidable (Ascii raw) := inferInstanceAs (Decidable (∀ _ ∈ _, _))

/-- `.rstrip("\r\n")`. -/
def rstrip (raw : List Byte) : List Byte :=
  (raw.reverse.dropWhile fun b => b.value = 13 ∨ b.value = 10).reverse

/-- `line.startswith("RPRT ")`. -/
def IsStatus (raw : List Byte) : Prop :=
  [82, 80, 82, 84, 32] <+: (rstrip raw).map Byte.value

instance (raw : List Byte) : Decidable (IsStatus raw) := inferInstanceAs (Decidable (_ <+: _))

/-- `_MAX_RESYNC`. -/
def maxResync : Nat := 4

/-- What the exchange does with a line it has read: it goes on, or ends. -/
def Exchange.take (x : Exchange) (raw : List Byte) : Exchange × Option Outcome :=
  let y := { x with lines := x.lines ++ [raw] }
  match x.kind with
  | .query responseLines =>
      if ¬ Ascii raw then (x, some .undecodable)
      else if IsStatus raw then (y, some .status)
      else (y, if responseLines ≤ y.lines.length then some .returned else none)
  | .command =>
      -- only `_read_line`, which reads the first line, insists on ASCII
      if x.stage ≠ .resync ∧ ¬ Ascii raw then (x, some .undecodable)
      else if IsStatus raw ∨ maxResync ≤ y.lines.length then (y, some .parsed)
      else ({ y with stage := .resync }, none)

/-! ## Steps -/

inductive Action where
  | connect
  | close
  /-- The gate lets an exchange through. -/
  | start (kind : Kind)
  /-- `_drain_stale` reads what is there. -/
  | drained
  /-- It has waited a millisecond, and the command is written. -/
  | written
  | refused
  /-- The server answers the oldest command of a connection. -/
  | answered (connection : Nat) (lines : List (List UInt8))
  /-- So many bytes arrive. -/
  | delivered (connection count : Nat)
  | serverClosed (connection : Nat)
  /-- A `readline` ends, or finds the end of the stream. -/
  | read
  /-- The millisecond of the resynchronisation passes. -/
  | windowPassed
  /-- A timeout or an error of the connection. -/
  | failed
  /-- The caller is cancelled. -/
  | cancelled
deriving DecidableEq

namespace RigctldTransport

variable (s : RigctldTransport)

def put (k : Nat) (c : Connection) : RigctldTransport :=
  { s with connections := s.connections.set k c }

/-- Part of the answer to this exchange is yet to be read. -/
def Unread (x : Exchange) : Prop :=
  ∃ c ∈ s.connections[x.connection]?, x.id ∈ c.unanswered ∨ ∃ b ∈ c.wire ++ c.buffer, b.owner = x.id

instance (x : Exchange) : Decidable (s.Unread x) := inferInstanceAs
    (Decidable (∃ _ ∈ _, _ ∨ ∃ _ ∈ _, _))

/-- The exchange leaves the gate. -/
def finish (x : Exchange) (outcome : Outcome) : RigctldTransport :=
  { s with exchange := none, ended := ⟨x, outcome, s.Unread x⟩ :: s.ended }

/-- `_retire_connection`, of the connection that was captured. -/
def retire (k : Nat) : RigctldTransport :=
  { s with current := if s.current = some k then none else s.current }

/-- A line, or what takes its place, has been read by the exchange. -/
def reads (x : Exchange) (c : Connection) : Option RigctldTransport :=
  match c.readline with
  | .line raw rest =>
      let s := s.put x.connection { c with buffer := rest }
      match x.take raw with
      | (x, none) => some { s with exchange := some x }
      | (x, some outcome) => some (s.finish x outcome)
  | .overrun rest => some ((s.put x.connection { c with buffer := rest }).finish x .overlong)
  | .eof => some ((s.retire x.connection).finish x .closed)
  | .pending => none

/-- What the exchange in progress does next. -/
def act (x : Exchange) (c : Connection) : Action → Option RigctldTransport
  | .drained =>
      if x.stage ≠ .draining then none
      else if c.buffer ≠ [] then some (s.put x.connection { c with buffer := c.buffer.drop 4096 })
      else if c.eof then some ((s.retire x.connection).finish x .closed)
      else none
  | .written =>
      if x.stage = .draining ∧ s.current = some x.connection then
        some { s.put x.connection { c with unanswered := c.unanswered ++ [x.id] } with
          exchange := some { x with stage := .reading } }
      else none
  | .refused => if x.stage = .draining then some (s.finish x .refused) else none
  | .read => if x.stage ≠ .draining then s.reads x c else none
  | .windowPassed => if x.stage = .resync then some (s.finish x .parsed) else none
  | .failed => some ((s.retire x.connection).finish x .closed)
  | .cancelled => some ((s.retire x.connection).finish x .cancelled)
  | _ => none

/-- The lines of an answer, each with its newline. -/
def answer (owner : Nat) (lines : List (List UInt8)) : List Byte :=
  lines.flatMap fun line => (line ++ [10]).map (Byte.mk owner)

def step (s : RigctldTransport) (action : Action) : Option RigctldTransport :=
  match action with
  | .connect =>
      if s.current.isSome then some s
      else
        some { s with connections := s.connections ++ [{}], current := some s.connections.length }
  | .close => some { s with current := none }
  | .start kind =>
      match s.exchange, s.current, kind with
      | some _, _, _ | _, none, _ | _, _, .query 0 => none
      | none, some k, kind => some { s with
          exchange := some { id := s.started, kind, connection := k }
          started := s.started + 1 }
  | .answered k lines =>
      s.connections[k]?.bind fun c =>
        match c.unanswered with
        | [] => none
        | id :: ids =>
            if ∀ line ∈ lines, 10 ∉ line then
              some (s.put k { c with unanswered := ids, wire := c.wire ++ answer id lines })
            else none
  | .delivered k count =>
      s.connections[k]?.map fun c =>
        s.put k { c with buffer := c.buffer ++ c.wire.take count, wire := c.wire.drop count }
  | .serverClosed k =>
      s.connections[k]?.map fun c => s.put k { c with unanswered := [], wire := [], eof := true }
  | .drained | .written | .refused | .read | .windowPassed | .failed | .cancelled =>
      s.exchange.bind fun x => s.connections[x.connection]?.bind fun c => s.act x c action

/-! ## Safety -/

structure Safe : Prop where
  /-- Each byte of a line that an exchange has taken answers its own command. -/
  own : ∀ x, s.exchange = some x ∨ x ∈ s.ended.map Ended.exchange →
    ∀ line ∈ x.lines, ∀ b ∈ line, b.owner = x.id
  /-- A connection on which an exchange has ended without having read its
  whole answer is retired. -/
  retired : ∀ e ∈ s.ended, e.unread → s.current ≠ some e.exchange.connection

/-- Where the exchange stops at what it reads and leaves its connection
open: what remains behind. -/
def stopsBefore (x : Exchange) : ReadLine → Option (List Byte)
  | .line raw rest => if (x.take raw).2.isSome then some rest else none
  | .overrun rest => some rest
  | .eof | .pending => none

/-- On a connection in place, the line at which an exchange stops is the last one of its answer, and
the window of the resynchronisation passes only when all of the answer has been read. -/
def Orderly (action : Action) : Prop :=
  ∀ x ∈ s.exchange, ∀ c ∈ s.connections[x.connection]?, s.current = some x.connection →
    (action = .read → ∀ rest ∈ stopsBefore x c.readline, c.wire = [] ∧ rest = []) ∧
      (action = .windowPassed → c.wire = [] ∧ c.buffer = [])

instance (action : Action) : Decidable (s.Orderly action) :=
  inferInstanceAs (Decidable (∀ _ ∈ _, ∀ _ ∈ _, _ → (_ → ∀ _ ∈ _, _) ∧ (_ → _)))

end RigctldTransport

end Rigplane.RigctldClient
