import Mathlib.Data.List.Basic
import Mathlib.Logic.Function.Basic
import Rigplane.Lib.Runs

/-!
# The gestures of the frontend

`ManagedTxController` of `tx-controller/managed-controller.ts`: a generation that each gesture
counts up, the flow, the flag that a `ptt_on` was attempted, and the cached audio preparation.

A gesture runs up to its first await at once.  What goes on behind an await is an `OnTask`, under
the generation of its gesture, and an action of its own: the promise may settle at any time and in
each way.  A `refresh` that was begun has captured the ON cycle.  Whether a snapshot of the server
ends the cycle (its revision, its freshness, its intent) is part of the action that ends the
`refresh`.

`made`, `submissions`, `keyDowns` and `releases` are a record of the run; no gesture reads them.
The published state, the latched error and the local audio itself are left out.
-/

namespace Rigplane.TxController

inductive Flow where
  | idle
  | ptt
  | transmit
deriving DecidableEq

/-- `OnCycle`; a completed cycle has its serial number. -/
inductive OnCycle where
  | none
  | pending
  | cycle (serial : Nat)
deriving DecidableEq

/-- How a promise of `sendPtt` or `submit` settles. -/
inductive Outcome where
  | accepted
  | rejected
  | throws
deriving DecidableEq

inductive Operation where
  | pttOn
  | pttOff
  | transmitOn
  | forceOff
deriving DecidableEq

/-! ## The record -/

/-- A gesture or a cleanup. -/
inductive Made where
  | pttOn
  | pttOff
  | transmitOn
  /-- A `transmitOn` on a snapshot that is not fresh. -/
  | refusedTransmitOn
  | forceOff
  /-- A `forceOff` while one is in flight. -/
  | joinedForceOff
  | releaseSession
  | abandonSession
  | dispose
  /-- A snapshot of the server has ended the ON cycle. -/
  | superseded
deriving DecidableEq

structure Submission where
  operation : Operation
  /-- What was made since the gesture it is submitted for. -/
  later : List Made
deriving DecidableEq

/-- A `ptt_on` that was submitted and not answered rejected, without a `ptt_off` or `force_off`
submitted since. -/
structure KeyDown where
  generation : Nat
  /-- A `pttOn`, `abandonSession`, `dispose` or superseding snapshot came since, or its own promise
  threw while its gesture was the last one. -/
  forgotten : Bool
deriving DecidableEq

/-- A call of `pttOff`: the key-downs at the time, and whether it submitted `ptt_off`. -/
structure Release where
  keyDowns : List KeyDown
  sent : Bool
deriving DecidableEq

/-! ## The controller -/

inductive Stage where
  /-- It awaits an audio preparation. -/
  | preparing (preparation : Nat)
  /-- A `transmitOn` awaits the answer to its `ptt_off`. -/
  | releasing
  /-- It awaits the answer to its `ptt_on` or `transmit_on`. -/
  | sending
deriving DecidableEq

/-- `#sendPttOn` or `#sendTransmitOn` at an await. -/
structure OnTask where
  transmit : Bool
  stage : Stage
  /-- How much had been made with its own gesture. -/
  since : Nat
deriving DecidableEq

/-- `#forceOffInFlight`. -/
inductive ForceOff where
  | none
  | submitted
  /-- The answer has come, and the promise is still in the field. -/
  | settled
deriving DecidableEq

structure ManagedTxController where
  generation : Nat := 0
  flow : Flow := .idle
  pttAttempted : Bool := false
  onCycle : OnCycle := .none
  onCycleSerial : Nat := 0
  audioPreparation : Option Nat := none
  /-- The preparations begun so far, and how each has settled. -/
  preparations : Nat := 0
  ready : Nat → Option Bool := fun _ => none
  forceOffInFlight : ForceOff := .none
  /-- The task of the gesture of each generation. -/
  tasks : Nat → Option OnTask := fun _ => none
  /-- What each `refresh` has captured. -/
  refreshes : List OnCycle := []
  made : List Made := []
  submissions : List Submission := []
  keyDowns : List KeyDown := []
  releases : List Release := []

namespace ManagedTxController

def make (m : Made) (s : ManagedTxController) :
    ManagedTxController := { s with made := s.made ++ [m] }

/-- An OFF leaves no key-down. -/
def submit (operation : Operation) (later : List Made) (s : ManagedTxController) :
    ManagedTxController :=
  { s with
    submissions := s.submissions ++ [⟨operation, later⟩]
    keyDowns := if operation = .pttOff ∨ operation = .forceOff then [] else s.keyDowns }

/-- The key-downs that a condition meets are forgotten. -/
def forget (which : KeyDown → Bool) (s : ManagedTxController) : ManagedTxController :=
  { s with keyDowns := s.keyDowns.map fun k => { k with forgotten := k.forgotten || which k } }

def setTask (generation : Nat) (task : Option OnTask) (s : ManagedTxController) :
    ManagedTxController :=
  { s with tasks := Function.update s.tasks generation task }

/-- `#stopAudio`. -/
def stopAudio (s : ManagedTxController) : ManagedTxController := { s with audioPreparation := none }

/-- The preparation that `#prepareAudio` returns. -/
def preparation (s : ManagedTxController) : Nat := s.audioPreparation.getD s.preparations

/-- `#prepareAudio`. -/
def prepareAudio (s : ManagedTxController) : ManagedTxController :=
  match s.audioPreparation with
  | some _ => s
  | none => { s with audioPreparation := some s.preparations, preparations := s.preparations + 1 }

/-- The task of an ON gesture begins. -/
def begin (transmit : Bool) (s : ManagedTxController) : ManagedTxController :=
  s.prepareAudio.setTask s.generation (some ⟨transmit, .preparing s.preparation, s.made.length⟩)

/-- The next generation, with its flow. -/
def next (flow : Flow) (onCycle : OnCycle) (s : ManagedTxController) : ManagedTxController :=
  { s with generation := s.generation + 1, flow := flow, onCycle := onCycle }

def setAttempted (value : Bool) (s : ManagedTxController) : ManagedTxController :=
  { s with pttAttempted := value }

/-- The ON cycle ends without a gesture. -/
def endCycle (s : ManagedTxController) : ManagedTxController :=
  { s with onCycle := .none, flow := .idle }.stopAudio

/-! ## The gestures -/

/-- `pttOn`. -/
def pttOn (s : ManagedTxController) : ManagedTxController :=
  ((((s.make .pttOn).next .ptt .pending).setAttempted false).forget fun _ => true).begin false

/-- `pttOff`. -/
def pttOff (s : ManagedTxController) : ManagedTxController :=
  let t := ((s.next .idle .none).setAttempted false).stopAudio
  let t := { t with releases := t.releases ++ [⟨s.keyDowns, s.pttAttempted⟩] }
  if s.pttAttempted then t.submit .pttOff [] else t

/-- `transmitOn`. -/
def transmitOn (fresh : Bool) (s : ManagedTxController) : ManagedTxController :=
  if !fresh then s.make .refusedTransmitOn
  else ((s.make .transmitOn).next .transmit .pending).begin true

/-- `forceOff`. -/
def forceOff (s : ManagedTxController) : ManagedTxController :=
  if s.forceOffInFlight ≠ .none then s.make .joinedForceOff
  else
    { ((s.make .forceOff).next .idle .none).setAttempted false with
      forceOffInFlight := .submitted }.submit .forceOff []

/-- `releaseSession`. -/
def releaseSession (s : ManagedTxController) : ManagedTxController :=
  let s := s.make .releaseSession
  if s.flow = .ptt ∨ s.pttAttempted = true then s.pttOff else (s.next .idle .none).stopAudio

/-- `abandonSession`, `dispose` and `#cleanupSupersededOn`. -/
def abandon (m : Made) (s : ManagedTxController) : ManagedTxController :=
  ((((s.make m).next .idle .none).setAttempted false).forget fun _ => true).stopAudio

def refresh (s : ManagedTxController) : ManagedTxController :=
  { s with refreshes := s.refreshes ++ [s.onCycle] }

/-- `#completeOnCycle`. -/
def completeOnCycle (s : ManagedTxController) : ManagedTxController :=
  { s with
    onCycle := .cycle (s.onCycleSerial + 1)
    onCycleSerial := s.onCycleSerial + 1 }.refresh

/-! ## Behind the awaits -/

/-- The task still stands for the last gesture. -/
def isCurrent (s : ManagedTxController) (generation : Nat) (task : OnTask) : Bool :=
  generation == s.generation && s.flow == if task.transmit then .transmit else .ptt

/-- The audio of a task is prepared. -/
def prepared (generation : Nat) (task : OnTask) (s : ManagedTxController) : ManagedTxController :=
  let later := s.made.drop task.since
  if task.transmit then
    if s.pttAttempted then
      (s.submit .pttOff []).setTask generation (some { task with stage := .releasing })
    else (s.submit .transmitOn later).setTask generation (some { task with stage := .sending })
  else
    let t := ((s.setAttempted true).submit .pttOn later).setTask generation
      (some { task with stage := .sending })
    { t with keyDowns := t.keyDowns ++ [⟨generation, false⟩] }

/-- The `ptt_off` of a `transmitOn` was accepted. -/
def released (generation : Nat) (task : OnTask) (s : ManagedTxController) : ManagedTxController :=
  ((s.setAttempted false).submit .transmitOn (s.made.drop task.since)).setTask generation
    (some { task with stage := .sending })

/-- A `ptt_on` was answered rejected. -/
def reject (generation : Nat) (s : ManagedTxController) : ManagedTxController :=
  { s with keyDowns := s.keyDowns.filter fun k => k.generation != generation }

/-- The answer to a `ptt_on` or a `transmit_on`. -/
def answered (generation : Nat) (task : OnTask) (outcome : Outcome) (s : ManagedTxController) :
    ManagedTxController :=
  let current := s.isCurrent generation task
  let s := s.setTask generation none
  let s := if !task.transmit && outcome == .rejected then s.reject generation else s
  if !current then s
  else if outcome = .accepted then s.completeOnCycle
  else if task.transmit then s.endCycle
  else ((s.setAttempted false).forget fun k => k.generation == generation).endCycle

/-! ## Runs -/

inductive Action where
  | pttOn
  | pttOff
  | transmitOn (fresh : Bool)
  /-- `forceOff`, and the death of the audio. -/
  | forceOff
  | releaseSession
  | abandonSession
  | dispose
  | refresh
  /-- A promise of `startAudio` settles. -/
  | audioSettled (preparation : Nat) (ready : Bool)
  /-- A task goes on with its audio prepared or refused. -/
  | prepared (generation : Nat)
  /-- A `ptt_off` of a `transmitOn` is answered. -/
  | released (generation : Nat) (outcome : Outcome)
  | answered (generation : Nat) (outcome : Outcome)
  /-- `force_off` is answered, and the promise in the field is cleared. -/
  | forceOffSettled
  | forceOffCleared
  /-- A `refresh` ends, with a snapshot that ends an ON cycle or not. -/
  | refreshed (captured : OnCycle) (supersedes : Bool)
deriving DecidableEq

def step (s : ManagedTxController) : Action → Option ManagedTxController
  | .pttOn => some s.pttOn
  | .pttOff => some (s.make .pttOff).pttOff
  | .transmitOn fresh => some (s.transmitOn fresh)
  | .forceOff => some s.forceOff
  | .releaseSession => some s.releaseSession
  | .abandonSession => some (s.abandon .abandonSession)
  | .dispose => some (s.abandon .dispose)
  | .refresh => some s.refresh
  | .audioSettled preparation ready =>
      if s.ready preparation = none ∧ preparation < s.preparations then
        let t := { s with ready := Function.update s.ready preparation (some ready) }
        if !ready && s.audioPreparation == some preparation then some t.stopAudio else some t
      else none
  | .prepared generation =>
      match s.tasks generation with
      | some ⟨transmit, .preparing preparation, since⟩ =>
          (s.ready preparation).map fun ready =>
            let task : OnTask := ⟨transmit, .preparing preparation, since⟩
            if ready && s.isCurrent generation task then s.prepared generation task
            else s.setTask generation none
      | _ => none
  | .released generation outcome =>
      match s.tasks generation with
      | some ⟨transmit, .releasing, since⟩ =>
          let task : OnTask := ⟨transmit, .releasing, since⟩
          if !s.isCurrent generation task then some (s.setTask generation none)
          else if outcome = .accepted then some (s.released generation task)
          else some (s.setTask generation none).endCycle
      | _ => none
  | .answered generation outcome =>
      match s.tasks generation with
      | some ⟨transmit, .sending, since⟩ =>
          some (s.answered generation ⟨transmit, .sending, since⟩ outcome)
      | _ => none
  | .forceOffSettled =>
      if s.forceOffInFlight = .submitted then
        some { s with forceOffInFlight := .settled }.stopAudio
      else none
  | .forceOffCleared =>
      if s.forceOffInFlight = .settled then some { s with forceOffInFlight := .none } else none
  | .refreshed captured supersedes =>
      if captured ∈ s.refreshes then
        let t := { s with refreshes := s.refreshes.erase captured }
        match captured with
        | .cycle _ =>
            if captured = s.onCycle ∧ s.flow ≠ .idle ∧ supersedes = true then
              some (t.abandon .superseded)
            else some t
        | _ => some t
      else none

/-- A new controller. -/
def init : ManagedTxController := {}

end ManagedTxController

end Rigplane.TxController
