import Rigplane.Lib.Runs
import Rigplane.StateStore.Retention

/-!
# Coalescing of meter observations

`MeterObservationCoalescer` of `core/acquisition_scheduler.py`.  Samples of all meter paths wait in
one list, each with its own policy.  A flush hands the latest sample of each path to the state
store.

`serial`, `recorded` and `applied` are not in the source.  A sample is numbered as it is recorded,
and the coalescer remembers what it recorded and what it handed to the store.
-/

namespace Rigplane.Acquisition

open StatePipeline StateStore

/-- `MeterCoalescingPolicy`, with the checks of its `__post_init__`. -/
structure MeterCoalescingPolicy where
  windowSeconds : Time
  maxSamples : Option Nat := none
  window_nonneg : 0 ≤ windowSeconds
  maxSamples_pos : ∀ k ∈ maxSamples, 0 < k
deriving DecidableEq

/-- `_PendingMeterSample`: only meters are recorded. -/
structure PendingMeterSample (V : Type) where
  observation : Observation V
  policy : MeterCoalescingPolicy
  serial : Nat
  isMeter : observation.path.family = .meters

structure MeterObservationCoalescer (V : Type) where
  pending : List (PendingMeterSample V) := []
  droppedSampleCount : Nat := 0
  coalescedSampleCount : Nat := 0
  /-- Every sample that was recorded, oldest first. -/
  recorded : List (PendingMeterSample V) := []
  /-- Every sample that was handed to the store. -/
  applied : List (PendingMeterSample V) := []

namespace PendingMeterSample

variable {V : Type}

def path (x : PendingMeterSample V) : FieldPath := x.observation.path

/-- When the window of the sample ends. -/
def flushAt (x : PendingMeterSample V) : Time :=
  x.observation.timestampMonotonic + x.policy.windowSeconds

/-- The loop over `latest_by_path`. -/
def latestByPath (samples : List (PendingMeterSample V)) : Dict FieldPath (PendingMeterSample V) :=
  samples.foldl (fun latest x => latest.set x.path x) .empty

/-- `sorted(..., key=lambda item: str(item.path))`. -/
def sorted (samples : List (PendingMeterSample V)) : List (PendingMeterSample V) :=
  samples.insertionSort fun x y => x.path.str ≤ y.path.str

end PendingMeterSample

open PendingMeterSample

namespace MeterObservationCoalescer

variable {V : Type}

/-- `record`. -/
def record (c : MeterObservationCoalescer V) (o : Observation V) (policy : MeterCoalescingPolicy) :
    Except String (MeterObservationCoalescer V) :=
  if hmeter : o.path.family ≠ .meters then
    .error (o.path.str ++ ": meter coalescing requires meters")
  else
    let sample : PendingMeterSample V := ⟨o, policy, c.recorded.length, not_not.mp hmeter⟩
    let c := { c with pending := c.pending ++ [sample], recorded := c.recorded ++ [sample] }
    match policy.maxSamples with
    | none => .ok c
    | some maxSamples =>
        if c.pending.length ≤ maxSamples then .ok c
        else
          let overflow := c.pending.length - maxSamples
          .ok { c with
            pending := c.pending.drop overflow
            droppedSampleCount := c.droppedSampleCount + overflow }

variable [PyValue V] [DecidableEq V]

/-- The loop of `_flush_samples`, with the change sets it collects. -/
def applyInOrder : List (PendingMeterSample V) → Store V →
    Except String (List (ChangeSet V)) × Store V
  | [], store => (.ok [], store)
  | x :: rest, store =>
      match store.apply x.observation with
      | (.error text, store) => (.error text, store)
      | (.ok result, store) =>
          let (results, store) := applyInOrder rest store
          (results.map (result :: ·), store)

/-- `_flush_samples`. -/
def flushSamples (c : MeterObservationCoalescer V) (store : Store V)
    (samples : List (PendingMeterSample V)) :
    Except String (ChangeSet V) × MeterObservationCoalescer V × Store V :=
  let latest := (latestByPath samples).values
  let c := { c with
    coalescedSampleCount := c.coalescedSampleCount + (samples.length - latest.length) }
  match Store.newest (latest.map PendingMeterSample.observation) with
  | none => (.error "max() iterable argument is empty", c, store)
  | some timestamp =>
      let c := { c with applied := c.applied ++ sorted latest }
      match applyInOrder (sorted latest) store with
      | (.error text, store) => (.error text, c, store)
      | (.ok results, store) =>
          match results.getLast? with
          | none => (.error "AssertionError", c, store)
          | some result =>
              (.ok {
                revision := result.revision
                freshnessRevision := result.freshnessRevision
                observationSeq := result.observationSeq
                changes := results.flatMap ChangeSet.changes
                timestampMonotonic := timestamp
                sources := results.flatMap ChangeSet.sources
                coalesced := true
                observedPaths := results.flatMap ChangeSet.observedPaths
                freshnessPaths := results.flatMap ChangeSet.freshnessPaths }, c, store)

/-- `flush`. -/
def flush (c : MeterObservationCoalescer V) (store : Store V) :
    Except String (Option (ChangeSet V)) × MeterObservationCoalescer V × Store V :=
  if c.pending.isEmpty then (.ok none, c, store)
  else
    let (result, c, store) := { c with pending := [] }.flushSamples store c.pending
    (result.map some, c, store)

/-- The paths whose latest pending sample is due. -/
def duePaths (c : MeterObservationCoalescer V) (now : Time) : List FieldPath :=
  ((latestByPath c.pending).items.filter fun item => item.2.flushAt ≤ now).map Prod.fst

/-- `flush_due`. -/
def flushDue (c : MeterObservationCoalescer V) (store : Store V) (now : Time) :
    Except String (Option (ChangeSet V)) × MeterObservationCoalescer V × Store V :=
  let duePaths := c.duePaths now
  if duePaths.isEmpty then (.ok none, c, store)
  else
    let due := c.pending.filter fun x => x.path ∈ duePaths
    let pending := c.pending.filter fun x => ¬ x.path ∈ duePaths
    let (result, c, store) := { c with pending := pending }.flushSamples store due
    (result.map some, c, store)

end MeterObservationCoalescer

/-! ## Runs -/

/-- A call of the coalescer, or of the store by another producer. -/
inductive MeterCall (V : Type) where
  | record (observation : Observation V) (policy : MeterCoalescingPolicy)
  | flush
  | flushDue (now : Time)
  | elsewhere (op : Op V)

structure MeterSession (V : Type) where
  coalescer : MeterObservationCoalescer V := {}
  store : Store V
  /-- How many samples had been recorded at the last `flush`. -/
  flushedAt : Nat := 0
  /-- Another producer has called the store since then. -/
  overwritten : Bool := false

namespace MeterSession

variable {V : Type} [PyValue V] [DecidableEq V]

def step (s : MeterSession V) : MeterCall V → Option (MeterSession V)
  | .record o policy =>
      match s.coalescer.record o policy with
      | .error _ => some s
      | .ok coalescer => some { s with coalescer }
  | .flush =>
      let (_, coalescer, store) := s.coalescer.flush s.store
      some { coalescer, store, flushedAt := s.coalescer.recorded.length }
  | .flushDue now =>
      let (_, coalescer, store) := s.coalescer.flushDue s.store now
      some { s with coalescer, store }
  | .elsewhere op => some { s with store := StateStore.step s.store op, overwritten := true }

end MeterSession

end Rigplane.Acquisition
