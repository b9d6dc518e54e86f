import Mathlib.Logic.Relation
import Rigplane.Lib.Runs
import Rigplane.StateStore.Operations

/-!
# What a call may write

`Write` lists the writes the operations are made of: one observation, one removal, one
sweep for stale fields, a new provider generation, the age of an entry, the caches, and
the fields a snapshot does not show.  `step_writes` says that every call is a sequence of
them, so a property of runs needs one case per write and no case per operation.  One call is
not: a `discard` that raises at a text has popped the paths in front of it and records
nothing (`Op.Recorded`).

The first such property is that the caches agree with the entries (`CacheOk`), whence a
snapshot shows exactly the entries (`snapshot_field`).
-/

namespace Rigplane.StateStore

open StatePipeline PyValue

variable {V : Type} [PyValue V]

namespace Store

/-! ## Removals by path and by text -/

/-- The paths of the items in front of the first that does not parse. -/
def leading : List PathItem → List FieldPath
  | [] => []
  | item :: rest =>
      match item.parse with
      | .ok path => path :: leading rest
      | .error _ => []

/-- The error of the first item that does not parse. -/
def firstError : List PathItem → Option ParseError
  | [] => none
  | item :: rest =>
      match item.parse with
      | .ok _ => firstError rest
      | .error error => some error

theorem popItems_eq (items : List PathItem) (s : Store V) :
    popItems items s = ((match firstError items with
      | none => .ok (popEach (leading items) s).1
      | some error => .error error), (popEach (leading items) s).2) := by
  induction items generalizing s with
  | nil => rfl
  | cons item rest ih =>
      rw [popItems, firstError, leading]
      cases item.parse with
      | error error => rfl
      | ok path =>
          dsimp only
          rw [popEach]
          cases s.entries.get? path with
          | none => exact ih s
          | some entry =>
              dsimp only
              rw [ih]
              cases firstError rest <;> rfl

/-- Items that all parse are discarded as their paths. -/
theorem discard_of_parses {items : List PathItem} (h : firstError items = none) (s : Store V) :
    s.discard items =
      (.ok (s.discardPaths (leading items)).1, (s.discardPaths (leading items)).2) := by
  rw [discard, popItems_eq, h]
  rfl

/-- The first item that does not parse leaves the removals in front of it unrecorded. -/
theorem discard_of_error {items : List PathItem} {error : ParseError}
    (h : firstError items = some error) (s : Store V) :
    s.discard items = (.error error, (popEach (leading items) s).2) := by
  rw [discard, popItems_eq, h]

/-- The calls inside the store hand `discard` paths, and never raise. -/
theorem discard_paths (paths : List FieldPath) (s : Store V) :
    s.discard (paths.map .path) = (.ok (s.discardPaths paths).1, (s.discardPaths paths).2) := by
  have hitems : firstError (paths.map .path) = none ∧ leading (paths.map .path) = paths := by
    induction paths with
    | nil => exact ⟨rfl, rfl⟩
    | cons path rest ih => exact ⟨ih.1, congrArg (path :: ·) ih.2⟩
  rw [discard_of_parses hitems.1, hitems.2]

theorem popEach_absent {paths : List FieldPath} {s : Store V}
    (h : ∀ path ∈ paths, s.entries.get? path = none) : popEach paths s = ([], s) := by
  induction paths with
  | nil => rfl
  | cons path rest ih =>
      rw [popEach, h path List.mem_cons_self]
      exact ih fun q hq => h q (List.mem_cons_of_mem path hq)

/-! ## One write -/

/-- The removal of some paths, with its record. -/
def removed (s : Store V) (paths : List FieldPath) : Store V :=
  let (changes, s) := popEach paths s
  s.recordRemoved changes

variable [Rounding]

/-- A sweep for stale fields, with its record. -/
def swept (s : Store V) (now : Time) (due : List FieldPath) : Store V :=
  let (paths, s) := s.pathsInOrder
  let (transitions, requests, s) := staleEach now due paths s
  s.appendHistory [] transitions requests

/-- One write. -/
inductive Write : Store V → Store V → Prop
  | silent (s : Store V) (clock : Nat → Time) (retention : Option (RelativeVfoRetention V)) :
      Write s { s with clock := clock, retention := retention }
  | observe (s : Store V) (o : Observation V) : Write s (s.applyOne o).2
  | remove (s : Store V) (paths : List FieldPath) : Write s (s.removed paths)
  | sweep (s : Store V) (now : Time) (due : List FieldPath) : Write s (s.swept now due)
  | begin (s : Store V) : Write s s.beginProviderGeneration.2
  | reage (s : Store V) (expiresAt : Time) (path : FieldPath) :
      Write s (reageEntry expiresAt s path)
  | project (s : Store V) : Write s s.snapshotFields.2
  | field (s : Store V) (path : FieldPath) : Write s (s.field path).2

/-- A sequence of writes. -/
abbrev Writes : Store V → Store V → Prop := Relation.ReflTransGen Write

theorem Write.writes {s s' : Store V} (h : Write s s') : Writes s s' := .single h

/-! ## Every call is a sequence of writes -/

theorem clockRead_writes (s : Store V) : Writes s s.clockRead :=
  (Write.silent s _ s.retention).writes

theorem emptyChangeset_writes (s : Store V) (timestamp : Option Time) :
    Writes s (s.emptyChangeset timestamp).2 := by
  cases timestamp with
  | none => exact s.clockRead_writes
  | some t => exact .refl

theorem mergeChangesets_writes (s : Store V) (parts : List (ChangeSet V)) :
    Writes s (s.mergeChangesets parts).2 := by
  cases parts with
  | nil => exact s.emptyChangeset_writes none
  | cons part rest => exact .refl

theorem setRetention_writes (s : Store V) (r : RelativeVfoRetention V) :
    Writes s (s.setRetention r) :=
  (Write.silent s s.clock _).writes

theorem clearRetention_writes (s : Store V) : Writes s s.clearRetention :=
  (Write.silent s s.clock _).writes

theorem applyEach_writes (batch : List (Observation V)) (s : Store V) :
    Writes s (applyEach batch s).2 := by
  induction batch generalizing s with
  | nil => exact .refl
  | cons o rest ih => exact (Write.observe s o).writes.trans (ih _)

theorem applyObservationBatch_writes (s : Store V) (batch : List (Observation V)) :
    Writes s (s.applyObservationBatch batch).2 := by
  rw [applyObservationBatch]
  split
  · exact s.emptyChangeset_writes _
  · exact (applyEach_writes batch s).trans (mergeChangesets_writes _ _)

theorem discardPaths_writes (s : Store V) (paths : List FieldPath) :
    Writes s (s.discardPaths paths).2 :=
  (Write.remove s paths).writes.trans (clockRead_writes _)

theorem expireRelativeVfo_writes (s : Store V) (now : Time) :
    Writes s (s.expireRelativeVfo now).2 := by
  rw [expireRelativeVfo]
  split
  · exact .refl
  · split
    · exact .refl
    · exact s.clearRetention_writes

theorem markStaleAt_writes (s : Store V) (now : Time) : Writes s (s.markStaleAt now).2 :=
  (s.expireRelativeVfo_writes now).trans (Write.sweep _ now _).writes

theorem markStaleDue_writes (s : Store V) (now : Option Time) :
    Writes s (s.markStaleDue now).2 := by
  cases now with
  | none => exact s.clockRead_writes.trans (markStaleAt_writes _ _)
  | some t => exact s.markStaleAt_writes t

theorem resetRetention_writes (s : Store V) (generation : Int) :
    Writes s (s.resetRetention generation).2 := by
  rw [resetRetention]
  split
  · exact s.emptyChangeset_writes none
  · exact (setRetention_writes s _).trans
      ((clearRetention_writes _).trans (discardPaths_writes _ _))

theorem expireBefore_writes (s : Store V) (newestAt : Time) :
    Writes s (s.expireBefore newestAt).2 := by
  rw [expireBefore]
  split
  · exact .refl
  · split
    · exact .refl
    · dsimp only
      split <;> exact s.markStaleAt_writes newestAt

theorem bootstrap_writes (s : Store V) (r : RelativeVfoRetention V) (completeAt : Time)
    (before : List (ChangeSet V)) : Writes s (s.bootstrap r completeAt before).2 := by
  rw [bootstrap]
  dsimp only
  split
  · exact s.setRetention_writes _
  · exact (setRetention_writes s _).trans ((discardPaths_writes _ _).trans
      ((applyObservationBatch_writes _ _).trans
        ((setRetention_writes _ _).trans (mergeChangesets_writes _ _))))

theorem reageLeaf_writes (expiresAt : Time) (s : Store V) (path : FieldPath) :
    Writes s (reageLeaf expiresAt s path) := by
  rw [reageLeaf]
  split
  · exact (Write.reage s expiresAt path).writes
  · exact (Write.reage s expiresAt path).writes.trans (Write.reage _ expiresAt _).writes

theorem foldl_reageLeaf_writes (expiresAt : Time) (paths : List FieldPath) (s : Store V) :
    Writes s (paths.foldl (reageLeaf expiresAt) s) := by
  induction paths generalizing s with
  | nil => exact .refl
  | cons path rest ih => exact (reageLeaf_writes expiresAt s path).trans (ih _)

theorem patch_writes (s : Store V) (r : RelativeVfoRetention V) (expiresAt : Time)
    (leaves : List (Observation V)) (before : List (ChangeSet V)) :
    Writes s (s.patch r expiresAt leaves before).2 := by
  rw [patch]
  split
  · exact .refl
  · dsimp only
    split
    · exact (applyObservationBatch_writes s _).trans (mergeChangesets_writes _ _)
    · exact (applyObservationBatch_writes s _).trans ((setRetention_writes _ _).trans
        ((foldl_reageLeaf_writes _ _ _).trans (mergeChangesets_writes _ _)))

theorem commitStaged_writes (s : Store V) (leaves : List (Observation V))
    (before : List (ChangeSet V)) : Writes s (s.commitStaged leaves before).2 := by
  rw [commitStaged]
  split
  · exact mergeChangesets_writes _ _
  · split
    · exact s.patch_writes _ _ _ _
    · exact s.bootstrap_writes _ _ _
    · exact mergeChangesets_writes _ _

theorem stage_writes (s : Store V) (leaves : List (Observation V)) :
    Writes s (s.stage leaves) :=
  (Write.silent s s.clock _).writes

theorem snapshot_writes (s : Store V) : Writes s s.snapshot.2 :=
  s.clockRead_writes.trans (Write.project _).writes

variable [DecidableEq V]

theorem applyRelative_writes (s : Store V) (batch : List (Observation V)) (generation : Int) :
    Writes s (s.applyRelative batch generation).2 := by
  rw [applyRelative]
  split
  · exact s.applyObservationBatch_writes batch
  · split
    · exact s.emptyChangeset_writes _
    · dsimp only
      split
      · exact s.emptyChangeset_writes none
      · split
        · exact (expireBefore_writes s _).trans
            ((resetRetention_writes _ _).trans (mergeChangesets_writes _ _))
        · exact (expireBefore_writes s _).trans
            ((stage_writes _ _).trans (commitStaged_writes _ _ _))

theorem apply_writes (s : Store V) (o : Observation V) : Writes s (s.apply o).2 := by
  rw [apply]
  split
  · exact s.emptyChangeset_writes _
  · split
    · split
      · exact s.applyRelative_writes _ _
      · exact (Write.observe s o).writes
    · exact (Write.observe s o).writes

theorem configureRetention_writes (s : Store V) (generation : Int) (maxAge window : Time) :
    Writes s (s.configureRetention generation maxAge window).2 := by
  rw [configureRetention]
  split
  · exact .refl
  · split
    · exact s.clockRead_writes
    · exact s.clockRead_writes.trans ((discardPaths_writes _ _).trans
        ((setRetention_writes _ _).trans (applyRelative_writes _ _ _)))

end Store

/-! ## Runs -/

open Store

variable [Rounding] [DecidableEq V]

/-- A `discard` that raises has removed nothing. -/
def Op.Recorded (s : Store V) : Op V → Prop
  | .discard items => firstError items = none ∨ ∀ path ∈ leading items, s.entries.get? path = none
  | _ => True

/-- A call as a step of a machine, in which every call is enabled. -/
def machine (s : Store V) (op : Op V) : Option (Store V) := some (step s op)

theorem machine_exec (s : Store V) (ops : List (Op V)) :
    Runs.exec machine s ops = some (run s ops) := by
  induction ops generalizing s with
  | nil => rfl
  | cons op rest ih => exact ih _

theorem step_writes {s : Store V} {op : Op V} (h : op.Recorded s) : Writes s (step s op) := by
  cases op with
  | apply o => exact s.apply_writes o
  | applyCurrent o => exact s.apply_writes _
  | applyRelative batch generation => exact s.applyRelative_writes batch generation
  | configureRetention generation maxAge window =>
      exact s.configureRetention_writes generation maxAge window
  | resetRetention generation => exact s.resetRetention_writes generation
  | discard items =>
      cases herror : firstError items with
      | none =>
          rw [step, discard_of_parses herror]
          exact s.discardPaths_writes _
      | some error =>
          have habsent := h.resolve_left (by rw [herror]; simp)
          rw [step, discard_of_error herror, popEach_absent habsent]
  | markStaleDue now => exact s.markStaleDue_writes now
  | beginProviderGeneration => exact (Write.begin s).writes
  | snapshot => exact s.snapshot_writes
  | field path => exact (Write.field s path).writes

theorem run_writes {s : Store V} {ops : List (Op V)}
    (h : Runs.Along machine Op.Recorded s ops) : Writes s (run s ops) := by
  induction ops generalizing s with
  | nil => exact .refl
  | cons op rest ih => exact (step_writes h.1).trans (ih (h.2 _ rfl))

end Rigplane.StateStore
