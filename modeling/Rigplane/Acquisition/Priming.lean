import Rigplane.Acquisition.Requests
import Rigplane.Lib.RoundRobin

/-!
# Priming of unobserved fields

`prime_unobserved` goes around the field policies and queues at most `limit` paths a call.  What it
skips costs nothing, so a call either goes all the way around or queues `limit` paths, which takes
at least as many visits.  That is what the round-robin rule asks of a turn.

Between two calls anything may happen to the scheduler: only `prime_unobserved` moves its cursor.
-/

namespace Rigplane.Acquisition

open StatePipeline

variable {A : Type} [DecidableEq A]

/-- The arguments of `prime_unobserved`, but for the limit.  `availability path` is
`availability.get(path)`. -/
structure PrimeCall where
  observedPaths : List FieldPath
  reason : String := "prime-unobserved"
  availability : FieldPath → Option Bool := fun _ => none

/-- The variables of the loop. -/
structure PrimeState (A : Type) where
  scheduler : AcquisitionScheduler A
  queuedById : Dict String (AcquisitionRequest A) := .empty
  queuedPathCount : Nat := 0
  visited : Nat := 0

/-- The first positive one of the TTL, the cadence and the smallest age. -/
def primeMaxAge (policy : AcquisitionPolicy A) : Time :=
  ((policy.freshnessTtlSeconds.filter (0 < ·)).or (policy.cadenceSeconds.filter (0 < ·))).getD
    minReconciliationMaxAge

namespace AcquisitionScheduler

/-- The paths of the queued requests. -/
def pendingPaths (s : AcquisitionScheduler A) : List FieldPath :=
  s.requestsByKey.values.flatMap AcquisitionRequest.paths

/-- The paths that wait for the external CAT owner. -/
def deferredPaths (s : AcquisitionScheduler A) : List FieldPath :=
  s.deferred.values.flatMap PendingEnsureFresh.paths

/-- One visit of the loop. -/
def primePath (p : RadioAcquisitionProfile A) (call : PrimeCall) (pending : List FieldPath)
    (path : FieldPath) (policy : AcquisitionPolicy A) (st : PrimeState A) :
    Except String (PrimeState A) :=
  if path ∈ call.observedPaths ∨ path ∈ pending then .ok st
  else if (p.capabilityFor path).canPoll = true ∧ policy.cadenceSeconds ≠ none then .ok st
  else if call.availability path = some false then .ok st
  else
    match st.scheduler.ensureFresh p [path] (primeMaxAge policy) .background call.reason none with
    | .error text => .error text
    | .ok (result, scheduler) =>
        match result.request with
        | none => .ok { st with scheduler }
        | some request => .ok { st with
            scheduler
            queuedPathCount := st.queuedPathCount + 1
            queuedById := st.queuedById.set request.id request }

/-- The loop of `prime_unobserved` over the offsets. -/
def primeLoop (p : RadioAcquisitionProfile A) (call : PrimeCall) (limit cursor : Nat)
    (pending : List FieldPath) : List Nat → PrimeState A → Except String (PrimeState A)
  | [], st => .ok st
  | offset :: rest, st =>
      if limit ≤ st.queuedPathCount then .ok st
      else
        let items := p.fieldPolicies.items
        match items[(cursor + offset) % items.length]? with
        | none => .error "IndexError"
        | some (path, policy) =>
            match primePath p call pending path policy { st with visited := offset + 1 } with
            | .error text => .error text
            | .ok st => primeLoop p call limit cursor pending rest st

/-- `prime_unobserved`. -/
def primeUnobserved (p : RadioAcquisitionProfile A) (limit : Nat) (s : AcquisitionScheduler A)
    (call : PrimeCall) : Except String (List (AcquisitionRequest A) × AcquisitionScheduler A) :=
  let total := p.fieldPolicies.items.length
  let cursor := if total = 0 then 0 else s.primeCursor % total
  match primeLoop p call limit cursor s.pendingPaths (List.range total) { scheduler := s } with
  | .error text => .error text
  | .ok st =>
      let primeCursor :=
        if total = 0 then st.scheduler.primeCursor else (cursor + st.visited) % total
      .ok (st.queuedById.values, { st.scheduler with primeCursor })

end AcquisitionScheduler

/-- A call of `prime_unobserved`, or whatever else happens to the scheduler. -/
inductive SchedulerCall (A : Type) where
  | prime (call : PrimeCall)
  | elsewhere (s : AcquisitionScheduler A)

namespace SchedulerCall

def isPrime : SchedulerCall A → Bool
  | prime _ => true
  | elsewhere _ => false

end SchedulerCall

namespace AcquisitionScheduler

def step (p : RadioAcquisitionProfile A) (limit : Nat) (s : AcquisitionScheduler A) :
    SchedulerCall A → Option (AcquisitionScheduler A)
  | .prime call =>
      match primeUnobserved p limit s call with
      | .error _ => none
      | .ok (_, s) => some s
  | .elsewhere other => some { other with primeCursor := s.primeCursor }

/-! ## One path -/

variable {p : RadioAcquisitionProfile A} {s s' s'' : AcquisitionScheduler A} {path q : FieldPath}
  {ask : Ask}

/-- The capability of the path is there and has a hook. -/
def Available (p : RadioAcquisitionProfile A) (path : FieldPath) : Prop :=
  (p.capabilityFor path).availability = .supported ∧
    (p.capabilityFor path).hasAcquisitionHook = true

/-- No refusal withholds the path. -/
def Askable (s : AcquisitionScheduler A) (path : FieldPath) : Prop :=
  s.refusalWithheld path s.clock.now = false

/-- Nothing that was queued or deferred is lost, and no refusal is new. -/
structure Later (s s' : AcquisitionScheduler A) : Prop where
  clock : s.clock.now ≤ s'.clock.now
  refused : s'.refusedPaths = s.refusedPaths
  paused : s'.externalCatPaused = s.externalCatPaused
  pending : s.pendingPaths ⊆ s'.pendingPaths
  deferred : s.deferredPaths ⊆ s'.deferredPaths

omit [DecidableEq A] in
theorem Later.refl (s : AcquisitionScheduler A) : Later s s :=
  ⟨le_rfl, rfl, rfl, List.Subset.refl _, List.Subset.refl _⟩

omit [DecidableEq A] in
theorem Later.trans (h : Later s s') (h' : Later s' s'') : Later s s'' where
  clock := h.clock.trans h'.clock
  refused := h'.refused.trans h.refused
  paused := h'.paused.trans h.paused
  pending := List.Subset.trans h.pending h'.pending
  deferred := List.Subset.trans h.deferred h'.deferred

omit [DecidableEq A] in
/-- A refusal is over once it is over. -/
theorem Askable.later (h : s.Askable path) (hlater : Later s s') : s'.Askable path := by
  rw [Askable, refusalWithheld] at h ⊢
  rw [hlater.refused]
  split at h
  · rfl
  · rename_i refusal _
    have hpast := of_decide_eq_false h
    exact decide_eq_false fun hlt => hpast (lt_of_le_of_lt hlater.clock hlt)

/-- The path was queued, or it waits for the external CAT owner that holds the radio. -/
def Reached (p : RadioAcquisitionProfile A) (s s' : AcquisitionScheduler A)
    (path : FieldPath) : Prop :=
  path ∈ s'.pendingPaths ∨
    s.externalCatPaused = true ∧ mustDeferForExternalCat p [path] = true ∧ path ∈ s'.deferredPaths

omit [DecidableEq A] in
theorem Reached.later (h : Reached p s s' path) (hlater : Later s' s'') : Reached p s s'' path :=
  h.imp (fun hmem => hlater.pending hmem) fun ⟨hpaused, hdefer, hmem⟩ =>
    ⟨hpaused, hdefer, hlater.deferred hmem⟩

omit [DecidableEq A] in
theorem Reached.earlier (h : Reached p s' s'' path) (hlater : Later s s') :
    Reached p s s'' path := by
  rw [Reached, ← hlater.paused]
  exact h

theorem mem_mergePaths {left right : List FieldPath} : q ∈ mergePaths left right ↔ q ∈ left ∨
    q ∈ right := by
  rw [mergePaths, sortedPaths, (List.perm_insertionSort _ _).mem_iff, List.mem_dedup,
    List.mem_append]

/-- What queueing one path does. -/
structure Queues (s : AcquisitionScheduler A) (path : FieldPath) (s' : AcquisitionScheduler A) :
    Prop where
  later : Later s s'
  queued : path ∈ s'.pendingPaths
  only : ∀ q ∈ s'.pendingPaths, q ∈ s.pendingPaths ∨ q = path

theorem mem_pendingPaths :
    q ∈ s.pendingPaths ↔ ∃ key request, s.requestsByKey.get? key = some request ∧
      q ∈ request.paths := by
  rw [pendingPaths, List.mem_flatMap]
  constructor
  · rintro ⟨request, hmem, hq⟩
    obtain ⟨key, hkey⟩ := Dict.mem_values.mp hmem
    exact ⟨key, request, hkey, hq⟩
  · rintro ⟨key, request, hkey, hq⟩
    exact ⟨request, Dict.mem_values.mpr ⟨key, hkey⟩, hq⟩

theorem mem_deferredPaths :
    q ∈ s.deferredPaths ↔ ∃ key item, s.deferred.get? key = some item ∧ q ∈ item.paths := by
  rw [deferredPaths, List.mem_flatMap]
  constructor
  · rintro ⟨item, hmem, hq⟩
    obtain ⟨key, hkey⟩ := Dict.mem_values.mp hmem
    exact ⟨key, item, hkey, hq⟩
  · rintro ⟨key, item, hkey, hq⟩
    exact ⟨item, Dict.mem_values.mpr ⟨key, hkey⟩, hq⟩

/-- A request is written for a path, and takes the paths along that were queued under its key. -/
theorem Queues.set {key : AcquisitionRequestKey A} {request : AcquisitionRequest A} {nextId : Nat}
    (hpath : path ∈ request.paths)
    (hbefore : ∀ existing, s.requestsByKey.get? key = some existing →
    existing.paths ⊆ request.paths)
    (honly : ∀ q ∈ request.paths, q ∈ s.pendingPaths ∨ q = path) :
    Queues s path { s with requestsByKey := s.requestsByKey.set key request, nextId } := by
  refine ⟨⟨le_rfl, rfl, rfl, ?_, List.Subset.refl _⟩, ?_, ?_⟩
  · intro q hq
    obtain ⟨key', request', hget, hmem⟩ := mem_pendingPaths.mp hq
    refine mem_pendingPaths.mpr ?_
    by_cases hkey : key' = key
    · subst hkey
      exact ⟨key', request, Dict.get?_set_self _ _ _, hbefore request' hget hmem⟩
    · exact ⟨key', request', (Dict.get?_set_ne _ _ hkey).trans hget, hmem⟩
  · exact mem_pendingPaths.mpr ⟨key, request, Dict.get?_set_self _ _ _, hpath⟩
  · intro q hq
    obtain ⟨key', request', hget, hmem⟩ := mem_pendingPaths.mp hq
    rw [Dict.get?_set] at hget
    split at hget
    · cases hget
      exact honly q hmem
    · exact .inl (mem_pendingPaths.mpr ⟨key', request', hget, hmem⟩)

theorem queueGroup_queues (key : AcquisitionRequestKey A) :
    Queues s path (s.queueGroup p ask key [path]).2 := by
  rw [queueGroup]
  cases hget : s.requestsByKey.get? key with
  | some existing =>
      refine Queues.set (mem_mergePaths.mpr (.inr (List.mem_singleton_self path))) ?_ ?_
      · intro other hother
        rw [hget] at hother
        cases hother
        exact fun q hq => mem_mergePaths.mpr (.inl hq)
      · intro q hq
        rcases mem_mergePaths.mp hq with hq | hq
        · exact .inl (mem_pendingPaths.mpr ⟨key, existing, hget, hq⟩)
        · exact .inr (List.mem_singleton.mp hq)
  | none =>
      refine Queues.set (List.mem_singleton_self path) ?_ ?_
      · intro existing hexisting
        rw [hget] at hexisting
        cases hexisting
      · exact fun q hq => .inr (List.mem_singleton.mp hq)

theorem defer_later (key : AcquisitionRequestKey A) (item : PendingEnsureFresh) :
    Later s (s.defer key item) ∧ item.paths ⊆ (s.defer key item).deferredPaths ∧
      (s.defer key item).pendingPaths = s.pendingPaths := by
  have hset (new : PendingEnsureFresh) (hitem : item.paths ⊆ new.paths)
      (hbefore : ∀ existing, s.deferred.get? key = some existing → existing.paths ⊆ new.paths) :
      s.deferredPaths ⊆ ({ s with deferred := s.deferred.set key new }).deferredPaths ∧
        item.paths ⊆ ({ s with deferred := s.deferred.set key new }).deferredPaths := by
    constructor
    · intro q hq
      obtain ⟨key', existing, hget, hmem⟩ := mem_deferredPaths.mp hq
      refine mem_deferredPaths.mpr ?_
      by_cases hkey : key' = key
      · subst hkey
        exact ⟨key', new, Dict.get?_set_self _ _ _, hbefore existing hget hmem⟩
      · exact ⟨key', existing, (Dict.get?_set_ne _ _ hkey).trans hget, hmem⟩
    · intro q hq
      exact mem_deferredPaths.mpr ⟨key, new, Dict.get?_set_self _ _ _, hitem hq⟩
  rw [defer]
  cases hget : s.deferred.get? key with
  | none =>
      obtain ⟨hdeferred, hitem⟩ := hset item (List.Subset.refl _) fun existing hexisting => by
        rw [hget] at hexisting
        cases hexisting
      exact ⟨⟨le_rfl, rfl, rfl, List.Subset.refl _, hdeferred⟩, hitem, rfl⟩
  | some existing =>
      obtain ⟨hdeferred, hitem⟩ := hset { item with
          paths := mergePaths existing.paths item.paths
          maxAge := min existing.maxAge item.maxAge
          priority := item.priority.over existing.priority
          reasons := mergeReasons existing.reasons item.reasons
          timeout := minOptionalTimeout existing.timeout item.timeout
          requestedAtMonotonic := min existing.requestedAtMonotonic item.requestedAtMonotonic
          deadlineMonotonic := min existing.deadlineMonotonic item.deadlineMonotonic
          externalCatOwner :=
            if item.externalCatOwner.getD "" = "" then existing.externalCatOwner
            else item.externalCatOwner }
        (fun q hq => mem_mergePaths.mpr (.inr hq)) (fun other hother => by
          rw [hget] at hother
          cases hother
          exact fun q hq => mem_mergePaths.mpr (.inl hq))
      exact ⟨⟨le_rfl, rfl, rfl, List.Subset.refl _, hdeferred⟩, hitem, rfl⟩

/-! ## Asking for one path -/

omit [DecidableEq A] in
theorem capabilityMethod_isOk {capability : FieldCapability} (policy : AcquisitionPolicy A)
    (h : capability.hasAcquisitionHook = true) :
    ∃ method, capabilityMethod capability policy = .ok method := by
  rw [capabilityMethod]
  split
  · exact ⟨_, rfl⟩
  · rename_i hnone
    rw [List.find?_eq_none] at hnone
    have hpoll := hnone .poll (by simp)
    have hresponse := hnone .commandResponse (by simp)
    have hpush := hnone .waitForUnsolicited (by simp)
    simp only [FieldCapability.offers] at hpoll hresponse hpush
    rw [FieldCapability.hasAcquisitionHook] at h
    simp_all

theorem sortedPaths_singleton (path : FieldPath) : sortedPaths [path] = [path] := rfl

omit [DecidableEq A] in
theorem availabilityFor_singleton : availabilityFor p [path] = none ↔ Available p path := by
  rw [availabilityFor, Available]
  cases (p.capabilityFor path).availability <;> simp [availabilityFor]

omit [DecidableEq A] in
/-- A path that is not available is not queued. -/
theorem availabilityFor_request {paths : List FieldPath} {result : EnsureFreshResult A}
    (h : availabilityFor p paths = some result) : result.request = none := by
  induction paths with
  | nil => cases h
  | cons path rest ih =>
      rw [availabilityFor] at h
      split at h
      · cases h
        rfl
      · split at h
        · cases h
          rfl
        · exact ih h

theorem requestGroups_singleton (h : Available p path) :
    ∃ key, requestGroups p [path] = .ok [(key, [path])] := by
  obtain ⟨method, hmethod⟩ := capabilityMethod_isOk (p.policyFor path) h.2
  refine ⟨requestKey path method (p.policyFor path), ?_⟩
  rw [requestGroups, groupPaths, hmethod]
  rfl

theorem queue_queues (s : AcquisitionScheduler A) (ask : Ask) (h : Available p path) :
    ∃ request s', s.queue p ask [path] = .ok ([request], s') ∧ Queues s path s' := by
  obtain ⟨key, hgroups⟩ := requestGroups_singleton h
  refine ⟨(s.queueGroup p ask key [path]).1, (s.queueGroup p ask key [path]).2, ?_,
    queueGroup_queues key⟩
  rw [queue, hgroups]
  rfl

/-- What `ensure_fresh` does about one path: it queues it, or it only defers it. -/
inductive Asks (p : RadioAcquisitionProfile A) (s : AcquisitionScheduler A) (path : FieldPath) :
    Option (AcquisitionRequest A) → AcquisitionScheduler A → Prop
  | queued {request : AcquisitionRequest A} {s' : AcquisitionScheduler A} (h : Queues s path s') :
      Asks p s path (some request) s'
  | held {s' : AcquisitionScheduler A} (later : Later s s')
    (same : s'.pendingPaths = s.pendingPaths)
      (deferred : Available p path → s.Askable path → s.externalCatPaused = true ∧
        mustDeferForExternalCat p [path] = true ∧ path ∈ s'.deferredPaths) : Asks p s path none s'

omit [DecidableEq A] in
/-- An earlier state with the same queue. -/
theorem Asks.earlier {request : Option (AcquisitionRequest A)} (h : Asks p s' path request s'')
    (hlater : Later s s') (hsame : s'.pendingPaths = s.pendingPaths) :
    Asks p s path request s'' := by
  cases h with
  | queued h =>
      exact .queued ⟨hlater.trans h.later, h.queued, fun q hq => hsame ▸ h.only q hq⟩
  | held later same deferred =>
      refine .held (hlater.trans later) (same.trans hsame) fun havailable haskable => ?_
      rw [← hlater.paused]
      exact deferred havailable (haskable.later hlater)

theorem queued_asks (h : Available p path) :
    ∃ result s', ((s.queue p ask [path]).map
      fun (requests, s) => (s.queuedResult requests, s)) = .ok (result, s') ∧
      Asks p s path result.request s' := by
  obtain ⟨request, s', hqueue, hqueues⟩ := queue_queues s ask h
  rw [hqueue]
  exact ⟨_, _, rfl, .queued hqueues⟩

theorem ensureAskable_asks (h : Available p path) :
    ∃ result s', s.ensureAskable p ask [path] = .ok (result, s') ∧
      Asks p s path result.request s' := by
  rw [ensureAskable]
  simp only
  split
  · rename_i hpaused
    obtain ⟨key, hgroups⟩ := requestGroups_singleton h
    rw [hgroups]
    simp only
    rw [pausedGroups]
    by_cases hdefer : mustDeferForExternalCat p [path] = true
    · rw [if_pos hdefer]
      obtain ⟨hlater, hitem, hsame⟩ := s.defer_later key {
        paths := [path], maxAge := ask.maxAge, priority := ask.priority, reason := ask.reason
        reasons := ask.reasons, timeout := ask.timeout, requestedAtMonotonic := ask.requestedAt
        deadlineMonotonic := ask.deadlineMonotonic, externalCatOwner := s.externalCatOwner }
      refine ⟨_, _, rfl, .held hlater hsame fun _ _ => ⟨hpaused, hdefer, ?_⟩⟩
      exact hitem (List.mem_singleton_self path)
    · rw [if_neg hdefer]
      obtain ⟨request, s', hqueue, hqueues⟩ := queue_queues s ask h
      rw [hqueue]
      exact ⟨_, _, rfl, .queued hqueues⟩
  · exact queued_asks h

theorem ensureFresh_asks (p : RadioAcquisitionProfile A) (s : AcquisitionScheduler A)
    (path : FieldPath)
    {maxAge : Time} (hage : 0 < maxAge) (reason : String) :
    ∃ result s', s.ensureFresh p [path] maxAge .background reason none = .ok (result, s') ∧
      Asks p s path result.request s' := by
  have hread : Later s { s with clock := s.clock.advance } :=
    ⟨s.clock.monotone (Nat.zero_le 1), rfl, rfl, List.Subset.refl _, List.Subset.refl _⟩
  rw [ensureFresh, if_neg (by simp), if_neg (not_le.mpr hage)]
  simp only [sortedPaths_singleton]
  cases havailable : availabilityFor p [path] with
  | some result =>
      refine ⟨_, _, rfl, ?_⟩
      have hrequest : result.request = none := availabilityFor_request havailable
      rw [hrequest]
      refine .held hread rfl fun hpath => ?_
      rw [availabilityFor_singleton.mpr hpath] at havailable
      cases havailable
  | none =>
      have hpath := availabilityFor_singleton.mp havailable
      have hautomatic : AcquisitionPriority.background.isAutomatic = true := rfl
      have hfilter (held : Bool) (hheld : s.refusalWithheld path s.clock.now = held) :
          ([path].filter fun path =>
              !refusalWithheld { s with clock := s.clock.advance } path s.clock.now) =
            bif !held then [path] else [] := by
        rw [← hheld, List.filter_singleton]
        rfl
      cases hheld : s.refusalWithheld path s.clock.now with
      | true =>
          simp only [hautomatic, if_true, hfilter true hheld]
          refine ⟨_, _, rfl, .held hread rfl fun _ hfree => ?_⟩
          rw [Askable, hheld] at hfree
          cases hfree
      | false =>
          simp only [hautomatic, if_true, hfilter false hheld]
          obtain ⟨result, s', heq, hasks⟩ := ensureAskable_asks
            (s := { s with clock := s.clock.advance }) hpath
          exact ⟨result, s', heq, hasks.earlier hread rfl⟩

/-! ## One call -/

/-- The path is left to `prime_unobserved`, and may be asked for. -/
structure Eligible (p : RadioAcquisitionProfile A) (s : AcquisitionScheduler A) (call : PrimeCall)
    (path : FieldPath) : Prop where
  unobserved : path ∉ call.observedPaths
  notPending : path ∉ s.pendingPaths
  notCadenceOwned : ¬ ((p.capabilityFor path).canPoll = true ∧
    (p.policyFor path).cadenceSeconds ≠ none)
  notAbsent : call.availability path ≠ some false
  available : Available p path
  askable : s.Askable path

variable {call : PrimeCall} {limit cursor : Nat} {st st' : PrimeState A}
  {policy : AcquisitionPolicy A}

omit [DecidableEq A] in
theorem primeMaxAge_pos (policy : AcquisitionPolicy A) : 0 < primeMaxAge policy := by
  rw [primeMaxAge]
  cases h : (policy.freshnessTtlSeconds.filter (0 < ·)).or
    (policy.cadenceSeconds.filter (0 < ·)) with
  | none => norm_num [minReconciliationMaxAge]
  | some age =>
      rcases Option.or_eq_some_iff.mp h with hage | ⟨-, hage⟩ <;>
        exact of_decide_eq_true (Option.filter_eq_some_iff.mp hage).2

/-- What a visit of a path does. -/
structure Visits (p : RadioAcquisitionProfile A) (call : PrimeCall) (s : AcquisitionScheduler A)
    (path : FieldPath) (st st' : PrimeState A) : Prop where
  visited : st'.visited = st.visited
  later : Later st.scheduler st'.scheduler
  queued : (st'.queuedPathCount = st.queuedPathCount ∧
    st'.scheduler.pendingPaths = st.scheduler.pendingPaths) ∨
    (st'.queuedPathCount = st.queuedPathCount + 1 ∧
      ∀ q ∈ st'.scheduler.pendingPaths, q ∈ st.scheduler.pendingPaths ∨ q = path)
  reached : Eligible p s call path → Reached p st.scheduler st'.scheduler path

theorem primePath_visits (call : PrimeCall) (st : PrimeState A)
    (hpolicy : p.fieldPolicies.get? path = some policy) (hlater : Later s st.scheduler) :
    ∃ st', primePath p call s.pendingPaths path policy st = .ok st' ∧
      Visits p call s path st st' := by
  have hfor : p.policyFor path = policy := by rw [RadioAcquisitionProfile.policyFor, hpolicy]
  have hskip (hnot : ¬ Eligible p s call path) : Visits p call s path st st :=
    ⟨rfl, .refl _, .inl ⟨rfl, rfl⟩, fun h => absurd h hnot⟩
  rw [primePath]
  split
  · rename_i hseen
    exact ⟨st, rfl, hskip fun h => hseen.elim h.unobserved h.notPending⟩
  split
  · rename_i howned
    exact ⟨st, rfl, hskip fun h => h.notCadenceOwned ⟨howned.1, hfor ▸ howned.2⟩⟩
  split
  · rename_i habsent
    exact ⟨st, rfl, hskip fun h => h.notAbsent habsent⟩
  obtain ⟨result, scheduler, heq, hasks⟩ :=
    ensureFresh_asks p st.scheduler path (primeMaxAge_pos policy) call.reason
  rw [heq]
  simp only
  cases hrequest : result.request with
  | none =>
      rw [hrequest] at hasks
      cases hasks with
      | held later same deferred =>
          exact ⟨_, rfl, rfl, later, .inl ⟨rfl, same⟩, fun h =>
            .inr (deferred h.available (h.askable.later hlater))⟩
  | some request =>
      rw [hrequest] at hasks
      cases hasks with
      | queued h => exact ⟨_, rfl, rfl, h.later, .inr ⟨rfl, h.only⟩, fun _ => .inl h.queued⟩

/-- Where the loop stands, since the call began at `s`. -/
structure Progress (p : RadioAcquisitionProfile A) (call : PrimeCall) (limit cursor : Nat)
    (s : AcquisitionScheduler A) (st : PrimeState A) : Prop where
  later : Later s st.scheduler
  queued : ∃ new : List FieldPath, new.length = st.queuedPathCount ∧
    ∀ q ∈ st.scheduler.pendingPaths, q ∈ s.pendingPaths ∨ q ∈ new
  count_le : st.queuedPathCount ≤ limit
  count_visited : st.queuedPathCount ≤ st.visited
  reached : ∀ offset < st.visited, ∀ path policy,
    p.fieldPolicies.items[(cursor + offset) % p.fieldPolicies.items.length]? = some (path, policy) →
      Eligible p s call path → Reached p s st.scheduler path

omit [DecidableEq A] in
theorem Progress.visit (h : Progress p call limit cursor s st) (hcount : st.queuedPathCount < limit)
    (hitem : p.fieldPolicies.items[(cursor + st.visited) % p.fieldPolicies.items.length]? = some
    (path, policy))
    (hvisits : Visits p call s path { st with visited := st.visited + 1 } st') :
    Progress p call limit cursor s st' := by
  obtain ⟨new, hlength, hnew⟩ := h.queued
  have hvisited : st'.visited = st.visited + 1 := hvisits.visited
  refine ⟨h.later.trans hvisits.later, ?_, ?_, ?_, ?_⟩
  · rcases hvisits.queued with ⟨hsame, hpending⟩ | ⟨hmore, hpending⟩
    · refine ⟨new, hlength.trans hsame.symm, fun q hq => hnew q ?_⟩
      rw [hpending] at hq
      exact hq
    · refine ⟨path :: new, (congrArg Nat.succ hlength).trans hmore.symm, fun q hq => ?_⟩
      rcases hpending q hq with hq | rfl
      · exact (hnew q hq).imp_right (List.mem_cons_of_mem path)
      · exact .inr List.mem_cons_self
  · rcases hvisits.queued with ⟨hsame, -⟩ | ⟨hmore, -⟩
    · exact hsame ▸ h.count_le
    · exact hmore ▸ hcount
  · have hle := h.count_visited
    rcases hvisits.queued with ⟨hsame, -⟩ | ⟨hmore, -⟩
    · simp only at hsame
      omega
    · simp only at hmore
      omega
  · intro offset hoffset path' policy' hitem' heligible
    rw [hvisited] at hoffset
    rcases Nat.lt_succ_iff_lt_or_eq.mp hoffset with hlt | rfl
    · exact (h.reached offset hlt path' policy' hitem' heligible).later hvisits.later
    · rw [hitem] at hitem'
      cases hitem'
      exact (hvisits.reached heligible).earlier h.later

/-- The loop goes on until the limit is reached or every offset is visited. -/
theorem primeLoop_progress (len : Nat) (h : Progress p call limit cursor s st)
    (hlen : st.visited + len ≤ p.fieldPolicies.items.length) :
    ∃ st', primeLoop p call limit cursor s.pendingPaths (List.range' st.visited len) st = .ok st' ∧
      Progress p call limit cursor s st' ∧ st'.visited ≤ st.visited + len ∧
      (st'.visited < st.visited + len → limit ≤ st'.queuedPathCount) := by
  induction len generalizing st with
  | zero => exact ⟨st, rfl, h, le_rfl, fun hlt => absurd hlt (Nat.lt_irrefl _)⟩
  | succ len ih =>
      rw [List.range'_succ, primeLoop]
      split
      · rename_i hfull
        exact ⟨st, rfl, h, Nat.le_add_right _ _, fun _ => hfull⟩
      · rename_i hroom
        have hbound : (cursor + st.visited) % p.fieldPolicies.items.length <
            p.fieldPolicies.items.length :=
          Nat.mod_lt _ (by omega)
        simp only
        cases hitem :
            p.fieldPolicies.items[(cursor + st.visited) % p.fieldPolicies.items.length]? with
        | none => exact absurd (List.getElem?_eq_none_iff.mp hitem) (Nat.not_le.mpr hbound)
        | some item =>
            obtain ⟨path, policy⟩ := item
            have hpolicy := Dict.mem_items.mp (List.mem_of_getElem? hitem)
            obtain ⟨st₁, heq, hvisits⟩ :=
              primePath_visits call { st with visited := st.visited + 1 }
              hpolicy h.later
            have hvisited : st₁.visited = st.visited + 1 := hvisits.visited
            simp only
            rw [heq]
            simp only
            have hnext := h.visit (Nat.not_le.mp hroom) hitem hvisits
            obtain ⟨st', hloop, hprogress, hle, hlimit⟩ := ih hnext (by omega)
            rw [hvisited] at hloop
            exact ⟨st', hloop, hprogress, by omega, fun hlt => hlimit (by omega)⟩

/-- What a call does: it visits some positions from the cursor on. -/
structure Primes (p : RadioAcquisitionProfile A) (call : PrimeCall) (limit : Nat)
    (s s' : AcquisitionScheduler A) (v : Nat) : Prop where
  queued : ∃ new : List FieldPath, new.length ≤ limit ∧
    ∀ q ∈ s'.pendingPaths, q ∈ s.pendingPaths ∨ q ∈ new
  limit_le : v < p.fieldPolicies.items.length → limit ≤ v
  cursor : 0 < p.fieldPolicies.items.length → s'.primeCursor =
    (s.primeCursor % p.fieldPolicies.items.length + v) % p.fieldPolicies.items.length
  reached : ∀ offset < v, ∀ path policy,
    p.fieldPolicies.items[(s.primeCursor % p.fieldPolicies.items.length + offset) %
      p.fieldPolicies.items.length]? = some (path, policy) →
      Eligible p s call path → Reached p s s' path

theorem step_prime (p : RadioAcquisitionProfile A) (limit : Nat) (s : AcquisitionScheduler A)
    (call : PrimeCall) : ∃ s' v, step p limit s (.prime call) = some s' ∧
    Primes p call limit s s' v := by
  have hstart : Progress p call limit (if p.fieldPolicies.items.length = 0 then 0
      else s.primeCursor % p.fieldPolicies.items.length) s { scheduler := s } :=
    ⟨.refl s, ⟨[], rfl, fun q hq => .inl hq⟩, Nat.zero_le _, le_rfl, fun _ h => absurd h
      (Nat.not_lt_zero _)⟩
  obtain ⟨st, hloop, hprogress, hle, hlimit⟩ :=
    primeLoop_progress p.fieldPolicies.items.length hstart (Nat.zero_add _).le
  rw [← List.range_eq_range'] at hloop
  rw [step, primeUnobserved]
  simp only
  rw [hloop]
  refine ⟨_, st.visited, rfl, ?_, ?_, ?_, ?_⟩
  · obtain ⟨new, hlength, hnew⟩ := hprogress.queued
    exact ⟨new, hlength.le.trans hprogress.count_le, hnew⟩
  · intro hlt
    exact (hlimit (by simpa using hlt)).trans hprogress.count_visited
  · intro hpos
    simp only [if_neg (Nat.pos_iff_ne_zero.mp hpos)]
  · intro offset hoffset path policy hitem heligible
    refine hprogress.reached offset hoffset path policy ?_ heligible
    rw [← hitem]
    split
    · rename_i hzero
      rw [List.length_eq_zero_iff.mp hzero]
      rfl
    · rfl

/-! ## Runs -/

/-- Wherever `prime_unobserved` is called, the path is eligible. -/
def EligibleAt (p : RadioAcquisitionProfile A) (path : FieldPath) (s : AcquisitionScheduler A) :
    SchedulerCall A → Prop
  | .prime call => Eligible p s call path
  | .elsewhere _ => True

theorem exec_isSome (p : RadioAcquisitionProfile A) (limit : Nat) (s : AcquisitionScheduler A)
    (calls : List (SchedulerCall A)) : ∃ s', Runs.exec (step p limit) s calls = some s' := by
  induction calls generalizing s with
  | nil => exact ⟨s, rfl⟩
  | cons call calls ih =>
      have hstep : ∃ m, step p limit s call = some m := by
        cases call with
        | prime call =>
            obtain ⟨m, -, hstep, -⟩ := step_prime p limit s call
            exact ⟨m, hstep⟩
        | elsewhere other => exact ⟨_, rfl⟩
      obtain ⟨m, hm⟩ := hstep
      obtain ⟨s', hs'⟩ := ih m
      exact ⟨s', Runs.exec_cons_eq_some.mpr ⟨m, hm, hs'⟩⟩

/-- A turn reaches the path, or brings the cursor nearer by the limit. -/
theorem step_turn {i : Nat} (hitem : p.fieldPolicies.items[i]? = some (path, policy))
    {call : SchedulerCall A} (heligible : EligibleAt p path s call) (hprime : call.isPrime = true)
    (hstep : step p limit s call = some s') :
    (∃ prime, call = .prime prime ∧ Reached p s s' path) ∨
      ∃ v, limit ≤ v ∧ v ≤ RoundRobin.distance p.fieldPolicies.items.length
          (s.primeCursor % p.fieldPolicies.items.length) i ∧
        s'.primeCursor % p.fieldPolicies.items.length =
          (s.primeCursor % p.fieldPolicies.items.length + v) % p.fieldPolicies.items.length := by
  have hi : i < p.fieldPolicies.items.length := (List.getElem?_eq_some_iff.mp hitem).1
  have hpos : 0 < p.fieldPolicies.items.length := Nat.zero_lt_of_lt hi
  cases call with
  | elsewhere other => cases hprime
  | prime call =>
      obtain ⟨m, v, hm, hprimes⟩ := step_prime p limit s call
      rw [hm] at hstep
      cases hstep
      have hdistance := RoundRobin.distance_lt (s.primeCursor % p.fieldPolicies.items.length) hi
      by_cases hnear : RoundRobin.distance p.fieldPolicies.items.length
          (s.primeCursor % p.fieldPolicies.items.length) i < v
      · refine .inl ⟨call, rfl, hprimes.reached _ hnear path policy ?_ heligible⟩
        rw [RoundRobin.add_distance_mod (Nat.mod_lt _ hpos) hi]
        exact hitem
      · have hle := Nat.not_lt.mp hnear
        refine .inr ⟨v, hprimes.limit_le (hle.trans_lt hdistance), hle, ?_⟩
        rw [hprimes.cursor hpos, Nat.mod_mod]

/-- `prime_unobserved` always returns and queues at most `limit` new paths.  Of every `n / limit`
calls (rounded up), `n` the number of field policies, one queues a path that is eligible at all of
them, or defers it for the external CAT owner that holds the radio. -/
theorem prime_reaches (p : RadioAcquisitionProfile A) {limit : Nat} (hlimit : 0 < limit)
    (s : AcquisitionScheduler A) (calls : List (SchedulerCall A)) :
    (∃ s', Runs.exec (step p limit) s calls = some s') ∧
    (∀ pre call post m m', calls = pre ++ .prime call :: post →
      Runs.exec (step p limit) s pre = some m → step p limit m (.prime call) = some m' →
      ∃ new : List FieldPath, new.length ≤ limit ∧ ∀ q ∈ m'.pendingPaths, q ∈ m.pendingPaths ∨
        q ∈ new) ∧
    ∀ path ∈ p.fieldPolicies.keys,
      (p.fieldPolicies.keys.length + limit - 1) / limit ≤ calls.countP SchedulerCall.isPrime →
      Runs.Along (step p limit) (EligibleAt p path) s calls →
      ∃ pre call post m m', calls = pre ++ .prime call :: post ∧
        Runs.exec (step p limit) s pre = some m ∧ step p limit m (.prime call) = some m' ∧
        Reached p m m' path := by
  obtain ⟨s', hrun⟩ := exec_isSome p limit s calls
  refine ⟨⟨s', hrun⟩, ?_, ?_⟩
  · intro pre call post m m' _ _ hstep
    obtain ⟨m₁, v, hm, hprimes⟩ := step_prime p limit m call
    rw [hm] at hstep
    cases hstep
    exact hprimes.queued
  · intro path hpath hcount heligible
    obtain ⟨policy, hpolicy⟩ := Dict.mem_keys.mp hpath
    obtain ⟨i, hitem⟩ := List.getElem?_of_mem (Dict.mem_items.mpr hpolicy)
    have hi : i < p.fieldPolicies.items.length := (List.getElem?_eq_some_iff.mp hitem).1
    have hnear : RoundRobin.distance p.fieldPolicies.items.length
        (s.primeCursor % p.fieldPolicies.items.length) i <
          limit * calls.countP SchedulerCall.isPrime := by
      rw [Dict.keys, List.length_map] at hcount
      have hdistance := RoundRobin.distance_lt (s.primeCursor % p.fieldPolicies.items.length) hi
      have hceil := Nat.lt_mul_div_succ (p.fieldPolicies.items.length + limit - 1) hlimit
      have hmul := Nat.mul_le_mul_left limit hcount
      rw [Nat.mul_succ] at hceil
      omega
    obtain ⟨pre, call, post, m, m', hcalls, hpre, hstep, -, prime, rfl, hreached⟩ :=
      RoundRobin.exec_reaches (fun s => s.primeCursor % p.fieldPolicies.items.length)
        (fun s call s' => ∃ prime, call = .prime prime ∧ Reached p s s' path) hi
        (fun s => Nat.mod_lt _ (Nat.zero_lt_of_lt hi)) (fun s call s' => step_turn hitem)
        (fun s call s' hother hstep => by
          cases call with
          | prime call => cases hother
          | elsewhere other =>
              cases hstep
              rfl)
        hrun heligible hnear
    exact ⟨pre, prime, post, m, m', hcalls, hpre, hstep, hreached⟩

/-! Two menu settings, asked for one at a time. -/

def vox : FieldPath := ⟨.global, .operatorToggles, ⟨"vox", by decide⟩, none, none, by decide⟩

def monitor : FieldPath :=
  ⟨.global, .operatorToggles, ⟨"monitor", by decide⟩, none, none, by decide⟩

def menuPolicy : AcquisitionPolicy Unit where
  cadenceSeconds := none
  cadence_pos _ h := by cases h
  cadence_le_ttl _ h := by cases h

def menuProfile : RadioAcquisitionProfile Unit where
  provider := "icom_civ"
  capabilities := [{ path := vox, commandResponseObservable := true },
    { path := monitor, commandResponseObservable := true }]
  fieldPolicies := ⟨[(vox, menuPolicy), (monitor, menuPolicy)], by decide⟩
  classPolicy _ := {}
  capabilities_nodup := by decide

def noneObserved : PrimeCall := { observedPaths := [] }

def stillClock : FreshnessClock := ⟨fun _ => 0, fun _ _ _ => le_rfl⟩

instance (p : RadioAcquisitionProfile A) (s : AcquisitionScheduler A) (call : PrimeCall)
    (path : FieldPath) :
    Decidable (Eligible p s call path) :=
  decidable_of_iff (path ∉ call.observedPaths ∧ path ∉ s.pendingPaths ∧
      ¬ ((p.capabilityFor path).canPoll = true ∧ (p.policyFor path).cadenceSeconds ≠ none) ∧
      call.availability path ≠ some false ∧ ((p.capabilityFor path).availability = .supported ∧
        (p.capabilityFor path).hasAcquisitionHook = true) ∧
          s.refusalWithheld path s.clock.now = false)
    ⟨fun ⟨h₁, h₂, h₃, h₄, h₅, h₆⟩ => ⟨h₁, h₂, h₃, h₄, h₅, h₆⟩,
      fun ⟨h₁, h₂, h₃, h₄, h₅, h₆⟩ => ⟨h₁, h₂, h₃, h₄, h₅, h₆⟩⟩

instance (p : RadioAcquisitionProfile A) (path : FieldPath) (s : AcquisitionScheduler A)
    (call : SchedulerCall A) : Decidable (EligibleAt p path s call) :=
  match call with
  | .prime call => inferInstanceAs (Decidable (Eligible p s call path))
  | .elsewhere _ => .isTrue trivial

theorem prime_reaches_monitor : ∃ pre call post m m',
    [SchedulerCall.prime noneObserved, .elsewhere { clock := stillClock }, .prime noneObserved] =
    pre ++ .prime call :: post ∧
      Runs.exec (step menuProfile 1) { clock := stillClock } pre = some m ∧
      step menuProfile 1 m (.prime call) = some m' ∧ Reached menuProfile m m' monitor :=
  (prime_reaches menuProfile Nat.one_pos { clock := stillClock }
    [.prime noneObserved, .elsewhere { clock := stillClock }, .prime noneObserved]).2.2 monitor
    (by decide) (by decide)
      (by decide +kernel)

/-- While an external CAT owner holds the radio, an eligible path is deferred at every call and
never queued. -/
theorem eligible_deferred : ¬ ∀ (p : RadioAcquisitionProfile Unit) (limit : Nat), 0 < limit →
    ∀ (s : AcquisitionScheduler Unit) (calls : List (SchedulerCall Unit)),
      ∀ path ∈ p.fieldPolicies.keys,
      (p.fieldPolicies.keys.length + limit - 1) / limit ≤ calls.countP SchedulerCall.isPrime →
      Runs.Along (step p limit) (EligibleAt p path) s calls →
      ∃ pre call post m m', calls = pre ++ .prime call :: post ∧
        Runs.exec (step p limit) s pre = some m ∧ step p limit m (.prime call) = some m' ∧
        path ∈ m'.pendingPaths := by
  intro h
  obtain ⟨pre, call, post, m, m', hcalls, hpre, hstep, hqueued⟩ :=
    h menuProfile 2 Nat.two_pos { clock := stillClock, externalCatPaused := true }
      [.prime noneObserved] vox
      (by decide) (by decide) (by decide +kernel)
  obtain ⟨rfl, hcall⟩ : pre = [] ∧ SchedulerCall.prime noneObserved = .prime call := by
    cases pre with
    | nil => exact ⟨rfl, (List.cons.inj hcalls).1⟩
    | cons first rest => simp at hcalls
  cases hpre
  rw [← hcall] at hstep
  have hnone : ∀ m ∈ step menuProfile 2 { clock := stillClock, externalCatPaused := true }
    (.prime noneObserved),
      vox ∉ m.pendingPaths := by decide +kernel
  exact hnone m' hstep hqueued

end AcquisitionScheduler

end Rigplane.Acquisition
