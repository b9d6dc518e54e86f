import Rigplane.Acquisition.Scheduler
import Rigplane.Acquisition.Priming

/-!
# What the calls do to the queue

Every public method but three moves the queue in a few ways (`Move`): it rewrites a pending request
under the id it has, issues one under a new id, removes one, or defers an ask.  `Sound` says how the
queue, the deferred asks and the claims hang together, and is kept by every move; the claims
themselves and `resume_external_cat` are treated apart.

A move loses no demand for a path, except for the paths in `gone`, which a settlement names.
-/

namespace Rigplane.Acquisition

open StatePipeline AcquisitionScheduler

namespace Scheduler

variable {A : Type} [DecidableEq A] {p : RadioAcquisitionProfile A} {s s' s'' : Scheduler A}
  {key : AcquisitionRequestKey A} {paths gone : List FieldPath} {path : FieldPath}
  {request existing : AcquisitionRequest A}

/-! ## Ids -/

theorem acqId_injective {m n : Nat} (h : acqId m = acqId n) : m = n := by
  have hlist := congrArg String.toList h
  rw [acqId, acqId, String.toList_append, String.toList_append] at hlist
  have hdigits : Nat.toDigits 10 m = Nat.toDigits 10 n := by
    rw [← Nat.toList_repr, ← Nat.toList_repr]
    exact List.append_cancel_left hlist
  have hm := @Nat.ofDigitChars_toDigits 10 m (by decide) (by decide)
  rw [hdigits, Nat.ofDigitChars_toDigits (by decide) (by decide)] at hm
  exact hm.symm

/-! ## Groups -/

/-- The profile asks for the path under the key. -/
structure Asked (p : RadioAcquisitionProfile A) (key : AcquisitionRequestKey A) (path : FieldPath) :
    Prop where
  under : requestKey path key.acquisitionMethod (p.policyFor path) = key
  offered : (p.capabilityFor path).offers key.acquisitionMethod = true

/-- Some paths that are asked for together. -/
structure Grouped (p : RadioAcquisitionProfile A) (key : AcquisitionRequestKey A)
    (paths : List FieldPath) : Prop where
  ne_nil : paths ≠ []
  asked : ∀ path ∈ paths, Asked p key path

theorem mem_sortedPaths : path ∈ sortedPaths paths ↔ path ∈ paths :=
  (List.perm_insertionSort _ _).mem_iff

theorem sortedPaths_ne_nil (h : paths ≠ []) : sortedPaths paths ≠ [] := by
  obtain ⟨path, hpath⟩ := List.exists_mem_of_ne_nil paths h
  exact List.ne_nil_of_mem (mem_sortedPaths.mpr hpath)

omit [DecidableEq A] in
theorem Grouped.sorted (h : Grouped p key paths) : Grouped p key (sortedPaths paths) :=
  ⟨sortedPaths_ne_nil h.ne_nil, fun path hpath => h.asked path (mem_sortedPaths.mp hpath)⟩

omit [DecidableEq A] in
theorem Grouped.subset {paths' : List FieldPath} (h : Grouped p key paths) (hne : paths' ≠ [])
    (hsub : paths' ⊆ paths) : Grouped p key paths' :=
  ⟨hne, fun path hpath => h.asked path (hsub hpath)⟩

omit [DecidableEq A] in
theorem Grouped.merge {paths' : List FieldPath} (h : Grouped p key paths)
    (h' : Grouped p key paths') : Grouped p key (mergePaths paths paths') := by
  constructor
  · obtain ⟨path, hpath⟩ := List.exists_mem_of_ne_nil paths h.ne_nil
    exact List.ne_nil_of_mem (mem_mergePaths.mpr (.inl hpath))
  · intro path hpath
    rcases mem_mergePaths.mp hpath with hpath | hpath
    · exact h.asked path hpath
    · exact h'.asked path hpath

omit [DecidableEq A] in
theorem Grouped.snoc (h : paths = [] ∨ Grouped p key paths) (hpath : Asked p key path) :
    Grouped p key (paths ++ [path]) := by
  refine ⟨List.append_ne_nil_of_right_ne_nil _ (List.cons_ne_nil _ _), fun q hq => ?_⟩
  rcases List.mem_append.mp hq with hq | hq
  · rcases h with rfl | h
    · cases hq
    · exact h.asked q hq
  · rw [List.mem_singleton.mp hq]
    exact hpath

omit [DecidableEq A] in
/-- The key that a request is looked up under is the one it is asked for under. -/
theorem Grouped.keyOf (h : Grouped p key request.paths)
    (hmethod : request.acquisitionMethod = key.acquisitionMethod)
    (hpolicy : request.policy = key.policy) : keyOf request = some key := by
  obtain ⟨path, rest, hpaths⟩ := List.exists_cons_of_ne_nil h.ne_nil
  have hunder := (h.asked path (hpaths ▸ List.mem_cons_self)).under
  have hpol : p.policyFor path = key.policy := congrArg AcquisitionRequestKey.policy hunder
  rw [Scheduler.keyOf, hpaths, hmethod, hpolicy, ← hpol]
  exact congrArg some hunder

omit [DecidableEq A] in
theorem capabilityMethod_offers {capability : FieldCapability} {policy : AcquisitionPolicy A}
    {method : AcquisitionMethod} (h : capabilityMethod capability policy = .ok method) :
    capability.offers method = true := by
  rw [capabilityMethod] at h
  split at h
  · rename_i hfind
    cases h
    exact List.find?_some hfind
  · cases h

/-- Every item of a table of groups is one. -/
def AllGrouped (p : RadioAcquisitionProfile A)
    (grouped : Dict (AcquisitionRequestKey A) (List FieldPath)) : Prop :=
  ∀ key paths, grouped.get? key = some paths → Grouped p key paths

theorem AllGrouped.add {grouped : Dict (AcquisitionRequestKey A) (List FieldPath)}
    (h : AllGrouped p grouped) (hpath : Asked p key path) :
    AllGrouped p (grouped.set key ((grouped.get? key).getD [] ++ [path])) := by
  intro key' paths' hget
  rw [Dict.get?_set] at hget
  split at hget
  · rename_i hkey
    cases hget
    rw [hkey]
    refine Grouped.snoc ?_ hpath
    cases hold : grouped.get? key with
    | none => exact .inl rfl
    | some paths => exact .inr (h key paths hold)
  · exact h key' paths' hget

/-- A path of a table of groups. -/
def Listed (grouped : Dict (AcquisitionRequestKey A) (List FieldPath)) (path : FieldPath) : Prop :=
  ∃ key paths, grouped.get? key = some paths ∧ path ∈ paths

theorem Listed.add {grouped : Dict (AcquisitionRequestKey A) (List FieldPath)} {q : FieldPath}
    (h : q = path ∨ Listed grouped q) :
    Listed (grouped.set key ((grouped.get? key).getD [] ++ [path])) q := by
  rcases h with rfl | ⟨key', paths, hget, hmem⟩
  · exact ⟨key, _, Dict.get?_set_self _ _ _, List.mem_append_right _ (List.mem_singleton_self q)⟩
  · by_cases hkey : key' = key
    · subst hkey
      refine ⟨key', _, Dict.get?_set_self _ _ _, List.mem_append_left _ ?_⟩
      rw [hget]
      exact hmem
    · exact ⟨key', paths, (Dict.get?_set_ne _ _ hkey).trans hget, hmem⟩

theorem groupPaths_spec {grouped grouped' : Dict (AcquisitionRequestKey A) (List FieldPath)}
    (h : groupPaths p paths grouped = .ok grouped') (hgrouped : AllGrouped p grouped) :
    AllGrouped p grouped' ∧ ∀ q, q ∈ paths ∨ Listed grouped q → Listed grouped' q := by
  induction paths generalizing grouped with
  | nil =>
      cases h
      refine ⟨hgrouped, fun q hq => hq.resolve_left List.not_mem_nil⟩
  | cons path rest ih =>
      rw [groupPaths] at h
      split at h
      · cases h
      · rename_i method hmethod
        have hasked : Asked p (requestKey path method (p.policyFor path)) path :=
          ⟨rfl, capabilityMethod_offers hmethod⟩
        obtain ⟨hall, hlisted⟩ := ih h (hgrouped.add hasked)
        refine ⟨hall, fun q hq => hlisted q ?_⟩
        rcases hq with hq | hq
        · rcases List.mem_cons.mp hq with rfl | hq
          · exact .inr (.add (.inl rfl))
          · exact .inl hq
        · exact .inr (.add (.inr hq))

/-- Every path is in a group. -/
theorem requestGroups_spec {groups : List (PollGroup A)} (h : requestGroups p paths = .ok groups) :
    (∀ group ∈ groups, Grouped p group.1 group.2) ∧
      ∀ path ∈ paths, ∃ group ∈ groups, path ∈ group.2 := by
  rw [requestGroups] at h
  cases hgrouped : groupPaths p paths .empty with
  | error text =>
      rw [hgrouped] at h
      cases h
  | ok grouped =>
      rw [hgrouped] at h
      cases h
      obtain ⟨hall, hlisted⟩ := groupPaths_spec hgrouped fun key paths hget => by
        cases hget
      constructor
      · intro group hgroup
        obtain ⟨item, hitem, rfl⟩ := List.mem_map.mp hgroup
        exact (hall item.1 item.2 (Dict.mem_items.mp hitem)).sorted
      · intro path hpath
        obtain ⟨key, paths, hget, hmem⟩ := hlisted path (.inl hpath)
        exact ⟨(key, sortedPaths paths), List.mem_map_of_mem (Dict.mem_items.mpr hget),
          mem_sortedPaths.mpr hmem⟩

theorem groupPaths_isOk (h : ∀ path ∈ paths, (p.capabilityFor path).hasAcquisitionHook = true)
    (grouped : Dict (AcquisitionRequestKey A) (List FieldPath)) :
    ∃ grouped', groupPaths p paths grouped = .ok grouped' := by
  induction paths generalizing grouped with
  | nil => exact ⟨grouped, rfl⟩
  | cons path rest ih =>
      obtain ⟨method, hmethod⟩ :=
        capabilityMethod_isOk (p.policyFor path) (h path List.mem_cons_self)
      rw [groupPaths, hmethod]
      exact ih (fun q hq => h q (List.mem_cons_of_mem path hq)) _

theorem requestGroups_isOk (h : ∀ path ∈ paths, (p.capabilityFor path).hasAcquisitionHook = true) :
    ∃ groups, requestGroups p paths = .ok groups := by
  obtain ⟨grouped, hgrouped⟩ := groupPaths_isOk h .empty
  rw [requestGroups, hgrouped]
  exact ⟨_, rfl⟩

omit [DecidableEq A] in
theorem Asked.hook (h : Asked p key path) : (p.capabilityFor path).hasAcquisitionHook = true := by
  have hoffered := h.offered
  rw [FieldCapability.hasAcquisitionHook]
  cases hmethod : key.acquisitionMethod <;> rw [hmethod, FieldCapability.offers] at hoffered <;>
    simp [hoffered]

omit [DecidableEq A] in
theorem capabilityFor_of_mem {capability : FieldCapability} (h : capability ∈ p.capabilities) :
    p.capabilityFor capability.path = capability := by
  have hnodup := p.capabilities_nodup
  rw [RadioAcquisitionProfile.capabilityFor]
  split
  · rename_i found hfind
    have hpath := List.find?_some hfind
    exact List.inj_on_of_nodup_map hnodup (List.mem_of_find?_eq_some hfind) h
      (of_decide_eq_true hpath)
  · rename_i hnone
    exact absurd (decide_eq_true rfl) (List.find?_eq_none.mp hnone capability h)

theorem addPollPath_grouped {capabilities : List FieldCapability}
    {grouped : Dict (AcquisitionRequestKey A) (List FieldPath)}
    (hsub : capabilities ⊆ p.capabilities) (h : AllGrouped p grouped) :
    AllGrouped p (capabilities.foldl (addPollPath p) grouped) := by
  induction capabilities generalizing grouped with
  | nil => exact h
  | cons capability rest ih =>
      rw [List.foldl_cons]
      refine ih (fun q hq => hsub (List.mem_cons_of_mem _ hq)) ?_
      rw [addPollPath]
      split
      · rename_i hpoll
        refine h.add ⟨rfl, ?_⟩
        rw [capabilityFor_of_mem (hsub List.mem_cons_self)]
        exact hpoll.1
      · exact h

theorem pollCadenceGroups_grouped {group : PollGroup A} (h : group ∈ pollCadenceGroups p) :
    Grouped p group.1 group.2 := by
  obtain ⟨item, hitem, rfl⟩ := List.mem_map.mp h
  have hempty : AllGrouped p .empty := fun key paths hget => by cases hget
  have hall := addPollPath_grouped (List.Subset.refl _) hempty
  exact (hall item.1 item.2 (Dict.mem_items.mp hitem)).sorted

/-! ## Demands -/

/-- What somebody waits for: a path at least this soon and this fresh, at a priority. -/
structure Demand where
  path : FieldPath
  priority : AcquisitionPriority
  deadline : Time
  maxAge : Time

/-- An ask meets a demand. -/
structure Demand.Met (d : Demand) (paths : List FieldPath) (priority : AcquisitionPriority)
    (deadline maxAge : Time) : Prop where
  path : d.path ∈ paths
  priority : d.priority.rank ≤ priority.rank
  deadline : deadline ≤ d.deadline
  maxAge : maxAge ≤ d.maxAge

def Demand.MetBy (d : Demand) (request : AcquisitionRequest A) : Prop :=
  d.Met request.paths request.priority request.deadlineMonotonic request.maxAge

def Demand.MetLater (d : Demand) (item : PendingEnsureFresh) : Prop :=
  d.Met item.paths item.priority item.deadlineMonotonic item.maxAge

def Demand.Asked (d : Demand) (ask : Ask) (paths : List FieldPath) : Prop :=
  d.Met paths ask.priority ask.deadlineMonotonic ask.maxAge

theorem rank_le_over (priority existing : AcquisitionPriority) :
    priority.rank ≤ (priority.over existing).rank ∧
      existing.rank ≤ (priority.over existing).rank := by
  rw [AcquisitionPriority.over]
  split
  · rename_i hlt
    exact ⟨le_rfl, hlt.le⟩
  · rename_i hle
    exact ⟨not_lt.mp hle, le_rfl⟩

/-- What two asks meet, their merger meets. -/
theorem Demand.Met.merge {d : Demand} {paths' : List FieldPath}
    {priority priority' : AcquisitionPriority} {deadline deadline' maxAge maxAge' : Time}
    (h : d.Met paths priority deadline maxAge ∨ d.Met paths' priority' deadline' maxAge') :
    d.Met (mergePaths paths paths') (priority'.over priority) (min deadline deadline')
      (min maxAge maxAge') := by
  rcases h with h | h
  · exact ⟨mem_mergePaths.mpr (.inl h.path), h.priority.trans (rank_le_over _ _).2,
      (min_le_left _ _).trans h.deadline, (min_le_left _ _).trans h.maxAge⟩
  · exact ⟨mem_mergePaths.mpr (.inr h.path), h.priority.trans (rank_le_over _ _).1,
      (min_le_right _ _).trans h.deadline, (min_le_right _ _).trans h.maxAge⟩

/-- A pending request meets the demand. -/
def Pends (s : Scheduler A) (d : Demand) : Prop :=
  ∃ key request, s.requestsByKey.get? key = some request ∧ d.MetBy request

/-- A deferred ask meets the demand. -/
def Waits (s : Scheduler A) (d : Demand) : Prop :=
  ∃ key item, s.deferred.get? key = some item ∧ d.MetLater item

/-! ## Moves -/

/-- An operation leaves the queue, the deferred asks and the claims alone. -/
structure Quiet (s s' : Scheduler A) : Prop where
  requests : s'.requestsByKey = s.requestsByKey
  deferred : s'.deferred = s.deferred
  claims : s'.claimsByRequestId = s.claimsByRequestId
  nextId : s'.nextId = s.nextId
  paused : s'.externalCatPaused = s.externalCatPaused

/-- The claims once the request of a key has another id. -/
def claimsWithout (s : Scheduler A) : Option (AcquisitionRequest A) → Dict String AcquisitionClaim
  | none => s.claimsByRequestId
  | some existing => s.claimsByRequestId.erase existing.id

/-- A request is asked for under a key as the profile does it. -/
structure Placed (p : RadioAcquisitionProfile A) (key : AcquisitionRequestKey A)
    (request : AcquisitionRequest A) : Prop where
  grouped : Grouped p key request.paths
  method : request.acquisitionMethod = key.acquisitionMethod
  policy : request.policy = key.policy

/-- One move of the queue.  No demand is lost, except for the paths in `gone`. -/
inductive Move (p : RadioAcquisitionProfile A) (gone : List FieldPath) :
    Scheduler A → Scheduler A → Prop
  | quiet {s s' : Scheduler A} (h : Quiet s s') : Move p gone s s'
  | rewrite {s : Scheduler A} {key : AcquisitionRequestKey A}
      {existing request : AcquisitionRequest A}
      (found : s.requestsByKey.get? key = some existing) (placed : Placed p key request)
      (id : request.id = existing.id)
      (carries : ∀ d : Demand, d.path ∉ gone → d.MetBy existing → d.MetBy request) :
      Move p gone s { s with requestsByKey := s.requestsByKey.set key request }
  | issue {s : Scheduler A} {key : AcquisitionRequestKey A} {request : AcquisitionRequest A}
      (placed : Placed p key request) (id : request.id = acqId s.nextId)
      (carries : ∀ existing ∈ s.requestsByKey.get? key, ∀ d : Demand, d.MetBy existing →
        d.MetBy request) :
      Move p gone s { s with
        requestsByKey := s.requestsByKey.set key request
        nextId := s.nextId + 1
        claimsByRequestId := s.claimsWithout (s.requestsByKey.get? key) }
  | remove {s : Scheduler A} {key : AcquisitionRequestKey A} {existing : AcquisitionRequest A}
      (found : s.requestsByKey.get? key = some existing)
      (carries : ∀ d : Demand, d.path ∉ gone → d.MetBy existing → Waits s d) :
      Move p gone s { s with
        requestsByKey := s.requestsByKey.erase key
        claimsByRequestId := s.claimsByRequestId.erase existing.id }
  | defer {s : Scheduler A} {key : AcquisitionRequestKey A} {item : PendingEnsureFresh}
      (paused : s.externalCatPaused = true) (grouped : Grouped p key item.paths)
      (carries : ∀ existing ∈ s.deferred.get? key, ∀ d : Demand, d.MetLater existing →
        d.MetLater item) :
      Move p gone s { s with deferred := s.deferred.set key item }

/-- Several moves. -/
abbrev Moves (p : RadioAcquisitionProfile A) (gone : List FieldPath) :
    Scheduler A → Scheduler A → Prop :=
  Relation.ReflTransGen (Move p gone)

theorem Quiet.moves (h : Quiet s s') : Moves p gone s s' := .single (.quiet h)

omit [DecidableEq A] in
theorem Quiet.refl (s : Scheduler A) : Quiet s s := ⟨rfl, rfl, rfl, rfl, rfl⟩

omit [DecidableEq A] in
theorem Quiet.trans (h : Quiet s s') (h' : Quiet s' s'') : Quiet s s'' where
  requests := h'.requests.trans h.requests
  deferred := h'.deferred.trans h.deferred
  claims := h'.claims.trans h.claims
  nextId := h'.nextId.trans h.nextId
  paused := h'.paused.trans h.paused

/-! ## What every move keeps -/

/-- A request with the id is pending. -/
def Pending (s : Scheduler A) (id : String) : Prop :=
  ∃ key request, s.requestsByKey.get? key = some request ∧ request.id = id

/-- How the queue, the deferred asks and the claims hang together. -/
structure Sound (p : RadioAcquisitionProfile A) (s : Scheduler A) : Prop where
  placed : ∀ key request, s.requestsByKey.get? key = some request → Placed p key request
  issued : ∀ key request, s.requestsByKey.get? key = some request →
    ∃ n < s.nextId, request.id = acqId n
  distinct : ∀ key key' request request', s.requestsByKey.get? key = some request →
    s.requestsByKey.get? key' = some request' → request.id = request'.id → key = key'
  claimed : ∀ id claim, s.claimsByRequestId.get? id = some claim → s.Pending id
  deferred : ∀ key item, s.deferred.get? key = some item → Grouped p key item.paths
  unpaused : s.externalCatPaused = false → s.deferred = .empty

theorem Sound.quiet (h : Sound p s) (hq : Quiet s s') : Sound p s' where
  placed := by
    rw [hq.requests]
    exact h.placed
  issued := by
    rw [hq.requests, hq.nextId]
    exact h.issued
  distinct := by
    rw [hq.requests]
    exact h.distinct
  claimed := by
    rw [hq.claims]
    intro id claim hclaim
    obtain ⟨key, request, hget, hid⟩ := h.claimed id claim hclaim
    exact ⟨key, request, hq.requests ▸ hget, hid⟩
  deferred := by
    rw [hq.deferred]
    exact h.deferred
  unpaused := by
    rw [hq.deferred, hq.paused]
    exact h.unpaused

theorem Sound.rewrite (h : Sound p s) (found : s.requestsByKey.get? key = some existing)
    (placed : Placed p key request) (hid : request.id = existing.id) :
    Sound p { s with requestsByKey := s.requestsByKey.set key request } where
  placed key' request' hget := by
    rw [Dict.get?_set] at hget
    split at hget
    · rename_i hkey
      cases hget
      rw [hkey]
      exact placed
    · exact h.placed key' request' hget
  issued key' request' hget := by
    rw [Dict.get?_set] at hget
    split at hget
    · cases hget
      rw [hid]
      exact h.issued key existing found
    · exact h.issued key' request' hget
  distinct key₁ key₂ request₁ request₂ hget₁ hget₂ hsame := by
    rw [Dict.get?_set] at hget₁ hget₂
    split at hget₁ <;> split at hget₂
    · rename_i hkey₁ hkey₂
      rw [hkey₁, hkey₂]
    · rename_i hkey₁ _
      cases hget₁
      rw [hkey₁]
      exact h.distinct key key₂ existing request₂ found hget₂ (hid ▸ hsame)
    · rename_i _ hkey₂
      cases hget₂
      rw [hkey₂]
      exact h.distinct key₁ key request₁ existing hget₁ found (hsame.trans hid)
    · exact h.distinct key₁ key₂ request₁ request₂ hget₁ hget₂ hsame
  claimed id claim hclaim := by
    obtain ⟨key', request', hget, hreq⟩ := h.claimed id claim hclaim
    by_cases hkey : key' = key
    · subst hkey
      rw [found] at hget
      cases hget
      exact ⟨key', request, Dict.get?_set_self _ _ _, hid.trans hreq⟩
    · exact ⟨key', request', (Dict.get?_set_ne _ _ hkey).trans hget, hreq⟩
  deferred := h.deferred
  unpaused := h.unpaused

/-- A new id is no pending one. -/
theorem Sound.fresh (h : Sound p s) (hget : s.requestsByKey.get? key = some request) :
    request.id ≠ acqId s.nextId := by
  obtain ⟨n, hn, hid⟩ := h.issued key request hget
  intro hsame
  have hnext := acqId_injective (hid ▸ hsame : acqId n = acqId s.nextId)
  omega

/-- A request that is still claimed is not the one whose claim went. -/
theorem Sound.claimsWithout (h : Sound p s) {id : String} {claim : AcquisitionClaim}
    (hclaim : (s.claimsWithout (s.requestsByKey.get? key)).get? id = some claim) :
    s.claimsByRequestId.get? id = some claim ∧
      ∃ key' request', key' ≠ key ∧ s.requestsByKey.get? key' = some request' ∧
        request'.id = id := by
  cases hfound : s.requestsByKey.get? key with
  | none =>
      rw [hfound] at hclaim
      obtain ⟨key', request', hget, hid⟩ := h.claimed id claim hclaim
      refine ⟨hclaim, key', request', fun hkey => ?_, hget, hid⟩
      rw [hkey, hfound] at hget
      cases hget
  | some existing =>
      rw [hfound, Scheduler.claimsWithout, Dict.get?_erase] at hclaim
      split at hclaim
      · cases hclaim
      · rename_i hne
        obtain ⟨key', request', hget, hid⟩ := h.claimed id claim hclaim
        refine ⟨hclaim, key', request', fun hkey => ?_, hget, hid⟩
        rw [hkey, hfound] at hget
        cases hget
        exact hne hid.symm

theorem Sound.issue (h : Sound p s) (placed : Placed p key request)
    (hid : request.id = acqId s.nextId) :
    Sound p { s with
      requestsByKey := s.requestsByKey.set key request
      nextId := s.nextId + 1
      claimsByRequestId := s.claimsWithout (s.requestsByKey.get? key) } where
  placed key' request' hget := by
    rw [Dict.get?_set] at hget
    split at hget
    · rename_i hkey
      cases hget
      rw [hkey]
      exact placed
    · exact h.placed key' request' hget
  issued key' request' hget := by
    rw [Dict.get?_set] at hget
    split at hget
    · cases hget
      exact ⟨s.nextId, Nat.lt_succ_self _, hid⟩
    · obtain ⟨n, hn, hreq⟩ := h.issued key' request' hget
      exact ⟨n, Nat.lt_succ_of_lt hn, hreq⟩
  distinct key₁ key₂ request₁ request₂ hget₁ hget₂ hsame := by
    rw [Dict.get?_set] at hget₁ hget₂
    split at hget₁ <;> split at hget₂
    · rename_i hkey₁ hkey₂
      rw [hkey₁, hkey₂]
    · cases hget₁
      exact absurd (hsame.symm.trans hid) (h.fresh hget₂)
    · cases hget₂
      exact absurd (hsame.trans hid) (h.fresh hget₁)
    · exact h.distinct key₁ key₂ request₁ request₂ hget₁ hget₂ hsame
  claimed id claim hclaim := by
    obtain ⟨-, key', request', hkey, hget, hreq⟩ := h.claimsWithout hclaim
    exact ⟨key', request', (Dict.get?_set_ne _ _ hkey).trans hget, hreq⟩
  deferred := h.deferred
  unpaused := h.unpaused

theorem Sound.remove (h : Sound p s) (found : s.requestsByKey.get? key = some existing) :
    Sound p { s with
      requestsByKey := s.requestsByKey.erase key
      claimsByRequestId := s.claimsByRequestId.erase existing.id } := by
  have hstill {key' : AcquisitionRequestKey A} {request' : AcquisitionRequest A}
      (hget : (s.requestsByKey.erase key).get? key' = some request') :
      s.requestsByKey.get? key' = some request' := by
    rw [Dict.get?_erase] at hget
    split at hget
    · cases hget
    · exact hget
  refine ⟨fun key' request' hget => h.placed key' request' (hstill hget),
    fun key' request' hget => h.issued key' request' (hstill hget),
    fun key₁ key₂ request₁ request₂ hget₁ hget₂ =>
      h.distinct key₁ key₂ request₁ request₂ (hstill hget₁) (hstill hget₂),
    fun id claim hclaim => ?_, h.deferred, h.unpaused⟩
  have hwithout : (s.claimsWithout (s.requestsByKey.get? key)).get? id = some claim := by
    rw [found]
    exact hclaim
  obtain ⟨-, key', request', hkey, hget, hreq⟩ := h.claimsWithout hwithout
  refine ⟨key', request', ?_, hreq⟩
  rw [Dict.get?_erase, if_neg hkey]
  exact hget

theorem Sound.defer (h : Sound p s) {item : PendingEnsureFresh}
    (paused : s.externalCatPaused = true) (grouped : Grouped p key item.paths) :
    Sound p { s with deferred := s.deferred.set key item } where
  placed := h.placed
  issued := h.issued
  distinct := h.distinct
  claimed := h.claimed
  deferred key' item' hget := by
    rw [Dict.get?_set] at hget
    split at hget
    · rename_i hkey
      cases hget
      rw [hkey]
      exact grouped
    · exact h.deferred key' item' hget
  unpaused hunpaused := by
    rw [paused] at hunpaused
    cases hunpaused

theorem Sound.move (h : Sound p s) (hmove : Move p gone s s') : Sound p s' := by
  cases hmove with
  | quiet hquiet => exact h.quiet hquiet
  | rewrite found placed id _ => exact h.rewrite found placed id
  | issue placed id _ => exact h.issue placed id
  | remove found _ => exact h.remove found
  | defer paused grouped _ => exact h.defer paused grouped

theorem Sound.moves (h : Sound p s) (hmoves : Moves p gone s s') : Sound p s' := by
  induction hmoves with
  | refl => exact h
  | tail _ hmove ih => exact ih.move hmove

/-! ## Demands along moves -/

/-- The demand is met by what is pending or deferred. -/
def Carries (s : Scheduler A) (d : Demand) : Prop := Pends s d ∨ Waits s d

theorem Pends.set {d : Demand} (h : Pends s d)
    (hkey : ∀ existing ∈ s.requestsByKey.get? key, d.MetBy existing → d.MetBy request)
    (hs' : s'.requestsByKey = s.requestsByKey.set key request) : Pends s' d := by
  obtain ⟨key', request', hget, hmet⟩ := h
  by_cases hsame : key' = key
  · subst hsame
    exact ⟨key', request, hs' ▸ Dict.get?_set_self _ _ _, hkey request' hget hmet⟩
  · exact ⟨key', request', hs' ▸ (Dict.get?_set_ne _ _ hsame).trans hget, hmet⟩

theorem Waits.set {d : Demand} {item : PendingEnsureFresh} (h : Waits s d)
    (hkey : ∀ existing ∈ s.deferred.get? key, d.MetLater existing → d.MetLater item) :
    Waits { s with deferred := s.deferred.set key item } d := by
  obtain ⟨key', item', hget, hmet⟩ := h
  by_cases hsame : key' = key
  · subst hsame
    exact ⟨key', item, Dict.get?_set_self _ _ _, hkey item' hget hmet⟩
  · exact ⟨key', item', (Dict.get?_set_ne _ _ hsame).trans hget, hmet⟩

theorem Carries.move {d : Demand} (h : Carries s d) (hmove : Move p gone s s')
    (hpath : d.path ∉ gone) : Carries s' d := by
  cases hmove with
  | quiet hquiet =>
      refine h.imp ?_ ?_
      · rintro ⟨key, request, hget, hmet⟩
        exact ⟨key, request, hquiet.requests ▸ hget, hmet⟩
      · rintro ⟨key, item, hget, hmet⟩
        exact ⟨key, item, hquiet.deferred ▸ hget, hmet⟩
  | rewrite found _ _ carries =>
      refine h.imp (fun hpends => hpends.set (fun existing hget => ?_) rfl) fun hwaits => hwaits
      rw [found] at hget
      cases hget
      exact carries d hpath
  | issue _ _ carries =>
      exact h.imp (fun hpends => hpends.set (fun existing hget => carries existing hget d) rfl)
        fun hwaits => hwaits
  | @remove key existing found carries =>
      rcases h with ⟨key', request, hget, hmet⟩ | hwaits
      · by_cases hkey : key' = key
        · rw [hkey, found] at hget
          cases hget
          exact .inr (carries d hpath hmet)
        · refine .inl ⟨key', request, ?_, hmet⟩
          rw [Dict.get?_erase, if_neg hkey]
          exact hget
      · exact .inr hwaits
  | defer _ _ carries =>
      exact h.imp (fun hpends => hpends) fun hwaits =>
        hwaits.set fun existing hget => carries existing hget d

theorem Carries.moves {d : Demand} (h : Carries s d) (hmoves : Moves p gone s s')
    (hpath : d.path ∉ gone) : Carries s' d := by
  induction hmoves with
  | refl => exact h
  | tail _ hmove ih => exact ih.move hmove hpath

/-! ## Ids and claims along moves -/

/-- The id was issued, and no request has it any more. -/
structure Retired (s : Scheduler A) (id : String) : Prop where
  issued : ∃ n < s.nextId, id = acqId n
  gone : ¬ s.Pending id

theorem Pending.erase {id : String} (h : { s with
      requestsByKey := s.requestsByKey.erase key }.Pending id) :
    ∃ key' request', key' ≠ key ∧ s.requestsByKey.get? key' = some request' ∧ request'.id = id := by
  obtain ⟨key', request', hget, hid⟩ := h
  rw [Dict.get?_erase] at hget
  split at hget
  · cases hget
  · rename_i hkey
    exact ⟨key', request', hkey, hget, hid⟩

theorem Pending.set {id : String} (h : { s with
      requestsByKey := s.requestsByKey.set key request }.Pending id) :
    request.id = id ∨
      ∃ key' request', key' ≠ key ∧ s.requestsByKey.get? key' = some request' ∧
        request'.id = id := by
  obtain ⟨key', request', hget, hid⟩ := h
  rw [Dict.get?_set] at hget
  split at hget
  · cases hget
    exact .inl hid
  · rename_i hkey
    exact .inr ⟨key', request', hkey, hget, hid⟩

omit [DecidableEq A] in
theorem Retired.same [DecidableEq A] {id : String} (h : s.Retired id)
    (hrequests : s'.requestsByKey = s.requestsByKey) (hnextId : s'.nextId = s.nextId) :
    s'.Retired id := by
  obtain ⟨n, hn, hid⟩ := h.issued
  refine ⟨⟨n, hnextId ▸ hn, hid⟩, ?_⟩
  rintro ⟨key, request, hget, hreq⟩
  exact h.gone ⟨key, request, hrequests ▸ hget, hreq⟩

theorem Retired.move {id : String} (h : s.Retired id) (hmove : Move p gone s s') :
    s'.Retired id := by
  obtain ⟨n, hn, hid⟩ := h.issued
  cases hmove with
  | quiet hquiet => exact h.same hquiet.requests hquiet.nextId
  | rewrite found _ hsame _ =>
      refine ⟨⟨n, hn, hid⟩, fun hpending => ?_⟩
      rcases Pending.set hpending with hreq | ⟨key', request', -, hget, hreq⟩
      · exact h.gone ⟨_, _, found, hsame ▸ hreq⟩
      · exact h.gone ⟨key', request', hget, hreq⟩
  | issue _ hnew _ =>
      refine ⟨⟨n, Nat.lt_succ_of_lt hn, hid⟩, fun hpending => ?_⟩
      rcases Pending.set hpending with hreq | ⟨key', request', -, hget, hreq⟩
      · have hsame := acqId_injective (hid ▸ hreq ▸ hnew : acqId n = acqId s.nextId)
        omega
      · exact h.gone ⟨key', request', hget, hreq⟩
  | remove _ _ =>
      refine ⟨⟨n, hn, hid⟩, fun hpending => ?_⟩
      obtain ⟨key', request', -, hget, hreq⟩ := Pending.erase hpending
      exact h.gone ⟨key', request', hget, hreq⟩
  | defer _ _ _ => exact h.same rfl rfl

theorem Retired.moves {id : String} (h : s.Retired id) (hmoves : Moves p gone s s') :
    s'.Retired id := by
  induction hmoves with
  | refl => exact h
  | tail _ hmove ih => exact ih.move hmove

/-- A claim goes only with its request. -/
theorem Sound.claim_move (h : Sound p s) (hmove : Move p gone s s') {id : String}
    {claim : AcquisitionClaim} (hclaim : s.claimsByRequestId.get? id = some claim) :
    s'.claimsByRequestId.get? id = some claim ∨ s'.Retired id := by
  obtain ⟨key₀, request₀, hget₀, hid₀⟩ := h.claimed id claim hclaim
  obtain ⟨n, hn, hissued⟩ := h.issued key₀ request₀ hget₀
  cases hmove with
  | quiet hquiet =>
      left
      rw [hquiet.claims]
      exact hclaim
  | rewrite _ _ _ _ => exact .inl hclaim
  | defer _ _ _ => exact .inl hclaim
  | @issue key request placed hnew _ =>
      cases hfound : s.requestsByKey.get? key with
      | none => exact .inl hclaim
      | some existing =>
          by_cases hsame : existing.id = id
          · right
            refine ⟨⟨n, Nat.lt_succ_of_lt hn, hid₀ ▸ hissued⟩, fun hpending => ?_⟩
            rcases Pending.set hpending with hreq | ⟨key', request', hkey, hget, hreq⟩
            · exact h.fresh hfound (hsame.trans (hreq.symm.trans hnew))
            · exact hkey (h.distinct key' key request' existing hget hfound (hreq.trans hsame.symm))
          · left
            change (s.claimsByRequestId.erase existing.id).get? id = some claim
            rw [Dict.get?_erase, if_neg (Ne.symm hsame)]
            exact hclaim
  | @remove key existing hfound _ =>
      by_cases hsame : existing.id = id
      · right
        refine ⟨⟨n, hn, hid₀ ▸ hissued⟩, fun hpending => ?_⟩
        obtain ⟨key', request', hkey, hget, hreq⟩ := Pending.erase hpending
        exact hkey (h.distinct key' key request' existing hget hfound (hreq.trans hsame.symm))
      · left
        change (s.claimsByRequestId.erase existing.id).get? id = some claim
        rw [Dict.get?_erase, if_neg (Ne.symm hsame)]
        exact hclaim

theorem Sound.claim_moves (h : Sound p s) (hmoves : Moves p gone s s') {id : String}
    {claim : AcquisitionClaim} (hclaim : s.claimsByRequestId.get? id = some claim) :
    s'.claimsByRequestId.get? id = some claim ∨ s'.Retired id := by
  induction hmoves with
  | refl => exact .inl hclaim
  | tail hmoves hmove ih =>
      rcases ih with hclaim | hretired
      · exact (h.moves hmoves).claim_move hmove hclaim
      · exact .inr (hretired.move hmove)

end Scheduler

end Rigplane.Acquisition
