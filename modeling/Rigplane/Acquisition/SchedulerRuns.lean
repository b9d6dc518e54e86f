import Rigplane.Acquisition.SchedulerCalls

/-!
# Runs of the scheduler

What holds after any calls in any order: the queue is sound, an id that has gone never comes back,
a claim excludes other claimants of its generation until it is released, and a demand stays met
until its path is settled.
-/

namespace Rigplane.Acquisition

open StatePipeline AcquisitionScheduler

namespace Scheduler

variable {A : Type} [DecidableEq A] {c : SchedulerConfig A} {p : RadioAcquisitionProfile A}
  {s s' : Scheduler A} {id : String} {call : Call A} {calls : List (Call A)}

namespace Call

/-- The paths that a call settles, as its caller reports them. -/
def taken : Call A → List FieldPath
  | recordAcquisitionResult request _ _ => request.paths
  | recordAcquisitionFailure call => call.taken
  | recordReadRefusal paths _ => paths
  | _ => []

/-- The call is about the claims alone. -/
def Claims : Call A → Prop
  | tryClaim _ _ _ => True
  | releaseClaim _ _ _ => True
  | _ => False

/-- The call gives a claim of the id back. -/
def Releases (id : String) : Call A → Prop
  | releaseClaim requestId _ _ => requestId = id
  | _ => False

end Call

/-- Several calls, one after the other. -/
def runs (c : SchedulerConfig A) (s : Scheduler A) (calls : List (Call A)) : Scheduler A :=
  calls.foldl (run c) s

/-! ## What one call does -/

/-- Only claims change, each stays with its claimant or goes to a later generation, and a claim is
for a pending request. -/
structure Reclaimed (s : Scheduler A) (released : String → Prop) (s' : Scheduler A) : Prop where
  requests : s'.requestsByKey = s.requestsByKey
  deferred : s'.deferred = s.deferred
  nextId : s'.nextId = s.nextId
  paused : s'.externalCatPaused = s.externalCatPaused
  claimed : ∀ id claim, s'.claimsByRequestId.get? id = some claim →
    s.Pending id ∨ s.claimsByRequestId.get? id = some claim
  kept : ∀ id claim, s.claimsByRequestId.get? id = some claim → ¬ released id →
    ∃ claim', s'.claimsByRequestId.get? id = some claim' ∧
      (claim' = claim ∨ claim.providerGeneration < claim'.providerGeneration)

/-- What a call does. -/
inductive Ran (p : RadioAcquisitionProfile A) (s : Scheduler A) : Call A → Scheduler A → Prop
  | moved {call : Call A} {s' : Scheduler A} (moves : Moves p call.taken s s') : Ran p s call s'
  | reclaimed {call : Call A} {s' : Scheduler A} (claims : call.Claims)
      (h : Reclaimed s (Call.Releases · call) s') : Ran p s call s'
  | held {owner : Option String} {reason : String} {s' : Scheduler A}
      (moves : Moves p [] (s.held owner reason) s') : Ran p s (.pauseExternalCat owner reason) s'
  | freed {s' : Scheduler A} (moves : Moves p [] s.freed s')
      (requeued : ∀ d : Demand, Waits s d → Carries s' d) : Ran p s .resumeExternalCat s'

omit [DecidableEq A] in
theorem Reclaimed.refl [DecidableEq A] (s : Scheduler A) (released : String → Prop) :
    Reclaimed s released s :=
  ⟨rfl, rfl, rfl, rfl, fun _ _ h => .inr h, fun _ claim h _ => ⟨claim, h, .inl rfl⟩⟩

/-- A claim succeeds for a pending request, and where it takes the place of another one it is of a
later generation or the same. -/
theorem tryClaim_spec (s : Scheduler A) (request : AcquisitionRequest A)
    (claimant providerGeneration : Nat) (released : String → Prop) :
    Reclaimed s released (s.tryClaim request claimant providerGeneration).2 ∧
      ((s.tryClaim request claimant providerGeneration).1 = true → s.Pending request.id ∧
        (s.tryClaim request claimant providerGeneration).2.claimsByRequestId.get? request.id =
          some ⟨claimant, providerGeneration⟩ ∧
        ∀ claim, s.claimsByRequestId.get? request.id = some claim →
          claim = ⟨claimant, providerGeneration⟩ ∨
            claim.providerGeneration < providerGeneration) := by
  have hrefl := Reclaimed.refl s released
  rw [tryClaim]
  split
  · exact ⟨hrefl, fun h => by cases h⟩
  · rename_i hfound
    have hpending : s.Pending request.id := by
      rw [Bool.not_eq_false, Option.any_eq_true] at hfound
      obtain ⟨found, hget, hid⟩ := hfound
      obtain ⟨key, -, hkey⟩ := Option.bind_eq_some_iff.mp hget
      exact ⟨key, found, hkey, of_decide_eq_true hid⟩
    let new : AcquisitionClaim := ⟨claimant, providerGeneration⟩
    have hclaim (hlater : ∀ claim, s.claimsByRequestId.get? request.id = some claim →
        claim.providerGeneration < providerGeneration) :
        Reclaimed s released { s with
          claimsByRequestId := s.claimsByRequestId.set request.id new } := by
      refine ⟨rfl, rfl, rfl, rfl, fun id claim hget => ?_, fun id claim hget _ => ?_⟩
      · rw [Dict.get?_set] at hget
        split at hget
        · rename_i hid
          exact .inl (hid ▸ hpending)
        · exact .inr hget
      · by_cases hid : id = request.id
        · subst hid
          exact ⟨_, Dict.get?_set_self _ _ _, .inr (hlater claim hget)⟩
        · exact ⟨claim, (Dict.get?_set_ne _ _ hid).trans hget, .inl rfl⟩
    cases hexisting : s.claimsByRequestId.get? request.id with
    | none =>
        refine ⟨hclaim fun claim hget => ?_, fun _ => ⟨hpending, Dict.get?_set_self _ _ _, ?_⟩⟩
        · rw [hexisting] at hget
          cases hget
        · intro claim hget
          cases hget
    | some existing =>
        simp only
        split
        · rename_i hlt
          refine ⟨hclaim fun claim hget => ?_, fun _ => ⟨hpending, Dict.get?_set_self _ _ _, ?_⟩⟩
          · rw [hexisting] at hget
            cases hget
            exact hlt
          · intro claim hget
            cases hget
            exact .inr hlt
        · split
          · exact ⟨hrefl, fun h => by cases h⟩
          · rename_i hle hge
            refine ⟨hrefl, fun hsame => ?_⟩
            have hclaimant := of_decide_eq_true hsame
            have hgeneration : existing.providerGeneration = providerGeneration := by omega
            have heq : existing = ⟨claimant, providerGeneration⟩ := by
              rw [← hclaimant, ← hgeneration]
            refine ⟨hpending, heq ▸ hexisting, fun claim hget => ?_⟩
            cases hget
            exact .inl heq

theorem releaseClaim_reclaimed (s : Scheduler A) (requestId : String)
    (claimant providerGeneration : Nat) :
    Reclaimed s (· = requestId) (s.releaseClaim requestId claimant providerGeneration) := by
  rw [releaseClaim]
  split
  · exact .refl s _
  · split
    · refine ⟨rfl, rfl, rfl, rfl, fun id claim hget => ?_, fun id claim hget hkept => ?_⟩
      · rw [Dict.get?_erase] at hget
        split at hget
        · cases hget
        · exact .inr hget
      · exact ⟨claim, (Dict.get?_erase _ _ _).trans ((if_neg hkept).trans hget), .inl rfl⟩
    · exact .refl s _

theorem ran (hs : Sound c.profile s) (call : Call A) : Ran c.profile s call (s.run c call) := by
  cases call with
  | ensureFresh call =>
      rw [run]
      split
      · rename_i result s' hresult
        exact .moved (ensureFresh_asks hs hresult).1
      · exact .moved .refl
  | dueRequests call => exact .moved (dueRequests_moves hs call)
  | tryClaim request claimant providerGeneration =>
      exact .reclaimed trivial (s.tryClaim_spec request claimant providerGeneration _).1
  | releaseClaim requestId claimant providerGeneration =>
      have hreleased := s.releaseClaim_reclaimed requestId claimant providerGeneration
      exact .reclaimed trivial ⟨hreleased.requests, hreleased.deferred, hreleased.nextId,
        hreleased.paused,
        hreleased.claimed, fun id claim hget hkept => hreleased.kept id claim hget fun hid =>
          hkept hid.symm⟩
  | noteExecuteStarted requestId now => exact .moved (Quiet.moves ⟨rfl, rfl, rfl, rfl, rfl⟩)
  | noteExecuteFinished requestId => exact .moved (Quiet.moves ⟨rfl, rfl, rfl, rfl, rfl⟩)
  | recordDispatch requestId paths now => exact .moved (Quiet.moves ⟨rfl, rfl, rfl, rfl, rfl⟩)
  | noteTxActive txActive => exact .moved (Quiet.moves ⟨rfl, rfl, rfl, rfl, rfl⟩)
  | noteAvailability availability => exact .moved (Quiet.moves ⟨rfl, rfl, rfl, rfl, rfl⟩)
  | dispatchableRequests => exact .moved (s.dispatchableAmong_quiet _).moves
  | isDispatchable request => exact .moved (s.isDispatchable_quiet request).moves
  | diagnostics => exact .moved s.diagnostics_quiet.moves
  | recordAcquisitionResult request changed now =>
      exact .moved (recordAcquisitionResult_moves hs request changed now)
  | recordAcquisitionFailure call => exact .moved (recordAcquisitionFailure_moves hs call)
  | recordReadRefusal paths now => exact .moved (recordReadRefusal_moves hs paths now)
  | endRefusals paths => exact .moved (Quiet.moves ⟨rfl, rfl, rfl, rfl, rfl⟩)
  | pauseExternalCat owner reason => exact .held (pauseExternalCat_moves hs owner reason)
  | resumeExternalCat =>
      obtain ⟨-, hmoves, hrequeued⟩ := resumeExternalCat_asks hs
      exact .freed hmoves hrequeued
  | primeCursor cursor => exact .moved (Quiet.moves ⟨rfl, rfl, rfl, rfl, rfl⟩)

/-! ## The queue is sound -/

theorem Sound.reclaimed {released : String → Prop} (hs : Sound p s)
    (h : Reclaimed s released s') : Sound p s' where
  placed := by
    rw [h.requests]
    exact hs.placed
  issued := by
    rw [h.requests, h.nextId]
    exact hs.issued
  distinct := by
    rw [h.requests]
    exact hs.distinct
  claimed id claim hget := by
    have hpending : s.Pending id := (h.claimed id claim hget).elim (fun hp => hp)
      (hs.claimed id claim)
    obtain ⟨key, request, hfound, hid⟩ := hpending
    exact ⟨key, request, h.requests ▸ hfound, hid⟩
  deferred := by
    rw [h.deferred]
    exact hs.deferred
  unpaused := by
    rw [h.deferred, h.paused]
    exact hs.unpaused

theorem Sound.ran (hs : Sound p s) (h : Ran p s call s') : Sound p s' := by
  cases h with
  | moved moves => exact hs.moves moves
  | reclaimed _ h => exact hs.reclaimed h
  | held moves => exact (hs.held _ _).moves moves
  | freed moves _ => exact hs.freed.moves moves

omit [DecidableEq A] in
theorem sound_init [DecidableEq A] (p : RadioAcquisitionProfile A) (clock : FreshnessClock) :
    Sound p (init clock : Scheduler A) where
  placed _ _ hget := by cases hget
  issued _ _ hget := by cases hget
  distinct _ _ _ _ hget := by cases hget
  claimed _ _ hget := by cases hget
  deferred _ _ hget := by cases hget
  unpaused _ := rfl

theorem Sound.runs (hs : Sound c.profile s) (calls : List (Call A)) :
    Sound c.profile (s.runs c calls) := by
  induction calls generalizing s with
  | nil => exact hs
  | cons call rest ih => exact ih (hs.ran (Scheduler.ran hs call))

/-- Whatever is called in whatever order, every pending request is found again under its own key,
asks for paths by a method that the radio offers for them, and has its id for itself; a claim is for
a pending request, nothing is deferred unless an external CAT owner holds the radio, and
`resume_external_cat` never raises. -/
theorem sound_runs (c : SchedulerConfig A) (clock : FreshnessClock) (calls : List (Call A)) :
    let s := (init clock : Scheduler A).runs c calls
    (∀ key request, s.requestsByKey.get? key = some request → keyOf request = some key ∧
      (∃ n < s.nextId, request.id = acqId n) ∧ request.paths ≠ [] ∧
      (∀ path ∈ request.paths, c.profile.policyFor path = request.policy ∧
        (c.profile.capabilityFor path).offers request.acquisitionMethod = true) ∧
      ∀ key' request', s.requestsByKey.get? key' = some request' → request.id = request'.id →
        key = key') ∧
    (∀ id claim, s.claimsByRequestId.get? id = some claim → s.Pending id) ∧
    (s.externalCatPaused = false → s.deferred = .empty) ∧
    (s.resumeExternalCat c.profile).1.isOk = true := by
  have hs := (sound_init c.profile clock).runs calls
  refine ⟨fun key request hget => ?_, hs.claimed, hs.unpaused, (resumeExternalCat_asks hs).1⟩
  have hplaced := hs.placed key request hget
  refine ⟨hplaced.grouped.keyOf hplaced.method hplaced.policy, hs.issued key request hget,
    hplaced.grouped.ne_nil, fun path hpath => ?_,
      fun key' request' => hs.distinct key key' _ _ hget⟩
  have hasked := hplaced.grouped.asked path hpath
  have hpolicy : c.profile.policyFor path = key.policy :=
    congrArg AcquisitionRequestKey.policy hasked.under
  rw [hplaced.policy, hplaced.method]
  exact ⟨hpolicy, hasked.offered⟩

/-! ## Ids -/

theorem Move.nextId_le {gone : List FieldPath} (h : Move p gone s s') : s.nextId ≤ s'.nextId := by
  cases h with
  | quiet hquiet => exact hquiet.nextId.ge
  | rewrite _ _ _ _ => exact le_rfl
  | issue _ _ _ => exact Nat.le_succ _
  | remove _ _ => exact le_rfl
  | defer _ _ _ => exact le_rfl

theorem Moves.nextId_le {gone : List FieldPath} (h : Moves p gone s s') : s.nextId ≤ s'.nextId := by
  induction h with
  | refl => exact le_rfl
  | tail _ hmove ih => exact ih.trans hmove.nextId_le

theorem Ran.nextId_le (h : Ran p s call s') : s.nextId ≤ s'.nextId := by
  cases h with
  | moved moves => exact moves.nextId_le
  | reclaimed _ h => exact h.nextId.ge
  | @held owner reason _ moves =>
      have hle : (s.held owner reason).nextId ≤ s'.nextId := moves.nextId_le
      exact hle
  | freed moves _ =>
      have hle : s.freed.nextId ≤ s'.nextId := moves.nextId_le
      exact hle

theorem runs_nextId_le (hs : Sound c.profile s) (calls : List (Call A)) :
    s.nextId ≤ (s.runs c calls).nextId := by
  induction calls generalizing s with
  | nil => exact le_rfl
  | cons call rest ih =>
      have hran := Scheduler.ran hs call
      exact hran.nextId_le.trans (ih (hs.ran hran))

theorem Retired.ran (hret : s.Retired id) (h : Ran p s call s') : s'.Retired id := by
  cases h with
  | moved moves => exact hret.moves moves
  | reclaimed _ h => exact hret.same h.requests h.nextId
  | @held owner reason _ moves =>
      have hheld : (s.held owner reason).Retired id := hret.same rfl rfl
      exact hheld.moves moves
  | freed moves _ =>
      have hfreed : s.freed.Retired id := hret.same rfl rfl
      exact hfreed.moves moves

theorem Retired.runs (hs : Sound c.profile s) (hret : s.Retired id) (calls : List (Call A)) :
    (s.runs c calls).Retired id := by
  induction calls generalizing s with
  | nil => exact hret
  | cons call rest ih =>
      have hran := Scheduler.ran hs call
      exact ih (hs.ran hran) (hret.ran hran)

/-- A request that was pending once and is not any more never is again, however its paths are asked
for, refused, deferred and resumed afterwards; nobody can claim it. -/
theorem retired_runs (c : SchedulerConfig A) (clock : FreshnessClock)
    (before between after : List (Call A)) {id : String}
    (hpending : ((init clock).runs c before).Pending id)
    (hgone : ¬ ((init clock).runs c (before ++ between)).Pending id) :
    let s := (init clock).runs c (before ++ between ++ after)
    ¬ s.Pending id ∧ ∀ request : AcquisitionRequest A, request.id = id →
      ∀ claimant providerGeneration, (s.tryClaim request claimant providerGeneration).1 =
        false := by
  have hsound := (sound_init c.profile clock).runs before
  have hmiddle : (init clock : Scheduler A).runs c (before ++ between) =
      ((init clock).runs c before).runs c between := List.foldl_append
  have hlast : (init clock : Scheduler A).runs c (before ++ between ++ after) =
      ((init clock).runs c (before ++ between)).runs c after := List.foldl_append
  obtain ⟨key, request, hget, hid⟩ := hpending
  obtain ⟨n, hn, hissued⟩ := hsound.issued key request hget
  have hretired : ((init clock).runs c (before ++ between)).Retired id := by
    refine ⟨⟨n, hn.trans_le ?_, hid ▸ hissued⟩, hgone⟩
    rw [hmiddle]
    exact runs_nextId_le hsound between
  have hgone' := (hretired.runs ((sound_init c.profile clock).runs _) after).gone
  rw [← hlast] at hgone'
  refine ⟨hgone', fun other hother claimant providerGeneration => ?_⟩
  rw [Bool.eq_false_iff]
  intro hclaim
  have hspec := (tryClaim_spec _ other claimant providerGeneration fun _ => False).2 hclaim
  exact hgone' (hother ▸ hspec.1)

/-! One menu setting, asked for, deferred for an external owner and asked for again. -/

def menuConfig : SchedulerConfig Unit where
  profile := menuProfile

def askVox : EnsureFreshCall where
  paths := [vox]
  maxAge := 1
  priority := .user
  reason := "panel"

theorem pending_iff : s.Pending id ↔ id ∈ s.requestsByKey.values.map AcquisitionRequest.id := by
  rw [List.mem_map]
  constructor
  · rintro ⟨key, request, hget, hid⟩
    exact ⟨request, Dict.mem_values.mpr ⟨key, hget⟩, hid⟩
  · rintro ⟨request, hmem, hid⟩
    obtain ⟨key, hget⟩ := Dict.mem_values.mp hmem
    exact ⟨key, request, hget, hid⟩

instance (s : Scheduler A) (id : String) :
    Decidable (s.Pending id) := decidable_of_iff _ pending_iff.symm

theorem retired_runs_resumed :
    ¬ ((init stillClock).runs menuConfig
      [.ensureFresh askVox, .pauseExternalCat (some "hamlib") "", .resumeExternalCat]).Pending
        (acqId 1) :=
  (retired_runs menuConfig stillClock [.ensureFresh askVox] [.pauseExternalCat (some "hamlib") ""]
    [.resumeExternalCat] (by decide +kernel) (by decide +kernel)).1

/-! ## Claims -/

/-- The claim of an id is with the claimant, or with a later generation, or the request is gone. -/
def Fenced (s : Scheduler A) (id : String) (holder : AcquisitionClaim) : Prop :=
  (∃ claim, s.claimsByRequestId.get? id = some claim ∧
    (claim = holder ∨ holder.providerGeneration < claim.providerGeneration)) ∨ s.Retired id

theorem Fenced.moves {gone : List FieldPath} {holder : AcquisitionClaim} (h : s.Fenced id holder)
    (hs : Sound p s) (hmoves : Moves p gone s s') : s'.Fenced id holder := by
  rcases h with ⟨claim, hget, hholder⟩ | hretired
  · rcases hs.claim_moves hmoves hget with hget' | hretired
    · exact .inl ⟨claim, hget', hholder⟩
    · exact .inr hretired
  · exact .inr (hretired.moves hmoves)

theorem Fenced.ran {holder : AcquisitionClaim} (h : s.Fenced id holder) (hs : Sound p s)
    (hran : Ran p s call s') (hkept : ¬ call.Releases id) : s'.Fenced id holder := by
  cases hran with
  | moved moves => exact h.moves hs moves
  | reclaimed _ hre =>
      rcases h with ⟨claim, hget, hholder⟩ | hretired
      · obtain ⟨claim', hget', hlater⟩ := hre.kept id claim hget hkept
        refine .inl ⟨claim', hget', ?_⟩
        rcases hlater with rfl | hlater
        · exact hholder
        · rcases hholder with rfl | hholder
          · exact .inr hlater
          · exact .inr (hholder.trans hlater)
      · exact .inr (hretired.same hre.requests hre.nextId)
  | @held owner reason _ moves =>
      have hfenced : (s.held owner reason).Fenced id holder :=
        h.imp (fun hclaim => hclaim) fun hretired => hretired.same rfl rfl
      exact hfenced.moves (hs.held _ _) moves
  | freed moves _ =>
      have hfenced : s.freed.Fenced id holder :=
        h.imp (fun hclaim => hclaim) fun hretired => hretired.same rfl rfl
      exact hfenced.moves hs.freed moves

theorem Fenced.runs {holder : AcquisitionClaim} (h : s.Fenced id holder) (hs : Sound c.profile s)
    (hkept : ∀ call ∈ calls, ¬ call.Releases id) : (s.runs c calls).Fenced id holder := by
  induction calls generalizing s with
  | nil => exact h
  | cons call rest ih =>
      have hran := Scheduler.ran hs call
      exact ih (h.ran hs hran (hkept call List.mem_cons_self)) (hs.ran hran)
        fun other hother => hkept other (List.mem_cons_of_mem call hother)

/-- Two claims of one id that both succeed, with no release of the id between them, are by one
claimant of one provider generation, or the second is of a later generation: whatever else happens
in between, to that request or to others, nobody else of the generation gets hold of it. -/
theorem claim_fenced (c : SchedulerConfig A) (clock : FreshnessClock)
    (before between : List (Call A))
    (request request' : AcquisitionRequest A) (claimant claimant' generation generation' : Nat)
    (hsame : request'.id = request.id)
    (hclaim : (((init clock).runs c before).tryClaim request claimant generation).1 = true)
    (hkept : ∀ call ∈ between, ¬ call.Releases request.id)
    (hclaim' : ((((init clock).runs c before).tryClaim request claimant generation).2.runs c
      between |>.tryClaim request' claimant' generation').1 = true) :
    claimant' = claimant ∧ generation' = generation ∨ generation < generation' := by
  have hs := (sound_init c.profile clock).runs before
  obtain ⟨hre, hspec⟩ := tryClaim_spec ((init clock).runs c before) request claimant generation
    fun _ => False
  obtain ⟨-, hheld, -⟩ := hspec hclaim
  have hfenced := Fenced.runs (.inl ⟨_, hheld, .inl rfl⟩) (hs.reclaimed hre) hkept
  obtain ⟨-, hspec'⟩ := tryClaim_spec ((((init clock).runs c before).tryClaim request claimant
    generation).2.runs c between) request' claimant' generation' fun _ => False
  obtain ⟨hpending, -, hlater⟩ := hspec' hclaim'
  rw [hsame] at hpending hlater
  rcases hfenced with ⟨claim, hget, hholder⟩ | hretired
  · rcases hlater claim hget with rfl | hlt
    · exact hholder.imp (fun heq => AcquisitionClaim.mk.inj heq) fun hlt => hlt
    · rcases hholder with rfl | hholder
      · exact .inr hlt
      · exact .inr (hholder.trans hlt)
  · exact absurd hpending hretired.gone

def voxRequest : AcquisitionRequest Unit where
  id := acqId 1
  paths := [vox]
  priority := .user
  reason := "panel"
  reasons := ["panel"]
  requestedAtMonotonic := 0
  deadlineMonotonic := 1
  maxAge := 1
  timeout := none
  provider := "icom_civ"
  acquisitionMethod := .commandResponse
  policy := menuPolicy
  capabilityIds := ["global.operator_toggles.vox"]
  externalCatPaused := false
  externalCatOwner := none
  sourceMetadata := []

/-- Claimant 3 of generation 1 has the request and starts it.  Somebody else gets it in a later
generation, and nobody else does in that one. -/
theorem claim_fenced_later :
    let s := (((init stillClock).runs menuConfig [.ensureFresh askVox]).tryClaim voxRequest 3 1).2
      |>.runs menuConfig [.noteExecuteStarted (acqId 1) none]
    (∃ generation, (s.tryClaim voxRequest 7 generation).1 = true ∧ 1 < generation) ∧
      ∀ claimant, (s.tryClaim voxRequest claimant 1).1 = true → claimant = 3 := by
  intro s
  have hclaim : (((init stillClock).runs menuConfig [.ensureFresh askVox]).tryClaim
      voxRequest 3 1).1 = true := by decide +kernel
  have hlater : (s.tryClaim voxRequest 7 2).1 = true := by decide +kernel
  have hfenced (claimant generation : Nat)
      (h : (s.tryClaim voxRequest claimant generation).1 = true) :
      claimant = 3 ∧ generation = 1 ∨ 1 < generation :=
    claim_fenced menuConfig stillClock [.ensureFresh askVox] [.noteExecuteStarted (acqId 1) none]
      voxRequest voxRequest 3 claimant 1 generation rfl hclaim (by simp [Call.Releases]) h
  refine ⟨⟨2, hlater, (hfenced 7 2 hlater).resolve_left (by decide)⟩, fun claimant h => ?_⟩
  exact ((hfenced claimant 1 h).resolve_right (lt_irrefl 1)).1

/-! ## Demands -/

theorem Carries.ran {d : Demand} (h : s.Carries d) (hran : Ran p s call s')
    (hpath : d.path ∉ call.taken) : s'.Carries d := by
  cases hran with
  | moved moves => exact h.moves moves hpath
  | reclaimed _ hre =>
      refine h.imp ?_ ?_
      · rintro ⟨key, request, hget, hmet⟩
        exact ⟨key, request, hre.requests ▸ hget, hmet⟩
      · rintro ⟨key, item, hget, hmet⟩
        exact ⟨key, item, hre.deferred ▸ hget, hmet⟩
  | @held owner reason _ moves =>
      have hcarries : (s.held owner reason).Carries d := h
      exact hcarries.moves moves List.not_mem_nil
  | freed moves requeued =>
      rcases h with hpends | hwaits
      · have hcarries : s.freed.Carries d := .inl hpends
        exact hcarries.moves moves List.not_mem_nil
      · exact requeued d hwaits

theorem Carries.runs {d : Demand} (h : s.Carries d) (hs : Sound c.profile s)
    (hpath : ∀ call ∈ calls, d.path ∉ call.taken) : (s.runs c calls).Carries d := by
  induction calls generalizing s with
  | nil => exact h
  | cons call rest ih =>
      have hran := Scheduler.ran hs call
      exact ih (h.ran hran (hpath call List.mem_cons_self)) (hs.ran hran)
        fun other hother => hpath other (List.mem_cons_of_mem call hother)

/-- A path that `ensure_fresh` says it queued or deferred stays asked for, at no lower a priority,
no later a deadline and no greater an age, until a settlement names it: a pending request has it, or
it is deferred while an external CAT owner holds the radio, however often owners come and go. -/
theorem demand_runs (c : SchedulerConfig A) (clock : FreshnessClock) (before after : List (Call A))
    {call : EnsureFreshCall} {result : EnsureFreshResult A} {s' : Scheduler A} {path : FieldPath}
    (hasked : ((init clock).runs c before).ensureFresh c.profile call = .ok (result, s'))
    (hstatus : result.status ≠ .unavailable)
    (hpath : path ∈ ((init clock).runs c before).askable call
      ((init clock : Scheduler A).runs c before).clock.now)
    (hunsettled : ∀ call ∈ after, path ∉ call.taken) :
    let d := call.demand ((init clock : Scheduler A).runs c before) path
    (s'.runs c after).Pends d ∨
      (s'.runs c after).externalCatPaused = true ∧ (s'.runs c after).Waits d := by
  have hs := (sound_init c.profile clock).runs before
  obtain ⟨hmoves, hmet⟩ := ensureFresh_asks hs hasked
  have hs' := hs.moves hmoves
  rcases (hmet hstatus path hpath).runs hs' hunsettled with hpends | hwaits
  · exact .inl hpends
  · refine .inr ⟨?_, hwaits⟩
    rw [← Bool.not_eq_false]
    intro hpaused
    obtain ⟨key, item, hget, -⟩ := hwaits
    rw [(hs'.runs after).unpaused hpaused] at hget
    cases hget

theorem demand_runs_paused : ∃ result s',
    ((init stillClock).runs menuConfig []).ensureFresh menuProfile askVox = .ok (result, s') ∧
      let t := s'.runs menuConfig [.pauseExternalCat (some "hamlib") ""]
      t.Pends (askVox.demand (init stillClock : Scheduler Unit) vox) ∨
        t.externalCatPaused = true ∧ t.Waits (askVox.demand
          (init stillClock : Scheduler Unit) vox) := by
  have hqueued : (((init stillClock).runs menuConfig
    []).ensureFresh menuProfile askVox).toOption.map
      (·.1.status) = some .queued := by decide +kernel
  cases hasked : ((init stillClock).runs menuConfig []).ensureFresh menuProfile askVox with
  | error text =>
      rw [hasked] at hqueued
      cases hqueued
  | ok answer =>
      obtain ⟨result, s'⟩ := answer
      rw [hasked] at hqueued
      have hstatus : result.status = .queued := Option.some.inj hqueued
      refine ⟨result, s', rfl, demand_runs menuConfig stillClock [] _ hasked ?_ ?_ ?_⟩
      · rw [hstatus]
        exact fun h => by cases h
      · decide
      · simp [Call.taken]

end Scheduler

end Rigplane.Acquisition
