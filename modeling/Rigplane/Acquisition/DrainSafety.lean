import Rigplane.Acquisition.Drain
import Rigplane.Lib.Runs

/-!
# One seat to a request

In every run of the seats, no two of them are inside `executor.execute` for one request id in one
provider generation.  The claim of the scheduler is what keeps them apart, but it can go while an
execution is under way, with the request that it is for: then the id is retired, and nobody claims
it any more.
-/

namespace Rigplane.Acquisition

open StatePipeline

namespace AcquisitionDrain

variable {A : Type} [DecidableEq A] {c : SchedulerConfig A} {p : RadioAcquisitionProfile A}
  {s s' s'' : Scheduler A} {others : Nat → Prop} {generation current : Nat} {seat : Nat}

/-! ## What a part of a pass does to the scheduler -/

/-- The queue is sound, and no claim is of a generation that has not begun. -/
structure Fit (p : RadioAcquisitionProfile A) (current : Nat) (s : Scheduler A) : Prop where
  sound : s.Sound p
  begun : ∀ id claim, s.claimsByRequestId.get? id = some claim → claim.providerGeneration ≤ current

/-- The claimant holds the request in the generation, or the request is gone. -/
def Holds (s : Scheduler A) (id : String) (claimant generation : Nat) : Prop :=
  s.claimsByRequestId.get? id = some ⟨claimant, generation⟩ ∨ s.Retired id

/-- What is done in a generation leaves the claims of `others` in it and in later ones. -/
structure Acts (p : RadioAcquisitionProfile A) (others : Nat → Prop) (generation current : Nat)
    (s s' : Scheduler A) : Prop where
  fit : Fit p current s'
  retired : ∀ id, s.Retired id → s'.Retired id
  claims : ∀ id claimant h, others claimant → generation ≤ h →
    s.claimsByRequestId.get? id = some ⟨claimant, h⟩ → Holds s' id claimant h

theorem Acts.holds (h : Acts p others generation current s s') {id : String} {claimant g : Nat}
    (hother : others claimant) (hg : generation ≤ g) (hs : Holds s id claimant g) :
    Holds s' id claimant g := by
  rcases hs with hclaim | hretired
  · exact h.claims id claimant g hother hg hclaim
  · exact .inr (h.retired id hretired)

theorem Acts.trans (h : Acts p others generation current s s')
    (h' : Acts p others generation current s' s'') : Acts p others generation current s s'' where
  fit := h'.fit
  retired id hret := h'.retired id (h.retired id hret)
  claims id claimant g hother hg hclaim :=
    h'.holds hother hg (h.claims id claimant g hother hg hclaim)

theorem Acts.mono {others' : Nat → Prop} {generation' : Nat}
    (h : Acts p others' generation' current s s')
    (hothers : ∀ claimant, others claimant → others' claimant)
    (hg : generation' ≤ generation) : Acts p others generation current s s' where
  fit := h.fit
  retired := h.retired
  claims id claimant g hother hle := h.claims id claimant g (hothers claimant hother) (hg.trans hle)

theorem Acts.refl (h : Fit p current s) : Acts p others generation current s s :=
  ⟨h, fun _ hret => hret, fun _ _ _ _ _ hclaim => .inl hclaim⟩

theorem Acts.quiet (h : Fit p current s) (hquiet : s.Quiet s') :
    Acts p others generation current s s' where
  fit := ⟨h.sound.quiet hquiet, by
    rw [hquiet.claims]
    exact h.begun⟩
  retired _ hret := hret.same hquiet.requests hquiet.nextId
  claims _ _ _ _ _ hclaim := .inl (hquiet.claims ▸ hclaim)

/-- A move makes no claim. -/
theorem claim_of_move {gone : List FieldPath} (hmove : Scheduler.Move p gone s s') {id : String}
    {claim : AcquisitionClaim} (hclaim : s'.claimsByRequestId.get? id = some claim) :
    s.claimsByRequestId.get? id = some claim := by
  have herase {requestId : String}
      (h : (s.claimsByRequestId.erase requestId).get? id = some claim) :
      s.claimsByRequestId.get? id = some claim := by
    rw [Dict.get?_erase] at h
    split at h
    · cases h
    · exact h
  cases hmove with
  | quiet hquiet => exact hquiet.claims ▸ hclaim
  | rewrite _ _ _ _ => exact hclaim
  | @issue key request _ _ _ =>
      cases hfound : s.requestsByKey.get? key with
      | none =>
          rw [hfound] at hclaim
          exact hclaim
      | some existing =>
          rw [hfound] at hclaim
          exact herase hclaim
  | remove _ _ => exact herase hclaim
  | defer _ _ _ => exact hclaim

theorem claim_of_moves {gone : List FieldPath} (hmoves : Scheduler.Moves p gone s s') {id : String}
    {claim : AcquisitionClaim} (hclaim : s'.claimsByRequestId.get? id = some claim) :
    s.claimsByRequestId.get? id = some claim := by
  induction hmoves with
  | refl => exact hclaim
  | tail _ hmove ih => exact ih (claim_of_move hmove hclaim)

theorem Acts.moves {gone : List FieldPath} (h : Fit p current s)
    (hmoves : Scheduler.Moves p gone s s') : Acts p others generation current s s' where
  fit :=
    ⟨h.sound.moves hmoves, fun id claim hclaim => h.begun id claim (claim_of_moves hmoves hclaim)⟩
  retired _ hret := hret.moves hmoves
  claims _ _ _ _ _ hclaim := h.sound.claim_moves hmoves hclaim

/-- A change that leaves the queue, the claims and the ids alone. -/
theorem Acts.same (h : Fit p current s) (hs' : s'.Sound p)
    (hrequests : s'.requestsByKey = s.requestsByKey)
    (hclaims : s'.claimsByRequestId = s.claimsByRequestId) (hnextId : s'.nextId = s.nextId) :
    Acts p others generation current s s' where
  fit := ⟨hs', by
    rw [hclaims]
    exact h.begun⟩
  retired _ hret := hret.same hrequests hnextId
  claims _ _ _ _ _ hclaim := .inl (hclaims ▸ hclaim)

/-- A call that neither claims nor releases leaves everybody's claims. -/
theorem run_acts (others : Nat → Prop) (generation : Nat) (h : Fit c.profile current s)
    (call : Scheduler.Call A) (hclaimless : ¬ call.Claims) :
    Acts c.profile others generation current s (s.run c call) := by
  cases Scheduler.ran h.sound call with
  | moved moves => exact .moves h moves
  | reclaimed hclaims _ => exact absurd hclaims hclaimless
  | @held owner reason _ moves =>
      have hheld : Acts c.profile others generation current s (s.held owner reason) :=
        .same h (h.sound.held owner reason) rfl rfl rfl
      exact hheld.trans (.moves hheld.fit moves)
  | freed moves _ =>
      have hfreed : Acts c.profile others generation current s s.freed :=
        .same h h.sound.freed rfl rfl rfl
      exact hfreed.trans (.moves hfreed.fit moves)

theorem report_acts (others : Nat → Prop) (generation : Nat) (h : Fit c.profile current s)
    (reported : Reported A) :
    Acts c.profile others generation current s (report c s reported) := by
  rw [report]
  generalize reported.calls = calls
  induction calls generalizing s with
  | nil => exact .refl h
  | cons first rest ih =>
      have hfirst := run_acts others generation h first.call first.claimless
      exact hfirst.trans (ih hfirst.fit)

theorem tryClaim_acts (h : Fit p current s) (request : AcquisitionRequest A) (seat : Nat)
    (hg : generation ≤ current) :
    Acts p (· ≠ seat) generation current s (s.tryClaim request seat generation).2 := by
  obtain ⟨hre, -⟩ := s.tryClaim_spec request seat generation fun _ => False
  have hcases : (s.tryClaim request seat generation).2 = s ∨
      (s.tryClaim request seat generation).2.claimsByRequestId =
        s.claimsByRequestId.set request.id ⟨seat, generation⟩ ∧
        ∀ claim, s.claimsByRequestId.get? request.id = some claim →
          claim.providerGeneration < generation := by
    rw [Scheduler.tryClaim]
    split
    · exact .inl rfl
    · simp only
      split
      · rename_i hnone
        refine .inr ⟨rfl, fun claim hclaim => ?_⟩
        rw [hnone] at hclaim
        cases hclaim
      · rename_i existing hexisting
        split
        · rename_i hlt
          refine .inr ⟨rfl, fun claim hclaim => ?_⟩
          rw [hexisting] at hclaim
          cases hclaim
          exact hlt
        · split <;> exact .inl rfl
  refine ⟨⟨h.sound.reclaimed hre, fun id claim hclaim => ?_⟩,
    fun id hret => hret.same hre.requests hre.nextId, fun id claimant g hother hle hclaim => ?_⟩
  · rcases hcases with hsame | ⟨hset, -⟩
    · exact h.begun id claim (hsame ▸ hclaim)
    · rw [hset, Dict.get?_set] at hclaim
      split at hclaim
      · cases hclaim
        exact hg
      · exact h.begun id claim hclaim
  · left
    rcases hcases with hsame | ⟨hset, hearlier⟩
    · rw [hsame]
      exact hclaim
    · rw [hset, Dict.get?_set]
      split
      · rename_i hid
        have hlt := hearlier _ (hid ▸ hclaim)
        exact absurd hle (not_le.mpr hlt)
      · exact hclaim

theorem releaseClaim_acts (h : Fit p current s) (requestId : String) (seat generation : Nat) :
    Acts p (· ≠ seat) generation current s (s.releaseClaim requestId seat generation) := by
  have hre := s.releaseClaim_reclaimed requestId seat generation
  refine ⟨⟨h.sound.reclaimed hre, fun id claim hclaim => ?_⟩,
    fun id hret => hret.same hre.requests hre.nextId,
    fun id claimant g hother hle hclaim => .inl ?_⟩
  · rw [Scheduler.releaseClaim] at hclaim
    split at hclaim
    · exact h.begun id claim hclaim
    · split at hclaim
      · rw [Dict.get?_erase] at hclaim
        split at hclaim
        · cases hclaim
        · exact h.begun id claim hclaim
      · exact h.begun id claim hclaim
  · rw [Scheduler.releaseClaim]
    split
    · exact hclaim
    · rename_i existing hexisting
      split
      · rename_i howner
        rw [Dict.get?_erase]
        split
        · rename_i hid
          rw [hid, hexisting] at hclaim
          cases hclaim
          exact absurd howner.1 hother
        · exact hclaim
      · exact hclaim

/-! ## The loop -/

/-- The scheduler after an attempt. -/
def Attempt.scheduler : Attempt A → Scheduler A
  | passed s _ => s
  | raised s _ => s
  | executing s _ _ => s

section Loop

variable {hooks : Hooks A} {around : Surroundings} {store : Option Nat} {now : Time}
  {request : AcquisitionRequest A} {inFlight : InFlightLedger}

theorem release_acts {cur : Option Nat} (seat : Nat) (store : Option Nat)
    (h : Fit p (generationOf cur) s) (requestId : String) :
    Acts p (· ≠ seat) (generationOf store) (generationOf cur) s
      (s.releaseClaim requestId seat (generationOf store)) :=
  releaseClaim_acts h requestId seat (generationOf store)

variable (seat hooks around store now request inFlight) in
/-- What is left of a turn once the request is claimed. -/
theorem sendUnsent_spec {cur : Option Nat} (h : Fit c.profile (generationOf cur) s)
    (sentPaths : List FieldPath) :
    Acts c.profile (· ≠ seat) (generationOf store) (generationOf cur) s
        (sendUnsent c hooks around seat store now request s inFlight sentPaths).scheduler ∧
      ∀ s' inFlight' sentPaths', sendUnsent c hooks around seat store now request s inFlight
        sentPaths = .executing s' inFlight' sentPaths' → s.Quiet s' := by
  rw [sendUnsent]
  split
  · exact ⟨.refl h, fun _ _ _ hresult => by cases hresult⟩
  · split
    · have hquiet : s.Quiet (s.noteExecuteStarted request.id (some now)) :=
        ⟨rfl, rfl, rfl, rfl, rfl⟩
      refine ⟨.quiet h hquiet, fun s' inFlight' sentPaths' hresult => ?_⟩
      cases hresult
      exact hquiet
    · have hreport := report_acts (· ≠ seat) (generationOf store) h
        (hooks.reportExecutorMissing request now)
      have hacts := hreport.trans (release_acts seat store hreport.fit request.id)
      simp only
      split
      · exact ⟨hacts, fun _ _ _ hresult => by cases hresult⟩
      · exact ⟨hacts, fun _ _ _ hresult => by cases hresult⟩

theorem Holds.quiet {id : String} {claimant g : Nat} (h : Holds s id claimant g)
    (hquiet : s.Quiet s') :
    Holds s' id claimant g :=
  h.imp (fun hclaim => hquiet.claims ▸ hclaim) fun hret => hret.same hquiet.requests hquiet.nextId

/-- Who holds a request in a generation keeps the others from claiming it. -/
theorem Holds.refuses {other generation : Nat} (h : Holds s request.id other generation)
    (hother : other ≠ seat) : (s.tryClaim request seat generation).1 = false := by
  rw [Bool.eq_false_iff]
  intro hclaim
  obtain ⟨hpending, -, hearlier⟩ :=
    (s.tryClaim_spec request seat generation fun _ => False).2 hclaim
  rcases h with hheld | hretired
  · rcases hearlier _ hheld with hsame | hlt
    · exact hother (AcquisitionClaim.mk.inj hsame).1
    · exact absurd hlt (lt_irrefl _)
  · exact hretired.gone hpending

/-- What a turn of the loop does, and when it ends inside `executor.execute`. -/
structure Attempted (p : RadioAcquisitionProfile A) (seat : Nat) (cur store : Option Nat)
    (request : AcquisitionRequest A) (s : Scheduler A) (result : Attempt A) : Prop where
  acts : Acts p (· ≠ seat) (generationOf store) (generationOf cur) s result.scheduler
  executes : ∀ s' inFlight sentPaths, result = .executing s' inFlight sentPaths →
    cur = store ∧ Holds s' request.id seat (generationOf store) ∧
      ∀ other, other ≠ seat → ¬ Holds s request.id other (generationOf store)

/-- A turn that does not come to an execution. -/
theorem Attempted.ends {cur : Option Nat} {result : Attempt A}
    (h : Acts p (· ≠ seat) (generationOf store) (generationOf cur) s result.scheduler)
    (hresult : ∀ s' inFlight sentPaths, result ≠ .executing s' inFlight sentPaths) :
    Attempted p seat cur store request s result :=
  ⟨h, fun s' inFlight sentPaths he => absurd he (hresult s' inFlight sentPaths)⟩

/-- A turn that has claimed the request. -/
theorem Attempted.sends {cur : Option Nat} {m : Scheduler A} (hcur : cur = store)
    (hacts : Acts c.profile (· ≠ seat) (generationOf store) (generationOf cur) s m)
    (hholds : Holds m request.id seat (generationOf store))
    (hfree : ∀ other, other ≠ seat → ¬ Holds s request.id other (generationOf store))
    (sentPaths : List FieldPath) :
    Attempted c.profile seat cur store request s
      (sendUnsent c hooks around seat store now request m inFlight sentPaths) := by
  obtain ⟨hsent, hquiet⟩ :=
    sendUnsent_spec seat hooks around store now request inFlight hacts.fit sentPaths
  exact ⟨hacts.trans hsent, fun s' inFlight' sentPaths' he =>
    ⟨hcur, hholds.quiet (hquiet s' inFlight' sentPaths' he), hfree⟩⟩

variable (seat hooks around now request inFlight) in
theorem attempt_spec {cur : Option Nat} (h : Fit c.profile (generationOf cur) s)
    (hg : generationOf store ≤ generationOf cur) :
    Attempted c.profile seat cur store request s
      (attempt c hooks around seat cur store now request s inFlight) := by
  rw [attempt]
  generalize hgate : (if store.isSome then
    ({ s with availability := around.availability }).isDispatchable request else (true, s)) = gate
  obtain ⟨dispatchable, m⟩ := gate
  have hm : s.Quiet m := by
    split at hgate
    · have hnoted : s.Quiet { s with availability := around.availability } :=
        ⟨rfl, rfl, rfl, rfl, rfl⟩
      have hread := hnoted.trans (Scheduler.isDispatchable_quiet _ request)
      rw [hgate] at hread
      exact hread
    · cases hgate
      exact .refl s
  have hnoted : Acts c.profile (· ≠ seat) (generationOf store) (generationOf cur) s m := .quiet h hm
  simp only
  split
  · exact .ends hnoted fun _ _ _ he => by cases he
  · have hclaimed := hnoted.trans (tryClaim_acts hnoted.fit request seat hg)
    split
    · exact .ends hclaimed fun _ _ _ he => by cases he
    · rename_i hcurrent
      rw [Bool.not_eq_false, Bool.and_eq_true, Bool.and_eq_true, decide_eq_true_eq] at hcurrent
      obtain ⟨⟨htaken, hcur⟩, -⟩ := hcurrent
      obtain ⟨-, hheld, -⟩ :=
        (m.tryClaim_spec request seat (generationOf store) fun _ => False).2 htaken
      have hfree (other : Nat) (hother : other ≠ seat) :
          ¬ Holds s request.id other (generationOf store) := by
        intro hother'
        rw [(hother'.quiet hm).refuses hother] at htaken
        cases htaken
      split
      · exact .sends hcur hclaimed (.inl hheld) hfree _
      · rename_i existing _
        split
        · generalize expiry hooks request existing.paths now = answered
          obtain ⟨reported, terminal⟩ := answered
          have hreport := report_acts (· ≠ seat) (generationOf store) hclaimed.fit reported
          have hall := report_acts (fun _ => True) (generationOf store) hclaimed.fit reported
          have hexpired := hclaimed.trans hreport
          simp only
          split
          · exact .ends hexpired fun _ _ _ he => by cases he
          · split
            · have hacts := hexpired.trans (release_acts seat store hexpired.fit request.id)
              exact .ends hacts fun _ _ _ he => by
                cases he
            · exact .sends hcur hexpired (hall.holds trivial le_rfl (.inl hheld)) hfree _
        · exact .sends hcur hclaimed (.inl hheld) hfree _

variable (seat hooks around now inFlight) in
/-- What the loop does, and where it stops. -/
theorem passLoop_spec {cur : Option Nat} (h : Fit c.profile (generationOf cur) s)
    (hg : generationOf store ≤ generationOf cur) (requests : List (AcquisitionRequest A)) :
    Acts c.profile (· ≠ seat) (generationOf store) (generationOf cur) s
        (passLoop c hooks around seat cur store now requests s inFlight).1 ∧
      ∀ e, (passLoop c hooks around seat cur store now requests s inFlight).2.execution = some e →
        e.store = cur ∧
        Holds (passLoop c hooks around seat cur store now requests s inFlight).1 e.request.id seat
          e.generation ∧
        ∀ other, other ≠ seat → ¬ Holds s e.request.id other e.generation := by
  induction requests generalizing s inFlight with
  | nil => exact ⟨.refl h, fun _ he => by cases he⟩
  | cons request rest ih =>
      have hattempt := attempt_spec seat hooks around now request inFlight h hg
      rw [passLoop]
      cases hresult : attempt c hooks around seat cur store now request s inFlight with
      | passed m inFlight' =>
          rw [hresult] at hattempt
          obtain ⟨hacts, hexecutes⟩ := ih inFlight' hattempt.acts.fit
          refine ⟨hattempt.acts.trans hacts, fun e he => ?_⟩
          obtain ⟨hstore, hholds, hfree⟩ := hexecutes e he
          refine ⟨hstore, hholds, fun other hother hheld => hfree other hother ?_⟩
          exact hattempt.acts.holds hother (by rw [Execution.generation, hstore]; exact hg) hheld
      | raised m inFlight' =>
          rw [hresult] at hattempt
          exact ⟨hattempt.acts, fun _ he => by cases he⟩
      | executing m inFlight' sentPaths =>
          obtain ⟨hcur, hholds, hfree⟩ := hattempt.executes m inFlight' sentPaths hresult
          rw [hresult] at hattempt
          refine ⟨hattempt.acts, fun e he => ?_⟩
          cases he
          exact ⟨hcur.symm, hholds, hfree⟩

end Loop

/-! ## After the await -/

omit [DecidableEq A] in
theorem dispatchableRequests_quiet (s : Scheduler A) : s.Quiet s.dispatchableRequests.2 :=
  s.dispatchableAmong_quiet s.requestsByKey.values

omit [DecidableEq A] in
theorem recordSent_quiet (s : Scheduler A) (inFlight : InFlightLedger) (e : Execution A)
    (newlySent : List FieldPath) : s.Quiet (recordSent s inFlight e newlySent).1 := by
  rw [recordSent]
  split
  · exact .refl s
  · have hrecorded : s.Quiet (s.recordDispatch e.request.id newlySent e.now) :=
      ⟨rfl, rfl, rfl, rfl, rfl⟩
    exact hrecorded.trans (dispatchableRequests_quiet _)

theorem settle_acts {d : Drains A} (seat : Nat) (hooks : Hooks A) (e : Execution A)
    (h : Fit c.profile (generationOf d.store) d.scheduler) (result : ExecutionResult) :
    Acts c.profile (· ≠ seat) e.generation (generationOf d.store) d.scheduler
      (settle c hooks d seat e result).scheduler := by
  have hfinished (s : Scheduler A) : s.Quiet (s.noteExecuteFinished e.request.id) :=
    ⟨rfl, rfl, rfl, rfl, rfl⟩
  have hreleased {s : Scheduler A}
      (hs : Acts c.profile (· ≠ seat) e.generation (generationOf d.store) d.scheduler s) :
      Acts c.profile (· ≠ seat) e.generation (generationOf d.store) d.scheduler
        ((s.releaseClaim e.request.id seat e.generation).noteExecuteFinished e.request.id) := by
    have hrelease := hs.trans (releaseClaim_acts hs.fit e.request.id seat e.generation)
    exact hrelease.trans (.quiet hrelease.fit (hfinished _))
  cases result with
  | cancelled =>
      rw [settle]
      split
      · exact hreleased (.refl h)
      · exact .quiet h (hfinished _)
  | error =>
      rw [settle]
      simp only
      split
      · have hreport := report_acts (· ≠ seat) e.generation h
          (hooks.reportExecutorError e.request e.sentPaths e.now)
        split
        · exact hreport.trans (.quiet hreport.fit (hfinished _))
        · exact hreleased hreport
      · exact .quiet h (hfinished _)
  | done sentPaths failedPaths failureReason =>
      have hfinish : Acts c.profile (· ≠ seat) e.generation (generationOf d.store) d.scheduler
          (d.scheduler.noteExecuteFinished e.request.id) := .quiet h (hfinished _)
      rw [settle]
      simp only
      split
      · generalize (if failedPaths.isEmpty = true then ({} : Reported A) else
          hooks.reportFailure e.request (failureReasonOf failureReason) failedPaths e.now) =
              reported
        have hreport := hfinish.trans (report_acts (· ≠ seat) e.generation hfinish.fit reported)
        split
        · exact hreport
        · exact hreport.trans (.quiet hreport.fit (recordSent_quiet _ _ e sentPaths))
      · exact hfinish

/-! ## Steps -/

/-- The invariant: who executes a request in the generation that is running holds it, and two seats
that execute the same request do so in different generations. -/
structure Inv (p : RadioAcquisitionProfile A) (d : Drains A) : Prop where
  fit : Fit p (generationOf d.store) d.scheduler
  holds : ∀ seat e, (d.seats seat).execution = some e → e.generation ≤ generationOf d.store ∧
    (e.generation = generationOf d.store → Holds d.scheduler e.request.id seat e.generation)
  apart : ∀ seat seat' e e', seat ≠ seat' → (d.seats seat).execution = some e →
    (d.seats seat').execution = some e' → e.request.id = e'.request.id →
      e.generation ≠ e'.generation

/-- A part of a pass keeps the invariant. -/
theorem Inv.after {d : Drains A} (h : Inv p d) {g : Nat} {result : Scheduler A × Seat A}
    (hg : g ≤ generationOf d.store)
    (hacts : Acts p (· ≠ seat) g (generationOf d.store) d.scheduler result.1)
    (hexecutes : ∀ e, result.2.execution = some e → e.generation = generationOf d.store ∧
      Holds result.1 e.request.id seat e.generation ∧
        ∀ other, other ≠ seat → ¬ Holds d.scheduler e.request.id other e.generation) :
    Inv p (d.after seat result) := by
  have hself : ((d.after seat result).seats seat) = result.2 := Function.update_self _ _ _
  have hother {other : Nat} (hne : other ≠ seat) :
      (d.after seat result).seats other = d.seats other := Function.update_of_ne hne _ _
  have hfresh {other : Nat} {e e' : Execution A} (hne : other ≠ seat)
      (he : result.2.execution = some e) (he' : (d.seats other).execution = some e')
      (hid : e.request.id = e'.request.id) : e.generation ≠ e'.generation := by
    intro hsame
    obtain ⟨hcurrent, -, hfree⟩ := hexecutes e he
    refine hfree other hne ?_
    rw [hid, hsame]
    exact (h.holds other e' he').2 (hsame.symm.trans hcurrent)
  refine ⟨hacts.fit, fun other e he => ?_, fun one other e e' hne he he' hid => ?_⟩
  · by_cases hseat : other = seat
    · rw [hseat, hself] at he
      obtain ⟨hcurrent, hholds, -⟩ := hexecutes e he
      exact ⟨hcurrent.le, fun _ => hseat ▸ hholds⟩
    · rw [hother hseat] at he
      obtain ⟨hle, hholds⟩ := h.holds other e he
      refine ⟨hle, fun hcurrent => hacts.holds hseat ?_ (hholds hcurrent)⟩
      rw [hcurrent]
      exact hg
  · by_cases hone : one = seat
    · rw [hone, hself] at he
      have hne' : other ≠ seat := fun hsame => hne (hone.trans hsame.symm)
      rw [hother hne'] at he'
      exact hfresh hne' he he' hid
    · rw [hother hone] at he
      by_cases htwo : other = seat
      · rw [htwo, hself] at he'
        exact (hfresh hone he' he hid.symm).symm
      · rw [hother htwo] at he'
        exact h.apart one other e e' hne he he' hid

theorem generationOf_le {cur store : Option Nat} (h : store = cur ∨ store = none) :
    generationOf store ≤ generationOf cur := by
  rcases h with rfl | rfl
  · exact le_rfl
  · exact Nat.zero_le _

theorem Inv.step {d d' : Drains A} {action : Action A} (h : Inv c.profile d)
    (hstep : step c d action = some d') : Inv c.profile d' := by
  cases action with
  | begin seat hooks around now =>
      rw [AcquisitionDrain.step] at hstep
      cases hidle : (d.seats seat).execution with
      | some e =>
          rw [hidle] at hstep
          cases hstep
      | none =>
          rw [hidle] at hstep
          cases hstep
          have hnoted : d.scheduler.Quiet { d.scheduler with
              txActive := around.txActive
              availability :=
                if d.store.isSome then around.availability else d.scheduler.availability } :=
            ⟨rfl, rfl, rfl, rfl, rfl⟩
          have hread := hnoted.trans (dispatchableRequests_quiet _)
          have hbefore : Acts c.profile (· ≠ seat) (generationOf d.store) (generationOf d.store)
            d.scheduler _ := .quiet h.fit hread
          obtain ⟨hacts, hexecutes⟩ := passLoop_spec seat hooks around now _ hbefore.fit le_rfl _
          refine h.after le_rfl (hbefore.trans hacts) fun e he => ?_
          obtain ⟨hstore, hholds, hfree⟩ := hexecutes e he
          refine ⟨congrArg generationOf hstore, hholds, fun other hother hheld => ?_⟩
          exact hfree other hother (hheld.quiet hread)
  | resume seat hooks around result =>
      rw [AcquisitionDrain.step] at hstep
      cases hexecuting : (d.seats seat).execution with
      | none =>
          rw [hexecuting] at hstep
          cases hstep
      | some e =>
          rw [hexecuting] at hstep
          cases hstep
          have hle := (h.holds seat e hexecuting).1
          have hsettle := settle_acts seat hooks e h.fit result
          refine h.after le_rfl (g := generationOf d.store) ?_ ?_
          · rw [resume]
            cases hresult : settle c hooks d seat e result with
            | raised s inFlight =>
                rw [hresult] at hsettle
                exact hsettle.mono (fun _ hne => hne) hle
            | executing s inFlight sentPaths =>
                rw [hresult] at hsettle
                exact hsettle.mono (fun _ hne => hne) hle
            | passed s inFlight =>
                rw [hresult] at hsettle
                have hstore : generationOf (if e.store.isSome then d.store else none) ≤
                    generationOf d.store := generationOf_le (by split <;> simp)
                obtain ⟨hacts, -⟩ :=
                  passLoop_spec seat hooks around e.now inFlight hsettle.fit hstore e.rest
                exact (hsettle.mono (fun _ hne => hne) hle).trans
                  (hacts.mono (fun _ hne => hne) hstore)
          · intro e' he'
            rw [resume] at he' ⊢
            cases hresult : settle c hooks d seat e result with
            | raised s inFlight =>
                rw [hresult] at he'
                cases he'
            | executing s inFlight sentPaths =>
                rw [hresult] at he'
                cases he'
            | passed s inFlight =>
                rw [hresult] at hsettle he'
                have hstore : generationOf (if e.store.isSome then d.store else none) ≤
                    generationOf d.store := generationOf_le (by split <;> simp)
                obtain ⟨-, hexecutes⟩ :=
                  passLoop_spec seat hooks around e.now inFlight hsettle.fit hstore e.rest
                obtain ⟨hcurrent, hholds, hfree⟩ := hexecutes e' he'
                refine ⟨congrArg generationOf hcurrent, hholds, fun other hother hheld => ?_⟩
                have hnow : e'.generation = generationOf d.store := congrArg generationOf hcurrent
                refine hfree other hother (hsettle.holds hother ?_ hheld)
                rw [hnow]
                exact hle
  | elsewhere report =>
      cases hstep
      have hacts := run_acts (fun _ => True) 0 h.fit report.call report.claimless
      refine ⟨hacts.fit, fun seat e he => ?_, h.apart⟩
      obtain ⟨hle, hholds⟩ := h.holds seat e he
      exact ⟨hle, fun hcurrent => hacts.holds trivial (Nat.zero_le _) (hholds hcurrent)⟩
  | store generation =>
      rw [AcquisitionDrain.step] at hstep
      split at hstep
      · rename_i hlater
        cases hstep
        refine ⟨⟨h.fit.sound, fun id claim hclaim => (h.fit.begun id claim hclaim).trans hlater⟩,
          fun seat e he => ?_, h.apart⟩
        obtain ⟨hle, hholds⟩ := h.holds seat e he
        refine ⟨hle.trans hlater, fun hcurrent => hholds (le_antisymm hle ?_)⟩
        rw [hcurrent]
        exact hlater
      · cases hstep

/-! ## Runs -/

theorem inv_start (p : RadioAcquisitionProfile A) (clock : FreshnessClock) :
    Inv p (start clock : Drains A) where
  fit := ⟨Scheduler.sound_init p clock, fun _ _ hclaim => by cases hclaim⟩
  holds _ _ he := by cases he
  apart _ _ _ _ _ he := by cases he

/-- Whatever the seats do in their passes and whatever else happens to the scheduler and the store
while they wait, no two seats are inside `executor.execute` for one request id in one provider
generation, and a seat that is, in the generation that is running, holds the claim for it unless the
request is gone for good. -/
theorem execute_exclusive (c : SchedulerConfig A) (clock : FreshnessClock)
    {actions : List (Action A)} {d : Drains A}
    (hrun : Runs.exec (step c) (start clock) actions = some d) :
    (∀ seat seat' e e', seat ≠ seat' → (d.seats seat).execution = some e →
      (d.seats seat').execution = some e' → e.request.id = e'.request.id →
        e.generation ≠ e'.generation) ∧
    ∀ seat e, (d.seats seat).execution = some e → e.generation = generationOf d.store →
      d.scheduler.claimsByRequestId.get? e.request.id = some ⟨seat, e.generation⟩ ∨
        d.scheduler.Retired e.request.id := by
  have hinv := Runs.exec_invariant (fun d action d' h hstep => Inv.step h hstep) hrun
    (inv_start c.profile clock)
  exact ⟨hinv.apart, fun seat e he => (hinv.holds seat e he).2⟩

/-! A panel asks for a setting, two seats make a pass, and one of them reads it. -/

def quietHooks : Hooks Unit where
  expired _ _ _ := false
  dispatchable requests := requests
  reportFailure _ _ _ _ := {}
  reportExecutorMissing _ _ := {}
  reportExecutorError _ _ _ := {}

def twoPasses : List (Action Unit) :=
  [.elsewhere ⟨.ensureFresh Scheduler.askVox, fun h => h⟩,
    .begin 0 quietHooks { txActive := false } 0,
    .begin 1 quietHooks { txActive := false } 0]

theorem twoPasses_executes :
    (Runs.exec (step Scheduler.menuConfig)
      (start AcquisitionScheduler.stillClock) twoPasses).map (fun d =>
        ((d.seats 0).execution.map (·.request.id), (d.seats 1).execution.map (·.request.id))) =
      some (some (Scheduler.acqId 1), none) := by decide +kernel

theorem execute_exclusive_twoPasses : ∃ d e,
    Runs.exec (step Scheduler.menuConfig) (start AcquisitionScheduler.stillClock) twoPasses =
        some d ∧
      (d.seats 0).execution = some e ∧ e.request.id = Scheduler.acqId 1 ∧
      ∀ e', (d.seats 1).execution = some e' → e.request.id = e'.request.id →
        e.generation ≠ e'.generation := by
  obtain ⟨d, hrun, hexecutions⟩ := Option.map_eq_some_iff.mp twoPasses_executes
  obtain ⟨e, he, hid⟩ := Option.map_eq_some_iff.mp (Prod.mk.inj hexecutions).1
  exact ⟨d, e, hrun, he, hid, fun e' he' =>
    (execute_exclusive Scheduler.menuConfig AcquisitionScheduler.stillClock hrun).1 0 1 e e'
      Nat.zero_ne_one he he'⟩

end AcquisitionDrain

end Rigplane.Acquisition
