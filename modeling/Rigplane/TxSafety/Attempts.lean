import Rigplane.TxSafety.Invariants

/-!
# Where the attempts of a supervisor come from

`Tracks` says of a part of a call what it does to the attempts: it makes some, under identifiers it
takes from the factory, and it leaves active the attempt that was active, or one it has made, or
none. Parts compose (`Tracks.trans`), so that the same holds of every call (`tracks_of_call`).

An attempt that is no longer active never is again (`Gone`): a call makes no attempt under an
identifier that was taken before, where the factory does not repeat itself.
-/

namespace Rigplane.TxSafety

namespace Supervisor

variable {c : Config} {s m s' : Supervisor} {effects effects' : List TxEffect}

/-- An identifier taken from the factory between two states. -/
def Made (c : Config) (s s' : Supervisor) (id : String) : Prop :=
  ∃ n, s.idsMade ≤ n ∧ n < s'.idsMade ∧ id = c.idFactory n

structure Tracks (c : Config) (s s' : Supervisor) (effects : List TxEffect) : Prop where
  ids : s.idsMade ≤ s'.idsMade
  made : ∀ a, .attempt a ∈ effects → Made c s s' a.id
  active : ∀ a, s'.active = some a → s.active = some a ∨ .attempt a ∈ effects
  cancels : ∀ k, .cancel k ∈ effects → ∃ a, (s.active = some a ∨ .attempt a ∈ effects) ∧
    a.id = k.attemptId ∧ a.providerGeneration = k.providerGeneration
  generation : ∀ g, s.generation = some g → ∃ g', s'.generation = some g' ∧ g ≤ g'
  /-- The active attempt stays of the generation of the supervisor. -/
  current : (∀ a, s.active = some a → s.generation = some a.providerGeneration) →
    ∀ a, s'.active = some a → s'.generation = some a.providerGeneration

theorem Tracks.quiet (hids : s'.idsMade = s.idsMade)
    (hactive : s'.active = s.active ∨ s'.active = none)
    (hgeneration : s'.generation = s.generation) :
    Tracks c s s' [] where
  ids := hids.ge
  made := nofun
  active a ha := by
    rcases hactive with hsame | hnone
    · exact .inl (hsame ▸ ha)
    · rw [hnone] at ha
      cases ha
  cancels := nofun
  generation g hg := ⟨g, hgeneration.trans hg, le_rfl⟩
  current h a ha := by
    rcases hactive with hsame | hnone
    · rw [hgeneration]
      exact h a (hsame ▸ ha)
    · rw [hnone] at ha
      cases ha

theorem Tracks.trans (h : Tracks c s m effects) (h' : Tracks c m s' effects') :
    Tracks c s s' (effects ++ effects') where
  ids := h.ids.trans h'.ids
  made a ha := by
    rcases List.mem_append.mp ha with ha | ha
    · obtain ⟨n, hle, hlt, hid⟩ := h.made a ha
      exact ⟨n, hle, hlt.trans_le h'.ids, hid⟩
    · obtain ⟨n, hle, hlt, hid⟩ := h'.made a ha
      exact ⟨n, h.ids.trans hle, hlt, hid⟩
  active a ha := by
    rcases h'.active a ha with ha | ha
    · rcases h.active a ha with ha | ha
      · exact .inl ha
      · exact .inr (List.mem_append_left _ ha)
    · exact .inr (List.mem_append_right _ ha)
  cancels k hk := by
    rcases List.mem_append.mp hk with hk | hk
    · obtain ⟨a, ha, hkey⟩ := h.cancels k hk
      exact ⟨a, ha.imp id (List.mem_append_left _), hkey⟩
    · obtain ⟨a, ha, hkey⟩ := h'.cancels k hk
      refine ⟨a, ?_, hkey⟩
      rcases ha with ha | ha
      · exact (h.active a ha).imp id (List.mem_append_left _)
      · exact .inr (List.mem_append_right _ ha)
  generation g hg := by
    obtain ⟨g', hg', hle⟩ := h.generation g hg
    obtain ⟨g'', hg'', hle'⟩ := h'.generation g' hg'
    exact ⟨g'', hg'', hle.trans hle'⟩
  current hcurrent := h'.current (h.current hcurrent)

/-- A quiet part before another one. -/
theorem Tracks.after (h : Tracks c m s' effects) (hq : Tracks c s m []) : Tracks c s s' effects :=
  hq.trans h

/-- A quiet part behind another one. -/
theorem Tracks.before (h : Tracks c s m effects) (hq : Tracks c m s' []) :
    Tracks c s s' effects := by
  have htrans := h.trans hq
  rw [List.append_nil] at htrans
  exact htrans

theorem bind_ok {α β : Type} {x : Except TxSafetyError α} {f : α → Except TxSafetyError β} {b : β}
    (h : x >>= f = .ok b) : ∃ a, x = .ok a ∧ f a = .ok b := by
  cases x with
  | error e => cases h
  | ok a => exact ⟨a, rfl, h⟩

/-! ## The parts of a call -/

theorem tracks_beginRelease {reason : TxReleaseReason} {now : Time} {error : Option String}
    (h : s.beginRelease reason now error = .ok s') : Tracks c s s' [] := by
  rw [beginRelease] at h
  split at h
  · cases h
    exact .quiet rfl (.inl rfl) rfl
  · obtain ⟨b, -, h⟩ := bind_ok h
    cases h
    exact .quiet rfl (.inl rfl) rfl

theorem tracks_start {kind : ProviderAttemptKind} {timeout now : Time} {a : ProviderAttempt}
    (h : s.start c kind timeout now = .ok (a, s')) : Tracks c s s' [.attempt a] := by
  rw [start] at h
  split at h
  · rename_i g l hactive hgeneration hlease
    cases h
    constructor
    · exact Nat.le_succ _
    · intro a ha
      cases List.mem_singleton.mp ha
      exact ⟨s.idsMade, le_rfl, Nat.lt_succ_self _, rfl⟩
    · intro a ha
      cases ha
      exact .inr List.mem_cons_self
    · intro k hk
      cases List.mem_singleton.mp hk
    · exact fun g hg => ⟨g, hg, le_rfl⟩
    · intro _ a ha
      cases ha
      exact hgeneration
  · cases h

theorem tracks_cancel {a : ProviderAttempt} (ha : s.active = some a) (now : Time) :
    Tracks c s (s.cancel c a now).2 (s.cancel c a now).1 := by
  rw [cancel]
  split
  · exact .quiet rfl (.inl rfl) rfl
  · constructor
    · exact le_rfl
    · intro b hb
      cases List.mem_singleton.mp hb
    · exact fun b hb => .inl hb
    · intro k hk
      cases List.mem_singleton.mp hk
      exact ⟨a, .inl ha, rfl, rfl⟩
    · exact fun g hg => ⟨g, hg, le_rfl⟩
    · exact id

theorem tracks_serviceReleaseAt {force : Bool} {instant : Time}
    (h : s.serviceReleaseAt c force instant = .ok (effects, s')) : Tracks c s s' effects := by
  rw [serviceReleaseAt] at h
  split at h
  · cases h
    exact .quiet rfl (.inl rfl) rfl
  · split at h
    · cases h
      exact .quiet rfl (.inl rfl) rfl
    · obtain ⟨⟨a, m⟩, hstart, h⟩ := bind_ok h
      cases h
      exact (tracks_start hstart).before (.quiet rfl (.inl rfl) rfl)

theorem tracks_serviceRelease {force : Bool} {instant : Option Time}
    (h : s.serviceRelease c force instant = .ok (effects, s')) : Tracks c s s' effects := by
  cases instant with
  | some t => exact tracks_serviceReleaseAt h
  | none => exact (tracks_serviceReleaseAt h).after (.quiet rfl (.inl rfl) rfl)

/-- A call returns, and does to the attempts what a part may. -/
def Returned (c : Config) (s : Supervisor) (r : TxTransition × Supervisor) : Prop :=
  Tracks c s r.2 r.1.effects

theorem Returned.of_result {outcome : TxOutcome} {r : TxTransition × Supervisor}
    (h : Except.ok (m.result c outcome effects) = (Except.ok r : Except TxSafetyError _))
    (ht : Tracks c s m effects) : Returned c s r := by
  cases h
  exact ht

theorem Returned.of_service {force : Bool} {instant : Option Time} {outcome : TxOutcome}
    {r : TxTransition × Supervisor}
    (h : (do
      let (effects, s') ← m.serviceRelease c force instant
      return s'.result c outcome effects) = (Except.ok r : Except TxSafetyError _))
    (ht : Tracks c s m []) : Returned c s r := by
  obtain ⟨⟨effects, n⟩, hservice, h⟩ := bind_ok h
  exact .of_result h ((tracks_serviceRelease hservice).after ht)

theorem returned_releaseCurrent {reason : TxReleaseReason} {r : TxTransition × Supervisor}
    (h : s.releaseCurrent c reason = .ok r) : Returned c s r := by
  rw [releaseCurrent] at h
  split at h
  · exact .of_result h (.quiet rfl (.inl rfl) rfl)
  · obtain ⟨m, hbegin, h⟩ := bind_ok h
    have hm : Tracks c s m [] := (tracks_beginRelease hbegin).after (.quiet rfl (.inl rfl) rfl)
    split at h
    · rename_i attempt hactive
      exact .of_result h ((tracks_cancel hactive _).after hm)
    · exact .of_service h hm

theorem tracks_controlLost {now : Time} (h : s.controlLost now = .ok s') : Tracks c s s' [] := by
  rw [controlLost] at h
  split at h
  · exact tracks_beginRelease h
  · cases h
    exact .quiet rfl (.inl rfl) rfl

theorem tracks_rebindRelease {now : Time} (h : s.rebindRelease now = .ok s') :
    Tracks c s s' [] := by
  rw [rebindRelease] at h
  split at h
  · cases h
    exact .quiet rfl (.inl rfl) rfl
  · obtain ⟨m, hlost, h⟩ := bind_ok h
    obtain ⟨b, -, h⟩ := bind_ok h
    cases h
    exact (tracks_controlLost hlost).before (.quiet rfl (.inl rfl) rfl)

theorem returned_replaceProvider {generation : Int} {ready : Bool} {r : TxTransition × Supervisor}
    (h : s.replaceProvider c generation ready = .ok r) : Returned c s r := by
  rw [replaceProvider] at h
  split at h
  · cases h
  split at h
  · exact .of_result h (.quiet rfl (.inl rfl) rfl)
  · rename_i hnewer
    obtain ⟨m, hrebind, h⟩ := bind_ok h
    refine .of_service h ((tracks_rebindRelease hrebind).after ?_)
    refine ⟨le_rfl, fun a ha => (by cases ha), fun a ha => (by cases ha), fun k hk => (by cases hk),
      fun g hg => ⟨generation, rfl, ?_⟩, fun _ a ha => by cases ha⟩
    rw [hg, Option.any_some, decide_eq_true_iff, not_le] at hnewer
    exact hnewer.le

theorem returned_setProviderReady {generation : Int} {ready : Bool} {r : TxTransition × Supervisor}
    (h : s.setProviderReady c generation ready = .ok r) : Returned c s r := by
  rw [setProviderReady] at h
  split at h
  · exact .of_result h (.quiet rfl (.inl rfl) rfl)
  split at h
  · exact .of_result h (.quiet rfl (.inl rfl) rfl)
  split at h
  · exact .of_service h (.quiet rfl (.inl rfl) rfl)
  · obtain ⟨m, hlost, h⟩ := bind_ok h
    have hm : Tracks c s m [] := (tracks_controlLost hlost).after (.quiet rfl (.inl rfl) rfl)
    split at h
    · rename_i attempt hactive
      exact .of_result h ((tracks_cancel hactive _).after hm)
    · exact .of_result h hm

theorem returned_observePtt {o : ProviderPttObservation} {r : TxTransition × Supervisor}
    (h : s.observePtt c o = .ok r) : Returned c s r := by
  rw [observePtt] at h
  split at h
  · exact .of_result h (.quiet rfl (.inl rfl) rfl)
  · split at h
    · exact .of_result h (.quiet rfl (.inl rfl) rfl)
    · exact .of_result h (.quiet rfl (.inl rfl) rfl)

theorem tracks_leaseTo (owner : TxOwner) : Tracks c s (s.leaseTo c owner) [] :=
  ⟨Nat.le_succ _, nofun, fun _ ha => .inl ha, nofun, fun g hg => ⟨g, hg, le_rfl⟩, id⟩

theorem returned_requestOn {owner : TxOwner} {r : TxTransition × Supervisor}
    (h : s.requestOn c owner = .ok r) : Returned c s r := by
  rw [requestOn] at h
  have hstay : Tracks c s s [] := .quiet rfl (.inl rfl) rfl
  split at h
  · exact .of_result h hstay
  split at h
  · exact .of_result h hstay
  split at h
  · exact .of_result h hstay
  split at h
  · exact .of_result h hstay
  split at h
  · exact .of_result h hstay
  · obtain ⟨b, -, h⟩ := bind_ok h
    obtain ⟨⟨a, m⟩, hstart, h⟩ := bind_ok h
    refine .of_result h ((tracks_start hstart).after ?_)
    have hlease : Tracks c s.clockRead (s.clockRead.leaseTo c owner) [] := tracks_leaseTo owner
    have hacquired : Tracks c s.clockRead
        ((s.clockRead.leaseTo c owner).acquired c b (s.now c)) [] :=
      hlease.before (.quiet rfl (.inl rfl) rfl)
    exact hacquired.after (.quiet rfl (.inl rfl) rfl)

theorem returned_forceUnkey {owner : TxOwner} {reason : TxReleaseReason}
    {r : TxTransition × Supervisor} (h : s.forceUnkey c owner reason = .ok r) : Returned c s r := by
  rw [forceUnkey] at h
  have hstay : Tracks c s s [] := .quiet rfl (.inl rfl) rfl
  split at h
  · cases h
  split at h
  · exact .of_result h hstay
  split at h
  · exact .of_result h hstay
  split at h
  · exact .of_result h hstay
  split at h
  · exact .of_result h hstay
  · obtain ⟨m, hbegin, h⟩ := bind_ok h
    have hlease : Tracks c s.clockRead (s.clockRead.leaseTo c owner) [] := tracks_leaseTo owner
    exact .of_service h (((tracks_beginRelease hbegin).after hlease).after
      (.quiet rfl (.inl rfl) rfl))

theorem tracks_scheduleRetry (error : String) : Tracks c s (s.scheduleRetry c error) [] := by
  rw [scheduleRetry]
  split
  · exact .quiet rfl (.inl rfl) rfl
  · exact .quiet rfl (.inl rfl) rfl

theorem returned_reads {outcome : TxOutcome} {now : Time} {r : TxTransition × Supervisor}
    (h : (do
      let (read, s') ← s.start c .readPtt c.readTimeout now
      return s'.result c outcome [.attempt read]) = (Except.ok r : Except TxSafetyError _)) :
    Returned c s r := by
  obtain ⟨⟨read, m⟩, hstart, h⟩ := bind_ok h
  exact .of_result h (tracks_start hstart)

theorem returned_releases {reason : TxReleaseReason} {text : String} {outcome : TxOutcome}
    {now : Time} {r : TxTransition × Supervisor}
    (h : (do
      let m ← s.beginRelease reason now (some text)
      let (effects, s') ← m.serviceRelease c true (some now)
      return s'.result c outcome effects) = (Except.ok r : Except TxSafetyError _)) :
    Returned c s r := by
  obtain ⟨m, hbegin, h⟩ := bind_ok h
  exact .of_service h (tracks_beginRelease hbegin)

theorem returned_settleLeased {attempt : ProviderAttempt} {succeeded : Bool} {error : Option String}
    {now : Time} {r : TxTransition × Supervisor}
    (h : s.settleLeased c attempt succeeded error now = .ok r) : Returned c s r := by
  have hstay : Tracks c s s [] := .quiet rfl (.inl rfl) rfl
  rw [settleLeased.eq_def] at h
  split at h
  · split at h
    · exact returned_reads h
    · exact returned_releases h
  · exact .of_service h hstay
  · split at h
    · exact returned_releases h
    · exact .of_result h hstay
  · split at h
    · exact .of_service h hstay
    split at h
    · split at h
      · exact returned_reads h
      · exact .of_result h (tracks_scheduleRetry _)
    · exact .of_result h (tracks_scheduleRetry _)

theorem returned_settleAttempt {attemptId : String} {generation : Int} {succeeded : Bool}
    {error : Option String} {r : TxTransition × Supervisor}
    (h : s.settleAttempt c attemptId generation succeeded error = .ok r) : Returned c s r := by
  rw [settleAttempt] at h
  split at h
  · exact .of_result h (.quiet rfl (.inl rfl) rfl)
  · split at h
    · exact .of_result h (.quiet rfl (.inl rfl) rfl)
    · split at h
      · exact .of_result h (.quiet rfl (.inr rfl) rfl)
      · have hsettle := returned_settleLeased h
        exact hsettle.after (.quiet rfl (.inr rfl) rfl)

theorem returned_tick {r : TxTransition × Supervisor} (h : s.tick c = .ok r) : Returned c s r := by
  rw [tick] at h
  obtain ⟨⟨effects, m⟩, hwatchdog, h⟩ := bind_ok h
  have hm : Tracks c s m effects := by
    refine Tracks.after ?_ (m := { s.clockRead with driven := true }) (.quiet rfl (.inl rfl) rfl)
    rw [watchdog] at hwatchdog
    split at hwatchdog
    · cases hwatchdog
      exact .quiet rfl (.inl rfl) rfl
    · obtain ⟨n, hbegin, hwatchdog⟩ := bind_ok hwatchdog
      refine Tracks.after ?_ (tracks_beginRelease hbegin)
      split at hwatchdog
      · rename_i attempt hactive
        have heq : n.cancel c attempt (s.now c) = (effects, m) := Except.ok.inj hwatchdog
        have hcancel := tracks_cancel (c := c) hactive (s.now c)
        rw [heq] at hcancel
        exact hcancel
      · cases hwatchdog
        exact .quiet rfl (.inl rfl) rfl
  by_cases hnil : effects = []
  · subst hnil
    obtain ⟨⟨effects', n⟩, hservice, h⟩ := bind_ok h
    exact .of_result h ((tracks_serviceRelease hservice).after hm)
  · simp only [if_neg hnil] at h
    exact .of_result h hm

/-! ## Every call -/

theorem tracks_of_map {r : Except TxSafetyError (TxTransition × Supervisor)}
    {t : Option TxTransition}
    (hreturned : ∀ x, r = .ok x → Returned c s x) (h : r.map (Prod.map some id) = .ok (t, s')) :
    Tracks c s s' (effectsOf t) := by
  cases r with
  | error e => cases h
  | ok x =>
      have hx := hreturned x rfl
      cases h
      exact hx

theorem tracks_of_call {op : Op} {t : Option TxTransition} (h : call c s op = .ok (t, s')) :
    Tracks c s s' (effectsOf t) := by
  cases op with
  | replaceProvider g ready => exact tracks_of_map (fun _ => returned_replaceProvider) h
  | setProviderReady g ready => exact tracks_of_map (fun _ => returned_setProviderReady) h
  | observePtt o => exact tracks_of_map (fun _ => returned_observePtt) h
  | requestOn owner => exact tracks_of_map (fun _ => returned_requestOn) h
  | requestOff owner leaseId reason =>
      refine tracks_of_map (fun x hx => ?_) h
      rw [requestOff] at hx
      split at hx
      · exact .of_result hx (.quiet rfl (.inl rfl) rfl)
      · exact returned_releaseCurrent hx
  | releaseOwner owner reason =>
      refine tracks_of_map (fun x hx => ?_) h
      rw [releaseOwner] at hx
      split at hx
      · exact .of_result hx (.quiet rfl (.inl rfl) rfl)
      · exact returned_releaseCurrent hx
  | emergencyRelease reason =>
      refine tracks_of_map (fun x hx => ?_) h
      rw [emergencyRelease] at hx
      split at hx
      · cases hx
      split at hx
      · exact returned_releaseCurrent hx
      · exact .of_result hx (.quiet rfl (.inl rfl) rfl)
  | forceUnkey owner reason => exact tracks_of_map (fun _ => returned_forceUnkey) h
  | settleAttempt a g ok error => exact tracks_of_map (fun _ => returned_settleAttempt) h
  | tick => exact tracks_of_map (fun _ => returned_tick) h
  | retireDriver =>
      cases h
      exact .quiet rfl (.inl rfl) rfl

/-- A settlement of the active attempt leaves another one active, or none. -/
theorem settled_inactive {a : ProviderAttempt} {succeeded : Bool} {error : Option String}
    {r : TxTransition × Supervisor} (hactive : s.active = some a)
    (hcurrent : s.generation = some a.providerGeneration)
    (h : s.settleAttempt c a.id a.providerGeneration succeeded error = .ok r) :
    ∀ b, r.2.active = some b → .attempt b ∈ r.1.effects := by
  have hsettles : s.Settles a a.id a.providerGeneration := ⟨rfl, rfl, hcurrent⟩
  rw [settleAttempt, hactive] at h
  simp only [if_neg (not_not.mpr hsettles)] at h
  intro b hb
  split at h
  · cases h
    cases hb
  · refine ((returned_settleLeased h).active b hb).resolve_left fun hnone => ?_
    cases hnone

end Supervisor

end Rigplane.TxSafety
