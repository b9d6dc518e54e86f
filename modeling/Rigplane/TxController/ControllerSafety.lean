import Rigplane.TxController.Controller

/-!
# A later gesture stops an ON, and a release follows a key-down

Every gesture and cleanup that takes effect counts the generation up, so that a task whose
generation is the last one has seen nothing since its own gesture but what did not take effect
(`Ok.since`).

The flag `pttAttempted` is the key-down that is not forgotten (`Ok.attempted`).  It is cleared where
a `ptt_off` or `force_off` is submitted, where the key-downs are forgotten, and where the `ptt_on`
of the last gesture has its answer, which is then the only key-down that could be left
(`Ok.ordered`).
-/

namespace Rigplane.TxController

/-- It does not take effect. -/
def Made.Idle (m : Made) : Prop := m = .refusedTransmitOn ∨ m = .joinedForceOff

instance (m : Made) : Decidable m.Idle := inferInstanceAs (Decidable (_ ∨ _))

namespace ManagedTxController

/-- An ON is submitted for the last gesture or cleanup that takes effect, and a `pttOff` that finds
a key-down which is not forgotten submits `ptt_off`. -/
structure Safe (s : ManagedTxController) : Prop where
  last : ∀ submission ∈ s.submissions,
    submission.operation = .pttOn ∨ submission.operation = .transmitOn →
      ∀ m ∈ submission.later, m.Idle
  released : ∀ release ∈ s.releases, (∃ k ∈ release.keyDowns, k.forgotten = false) →
    release.sent = true

structure Ok (s : ManagedTxController) : Prop where
  bounded : ∀ generation, s.generation < generation → s.tasks generation = none
  since : ∀ generation task, s.tasks generation = some task → task.since ≤ s.made.length ∧
    (generation = s.generation → ∀ m ∈ s.made.drop task.since, m.Idle)
  attempted : ∀ k ∈ s.keyDowns, k.forgotten = false → s.pttAttempted = true
  keyed : ∀ k ∈ s.keyDowns, k.generation ≤ s.generation
  ordered : ∀ generation task, s.tasks generation = some task → task.transmit = false →
    ∀ k ∈ s.keyDowns, k.forgotten = false → generation ≤ k.generation
  /-- While the last gesture awaits its `ptt_off` there is no key-down to forget. -/
  releasing : ∀ task, s.tasks s.generation = some task → task.stage = .releasing →
    ∀ k ∈ s.keyDowns, k.forgotten = true
  safe : s.Safe

section

variable {s t : ManagedTxController}

theorem Ok.init : init.Ok where
  bounded _ _ := rfl
  since := nofun
  attempted := nofun
  keyed := nofun
  ordered := nofun
  releasing := nofun
  safe := ⟨nofun, nofun⟩

/-! ## What a step leaves -/

/-- No new submission of an ON, no new release, no new key-down. -/
structure Quiet (s t : ManagedTxController) : Prop where
  submissions : ∀ submission ∈ t.submissions, submission ∈ s.submissions ∨
    (submission.operation ≠ .pttOn ∧ submission.operation ≠ .transmitOn)
  releases : ∀ release ∈ t.releases, release ∈ s.releases ∨
    ((∃ k ∈ release.keyDowns, k.forgotten = false) → release.sent = true)
  keyDowns : ∀ k ∈ t.keyDowns, ∃ k₀ ∈ s.keyDowns, k.generation = k₀.generation ∧
    (k.forgotten = false → k₀.forgotten = false)
  attempted : ∀ k ∈ t.keyDowns, k.forgotten = false → t.pttAttempted = true

theorem Safe.quiet (h : s.Safe) (hq : Quiet s t) : t.Safe := by
  constructor
  · intro submission hmem hon
    rcases hq.submissions submission hmem with hold | hoff
    · exact h.last submission hold hon
    · exact absurd hon (not_or.mpr hoff)
  · intro release hmem
    rcases hq.releases release hmem with hold | hnew
    · exact h.released release hold
    · exact hnew

/-- A step that neither makes something nor begins a task. -/
theorem Ok.quiet (h : s.Ok) (hq : Quiet s t) (hgeneration : t.generation = s.generation)
    (hmade : ∃ idle, t.made = s.made ++ idle ∧ ∀ m ∈ idle, m.Idle)
    (htasks : ∀ generation task, t.tasks generation = some task → s.tasks generation = some task) :
    t.Ok := by
  constructor
  · intro generation hlt
    cases htask : t.tasks generation with
    | none => rfl
    | some task =>
        have hold := htasks generation task htask
        rw [h.bounded generation (hgeneration ▸ hlt)] at hold
        cases hold
  · intro generation task htask
    obtain ⟨hle, hidle⟩ := h.since generation task (htasks generation task htask)
    obtain ⟨idle, hmade, hidle'⟩ := hmade
    refine ⟨?_, fun hlast m hm => ?_⟩
    · rw [hmade, List.length_append]
      exact Nat.le_add_right_of_le hle
    · rw [hmade, List.drop_append_of_le_length hle] at hm
      rcases List.mem_append.mp hm with hm | hm
      · exact hidle (hlast.trans hgeneration) m hm
      · exact hidle' m hm
  · exact hq.attempted
  · intro k hk
    obtain ⟨k₀, hk₀, hsame, -⟩ := hq.keyDowns k hk
    rw [hsame, hgeneration]
    exact h.keyed k₀ hk₀
  · intro generation task htask hptt k hk hkept
    obtain ⟨k₀, hk₀, hsame, hforgotten⟩ := hq.keyDowns k hk
    rw [hsame]
    exact h.ordered generation task (htasks generation task htask) hptt k₀ hk₀ (hforgotten hkept)
  · intro task htask hreleasing k hk
    rw [hgeneration] at htask
    obtain ⟨k₀, hk₀, -, hforgotten⟩ := hq.keyDowns k hk
    have hall := h.releasing task (htasks _ _ htask) hreleasing k₀ hk₀
    refine Bool.of_not_eq_false fun hkept => ?_
    rw [hforgotten hkept] at hall
    cases hall
  · exact h.safe.quiet hq

/-- A gesture or cleanup that counts the generation up: no task stands for it yet. -/
theorem Ok.next (h : s.Ok) (hq : Quiet s t) (hgeneration : t.generation = s.generation + 1)
    (hmade : ∃ m, t.made = s.made ++ m)
    (htasks : ∀ generation task, t.tasks generation = some task → s.tasks generation = some task) :
    t.Ok := by
  have hnone : ∀ generation, s.generation < generation → t.tasks generation = none := by
    intro generation hlt
    cases htask : t.tasks generation with
    | none => rfl
    | some task =>
        have hold := htasks generation task htask
        rw [h.bounded generation hlt] at hold
        cases hold
  constructor
  · intro generation hlt
    exact hnone generation (by omega)
  · intro generation task htask
    obtain ⟨hle, -⟩ := h.since generation task (htasks generation task htask)
    obtain ⟨m, hmade⟩ := hmade
    refine ⟨?_, fun hlast => ?_⟩
    · rw [hmade, List.length_append]
      exact Nat.le_add_right_of_le hle
    · rw [hnone generation (by omega)] at htask
      cases htask
  · exact hq.attempted
  · intro k hk
    obtain ⟨k₀, hk₀, hsame, -⟩ := hq.keyDowns k hk
    have := h.keyed k₀ hk₀
    omega
  · intro generation task htask hptt k hk hkept
    obtain ⟨k₀, hk₀, hsame, hforgotten⟩ := hq.keyDowns k hk
    rw [hsame]
    exact h.ordered generation task (htasks generation task htask) hptt k₀ hk₀ (hforgotten hkept)
  · intro task htask
    rw [hnone _ (by omega)] at htask
    cases htask
  · exact h.safe.quiet hq

/-- A task begins for the last gesture. -/
theorem Ok.begin (h : s.Ok) {transmit : Bool}
    (hforgotten : transmit = false → ∀ k ∈ s.keyDowns, k.forgotten = true) :
    (s.begin transmit).Ok := by
  have hprepare : s.prepareAudio.generation = s.generation ∧ s.prepareAudio.made = s.made ∧
      s.prepareAudio.tasks = s.tasks ∧ s.prepareAudio.keyDowns = s.keyDowns ∧
      s.prepareAudio.pttAttempted = s.pttAttempted ∧
      s.prepareAudio.submissions = s.submissions ∧ s.prepareAudio.releases = s.releases := by
    rw [prepareAudio]
    split <;> exact ⟨rfl, rfl, rfl, rfl, rfl, rfl, rfl⟩
  obtain ⟨hgeneration, hmade, htasks, hkeyDowns, hattempted, hsubmissions, hreleases⟩ := hprepare
  have htask : ∀ generation task, (s.begin transmit).tasks generation = some task →
      (generation = s.generation ∧ task = ⟨transmit, .preparing s.preparation, s.made.length⟩) ∨
        (generation ≠ s.generation ∧ s.tasks generation = some task) := by
    intro generation task
    change Function.update s.prepareAudio.tasks s.generation _ generation = _ → _
    rw [htasks]
    by_cases hg : generation = s.generation
    · rw [hg, Function.update_self]
      intro he
      exact .inl ⟨rfl, (Option.some.inj he).symm⟩
    · rw [Function.update_of_ne hg]
      exact fun he => .inr ⟨hg, he⟩
  have hg : (s.begin transmit).generation = s.generation := hgeneration
  have hm : (s.begin transmit).made = s.made := hmade
  have hk : (s.begin transmit).keyDowns = s.keyDowns := hkeyDowns
  constructor
  · intro generation hlt
    rw [hg] at hlt
    cases hsome : (s.begin transmit).tasks generation with
    | none => rfl
    | some task =>
        rcases htask generation task hsome with ⟨rfl, -⟩ | ⟨-, hold⟩
        · exact absurd hlt (Nat.lt_irrefl _)
        · rw [h.bounded generation hlt] at hold
          cases hold
  · intro generation task hsome
    rw [hg, hm]
    rcases htask generation task hsome with ⟨rfl, rfl⟩ | ⟨-, hold⟩
    · refine ⟨Nat.le_refl _, fun _ m hmem => ?_⟩
      rw [List.drop_length] at hmem
      cases hmem
    · exact h.since generation task hold
  · change ∀ k ∈ s.prepareAudio.keyDowns, k.forgotten = false → s.prepareAudio.pttAttempted = true
    rw [hkeyDowns, hattempted]
    exact h.attempted
  · rw [hk, hg]
    exact h.keyed
  · intro generation task hsome hptt
    rw [hk]
    rcases htask generation task hsome with ⟨rfl, rfl⟩ | ⟨-, hold⟩
    · intro k hmem hkept
      rw [hforgotten hptt k hmem] at hkept
      cases hkept
    · exact h.ordered generation task hold hptt
  · intro task hsome hreleasing
    rw [hg] at hsome
    rcases htask s.generation task hsome with ⟨-, rfl⟩ | ⟨hne, -⟩
    · cases hreleasing
    · exact absurd rfl hne
  · refine ⟨?_, ?_⟩
    · change ∀ submission ∈ s.prepareAudio.submissions, _
      rw [hsubmissions]
      exact h.safe.last
    · change ∀ release ∈ s.prepareAudio.releases, _
      rw [hreleases]
      exact h.safe.released

/-! ## The gestures -/

/-- Key-downs that are the same or forgotten. -/
theorem Quiet.of_keyDowns (hsubmissions : t.submissions = s.submissions)
    (hreleases : t.releases = s.releases)
    (hkeyDowns : ∀ k ∈ t.keyDowns, ∃ k₀ ∈ s.keyDowns, k.generation = k₀.generation ∧
      (k.forgotten = false → k₀.forgotten = false))
    (hattempted : ∀ k ∈ t.keyDowns, k.forgotten = false → t.pttAttempted = true) : Quiet s t where
  submissions _ hmem := .inl (hsubmissions ▸ hmem)
  releases _ hmem := .inl (hreleases ▸ hmem)
  keyDowns := hkeyDowns
  attempted := hattempted

theorem Ok.same_keyDowns (h : s.Ok) (hsubmissions : t.submissions = s.submissions)
    (hreleases : t.releases = s.releases) (hkeyDowns : t.keyDowns = s.keyDowns)
    (hattempted : t.pttAttempted = s.pttAttempted) : Quiet s t := by
  refine .of_keyDowns hsubmissions hreleases (fun k hk => ?_) fun k hk hkept => ?_
  · exact ⟨k, hkeyDowns ▸ hk, rfl, id⟩
  · rw [hattempted]
    exact h.attempted k (hkeyDowns ▸ hk) hkept

theorem mem_forget {which : KeyDown → Bool} {k : KeyDown} (hk : k ∈ (s.forget which).keyDowns) :
    ∃ k₀ ∈ s.keyDowns, k = { k₀ with forgotten := k₀.forgotten || which k₀ } := by
  obtain ⟨k₀, hk₀, rfl⟩ := List.mem_map.mp hk
  exact ⟨k₀, hk₀, rfl⟩

theorem forgotten_of_forget {k : KeyDown} (hk : k ∈ (s.forget fun _ => true).keyDowns) :
    k.forgotten = true := by
  obtain ⟨k₀, -, rfl⟩ := mem_forget hk
  exact Bool.or_true _

theorem Quiet.forgetAll (hsubmissions : t.submissions = s.submissions)
    (hreleases : t.releases = s.releases)
    (hkeyDowns : t.keyDowns = (s.forget fun _ => true).keyDowns) : Quiet s t := by
  refine .of_keyDowns hsubmissions hreleases (fun k hk => ?_) fun k hk hkept => ?_
  · rw [hkeyDowns] at hk
    obtain ⟨k₀, hk₀, rfl⟩ := mem_forget hk
    refine ⟨k₀, hk₀, rfl, fun hkept => ?_⟩
    rw [Bool.or_true] at hkept
    cases hkept
  · rw [hkeyDowns] at hk
    rw [forgotten_of_forget hk] at hkept
    cases hkept

/-- An OFF is submitted, and no key-down is left. -/
theorem Quiet.off (operation : Operation) (releases : List Release)
    (hoff : operation = .pttOff ∨ operation = .forceOff)
    (hreleases : t.releases = s.releases ++ releases)
    (hsent : ∀ release ∈ releases, (∃ k ∈ release.keyDowns, k.forgotten = false) →
      release.sent = true)
    (hsubmissions : t.submissions = s.submissions ++ [⟨operation, []⟩])
    (hkeyDowns : t.keyDowns = []) : Quiet s t where
  submissions submission hmem := by
    rw [hsubmissions] at hmem
    rcases List.mem_append.mp hmem with hmem | hmem
    · exact .inl hmem
    · rw [List.mem_singleton.mp hmem]
      rcases hoff with rfl | rfl <;> exact .inr ⟨nofun, nofun⟩
  releases release hmem := by
    rw [hreleases] at hmem
    rcases List.mem_append.mp hmem with hmem | hmem
    · exact .inl hmem
    · exact .inr (hsent release hmem)
  keyDowns := by
    rw [hkeyDowns]
    exact nofun
  attempted := by
    rw [hkeyDowns]
    exact nofun

theorem Ok.pttOn (h : s.Ok) : s.pttOn.Ok := by
  have hnext : ((((s.make .pttOn).next .ptt .pending).setAttempted false).forget
      fun _ => true).Ok := h.next (.forgetAll rfl rfl rfl) rfl ⟨[.pttOn], rfl⟩ fun _ _ => id
  exact hnext.begin fun _ k hk => forgotten_of_forget hk

theorem Ok.transmitOn (h : s.Ok) (fresh : Bool) : (s.transmitOn fresh).Ok := by
  rw [ManagedTxController.transmitOn]
  split
  · refine h.quiet (h.same_keyDowns rfl rfl rfl rfl) rfl
      ⟨[.refusedTransmitOn], rfl, ?_⟩ fun _ _ => id
    intro m hm
    exact .inl (List.mem_singleton.mp hm)
  · have hnext : ((s.make .transmitOn).next .transmit .pending).Ok :=
      h.next (h.same_keyDowns rfl rfl rfl rfl) rfl ⟨[.transmitOn], rfl⟩ fun _ _ => id
    exact hnext.begin fun he => Bool.noConfusion he

/-- A `pttOff`, of itself or of a `releaseSession`. -/
theorem Ok.pttOff (h : s.Ok) (m : Made) : (s.make m).pttOff.Ok := by
  rw [ManagedTxController.pttOff]
  split
  · rename_i hattempted
    refine h.next (.off .pttOff [⟨s.keyDowns, s.pttAttempted⟩] (.inl rfl) rfl ?_ rfl rfl) rfl
      ⟨[m], rfl⟩ fun _ _ => id
    intro release hmem _
    rw [List.mem_singleton.mp hmem]
    exact hattempted
  · rename_i hattempted
    have hforgotten : ∀ k ∈ s.keyDowns, k.forgotten ≠ false :=
      fun k hk hkept => hattempted (h.attempted k hk hkept)
    refine h.next ⟨fun _ hmem => .inl hmem, fun release hmem => ?_, fun k hk => ⟨k, hk, rfl, id⟩,
      fun k hk hkept => absurd hkept (hforgotten k hk)⟩ rfl ⟨[m], rfl⟩ fun _ _ => id
    rcases List.mem_append.mp hmem with hmem | hmem
    · exact .inl hmem
    · refine .inr ?_
      rw [List.mem_singleton.mp hmem]
      rintro ⟨k, hk, hkept⟩
      exact absurd hkept (hforgotten k hk)

theorem Ok.forceOff (h : s.Ok) : s.forceOff.Ok := by
  rw [ManagedTxController.forceOff]
  split
  · refine h.quiet (h.same_keyDowns rfl rfl rfl rfl) rfl ⟨[.joinedForceOff], rfl, ?_⟩ fun _ _ => id
    intro m hm
    exact .inr (List.mem_singleton.mp hm)
  · exact h.next (.off .forceOff [] (.inr rfl) (List.append_nil _).symm nofun rfl rfl) rfl
      ⟨[.forceOff], rfl⟩ fun _ _ => id

theorem Ok.releaseSession (h : s.Ok) : s.releaseSession.Ok := by
  rw [ManagedTxController.releaseSession]
  split
  · exact h.pttOff .releaseSession
  · exact h.next (h.same_keyDowns rfl rfl rfl rfl) rfl ⟨[.releaseSession], rfl⟩ fun _ _ => id

theorem Ok.abandon (h : s.Ok) (m : Made) : (s.abandon m).Ok :=
  h.next (.forgetAll rfl rfl rfl) rfl ⟨[m], rfl⟩ fun _ _ => id

/-! ## Behind the awaits -/

/-- Fields that no invariant reads. -/
theorem Ok.of_same (h : s.Ok) (hgeneration : t.generation = s.generation) (hmade : t.made = s.made)
    (htasks : ∀ generation task, t.tasks generation = some task → s.tasks generation = some task)
    (hsubmissions : t.submissions = s.submissions) (hreleases : t.releases = s.releases)
    (hkeyDowns : t.keyDowns = s.keyDowns) (hattempted : t.pttAttempted = s.pttAttempted) : t.Ok :=
  h.quiet (h.same_keyDowns hsubmissions hreleases hkeyDowns hattempted) hgeneration
    ⟨[], by rw [hmade, List.append_nil], nofun⟩ htasks

theorem tasks_drop (generation : Nat) : ∀ g task, (s.setTask generation none).tasks g = some task →
    s.tasks g = some task := by
  intro g task
  change Function.update s.tasks generation none g = some task → _
  by_cases hg : g = generation
  · rw [hg, Function.update_self]
    exact nofun
  · rw [Function.update_of_ne hg]
    exact id

theorem Ok.drop (h : s.Ok) (generation : Nat) : (s.setTask generation none).Ok :=
  h.of_same rfl rfl (tasks_drop generation) rfl rfl rfl rfl

/-- A task goes on to its next await. -/
theorem Ok.restage (h : s.Ok) {generation : Nat} {task : OnTask}
    (htask : s.tasks generation = some task) (stage : Stage)
    (hreleasing : stage = .releasing → ∀ k ∈ s.keyDowns, k.forgotten = true) :
    (s.setTask generation (some { task with stage := stage })).Ok := by
  have hold : ∀ g u, (s.setTask generation (some { task with stage := stage })).tasks g = some u →
      (g = generation ∧ u = { task with stage := stage }) ∨ s.tasks g = some u := by
    intro g u
    change Function.update s.tasks generation _ g = some u → _
    by_cases hg : g = generation
    · rw [hg, Function.update_self]
      exact fun he => .inl ⟨rfl, (Option.some.inj he).symm⟩
    · rw [Function.update_of_ne hg]
      exact .inr
  constructor
  · intro g hlt
    change Function.update s.tasks generation _ g = none
    rw [Function.update_of_ne]
    · exact h.bounded g hlt
    · rintro rfl
      rw [h.bounded g hlt] at htask
      cases htask
  · intro g u hu
    rcases hold g u hu with ⟨rfl, rfl⟩ | hu
    · exact h.since g task htask
    · exact h.since g u hu
  · exact h.attempted
  · exact h.keyed
  · intro g u hu hptt
    rcases hold g u hu with ⟨rfl, rfl⟩ | hu
    · exact h.ordered g task htask hptt
    · exact h.ordered g u hu hptt
  · intro u hu hstage
    rcases hold s.generation u hu with ⟨-, rfl⟩ | hu
    · exact hreleasing hstage
    · exact h.releasing u hu hstage
  · exact ⟨h.safe.last, h.safe.released⟩

/-- An ON is submitted for the last gesture. -/
theorem Ok.submit (h : s.Ok) {generation : Nat} {task : OnTask}
    (htask : s.tasks generation = some task) (hlast : generation = s.generation)
    {operation : Operation} (hon : operation = .pttOn ∨ operation = .transmitOn) :
    (s.submit operation (s.made.drop task.since)).Ok := by
  have hkeyDowns : (s.submit operation (s.made.drop task.since)).keyDowns = s.keyDowns := by
    rcases hon with rfl | rfl <;> rfl
  have hidle := (h.since generation task htask).2 hlast
  refine ⟨h.bounded, h.since, ?_, ?_, ?_, ?_, ?_, h.safe.released⟩
  · rw [hkeyDowns]
    exact h.attempted
  · rw [hkeyDowns]
    exact h.keyed
  · rw [hkeyDowns]
    exact h.ordered
  · rw [hkeyDowns]
    exact h.releasing
  · intro submission hmem hop
    rcases List.mem_append.mp hmem with hmem | hmem
    · exact h.safe.last submission hmem hop
    · rw [List.mem_singleton.mp hmem]
      exact hidle

theorem isCurrent_generation {generation : Nat} {task : OnTask}
    (h : s.isCurrent generation task = true) : generation = s.generation := by
  rw [isCurrent, Bool.and_eq_true_iff, beq_iff_eq] at h
  exact h.1

theorem Ok.prepared (h : s.Ok) {generation : Nat} {task : OnTask}
    (htask : s.tasks generation = some task) (hcurrent : s.isCurrent generation task = true) :
    (s.prepared generation task).Ok := by
  have hlast := isCurrent_generation hcurrent
  rw [ManagedTxController.prepared]
  split
  · split
    · -- the key-down of a `pttOn` before is released first
      have hoff : (s.submit .pttOff []).Ok :=
        h.quiet (.off .pttOff [] (.inl rfl) (List.append_nil _).symm nofun rfl rfl) rfl
          ⟨[], (List.append_nil _).symm, nofun⟩ fun _ _ => id
      exact hoff.restage htask .releasing fun _ => nofun
    · exact (h.submit htask hlast (.inr rfl)).restage htask .sending nofun
  · rename_i hptt
    have hsent := (h.submit htask hlast (.inl rfl)).restage htask .sending nofun
    have hself : ((s.submit .pttOn (s.made.drop task.since)).setTask generation
        (some { task with stage := .sending })).tasks s.generation =
          some { task with stage := .sending } := by
      rw [← hlast]
      exact Function.update_self _ _ _
    constructor
    · exact hsent.bounded
    · exact hsent.since
    · intro _ _ _
      rfl
    · intro k hk
      rcases List.mem_append.mp hk with hk | hk
      · exact hsent.keyed k hk
      · rw [List.mem_singleton.mp hk]
        exact Nat.le_of_eq hlast
    · intro g u hu hptt' k hk hkept
      rcases List.mem_append.mp hk with hk | hk
      · exact hsent.ordered g u hu hptt' k hk hkept
      · rw [List.mem_singleton.mp hk]
        -- every task is of this generation or an earlier one
        refine Nat.le_of_not_lt fun hlt => ?_
        have hnone := hsent.bounded g (hlast ▸ hlt)
        change _ = some u at hu
        rw [show ((s.submit .pttOn (s.made.drop task.since)).setTask generation
          (some { task with stage := .sending })).tasks g = some u from hu] at hnone
        cases hnone
    · intro u hu hstage
      change ((s.submit .pttOn (s.made.drop task.since)).setTask generation
        (some { task with stage := .sending })).tasks s.generation = some u at hu
      rw [hself] at hu
      cases hu
      cases hstage
    · exact ⟨hsent.safe.last, hsent.safe.released⟩

theorem Ok.released (h : s.Ok) {generation : Nat} {task : OnTask}
    (htask : s.tasks generation = some task) (hstage : task.stage = .releasing)
    (hcurrent : s.isCurrent generation task = true) : (s.released generation task).Ok := by
  have hlast := isCurrent_generation hcurrent
  have hforgotten : ∀ k ∈ s.keyDowns, k.forgotten = true :=
    h.releasing task (hlast ▸ htask) hstage
  have hcleared : (s.setAttempted false).Ok := by
    refine h.quiet (.of_keyDowns rfl rfl (fun k hk => ⟨k, hk, rfl, id⟩) fun k hk hkept => ?_) rfl
      ⟨[], (List.append_nil _).symm, nofun⟩ fun _ _ => id
    rw [hforgotten k hk] at hkept
    cases hkept
  have hsubmitted := hcleared.submit htask hlast (.inr rfl)
  exact hsubmitted.restage htask .sending nofun

theorem Ok.endCycle (h : s.Ok) : s.endCycle.Ok := h.of_same rfl rfl (fun _ _ => id) rfl rfl rfl rfl

theorem Ok.reject (h : s.Ok) (generation : Nat) : (s.reject generation).Ok := by
  refine h.quiet (.of_keyDowns rfl rfl (fun k hk => ?_) fun k hk hkept => ?_) rfl
    ⟨[], (List.append_nil _).symm, nofun⟩ fun _ _ => id
  · exact ⟨k, List.mem_of_mem_filter hk, rfl, id⟩
  · exact h.attempted k (List.mem_of_mem_filter hk) hkept

theorem Ok.answered (h : s.Ok) {generation : Nat} {task : OnTask}
    (htask : s.tasks generation = some task) (outcome : Outcome) :
    (s.answered generation task outcome).Ok := by
  -- the state after the task has ended, and a rejected key-down with it
  obtain ⟨t, ht, hok, hsame, hkeyDowns⟩ : ∃ t,
      t = (if (!task.transmit && outcome == .rejected) = true then
        (s.setTask generation none).reject generation else s.setTask generation none) ∧ t.Ok ∧
        t.generation = s.generation ∧ ∀ k ∈ t.keyDowns, k ∈ s.keyDowns := by
    refine ⟨_, rfl, ?_⟩
    split
    · exact ⟨(h.drop generation).reject generation, rfl, fun k => List.mem_of_mem_filter⟩
    · exact ⟨h.drop generation, rfl, fun k => id⟩
  rw [ManagedTxController.answered, ← ht]
  split
  · exact hok
  · rename_i hcurrent
    have hlast : generation = s.generation := by
      rw [Bool.not_eq_true, Bool.not_eq_false'] at hcurrent
      exact isCurrent_generation hcurrent
    split
    · exact hok.of_same rfl rfl (fun _ _ => id) rfl rfl rfl rfl
    · split
      · exact hok.endCycle
      · rename_i hptt
        refine Ok.endCycle (hok.quiet (.of_keyDowns rfl rfl
          (fun k hk => ?_) fun k hk hkept => ?_) rfl
          ⟨[], (List.append_nil _).symm, nofun⟩ fun _ _ => id)
        · obtain ⟨k₀, hk₀, rfl⟩ := mem_forget hk
          refine ⟨k₀, hk₀, rfl, fun hkept => ?_⟩
          rw [Bool.or_eq_false_iff] at hkept
          exact hkept.1
        · -- a key-down that is left is of this gesture, so that it is forgotten
          obtain ⟨k₀, hk₀, rfl⟩ := mem_forget hk
          rw [Bool.or_eq_false_iff, beq_eq_false_iff_ne] at hkept
          have hle := h.ordered generation task htask ((Bool.not_eq_true _).mp hptt) k₀
            (hkeyDowns k₀ hk₀) hkept.1
          have hge := h.keyed k₀ (hkeyDowns k₀ hk₀)
          exact absurd (by omega) hkept.2

/-! ## Runs -/

theorem Ok.step (h : s.Ok) {a : Action} (hstep : s.step a = some t) : t.Ok := by
  cases a with
  | pttOn => cases hstep; exact h.pttOn
  | pttOff => cases hstep; exact h.pttOff .pttOff
  | transmitOn fresh => cases hstep; exact h.transmitOn fresh
  | forceOff => cases hstep; exact h.forceOff
  | releaseSession => cases hstep; exact h.releaseSession
  | abandonSession => cases hstep; exact h.abandon .abandonSession
  | dispose => cases hstep; exact h.abandon .dispose
  | refresh => cases hstep; exact h.of_same rfl rfl (fun _ _ => id) rfl rfl rfl rfl
  | audioSettled preparation ready =>
      simp only [ManagedTxController.step] at hstep
      split at hstep
      · split at hstep
        · cases hstep
          exact h.of_same rfl rfl (fun _ _ => id) rfl rfl rfl rfl
        · cases hstep
          exact h.of_same rfl rfl (fun _ _ => id) rfl rfl rfl rfl
      · cases hstep
  | prepared generation =>
      simp only [ManagedTxController.step] at hstep
      split at hstep
      · rename_i transmit preparation since htask
        obtain ⟨ready, -, rfl⟩ := Option.map_eq_some_iff.mp hstep
        split
        · rename_i hcurrent
          exact h.prepared htask (Bool.and_eq_true_iff.mp hcurrent).2
        · exact h.drop generation
      · cases hstep
  | released generation outcome =>
      simp only [ManagedTxController.step] at hstep
      split at hstep
      · rename_i transmit since htask
        split at hstep
        · cases hstep
          exact h.drop generation
        · rename_i hcurrent
          rw [Bool.not_eq_true, Bool.not_eq_false'] at hcurrent
          split at hstep
          · cases hstep
            exact h.released htask rfl hcurrent
          · cases hstep
            exact (h.drop generation).endCycle
      · cases hstep
  | answered generation outcome =>
      simp only [ManagedTxController.step] at hstep
      split at hstep
      · rename_i transmit since htask
        cases hstep
        exact h.answered htask outcome
      · cases hstep
  | forceOffSettled =>
      simp only [ManagedTxController.step] at hstep
      split at hstep
      · cases hstep
        exact h.of_same rfl rfl (fun _ _ => id) rfl rfl rfl rfl
      · cases hstep
  | forceOffCleared =>
      simp only [ManagedTxController.step] at hstep
      split at hstep
      · cases hstep
        exact h.of_same rfl rfl (fun _ _ => id) rfl rfl rfl rfl
      · cases hstep
  | refreshed captured supersedes =>
      have hrefreshed : Ok { s with refreshes := s.refreshes.erase captured } :=
        h.of_same rfl rfl (fun _ _ => id) rfl rfl rfl rfl
      simp only [ManagedTxController.step] at hstep
      split at hstep
      · split at hstep
        · split at hstep
          · cases hstep
            exact hrefreshed.abandon .superseded
          · cases hstep
            exact hrefreshed
        · cases hstep
          exact hrefreshed
      · cases hstep

end

/-- In every run an ON is submitted for the last gesture or cleanup that takes effect only, and each
`pttOff` that finds a key-down which is not forgotten submits `ptt_off`. -/
theorem safe_of_run {s : ManagedTxController} {actions : List Action}
    (hrun : Runs.exec step init actions = some s) : s.Safe :=
  (Runs.exec_invariant (fun _ _ _ h hstep => Ok.step h hstep) hrun Ok.init).safe

/-- A press that is submitted late, and its release. -/
theorem safe_of_run_press :
    ∃ s, Runs.exec step init [.pttOn, .transmitOn false, .audioSettled 0 true, .prepared 1, .pttOff,
        .answered 1 .accepted] = some s ∧
      s.submissions.map (·.operation) = [.pttOn, .pttOff] ∧ s.Safe := by
  have hrun : Runs.exec step init [.pttOn, .transmitOn false, .audioSettled 0 true, .prepared 1,
      .pttOff, .answered 1 .accepted] = some _ := rfl
  exact ⟨_, hrun, by decide, safe_of_run hrun⟩

/-- A `transmitOn` that is refused does not stop the `ptt_on` of the gesture before it; and behind a
snapshot that ends the ON cycle `pttOff` releases nothing. -/
theorem submitted_late_and_left_keyed :
    (¬ ∀ (actions : List Action) (s : ManagedTxController), Runs.exec step init actions = some s →
      ∀ submission ∈ s.submissions,
        submission.operation = .pttOn ∨ submission.operation = .transmitOn →
          submission.later = []) ∧
    ¬ ∀ (actions : List Action) (s : ManagedTxController), Runs.exec step init actions = some s →
      ∀ release ∈ s.releases, release.keyDowns ≠ [] → release.sent = true := by
  constructor
  · intro hall
    have hlast := hall [.pttOn, .transmitOn false, .audioSettled 0 true, .prepared 1] _ rfl
      ⟨.pttOn, [.refusedTransmitOn]⟩ (by decide) (.inl rfl)
    cases hlast
  · intro hall
    have hsent := hall [.pttOn, .audioSettled 0 true, .prepared 1, .answered 1 .accepted,
      .refreshed (.cycle 1) true, .pttOff] _ rfl ⟨[⟨1, true⟩], false⟩ (by decide) (by decide)
    cases hsent

end ManagedTxController

end Rigplane.TxController
