import Rigplane.Web.EnvelopeMoves

/-!
# Generations and revisions of the browser's state

The generation of the base does not go back, and neither does its revision within a generation; an
envelope that comes again changes nothing; a delta is applied to a base of its generation only.

An envelope of a new generation leaves nothing of a lower one just where it is a full, or a delta
that fits the base it retires (`Fits`).
-/

namespace Rigplane.Web.Frontend

open Json

namespace Browser

/-! ## The invariant -/

/-- What holds of the browser at any time of a session. -/
structure Ok (s : Browser) : Prop where
  base : ∀ state, s.fullState = some state → Valid state ∧ s.hasReceivedFullState = true ∧
    s.expectedProviderGeneration = none ∧
    ∃ g, s.acceptedProviderGeneration = some g ∧ generationOf state = some g
  unbased : s.fullState = none →
    s.acceptedProviderGeneration = none ∧ s.hasReceivedFullState = false
  store : ∀ state, s.radio.current = some state →
    ∃ g, s.acceptedProviderGeneration = some g ∧ generationOf state = some g
  capabilities : ∀ record, s.capabilities = some record → s.expectedProviderGeneration = none ∧
    ∀ g, s.acceptedProviderGeneration = some g →
      capabilitiesMatchGeneration (some record) (some g) = true

theorem Ok.initial (capabilities : Option Fields) : Ok (initial capabilities) where
  base := fun state h => (by cases h)
  unbased := fun _ => ⟨rfl, rfl⟩
  store := fun state h => (by cases h)
  capabilities := fun record _ => ⟨rfl, fun g h => (by cases h)⟩

theorem generationOf_normalize (state : Fields) :
    generationOf (normalizeValidatedState state) = generationOf state := by
  rw [normalizeValidatedState]
  split
  · rfl
  · rw [generationOf, generationOf, Json.get, Dict.find_assign, if_neg (by decide)]
    rfl

theorem Ok.stored {s s' : Browser} (h : Ok s) (hstored : Stored s s') : Ok s' := by
  obtain ⟨hsame, hcurrent⟩ := hstored
  rw [hsame]
  refine { h with store := fun state hstate => ?_ }
  rcases hcurrent with hkept | ⟨base, hbase, hnew⟩
  · exact h.store state (hkept ▸ hstate)
  · have hnorm := hnew.symm.trans hstate
    cases hnorm
    obtain ⟨-, -, -, g, haccepted, hgeneration⟩ := h.base base hbase
    exact ⟨g, haccepted, (generationOf_normalize base).trans hgeneration⟩

theorem Ok.reset (s : Browser) (g : Nat) : Ok (s.resetForProviderGeneration g) where
  base := fun state h => (by cases h)
  unbased := fun _ => ⟨rfl, rfl⟩
  store := fun state h => (by cases h)
  capabilities := fun record h => (by cases h)

theorem Ok.accepted_of_base {s : Browser} (h : Ok s) {g : Nat}
    (haccepted : s.acceptedProviderGeneration = some g) :
    ∃ state, s.fullState = some state ∧ s.expectedProviderGeneration = none ∧
      generationOf state = some g := by
  cases hfull : s.fullState with
  | none =>
      rw [(h.unbased hfull).1] at haccepted
      cases haccepted
  | some state =>
      obtain ⟨-, -, hexpected, g', haccepted', hgeneration⟩ := h.base state hfull
      rw [haccepted] at haccepted'
      cases haccepted'
      exact ⟨state, rfl, hexpected, hgeneration⟩

/-- The base of a generation can be installed where nothing of another one is left. -/
theorem Ok.install {s : Browser} {g : Nat} {state : Fields} (hvalid : Valid state)
    (hgeneration : generationOf state = some g)
    (hstore : ∀ shown, s.radio.current = some shown → generationOf shown = some g)
    (hcapabilities : ∀ record, s.capabilities = some record →
      capabilitiesMatchGeneration (some record) (some g) = true) : Ok (s.install g state) where
  base := by
    intro state' h
    cases h
    exact ⟨hvalid, rfl, rfl, g, rfl, hgeneration⟩
  unbased := fun h => (by cases h)
  store := fun shown hshown => ⟨g, rfl, hstore shown hshown⟩
  capabilities := by
    intro record hrecord
    refine ⟨rfl, fun g' hg' => ?_⟩
    cases hg'
    exact hcapabilities record hrecord

/-- A full leaves nothing of another generation. -/
theorem Ok.installFull {s : Browser} (h : Ok s) {g : Nat} {state : Fields} (hvalid : Valid state)
    (hgeneration : generationOf state = some g) : Ok ((s.retireForFull g).install g state) := by
  rw [retireForFull]
  split
  · exact .install hvalid hgeneration (fun _ hshown => (by cases hshown))
      fun _ hrecord => (by cases hrecord)
  · rename_i hkeep
    rw [not_and_or, not_and_or, not_or, Decidable.not_not, Decidable.not_not, not_or,
      Decidable.not_not, Bool.not_eq_false] at hkeep
    refine .install hvalid hgeneration (fun shown hshown => ?_) fun record hrecord => ?_
    · obtain ⟨g', haccepted, hshownGeneration⟩ := h.store shown hshown
      obtain ⟨base, hbase, hexpected, -⟩ := h.accepted_of_base haccepted
      rcases hkeep with ⟨hown, -⟩ | hown | ⟨hnone, -⟩
      · rw [haccepted] at hown
        cases hown
        exact hshownGeneration
      · rw [hexpected] at hown
        cases hown
      · rw [haccepted] at hnone
        cases hnone
    · obtain ⟨hexpected, hmatch⟩ := h.capabilities record hrecord
      rcases hkeep with ⟨hown, -⟩ | hown | ⟨-, hown⟩
      · exact hmatch g hown
      · rw [hexpected] at hown
        cases hown
      · rw [hrecord] at hown
        exact eq_true_of_ne_false hown

theorem Ok.moves {s s' : Browser} {envelope : Fields} (h : Ok s) (hmoves : Moves s envelope s') :
    Ok s' := by
  cases hmoves with
  | dropped => exact h
  | retired => exact .reset s _
  | full hfull hseen hbehind hstored =>
      obtain ⟨hvalid, hgeneration⟩ := fullOf_eq_some hfull.full
      exact (h.installFull hvalid hgeneration).stored hstored
  | @delta g ops base state _ hdelta hbase haccepted hstate hadvance hstored =>
      obtain ⟨-, hreceived, hexpected, g', haccepted', hgeneration⟩ := h.base base hbase
      rw [haccepted] at haccepted'
      cases haccepted'
      obtain ⟨_, -, -, hvalid⟩ := candidateOf_eq_some.mp hstate
      refine Ok.stored ?_ hstored
      refine { h with base := ?_, unbased := fun hnone => (by cases hnone) }
      rintro state' hstate'
      cases hstate'
      exact ⟨valid_of_isValidServerState hvalid, hreceived, hexpected, g, haccepted,
        generation_of_candidate hdelta.keeps hstate hgeneration⟩

theorem capabilities_generation {record : Fields} {g g' : Nat}
    (h : capabilitiesMatchGeneration (some record) (some g) = true)
    (h' : capabilitiesMatchGeneration (some record) (some g') = true) : g = g' := by
  rw [capabilitiesMatchGeneration, Bool.and_eq_true] at h h'
  exact generation_unique h.2 h'.2

/-! ## What does not go back -/

/-- A revision of the base. -/
def baseRevision (s : Browser) : Option ℚ := s.fullState.map stateRevisionOf

/-- The generation of the base. -/
def baseGeneration (s : Browser) : Option Nat := s.fullState.bind generationOf

/-- The highest generation seen, counted from one. -/
def level (s : Browser) : Nat := s.highestSeenGeneration.elim 0 (· + 1)

/-- The browser has gone on: to a higher generation, or to a base that is not behind. -/
structure Advanced (s s' : Browser) : Prop where
  level : s.level ≤ s'.level
  revision : s.level = s'.level → ∀ base, s.fullState = some base →
    ∃ base', s'.fullState = some base' ∧ stateRevisionOf base ≤ stateRevisionOf base'

theorem Advanced.refl (s : Browser) : Advanced s s := ⟨le_rfl, fun _ base h => ⟨base, h, le_rfl⟩⟩

theorem Advanced.trans {s s' s'' : Browser} (h : Advanced s s') (h' : Advanced s' s'') :
    Advanced s s'' := by
  have hle := h.level
  have hle' := h'.level
  refine ⟨le_trans hle hle', fun hlevel base hbase => ?_⟩
  obtain ⟨base', hbase', hrevision⟩ := h.revision (by omega) base hbase
  obtain ⟨base'', hbase'', hrevision'⟩ := h'.revision (by omega) base' hbase'
  exact ⟨base'', hbase'', le_trans hrevision hrevision'⟩

theorem Stored.advanced {s s' : Browser} (h : Stored s s') : Advanced s s' := by
  have hsame := h.same
  refine ⟨?_, fun _ base hbase => ⟨base, ?_, le_rfl⟩⟩
  · rw [hsame]
    exact le_rfl
  · rw [hsame]
    exact hbase

theorem level_of_base {s : Browser} (h : Ok s) {g : Nat}
    (haccepted : s.acceptedProviderGeneration = some g) : s.level = g + 1 := by
  obtain ⟨_, -, hexpected, -⟩ := h.accepted_of_base haccepted
  rw [level, highestSeenGeneration, hexpected, haccepted]
  rfl

theorem level_le_of_seen {s : Browser} {g : Nat}
    (hseen : ∀ seen, s.highestSeenGeneration = some seen → seen ≤ g) : s.level ≤ g + 1 := by
  rw [level]
  cases hhighest : s.highestSeenGeneration with
  | none => exact Nat.zero_le _
  | some seen => exact Nat.succ_le_succ (hseen seen hhighest)

theorem Moves.advanced {s s' : Browser} {envelope : Fields} (h : Ok s)
    (hmoves : Moves s envelope s') : Advanced s s' := by
  cases hmoves with
  | dropped => exact .refl s
  | @retired g ops hdelta hnew =>
      have hlevel : (s.resetForProviderGeneration g).level = g + 1 := rfl
      have hlt : s.level < g + 1 := by
        rw [level]
        cases hhighest : s.highestSeenGeneration with
        | none => exact Nat.succ_pos g
        | some seen => exact Nat.succ_lt_succ (hnew seen hhighest)
      exact ⟨by omega, fun hsame => by omega⟩
  | @full g state _ hfull hseen hbehind hstored =>
      refine Advanced.trans ?_ hstored.advanced
      have hlevel : ((s.retireForFull g).install g state).level = g + 1 := rfl
      refine ⟨hlevel ▸ level_le_of_seen hseen, fun hsame base hbase => ⟨state, rfl, ?_⟩⟩
      obtain ⟨-, -, -, g', haccepted, -⟩ := h.base base hbase
      have hlevel' := level_of_base h haccepted
      obtain rfl : g' = g := by omega
      rw [behind, hbase] at hbehind
      dsimp only at hbehind
      rw [haccepted, decide_eq_true rfl, Bool.true_and, Bool.not_eq_false'] at hbehind
      exact le_of_isStateAdvance (fullOf_eq_some hfull.full).1 hbehind
  | delta hdelta hbase haccepted hstate hadvance hstored =>
      refine Advanced.trans ?_ hstored.advanced
      obtain ⟨_, -, -, hvalid⟩ := candidateOf_eq_some.mp hstate
      refine ⟨le_rfl, fun _ base' hbase' => ⟨_, rfl, ?_⟩⟩
      rw [hbase] at hbase'
      cases hbase'
      exact le_of_isStateAdvance (valid_of_isValidServerState hvalid) hadvance

/-- What an event keeps, and where it goes. -/
theorem react_ok {s : Browser} (h : Ok s) (event : Event) :
    Ok (s.react event) ∧ Advanced s (s.react event) := by
  cases event with
  | stateUpdate envelope =>
      have hmoves := onStateUpdate_moves s envelope
      exact ⟨h.moves hmoves, hmoves.advanced h⟩
  | radioReset =>
      exact ⟨{ h with store := fun state hstate => (by cases hstate) }, ⟨le_rfl, fun _ base hbase =>
        ⟨base, hbase, le_rfl⟩⟩⟩
  | capabilitiesFetched record =>
      have hkept : Ok s ∧ Advanced s s := ⟨h, .refl s⟩
      rw [react, onCapabilities]
      split
      · rename_i g haccepted
        split
        · rename_i hok
          rw [Bool.and_eq_true] at hok
          obtain ⟨_, -, hexpected, -⟩ := h.accepted_of_base haccepted
          have hset : Ok { s with capabilities := some record } := by
            refine { h with capabilities := fun record' hrecord => ?_ }
            cases hrecord
            refine ⟨hexpected, fun g' haccepted' => ?_⟩
            have hsame := haccepted.symm.trans haccepted'
            cases hsame
            exact hok.2
          have hstored := commitCurrentState_stored { s with capabilities := some record }
          refine ⟨hset.stored hstored, Advanced.trans ?_ hstored.advanced⟩
          exact ⟨le_rfl, fun _ base hbase => ⟨base, hbase, le_rfl⟩⟩
        · exact hkept
      · exact hkept

theorem run_ok {s : Browser} (h : Ok s) (events : List Event) :
    Ok (s.run events) ∧ Advanced s (s.run events) := by
  induction events generalizing s with
  | nil => exact ⟨h, .refl s⟩
  | cons event rest ih =>
      obtain ⟨hok, hadvanced⟩ := react_ok h event
      obtain ⟨hok', hadvanced'⟩ := ih hok
      exact ⟨hok', hadvanced.trans hadvanced'⟩

/-! ## An envelope that comes again -/

theorem seen_of_level {s : Browser} {g : Nat} (h : s.level = g + 1) :
    ∀ seen, s.highestSeenGeneration = some seen → seen ≤ g := by
  intro seen hseen
  rw [level, hseen] at h
  exact Nat.le_of_eq (Nat.succ.inj h)

theorem full_again {s : Browser} (h : Ok s) {envelope : Fields} {g : Nat} {state : Fields}
    (hfull : IsFull envelope g state) (haccepted : s.acceptedProviderGeneration = some g)
    (hbase : s.fullState = some state) : s.onStateUpdate envelope = s := by
  refine onStateUpdate_none ?_
  rw [applyDeltaEnvelope_full hfull (seen_of_level (level_of_base h haccepted))]
  have hbehind : s.behind g state = true := by
    rw [behind, hbase]
    dsimp only
    rw [haccepted, not_isStateAdvance fun _ _ => rfl]
    simp
  rw [hbehind, Bool.or_true, if_pos rfl]

theorem delta_again {s : Browser} (h : Ok s) {envelope : Fields} {g : Nat}
    {ops : StateDeltaOps Json} {base state : Fields} (hdelta : IsDelta envelope g ops)
    (haccepted : s.acceptedProviderGeneration = some g) (hbase : s.fullState = some state)
    (hvalid : Valid base) (hstate : candidateOf base ops envelope = some state) :
    s.onStateUpdate envelope = s := by
  obtain ⟨hvalid', hreceived, -⟩ := h.base state hbase
  refine onStateUpdate_none ?_
  rw [applyDeltaEnvelope_delta hdelta (seen_of_level (level_of_base h haccepted)),
    applyDelta, hbase]
  dsimp only
  cases hagain : candidateOf state ops envelope with
  | none => rfl
  | some state' =>
      have hcounters : ∀ key ∈ counters, Dict.find key state' = Dict.find key state := by
        intro key hkey
        rcases candidateOf_counter hvalid hvalid' hstate hagain hkey with ⟨-, hkept⟩ | hsame
        · exact hkept
        · exact hsame
      dsimp only
      split
      · rfl
      · rw [if_neg (by simp [haccepted, hreceived]), not_isStateAdvance hcounters]
        rfl

/-- An envelope that comes twice in a row does nothing the second time. -/
theorem onStateUpdate_again {s : Browser} (h : Ok s) (envelope : Fields) :
    (s.onStateUpdate envelope).onStateUpdate envelope = s.onStateUpdate envelope := by
  have hmoves := onStateUpdate_moves s envelope
  generalize hafter : s.onStateUpdate envelope = s' at hmoves
  have hok := h.moves hmoves
  cases hmoves with
  | dropped => exact hafter
  | @retired g ops hdelta hnew =>
      refine onStateUpdate_none ?_
      rw [applyDeltaEnvelope_delta hdelta fun seen hseen => (by cases hseen; exact le_rfl)]
      show ((s.resetForProviderGeneration g).retireForDelta g, none) = _
      have hsame : (s.resetForProviderGeneration g).retireForDelta g =
          s.resetForProviderGeneration g := if_neg (Nat.lt_irrefl g)
      rw [hsame]
  | @full g state _ hfull hseen hbehind hstored =>
      refine full_again hok hfull ?_ ?_
      · rw [hstored.same]
        rfl
      · rw [hstored.same]
        rfl
  | @delta g ops base state _ hdelta hbase haccepted hstate hadvance hstored =>
      refine delta_again hok hdelta ?_ ?_ (h.base base hbase).1 hstate
      · rw [hstored.same]
        exact haccepted
      · rw [hstored.same]

/-- The envelope has given a base. -/
def Gives (s : Browser) (envelope : Fields) : Prop :=
  ∃ base, (s.onStateUpdate envelope).fullState = some base ∧ s.fullState ≠ some base

theorem stateRevisionOf_congr {state state' : Fields} (h : Valid state) (h' : Valid state')
    (hsame : Dict.find "stateRevision" state' = Dict.find "stateRevision" state) :
    stateRevisionOf state' = stateRevisionOf state := by
  have hnumber := h.stateRevisionOf_eq
  have hnumber' := h'.stateRevisionOf_eq
  rw [Json.get, hsame] at hnumber'
  rw [Json.get, hnumber'] at hnumber
  exact Option.some.inj hnumber

/-- Where the base comes from that an envelope gives. -/
inductive Given (envelope state : Fields) (g : Nat) : Prop
  | full (hfull : IsFull envelope g state)
  | delta {ops : StateDeltaOps Json} {base : Fields} (hdelta : IsDelta envelope g ops)
      (hbase : Valid base) (hstate : candidateOf base ops envelope = some state)

theorem given_of_moves {s s' : Browser} {envelope : Fields} (h : Ok s)
    (hmoves : Moves s envelope s')
    {state : Fields} (hstate : s'.fullState = some state) (hnew : s.fullState ≠ some state) :
    ∃ g, s'.acceptedProviderGeneration = some g ∧ Given envelope state g := by
  cases hmoves with
  | dropped => exact absurd hstate hnew
  | retired => cases hstate
  | @full g given _ hfull hseen hbehind hstored =>
      rw [hstored.same] at hstate ⊢
      cases hstate
      exact ⟨g, rfl, .full hfull⟩
  | @delta g ops base given _ hdelta hbase haccepted hcandidate hadvance hstored =>
      rw [hstored.same] at hstate ⊢
      cases hstate
      exact ⟨g, haccepted, .delta hdelta (h.base base hbase).1 hcandidate⟩

theorem IsFull.not_delta {envelope state : Fields} {g g' : Nat} {ops : StateDeltaOps Json}
    (h : IsFull envelope g state) (h' : IsDelta envelope g' ops) : False := by
  have htype := h.type
  rw [h'.notFull] at htype
  cases htype

/-- An envelope that has given a base of a generation does not change the revision again. -/
theorem revision_again {s t : Browser} (h : Ok s) (ht : Ok t) {envelope : Fields}
    (hgives : Gives s envelope) (hadvanced : Advanced (s.onStateUpdate envelope) t)
    (hsame : t.baseGeneration = (s.onStateUpdate envelope).baseGeneration) :
    (t.onStateUpdate envelope).baseRevision = t.baseRevision := by
  obtain ⟨given, hgiven, hnew⟩ := hgives
  have hmoves := onStateUpdate_moves s envelope
  generalize s.onStateUpdate envelope = s' at hmoves hadvanced hsame hgiven
  have hok := h.moves hmoves
  obtain ⟨g, haccepted, horigin⟩ := given_of_moves h hmoves hgiven hnew
  obtain ⟨hvalidGiven, -, -, g', haccepted', hgeneration⟩ := hok.base given hgiven
  rw [haccepted] at haccepted'
  cases haccepted'
  rw [baseGeneration, baseGeneration, hgiven, Option.bind_some, hgeneration,
    Option.bind_eq_some_iff] at hsame
  obtain ⟨base, hbase, hbaseGeneration⟩ := hsame
  obtain ⟨hvalidBase, -, -, g', haccepted', hbaseGeneration'⟩ := ht.base base hbase
  rw [hbaseGeneration] at hbaseGeneration'
  cases hbaseGeneration'
  have hlevel := level_of_base ht haccepted'
  have hle : stateRevisionOf given ≤ stateRevisionOf base := by
    obtain ⟨base', hbase', hle⟩ :=
      hadvanced.revision ((level_of_base hok haccepted).trans hlevel.symm) given hgiven
    rw [hbase] at hbase'
    cases hbase'
    exact hle
  have hmoves' := onStateUpdate_moves t envelope
  -- what is given again has the revision that was given, or that of the base
  have hagain : ∀ {state : Fields}, stateRevisionOf base ≤ stateRevisionOf state →
      (stateRevisionOf state = stateRevisionOf given ∨
        stateRevisionOf state = stateRevisionOf base) →
      stateRevisionOf state = stateRevisionOf base := by
    rintro state hle' (hor | hor)
    · exact le_antisymm (hor ▸ hle) hle'
    · exact hor
  generalize t.onStateUpdate envelope = t' at hmoves'
  have hrevision : ∀ {state : Fields}, t'.fullState = some state →
      stateRevisionOf state = stateRevisionOf base → t'.baseRevision = t.baseRevision := by
    intro state hstate hequal
    rw [baseRevision, baseRevision, hstate, hbase, Option.map_some, Option.map_some, hequal]
  cases hmoves' with
  | dropped => rfl
  | @retired g' ops hdelta hlt =>
      cases horigin with
      | full hfull => exact (hfull.not_delta hdelta).elim
      | delta hdelta' =>
          have hepoch := hdelta.epoch.symm.trans hdelta'.epoch
          cases hepoch
          obtain ⟨_, -, hexpected, -⟩ := ht.accepted_of_base haccepted'
          have := hlt g (by rw [highestSeenGeneration, hexpected, haccepted']; rfl)
          omega
  | @full g' state _ hfull hseen hbehind hstored =>
      cases horigin with
      | delta hdelta => exact (hfull.not_delta hdelta).elim
      | full hfull' =>
          have hepoch := hfull.epoch.symm.trans hfull'.epoch
          cases hepoch
          have hstate := hfull.full.symm.trans hfull'.full
          cases hstate
          rw [behind, hbase] at hbehind
          dsimp only at hbehind
          rw [haccepted', decide_eq_true rfl, Bool.true_and, Bool.not_eq_false'] at hbehind
          exact hrevision (by rw [hstored.same]; rfl)
            (hagain (le_of_isStateAdvance hvalidGiven hbehind) (.inl rfl))
  | @delta g' ops base' state _ hdelta hbase' haccepted'' hstate hadvance hstored =>
      cases horigin with
      | full hfull => exact (hfull.not_delta hdelta).elim
      | @delta ops' base'' hdelta' hvalid hstate' =>
          have hops := hdelta.carries.symm.trans hdelta'.carries
          cases hops
          rw [hbase] at hbase'
          cases hbase'
          obtain ⟨_, -, -, hcontract⟩ := candidateOf_eq_some.mp hstate
          have hvalidState := valid_of_isValidServerState hcontract
          refine hrevision (by rw [hstored.same])
            (hagain (le_of_isStateAdvance hvalidState hadvance) ?_)
          have hcounter : "stateRevision" ∈ counters := by decide
          rcases candidateOf_counter hvalid hvalidBase hstate' hstate hcounter with
            ⟨-, hkept⟩ | hboth
          · exact .inr (stateRevisionOf_congr hvalidBase hvalidState hkept)
          · exact .inl (stateRevisionOf_congr hvalidGiven hvalidState hboth)

/-! ## What retires a base -/

/-- A valid full, or a delta with operations that do not contradict its epoch. -/
def WellFormed (envelope : Fields) (g : Nat) : Prop :=
  (∃ state, IsFull envelope g state) ∨ ∃ ops, IsDelta envelope g ops

/-- The generation is above every one seen. -/
def Above (s : Browser) (g : Nat) : Prop := ∀ seen, s.highestSeenGeneration = some seen → seen < g

/-- A delta applies to the base that is held, and gives a state that keeps the contract. -/
def Fits (s : Browser) (envelope : Fields) (g : Nat) : Prop :=
  ∀ base ops, s.fullState = some base → IsDelta envelope g ops →
    ∃ state, candidateOf base ops envelope = some state

/-- No state of a lower generation is held, as the base or in the store. -/
structure NoneBelow (g : Nat) (s : Browser) : Prop where
  base : ∀ state, s.fullState = some state → ∃ g', generationOf state = some g' ∧ g ≤ g'
  shown : ∀ state, s.radio.current = some state → ∃ g', generationOf state = some g' ∧ g ≤ g'

theorem noneBelow_of_level {s : Browser} (h : Ok s) {g : Nat} (hlevel : g + 1 ≤ s.level) :
    NoneBelow g s where
  base := by
    intro state hstate
    obtain ⟨-, -, -, g', haccepted, hgeneration⟩ := h.base state hstate
    have := level_of_base h haccepted
    exact ⟨g', hgeneration, by omega⟩
  shown := by
    intro state hstate
    obtain ⟨g', haccepted, hgeneration⟩ := h.store state hstate
    have := level_of_base h haccepted
    exact ⟨g', hgeneration, by omega⟩

theorem noneBelow_of_unbased {s : Browser} (h : Ok s) (g : Nat) (hnone : s.fullState = none) :
    NoneBelow g s where
  base := by
    intro state hstate
    rw [hnone] at hstate
    cases hstate
  shown := by
    intro state hstate
    obtain ⟨g', haccepted, -⟩ := h.store state hstate
    rw [(h.unbased hnone).1] at haccepted
    cases haccepted

/-- Capabilities of a generation above the one of the base are never held. -/
theorem not_forbidden {s : Browser} (h : Ok s) {base : Fields} (hbase : s.fullState = some base)
    {g : Nat} (habove : Above s g) (state : Fields) : s.forbidden g state = false := by
  obtain ⟨-, -, hexpected, g', haccepted, -⟩ := h.base base hbase
  have hlt := habove g' (by rw [highestSeenGeneration, hexpected, haccepted]; rfl)
  rw [forbidden]
  cases hcapabilities : s.capabilities with
  | none => rfl
  | some record =>
      have hown := (h.capabilities record hcapabilities).2 g' haccepted
      cases hmatch : capabilitiesMatchGeneration (some record) (some g) with
      | false => rfl
      | true =>
          have := capabilities_generation hown hmatch
          omega

/-- A full of a new generation is taken where a base is held. -/
theorem level_of_full {s : Browser} (h : Ok s) {base : Fields} (hbase : s.fullState = some base)
    {envelope state : Fields} {g : Nat} (hfull : IsFull envelope g state) (habove : Above s g) :
    (s.onStateUpdate envelope).level = g + 1 := by
  obtain ⟨-, -, hexpected, g', haccepted, -⟩ := h.base base hbase
  have hlt := habove g' (by rw [highestSeenGeneration, hexpected, haccepted]; rfl)
  have hne : s.acceptedProviderGeneration ≠ some g := by
    rw [haccepted]
    intro heq
    cases heq
    omega
  have hbehind : s.behind g state = false := by
    rw [behind, hbase]
    dsimp only
    rw [decide_eq_false hne, Bool.false_and]
  have happly := applyDeltaEnvelope_full hfull fun seen hseen => Nat.le_of_lt (habove seen hseen)
  rw [not_forbidden h hbase habove, hbehind, Bool.or_false, if_neg (by simp)] at happly
  rw [(onStateUpdate_committed happly).same]
  rfl

/-- A delta of a new generation retires the base where it fits it. -/
theorem level_of_delta {s : Browser} (h : Ok s) {envelope : Fields} {g : Nat}
    {ops : StateDeltaOps Json} (hdelta : IsDelta envelope g ops) (habove : Above s g)
    (hfits : Fits s envelope g) : (s.onStateUpdate envelope).level = g + 1 := by
  have happly := applyDeltaEnvelope_delta hdelta fun seen hseen => Nat.le_of_lt (habove seen hseen)
  have hretire : s.retireForDelta g = s.resetForProviderGeneration g := by
    rw [retireForDelta]
    cases hseen : s.highestSeenGeneration with
    | none => rfl
    | some seen => exact if_pos (habove seen hseen)
  have hafter : s.onStateUpdate envelope = s.resetForProviderGeneration g := by
    rw [applyDelta] at happly
    cases hbase : s.fullState with
    | none =>
        rw [hbase] at happly
        rw [onStateUpdate_none happly, hretire]
    | some base =>
        obtain ⟨state, hstate⟩ := hfits base ops hbase hdelta
        obtain ⟨-, -, hexpected, g', haccepted, -⟩ := h.base base hbase
        have hlt := habove g' (by rw [highestSeenGeneration, hexpected, haccepted]; rfl)
        have hne : s.acceptedProviderGeneration ≠ some g := by
          rw [haccepted]
          intro heq
          cases heq
          omega
        rw [hbase] at happly
        dsimp only at happly
        rw [hstate] at happly
        dsimp only at happly
        rw [not_forbidden h hbase habove, if_neg (by simp), if_pos (.inl hne), hretire] at happly
        exact onStateUpdate_none happly
  rw [hafter]
  rfl

/-- A delta that does not fit the base changes nothing. -/
theorem onStateUpdate_of_not_fits {s : Browser} {envelope base : Fields} {g : Nat}
    {ops : StateDeltaOps Json} (hdelta : IsDelta envelope g ops) (habove : Above s g)
    (hbase : s.fullState = some base) (hnone : candidateOf base ops envelope = none) :
    s.onStateUpdate envelope = s := by
  refine onStateUpdate_none ?_
  rw [applyDeltaEnvelope_delta hdelta fun seen hseen => Nat.le_of_lt (habove seen hseen),
    applyDelta,
    hbase]
  dsimp only
  rw [hnone]

theorem level_of_fits {s : Browser} (h : Ok s) {base : Fields} (hbase : s.fullState = some base)
    {envelope : Fields} {g : Nat} (hformed : WellFormed envelope g) (habove : Above s g)
    (hfits : Fits s envelope g) : (s.onStateUpdate envelope).level = g + 1 := by
  rcases hformed with ⟨state, hfull⟩ | ⟨ops, hdelta⟩
  · exact level_of_full h hbase hfull habove
  · exact level_of_delta h hdelta habove hfits

/-- An envelope of a new generation leaves nothing below it just where it fits the base. -/
theorem noneBelow_iff {s : Browser} (h : Ok s) {envelope : Fields} {g : Nat}
    (hformed : WellFormed envelope g) (habove : Above s g) :
    NoneBelow g (s.onStateUpdate envelope) ↔ Fits s envelope g := by
  have hok := h.moves (onStateUpdate_moves s envelope)
  constructor
  · intro hnone base ops hbase hdelta
    cases hcandidate : candidateOf base ops envelope with
    | some state => exact ⟨state, rfl⟩
    | none =>
        rw [onStateUpdate_of_not_fits hdelta habove hbase hcandidate] at hnone
        obtain ⟨-, -, hexpected, g', haccepted, hgeneration⟩ := h.base base hbase
        have hlt := habove g' (by rw [highestSeenGeneration, hexpected, haccepted]; rfl)
        obtain ⟨g'', hgeneration', hle⟩ := hnone.base base hbase
        rw [hgeneration] at hgeneration'
        cases hgeneration'
        omega
  · intro hfits
    cases hbase : s.fullState with
    | some base => exact noneBelow_of_level hok (level_of_fits h hbase hformed habove hfits).ge
    | none =>
        rcases hformed with ⟨state, hfull⟩ | ⟨ops, hdelta⟩
        · cases hafter : (s.onStateUpdate envelope).fullState with
          | none => exact noneBelow_of_unbased hok g hafter
          | some base =>
              obtain ⟨g', haccepted, horigin⟩ := given_of_moves h (onStateUpdate_moves s envelope)
                hafter (by rw [hbase]; exact fun heq => (by cases heq))
              cases horigin with
              | delta hdelta => exact (hfull.not_delta hdelta).elim
              | full hfull' =>
                  have hepoch := hfull.epoch.symm.trans hfull'.epoch
                  cases hepoch
                  exact noneBelow_of_level hok (level_of_base hok haccepted).ge
        · exact noneBelow_of_level hok (level_of_delta h hdelta habove hfits).ge

/-- What a delta leaves: the base, none, or what it makes of a base of its generation. -/
theorem delta_base {s : Browser} (h : Ok s) {envelope : Fields}
    (htype : isText (Json.get envelope "type") "delta" = true) :
    (s.onStateUpdate envelope).fullState = s.fullState ∨
    (s.onStateUpdate envelope).fullState = none ∨
    ∃ g ops base state, epochOf envelope = some g ∧ stateDeltaOps envelope = some ops ∧
      s.fullState = some base ∧ generationOf base = some g ∧
      candidateOf base ops envelope = some state ∧
      (s.onStateUpdate envelope).fullState = some state := by
  have hmoves := onStateUpdate_moves s envelope
  generalize s.onStateUpdate envelope = s' at hmoves
  cases hmoves with
  | dropped => exact .inl rfl
  | retired => exact .inr (.inl rfl)
  | full hfull =>
      have hother := hfull.type
      rw [isText, decide_eq_true_iff] at hother htype
      rw [htype] at hother
      exact absurd (Option.some.inj hother) (by decide)
  | @delta g ops base state _ hdelta hbase haccepted hstate hadvance hstored =>
      obtain ⟨-, -, -, g', haccepted', hgeneration⟩ := h.base base hbase
      rw [haccepted] at haccepted'
      cases haccepted'
      exact .inr (.inr ⟨g, ops, base, state, hdelta.epoch, hdelta.carries, hbase,
        hgeneration, hstate,
        by rw [hstored.same]⟩)

/-! ## Runs -/

/-- What is asked of a browser at any time of a session, as far as the code meets it: `retires` says
when an envelope of a new generation leaves nothing of a lower one. -/
structure Tracks (s : Browser) : Prop where
  generation : ∀ later g g', s.baseGeneration = some g → (s.run later).baseGeneration = some g' →
    g ≤ g'
  revision : ∀ later base base', s.fullState = some base → (s.run later).fullState = some base' →
    generationOf base' = generationOf base → stateRevisionOf base ≤ stateRevisionOf base'
  again : ∀ envelope, (s.onStateUpdate envelope).onStateUpdate envelope = s.onStateUpdate envelope
  repeated : ∀ envelope later, Gives s envelope →
    ((s.onStateUpdate envelope).run later).baseGeneration =
    (s.onStateUpdate envelope).baseGeneration →
    (((s.onStateUpdate envelope).run later).onStateUpdate envelope).baseRevision =
      ((s.onStateUpdate envelope).run later).baseRevision
  delta : ∀ envelope, isText (Json.get envelope "type") "delta" = true →
    (s.onStateUpdate envelope).fullState = s.fullState ∨
    (s.onStateUpdate envelope).fullState = none ∨
    ∃ g ops base state, epochOf envelope = some g ∧ stateDeltaOps envelope = some ops ∧
      s.fullState = some base ∧ generationOf base = some g ∧
      candidateOf base ops envelope = some state ∧
      (s.onStateUpdate envelope).fullState = some state
  retires : ∀ envelope g, WellFormed envelope g → Above s g →
    (NoneBelow g (s.onStateUpdate envelope) ↔ Fits s envelope g)
  /-- What is retired does not come back. -/
  since : ∀ envelope g, WellFormed envelope g → Above s g → s.fullState ≠ none →
    Fits s envelope g → ∀ later, NoneBelow g ((s.onStateUpdate envelope).run later)

theorem tracks_of_ok {s : Browser} (h : Ok s) : Tracks s where
  generation := by
    intro later g g' hg hg'
    obtain ⟨base, hbase, hgeneration⟩ := Option.bind_eq_some_iff.mp hg
    obtain ⟨base', hbase', hgeneration'⟩ := Option.bind_eq_some_iff.mp hg'
    obtain ⟨hok, hadvanced⟩ := run_ok h later
    obtain ⟨-, -, -, a, haccepted, hown⟩ := h.base base hbase
    obtain ⟨-, -, -, a', haccepted', hown'⟩ := hok.base base' hbase'
    rw [hgeneration] at hown
    rw [hgeneration'] at hown'
    cases hown
    cases hown'
    have := level_of_base h haccepted
    have := level_of_base hok haccepted'
    have := hadvanced.level
    omega
  revision := by
    intro later base base' hbase hbase' hsame
    obtain ⟨hok, hadvanced⟩ := run_ok h later
    obtain ⟨-, -, -, a, haccepted, hown⟩ := h.base base hbase
    obtain ⟨-, -, -, a', haccepted', hown'⟩ := hok.base base' hbase'
    rw [hsame, hown] at hown'
    cases hown'
    obtain ⟨state, hstate, hle⟩ := hadvanced.revision
      ((level_of_base h haccepted).trans (level_of_base hok haccepted').symm) base hbase
    rw [hbase'] at hstate
    cases hstate
    exact hle
  again := onStateUpdate_again h
  repeated := by
    intro envelope later hgives hsame
    obtain ⟨hok, hadvanced⟩ := run_ok (h.moves (onStateUpdate_moves s envelope)) later
    exact revision_again h hok hgives hadvanced hsame
  delta := fun envelope => delta_base h
  retires := fun envelope g => noneBelow_iff h
  since := by
    intro envelope g hformed habove hheld hfits later
    obtain ⟨base, hbase⟩ := Option.ne_none_iff_exists'.mp hheld
    obtain ⟨hok, hadvanced⟩ := run_ok (h.moves (onStateUpdate_moves s envelope)) later
    have hlevel := level_of_fits h hbase hformed habove hfits
    exact noneBelow_of_level hok (hlevel ▸ hadvanced.level)

/-- At every time of every session. -/
theorem session_tracks (capabilities : Option Fields) (events : List Event) :
    Tracks ((initial capabilities).run events) :=
  tracks_of_ok (run_ok (.initial capabilities) events).1

/-- A state of a radio with one receiver. -/
def singleReceiver (generation : Int) : Fields :=
  [("stateContractVersion", .int 1), ("providerGeneration", .int generation), ("revision", .int 7),
    ("stateRevision", .int 7), ("freshnessRevision", .int 0), ("observationSeq", .int 0),
    ("updatedAt", .str ""), ("active", .str "MAIN"), ("ptt", .bool false), ("split", .null),
    ("dualWatch", .null), ("tunerStatus", .null),
    ("main", .obj [("freqHz", .int 14074000), ("mode", .str "USB"), ("filter", .null),
      ("dataMode", .null), ("sMeter", .null), ("att", .null), ("preamp", .null), ("nb", .null),
      ("nr", .null), ("afLevel", .null), ("rfGain", .null), ("squelch", .null)]),
    ("connection", .obj [("rigConnected", .bool true), ("radioReady", .bool true),
      ("controlConnected", .bool true)]),
    ("txTarget", .obj [("status", .str "unknown"), ("reason", .str "")])]

/-- The full of a state. -/
def fullEnvelope (generation : Int) : Fields :=
  [("type", .str "full"), ("stateContractVersion", .int 1), ("providerGeneration", .int generation),
    ("data", .obj (singleReceiver generation))]

/-- A delta of the second receiver. -/
def subDelta (generation : Int) : Fields :=
  [("type", .str "delta"), ("stateContractVersion", .int 1),
    ("providerGeneration", .int generation),
    ("deltaVersion", .int 2),
    ("set", .arr [.arr [.arr [.str "sub", .str "freqHz"], .int 7074000]])]

/-- The delta of a new generation sets a value in a receiver that the retired base does not have,
and the base stays. -/
theorem base_outlives_generation :
    ¬ ∀ (capabilities : Option Fields) (events : List Event) (envelope : Fields) (g : Nat),
      WellFormed envelope g → Above ((initial capabilities).run events) g →
      NoneBelow g (((initial capabilities).run events).onStateUpdate envelope) := by
  intro hall
  have hdelta : IsDelta (subDelta 1) 1 ⟨[(["sub", "freqHz"], .int 7074000)], []⟩ :=
    ⟨by decide +kernel, by decide +kernel, by decide +kernel, rfl, by decide +kernel⟩
  have hseen : ((initial none).run [.stateUpdate (fullEnvelope 0)]).highestSeenGeneration =
      some 0 := by
    decide +kernel
  have hheld : (((initial none).run [.stateUpdate (fullEnvelope 0)]).onStateUpdate
      (subDelta 1)).baseGeneration = some 0 := by
    decide +kernel
  have hnone := hall none [.stateUpdate (fullEnvelope 0)] (subDelta 1) 1 (.inr ⟨_, hdelta⟩) (by
    intro seen h
    rw [hseen] at h
    cases h
    exact Nat.one_pos)
  obtain ⟨base, hbase, hgeneration⟩ := Option.bind_eq_some_iff.mp hheld
  obtain ⟨g', hgeneration', hle⟩ := hnone.base base hbase
  rw [hgeneration] at hgeneration'
  cases hgeneration'
  omega

end Browser

end Rigplane.Web.Frontend
