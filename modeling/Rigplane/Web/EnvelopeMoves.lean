import Rigplane.Web.Envelope

/-!
# What a state update can do

The same writes to two objects leave the same in a slot, or nothing of their own
(`foldlM_slot`), so that a delta that comes again gives the counters that it has given.

What an envelope can do is one of four things (`Moves`): it is dropped, it retires the base, or a
full or a delta gives another one.
-/

namespace Rigplane.Web

open Json

/-! ## Writes, slot by slot -/

variable {skips : String → Bool}

/-- A write that succeeds has a key, and changes the slot of that key only. -/
theorem step_eq_ok {node node' : Fields} {path : StatePath} {payload : Option Json}
    (h : step skips node (path, payload) = .ok node') :
    ∃ key rest, path = key :: rest ∧
      slotStep skips key (Dict.find key node) (rest, payload) = .ok (Dict.find key node') ∧
      ∀ other, other ≠ key → Dict.find other node' = Dict.find other node := by
  cases path with
  | nil => cases h
  | cons key rest =>
      refine ⟨key, rest, rfl, ?_⟩
      cases rest with
      | nil =>
          have hnode : act skips node key payload = node' := Except.ok.inj h
          subst hnode
          constructor
          · rw [find_act, if_pos rfl]
            rfl
          · intro other hother
            rw [find_act, if_neg hother]
      | cons next rest =>
          rw [step, writeAt_cons] at h
          split at h
          · rename_i child hchild
            split at h
            · cases h
            · rename_i child' hwrite
              have hnode := Except.ok.inj h
              subst hnode
              constructor
              · rw [slotStep_cons, hchild, Dict.find_assign, if_pos rfl]
                dsimp only
                rw [step, writeAt_ok hwrite]
              · intro other hother
                rw [Dict.find_assign, if_neg hother]
          · cases h

theorem slotStep_nil (key : String) (slot payload : Option Json) :
    slotStep skips key slot ([], payload) = .ok (actSlot skips key slot payload) := rfl

/-- The slot of a key, after the same writes to two objects that have no object there: both have
kept theirs, or both have the same. -/
theorem foldlM_slot {key : String} (hkey : skips key = false) {writes : List Write}
    {node node' other other' : Fields} (h : writes.foldlM (step skips) node = .ok node')
    (h' : writes.foldlM (step skips) other = .ok other')
    (hslots : Dict.find key other = Dict.find key node ∨
      (∀ child, Dict.find key node ≠ some (.obj child)) ∧
        ∀ child, Dict.find key other ≠ some (.obj child)) :
    (Dict.find key node' = Dict.find key node ∧ Dict.find key other' = Dict.find key other) ∨
      Dict.find key other' = Dict.find key node' := by
  induction writes generalizing node other with
  | nil =>
      cases h
      cases h'
      exact .inl ⟨rfl, rfl⟩
  | cons write rest ih =>
      obtain ⟨path, payload⟩ := write
      rw [List.foldlM_cons] at h h'
      rcases hnode : step skips node (path, payload) with raised | node₁
      · rw [hnode] at h
        cases h
      rcases hother : step skips other (path, payload) with raised | other₁
      · rw [hother] at h'
        cases h'
      rw [hnode] at h
      rw [hother] at h'
      obtain ⟨first, keys, rfl, hslot, hframe⟩ := step_eq_ok hnode
      obtain ⟨first', keys', hpath, hslot', hframe'⟩ := step_eq_ok hother
      cases hpath
      by_cases hfirst : key = first
      · subst hfirst
        have hequal : Dict.find key other₁ = Dict.find key node₁ := by
          rcases hslots with hsame | ⟨hplain, hplain'⟩
          · rw [hsame, hslot] at hslot'
            exact (Except.ok.inj hslot').symm
          · cases keys with
            | nil =>
                rw [slotStep_nil] at hslot hslot'
                rw [← Except.ok.inj hslot, ← Except.ok.inj hslot']
                cases payload with
                | none => rfl
                | some value => simp [actSlot, hkey]
            | cons next keys =>
                rw [slotStep_cons] at hslot
                split at hslot
                · rename_i child hchild
                  exact absurd hchild (hplain child)
                · cases hslot
        rcases ih h h' (.inl hequal) with ⟨hkept, hkept'⟩ | hsame
        · exact .inr (by rw [hkept, hkept', hequal])
        · exact .inr hsame
      · have hkeep := hframe key hfirst
        have hkeep' := hframe' key hfirst
        rw [← hkeep, ← hkeep'] at hslots ⊢
        exact ih h h' hslots

/-- A property of the value at a key is kept by writes that keep it. -/
theorem foldlM_keeps {key : String} {P : Json → Prop}
    (hkey : skips key = false) {writes : List Write}
    {node node' : Fields}
    (hwrites : ∀ write ∈ writes, write.1.head? = some key →
      write.1.length ≤ 1 ∧ ∃ value, write.2 = some value ∧ P value)
    (h : writes.foldlM (step skips) node = .ok node') (hnode : P (Json.get node key)) :
    P (Json.get node' key) := by
  induction writes generalizing node with
  | nil =>
      cases h
      exact hnode
  | cons write rest ih =>
      obtain ⟨path, payload⟩ := write
      rw [List.foldlM_cons] at h
      rcases hstep : step skips node (path, payload) with raised | node₁
      · rw [hstep] at h
        cases h
      rw [hstep] at h
      obtain ⟨first, keys, rfl, hslot, hframe⟩ := step_eq_ok hstep
      obtain ⟨hwrite, hrest⟩ := List.forall_mem_cons.mp hwrites
      refine ih hrest h ?_
      by_cases hfirst : key = first
      · subst hfirst
        obtain ⟨hlength, value, hvalue, hP⟩ := hwrite rfl
        have hkeys : keys = [] := by
          rw [List.length_cons] at hlength
          exact List.length_eq_zero_iff.mp (by omega)
        dsimp only at hvalue
        rw [hkeys, hvalue, slotStep_nil] at hslot
        rw [Json.get, ← Except.ok.inj hslot]
        simp only [actSlot, hkey, Bool.false_eq_true, false_and, if_false, Option.getD_some]
        exact hP
      · rw [Json.get, hframe key hfirst]
        exact hnode

namespace Frontend

/-! ## The revisions of an envelope -/

theorem find_foldl_syncRevision (envelope : Fields) (keys : List String) (state : Fields)
    (key : String) : Dict.find key (keys.foldl (syncRevision envelope) state) =
      if key ∈ keys ∧ (number (Json.get envelope key)).isSome then some (Json.get envelope key)
      else Dict.find key state := by
  induction keys generalizing state with
  | nil => simp
  | cons first rest ih =>
      rw [List.foldl_cons, ih, syncRevision]
      by_cases hrest : key ∈ rest ∧ (number (Json.get envelope key)).isSome = true
      · rw [if_pos hrest, if_pos ⟨List.mem_cons_of_mem _ hrest.1, hrest.2⟩]
      · rw [if_neg hrest]
        by_cases hfirst : key = first
        · subst hfirst
          by_cases hnumber : (number (Json.get envelope key)).isSome = true
          · rw [if_pos hnumber, if_pos ⟨List.mem_cons_self, hnumber⟩, Dict.find_assign, if_pos rfl]
          · rw [if_neg hnumber, if_neg fun h => hnumber h.2]
        · have hmem : ¬ (key ∈ first :: rest ∧ (number (Json.get envelope key)).isSome = true) := by
            rw [List.mem_cons, not_and_or]
            rw [not_and_or] at hrest
            exact hrest.imp (fun h => not_or.mpr ⟨hfirst, h⟩) fun h => h
          rw [if_neg hmem]
          split
          · rw [Dict.find_assign, if_neg hfirst]
          · rfl

theorem find_syncEnvelopeRevisions (state envelope : Fields) (key : String) :
    Dict.find key (syncEnvelopeRevisions state envelope) =
      if key ∈ revisionKeys ∧ (number (Json.get envelope key)).isSome then
        some (Json.get envelope key)
      else Dict.find key state :=
  find_foldl_syncRevision envelope revisionKeys state key

theorem get_sync_generation (state envelope : Fields) :
    Json.get (syncEnvelopeRevisions state envelope) "providerGeneration" =
      Json.get state "providerGeneration" := by
  rw [Json.get, find_syncEnvelopeRevisions, if_neg fun h => absurd h.1 (by decide)]
  rfl

/-- A generation that is given as a number is the generation of a valid state. -/
theorem generationOf_eq {state : Fields} {g : Nat} (hvalid : Valid state)
    (h : isNumber (Json.get state "providerGeneration") g = true) :
    generationOf state = some g := by
  obtain ⟨n, hn⟩ := hvalid.generation
  rw [generation_unique h (isNumber_of_safeNat hn), hn]

namespace Browser

theorem fullOf_eq_some {envelope : Fields} {g : Nat} {state : Fields}
    (h : fullOf envelope g = some state) : Valid state ∧ generationOf state = some g := by
  rw [fullOf] at h
  split at h
  · rename_i data hdata
    split at h
    · rename_i hok
      cases h
      simp only [Bool.and_eq_true] at hok
      have hvalid := valid_of_isValidServerState hok.2
      refine ⟨hvalid, generationOf_eq hvalid ?_⟩
      rw [get_sync_generation]
      exact hok.1.2
    · cases h
  · cases h

/-! ## The candidate of a delta -/

theorem candidateOf_eq_some {base : Fields} {ops : StateDeltaOps Json} {envelope state : Fields} :
    candidateOf base ops envelope = some state ↔
      ∃ applied, ops.writes.foldlM (step protoSkips) base = .ok applied ∧
        state = syncEnvelopeRevisions applied envelope ∧ isValidServerState state = true := by
  rw [candidateOf, applyDeltaOps]
  cases happly : ops.writes.foldlM (step protoSkips) base with
  | error raised => exact ⟨fun h => (by cases h), fun ⟨_, h, _⟩ => (by cases h)⟩
  | ok applied =>
      dsimp only [Except.toOption]
      constructor
      · intro h
        split at h
        · rename_i hvalid
          cases h
          exact ⟨applied, rfl, rfl, hvalid⟩
        · cases h
      · rintro ⟨_, happlied, rfl, hvalid⟩
        cases happlied
        rw [if_pos hvalid]

/-- The counters of a state. -/
def counters : List String :=
  ["revision", "stateRevision", "freshnessRevision", "observationSeq", "healthRevision",
    "publicStateSeq", "transportSeq"]

/-- A counter of the candidates that one delta makes of two bases: both have kept theirs, or both
have the same. -/
theorem candidateOf_counter {base base' : Fields} {ops : StateDeltaOps Json}
    {envelope state state' : Fields} (hbase : Valid base) (hbase' : Valid base')
    (h : candidateOf base ops envelope = some state)
    (h' : candidateOf base' ops envelope = some state') {key : String} (hkey : key ∈ counters) :
    (Dict.find key state = Dict.find key base ∧ Dict.find key state' = Dict.find key base') ∨
      Dict.find key state' = Dict.find key state := by
  obtain ⟨applied, happlied, rfl, -⟩ := candidateOf_eq_some.mp h
  obtain ⟨applied', happlied', rfl, -⟩ := candidateOf_eq_some.mp h'
  rw [find_syncEnvelopeRevisions, find_syncEnvelopeRevisions]
  split
  · exact .inr rfl
  · have hproto : protoSkips key = false := by
      simp only [counters, List.mem_cons, List.not_mem_nil, or_false] at hkey
      rcases hkey with rfl | rfl | rfl | rfl | rfl | rfl | rfl <;> rfl
    exact foldlM_slot hproto happlied happlied'
      (.inr ⟨hbase.counters key hkey, hbase'.counters key hkey⟩)

/-- The operations keep the generation that they do not contradict. -/
theorem generation_of_candidate {base : Fields} {ops : StateDeltaOps Json} {envelope state : Fields}
    {g : Nat} (hepoch : contradictsEpoch ops g = false)
    (h : candidateOf base ops envelope = some state) (hbase : generationOf base = some g) :
    generationOf state = some g := by
  obtain ⟨applied, happlied, rfl, hvalid⟩ := candidateOf_eq_some.mp h
  refine generationOf_eq (valid_of_isValidServerState hvalid) ?_
  rw [get_sync_generation]
  refine foldlM_keeps (P := fun value => isNumber value g = true) rfl ?_ happlied
    (isNumber_of_safeNat hbase)
  rw [contradictsEpoch, Bool.or_eq_false_iff, List.any_eq_false, List.any_eq_false] at hepoch
  intro write hwrite hhead
  rw [StateDeltaOps.writes, LeafOps.writes, List.mem_append, List.mem_map, List.mem_map] at hwrite
  rcases hwrite with ⟨⟨path, value⟩, hmem, rfl⟩ | ⟨path, hmem, rfl⟩
  · have hop := hepoch.2 _ hmem
    dsimp only at hop hhead
    rw [hhead] at hop
    simp at hop
    exact ⟨hop.1, value, rfl, hop.2⟩
  · have hop := hepoch.1 _ hmem
    dsimp only at hhead
    rw [hhead] at hop
    exact absurd rfl hop

/-! ## What an envelope can do -/

/-- Nothing but the store has changed, which may have taken the base. -/
structure Stored (s s' : Browser) : Prop where
  same : s' = { s with radio := s'.radio }
  current : s'.radio.current = s.radio.current ∨
    ∃ state, s.fullState = some state ∧ s'.radio.current = some (normalizeValidatedState state)

theorem Stored.refl (s : Browser) : Stored s s := ⟨rfl, .inl rfl⟩

theorem Stored.trans {s s' s'' : Browser} (h : Stored s s') (h' : Stored s' s'') :
    Stored s s'' := by
  have hsame := h.same
  have hfull : s'.fullState = s.fullState := by rw [hsame]
  refine ⟨by rw [h'.same, hsame], ?_⟩
  rcases h'.current with hkept | hnew
  · rw [hkept]
    exact h.current
  · rw [hfull] at hnew
    exact .inr hnew

theorem current_forGeneration (store : RadioStore) (generation : Option Nat) :
    (store.forGeneration generation).current = store.current := by
  rw [RadioStore.forGeneration]
  cases hcurrent : store.current with
  | none => exact hcurrent
  | some current =>
      dsimp only
      split
      · rfl
      · exact hcurrent

theorem setRadioState_stored {s : Browser} {state : Fields} (h : s.fullState = some state) :
    Stored s (s.setRadioState state).1 := by
  have hradio : (s.setRadioState state).1.radio =
    (s.radio.setRadioState s.capabilities state).1 := rfl
  refine ⟨rfl, ?_⟩
  rw [hradio, RadioStore.setRadioState]
  split
  · exact .inl rfl
  · dsimp only
    split
    · exact .inr ⟨state, h, rfl⟩
    · exact .inl (current_forGeneration _ _)

theorem commitCurrentState_stored (s : Browser) : Stored s s.commitCurrentState.1 := by
  rw [commitCurrentState]
  split
  · rename_i state hstate
    split
    · exact setRadioState_stored hstate
    · exact .refl s
  · exact .refl s

/-- What is committed, and taken by the handler, only changes the store. -/
theorem onStateUpdate_committed {s s' : Browser} {envelope : Fields}
    (h : s.applyDeltaEnvelope envelope = s'.committed) : Stored s' (s.onStateUpdate envelope) := by
  have hstored := commitCurrentState_stored s'
  rw [onStateUpdate, h, committed]
  split
  · rename_i after state heq
    obtain ⟨rfl, hstate⟩ := Prod.mk.inj heq
    refine hstored.trans (setRadioState_stored ?_)
    split at hstate
    · exact hstate
    · cases hstate
  · rename_i after heq
    obtain ⟨rfl, -⟩ := Prod.mk.inj heq
    exact hstored

/-- The envelope is a delta of a generation, with operations that do not contradict it. -/
structure IsDelta (envelope : Fields) (g : Nat) (ops : StateDeltaOps Json) : Prop where
  epoch : epochOf envelope = some g
  notFull : isText (Json.get envelope "type") "full" = false
  type : isText (Json.get envelope "type") "delta" = true
  carries : stateDeltaOps envelope = some ops
  keeps : contradictsEpoch ops g = false

/-- The envelope is a valid full of a generation. -/
structure IsFull (envelope : Fields) (g : Nat) (state : Fields) : Prop where
  epoch : epochOf envelope = some g
  type : isText (Json.get envelope "type") "full" = true
  full : fullOf envelope g = some state

theorem applyDeltaEnvelope_delta {s : Browser} {envelope : Fields} {g : Nat}
    {ops : StateDeltaOps Json} (h : IsDelta envelope g ops)
    (hseen : ∀ seen, s.highestSeenGeneration = some seen → seen ≤ g) :
    s.applyDeltaEnvelope envelope = s.applyDelta envelope g ops := by
  have hnew : (s.highestSeenGeneration.any fun seen => decide (g < seen)) = false := by
    cases hhighest : s.highestSeenGeneration with
    | none => rfl
    | some seen => exact decide_eq_false (Nat.not_lt.mpr (hseen seen hhighest))
  rw [applyDeltaEnvelope, h.epoch]
  dsimp only
  rw [hnew, h.notFull, h.type, h.carries]
  simp only [Bool.false_eq_true, if_false, if_true, h.keeps]

theorem applyDeltaEnvelope_full {s : Browser} {envelope : Fields} {g : Nat} {state : Fields}
    (h : IsFull envelope g state)
    (hseen : ∀ seen, s.highestSeenGeneration = some seen → seen ≤ g) :
    s.applyDeltaEnvelope envelope =
      if s.forbidden g state || s.behind g state then (s, none)
      else ((s.retireForFull g).install g state).committed := by
  have hnew : (s.highestSeenGeneration.any fun seen => decide (g < seen)) = false := by
    cases hhighest : s.highestSeenGeneration with
    | none => rfl
    | some seen => exact decide_eq_false (Nat.not_lt.mpr (hseen seen hhighest))
  rw [applyDeltaEnvelope, h.epoch]
  dsimp only
  rw [hnew, h.type, applyFull, h.full]
  rfl

/-- An envelope that is neither, or of a generation below the highest seen, is dropped. -/
theorem applyDeltaEnvelope_cases (s : Browser) (envelope : Fields) :
    s.applyDeltaEnvelope envelope = (s, none) ∨
    ∃ g, (∀ seen, s.highestSeenGeneration = some seen → seen ≤ g) ∧
      ((∃ state, IsFull envelope g state) ∨ ∃ ops, IsDelta envelope g ops) := by
  rcases hepoch : epochOf envelope with _ | g
  · exact .inl (by rw [applyDeltaEnvelope, hepoch])
  by_cases hold : (s.highestSeenGeneration.any fun seen => decide (g < seen)) = true
  · refine .inl ?_
    rw [applyDeltaEnvelope, hepoch]
    exact if_pos hold
  have hseen : ∀ seen, s.highestSeenGeneration = some seen → seen ≤ g := by
    intro seen h
    rw [h, Option.any_some, decide_eq_true_iff] at hold
    omega
  rcases hfull : isText (Json.get envelope "type") "full" with _ | _
  · rcases hdelta : isText (Json.get envelope "type") "delta" with _ | _
    · refine .inl ?_
      rw [applyDeltaEnvelope, hepoch]
      dsimp only
      rw [if_neg hold, hfull, hdelta]
      rfl
    rcases hops : stateDeltaOps envelope with _ | ops
    · refine .inl ?_
      rw [applyDeltaEnvelope, hepoch]
      dsimp only
      rw [if_neg hold, hfull, hdelta, hops]
      rfl
    rcases hkeeps : contradictsEpoch ops g with _ | _
    · exact .inr ⟨g, hseen, .inr ⟨ops, hepoch, hfull, hdelta, hops, hkeeps⟩⟩
    · refine .inl ?_
      rw [applyDeltaEnvelope, hepoch]
      dsimp only
      rw [if_neg hold, hfull, hdelta, hops]
      simp only [Bool.false_eq_true, if_false, if_true, hkeeps]
  · rcases hstate : fullOf envelope g with _ | state
    · refine .inl ?_
      rw [applyDeltaEnvelope, hepoch]
      dsimp only
      rw [if_neg hold, hfull, applyFull, hstate]
      rfl
    · exact .inr ⟨g, hseen, .inl ⟨state, hepoch, hfull, hstate⟩⟩

/-- An envelope is dropped, retires the base, or gives another one. -/
inductive Moves (s : Browser) (envelope : Fields) : Browser → Prop
  | dropped : Moves s envelope s
  | retired {g : Nat} {ops : StateDeltaOps Json} (hdelta : IsDelta envelope g ops)
      (hnew : ∀ seen, s.highestSeenGeneration = some seen → seen < g) :
      Moves s envelope (s.resetForProviderGeneration g)
  | full {g : Nat} {state : Fields} {s' : Browser} (hfull : IsFull envelope g state)
      (hseen : ∀ seen, s.highestSeenGeneration = some seen → seen ≤ g)
      (hbehind : s.behind g state = false)
      (hstored : Stored ((s.retireForFull g).install g state) s') : Moves s envelope s'
  | delta {g : Nat} {ops : StateDeltaOps Json} {base state : Fields} {s' : Browser}
      (hdelta : IsDelta envelope g ops) (hbase : s.fullState = some base)
      (haccepted : s.acceptedProviderGeneration = some g)
      (hstate : candidateOf base ops envelope = some state)
      (hadvance : isStateAdvance (some (stateAdvanceBaselineOf base)) state = true)
      (hstored : Stored { s with fullState := some state } s') : Moves s envelope s'

theorem onStateUpdate_none {s s' : Browser} {envelope : Fields}
    (h : s.applyDeltaEnvelope envelope = (s', none)) : s.onStateUpdate envelope = s' := by
  rw [onStateUpdate, h]

theorem retireForDelta_moves {s : Browser} {envelope : Fields} {g : Nat} {ops : StateDeltaOps Json}
    (hdelta : IsDelta envelope g ops) : Moves s envelope (s.retireForDelta g) := by
  rw [retireForDelta]
  cases hseen : s.highestSeenGeneration with
  | none => exact .retired hdelta fun seen h => (by rw [hseen] at h; cases h)
  | some seen =>
      dsimp only
      split
      · rename_i hlt
        refine .retired hdelta fun other h => ?_
        rw [hseen] at h
        cases h
        exact hlt
      · exact .dropped

theorem delta_moves {s : Browser} {envelope : Fields} {g : Nat} {ops : StateDeltaOps Json}
    (hdelta : IsDelta envelope g ops)
    (hseen : ∀ seen, s.highestSeenGeneration = some seen → seen ≤ g) :
    Moves s envelope (s.onStateUpdate envelope) := by
  have h := applyDeltaEnvelope_delta hdelta hseen
  rw [applyDelta] at h
  split at h
  · rw [onStateUpdate_none h]
    exact retireForDelta_moves hdelta
  · rename_i base hbase
    split at h
    · rw [onStateUpdate_none h]
      exact .dropped
    · rename_i state hstate
      split at h
      · rw [onStateUpdate_none h]
        exact .dropped
      · split at h
        · rw [onStateUpdate_none h]
          exact retireForDelta_moves hdelta
        · rename_i hown
          rw [not_or, Decidable.not_not] at hown
          split at h
          · rename_i hadvance
            exact .delta hdelta hbase hown.1 hstate hadvance (onStateUpdate_committed h)
          · rw [onStateUpdate_none h]
            exact .dropped

/-- Everything that an envelope can do. -/
theorem onStateUpdate_moves (s : Browser) (envelope : Fields) :
    Moves s envelope (s.onStateUpdate envelope) := by
  rcases applyDeltaEnvelope_cases s envelope with hdrop | ⟨g, hseen, ⟨state, hfull⟩ | ⟨ops, hdelta⟩⟩
  · rw [onStateUpdate_none hdrop]
    exact .dropped
  · have h := applyDeltaEnvelope_full hfull hseen
    split at h
    · rw [onStateUpdate_none h]
      exact .dropped
    · rename_i hok
      rw [Bool.or_eq_true, not_or, Bool.not_eq_true, Bool.not_eq_true] at hok
      exact .full hfull hseen hok.2 (onStateUpdate_committed h)
  · exact delta_moves hdelta hseen

end Browser

end Frontend

end Rigplane.Web
