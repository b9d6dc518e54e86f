import Rigplane.Lib.Runs
import Rigplane.Web.DeltaApply

/-!
# A client of the delta encoder

A client applies the frames of one encoder in turn.  To Python it always holds the current
state (`Session.Ok`), and no frame is ever refused.

To JSON it does as long as no delta frame passes over a value that Python finds equal to the
one before it, and that is another to JSON (`holds_iff`).
-/

namespace Rigplane.Web

open Json

/-! ## The snapshot of the encoder -/

theorem find_mergedTree {prev cur : Fields} (key : String) :
    Dict.find key (mergedTree prev cur) = (Dict.find key cur).map fun value =>
      match Dict.find key prev with
      | none => value
      | some old => copyOnWriteTree old value := by
  induction cur with
  | nil => rfl
  | cons entry rest ih =>
      obtain ⟨first, value⟩ := entry
      rw [mergedTree, Dict.find, Dict.find]
      by_cases h : first = key
      · rw [if_pos h, if_pos h, h]
        rfl
      · rw [if_neg h, if_neg h, ih]

theorem keys_mergedTree (prev cur : Fields) :
    (mergedTree prev cur).map Prod.fst = cur.map Prod.fst := by
  induction cur with
  | nil => rfl
  | cons entry rest ih =>
      obtain ⟨first, value⟩ := entry
      rw [mergedTree, List.map_cons, List.map_cons, ih]

/-- The snapshot is the current state, to Python. -/
theorem copyOnWriteTree_spec {prev cur : Json} (hprev : prev.proper = true)
    (hcur : cur.proper = true) :
    meaning Scalar.python (copyOnWriteTree prev cur) = meaning Scalar.python cur ∧
      (copyOnWriteTree prev cur).proper = true := by
  induction cur using induction generalizing prev with
  | hscalar cur scalar hscalar =>
      cases cur with
      | null | bool | int | float | str => exact ⟨rfl, hcur⟩
      | arr | obj => cases hscalar
  | harr items ih =>
      rw [copyOnWriteTree]
      split
      · rename_i hequal
        exact ⟨(pyEqual_iff hprev hcur).mp hequal, hprev⟩
      · exact ⟨rfl, hcur⟩
  | hobj cur ih =>
      cases prev with
      | obj prev =>
          rw [copyOnWriteTree]
          split
          · rename_i hequal
            exact ⟨(pyEqual_iff hprev hcur).mp hequal, hprev⟩
          have hvalue : ∀ key value, Dict.find key cur = some value → ∀ old,
              Dict.find key prev = some old →
              meaning Scalar.python (copyOnWriteTree old value) = meaning Scalar.python value ∧
                (copyOnWriteTree old value).proper = true := fun key value hvalue old hold =>
            ih _ (mem_of_find hvalue) (proper_of_find hprev hold) (proper_of_find hcur hvalue)
          constructor
          · rw [meaning_obj, meaning_obj]
            congr 1
            funext key
            rw [find_mergedTree]
            rcases hfind : Dict.find key cur with _ | value
            · rfl
            rcases hold : Dict.find key prev with _ | old
            · rfl
            · rw [Option.map_some, Option.map_some, Option.map_some]
              exact congrArg some (hvalue key value hfind old hold).1
          · have hnodup : ((mergedTree prev cur).map Prod.fst).Nodup := by
              rw [keys_mergedTree]
              exact (proper_obj.mp hcur).1
            refine proper_obj.mpr ⟨hnodup, fun entry hentry => ?_⟩
            have hfind := find_of_mem hnodup hentry
            rw [find_mergedTree, Option.map_eq_some_iff] at hfind
            obtain ⟨value, hfind, hentry⟩ := hfind
            rw [← hentry]
            rcases hold : Dict.find entry.1 prev with _ | old
            · exact proper_of_find hcur hfind
            · exact (hvalue _ value hfind old hold).2
      | null | bool | int | float | str | arr => exact ⟨rfl, hcur⟩

/-! ## Sessions -/

/-- A call of `encode`.  The state is a `dict`, whose keys are distinct at every depth. -/
structure Call where
  args : EncodeArgs
  proper : Json.proper (.obj args.currentState) = true

/-- An encoder and a client that has applied its frames. -/
structure Session where
  encoder : DeltaEncoder
  client : Fields
  /-- The state of the last call. -/
  current : Fields

namespace Session

/-- A new encoder, and a client that has no frame yet. -/
def initial (fullStateInterval : Int) : Session := ⟨.init fullStateInterval, [], []⟩

/-- The encoder encodes a state, and the client applies the frame. -/
def step (s : Session) (call : Call) : Option Session :=
  let (encoder, frame) := s.encoder.encode call.args
  match applyDelta s.client frame with
  | .error _ => none
  | .ok client => some ⟨encoder, client, call.args.currentState⟩

/-- The client holds the current state. -/
def Holds (s : Session) : Prop := SameJson (.obj s.client) (.obj s.current)

/-- The encoder answers a call with a delta to its snapshot. -/
def deltaFrom (encoder : DeltaEncoder) (args : EncodeArgs) : Option Fields :=
  match encoder.previousState with
  | none => none
  | some prev =>
      if args.forceFull ∨ encoder.deltaCount ≥ encoder.fullStateInterval then none else some prev

/-- A call is not answered with a delta, or the delta passes over no value that is another to
JSON than the one before it. -/
def Distinct (s : Session) (call : Call) : Prop :=
  deltaFrom s.encoder call.args ≠ none → reproducesItems s.current call.args.currentState = true

instance (s : Session) (call : Call) : Decidable (Distinct s call) :=
  inferInstanceAs (Decidable (_ → _))

/-- The snapshot, the state of the last call and the client are equal to Python. -/
structure Ok (s : Session) : Prop where
  proper : proper (.obj s.current) = true
  previous : ∀ prev, s.encoder.previousState = some prev → Json.proper (.obj prev) = true ∧
    meaning Scalar.python (.obj s.current) = meaning Scalar.python (.obj prev)
  client : meaning Scalar.python (.obj s.client) = meaning Scalar.python (.obj s.current)

theorem initial_ok (fullStateInterval : Int) : (initial fullStateInterval).Ok where
  proper := rfl
  previous := fun prev h => by cases h
  client := rfl

/-- A leaf delta applies its writes. -/
theorem applyDelta_leaf {client : Fields} {frame : StateUpdateFrame} {ops : LeafOps}
    (htype : frame.type = .delta) (hversion : frame.deltaVersion = some leafDeltaVersion)
    (hset : frame.set = some ops.set) (hunset : frame.unset.getD [] = ops.unset) :
    applyDelta client frame = ops.writes.foldlM (Web.step noSkips) client := by
  rw [applyDelta, htype, hversion, hset, hunset, LeafOps.writes, List.foldlM_append]
  simp only [List.foldlM_map]
  rfl

/-- What a call does: a full frame carries the state, and a delta frame the diff from the
snapshot. -/
theorem encode_cases (encoder : DeltaEncoder) (args : EncodeArgs) :
    (encoder.encode args).1.previousState =
        some (DeltaEncoder.snapshot encoder.previousState args.currentState) ∧
      match deltaFrom encoder args with
      | none => ∀ client, applyDelta client (encoder.encode args).2 = .ok args.currentState
      | some prev => encoder.previousState = some prev ∧ ∀ client,
          applyDelta client (encoder.encode args).2 =
            (diff prev args.currentState []).writes.foldlM (Web.step noSkips) client := by
  rw [DeltaEncoder.encode, deltaFrom]
  rcases encoder.previousState with _ | prev
  · exact ⟨rfl, fun client => rfl⟩
  dsimp only
  split
  · exact ⟨rfl, fun client => rfl⟩
  · refine ⟨rfl, rfl, fun client => applyDelta_leaf rfl rfl rfl ?_⟩
    dsimp only
    split
    · rename_i hnil
      rw [hnil]
      rfl
    · rfl

theorem snapshot_ok {prev cur : Fields} (hprev : proper (.obj prev) = true)
    (hcur : proper (.obj cur) = true) :
    proper (.obj (DeltaEncoder.snapshot (some prev) cur)) = true ∧
      meaning Scalar.python (.obj cur) =
        meaning Scalar.python (.obj (DeltaEncoder.snapshot (some prev) cur)) := by
  obtain ⟨hmeaning, hproper⟩ := copyOnWriteTree_spec hprev hcur
  obtain ⟨fields, hfields⟩ := object_of_meaning hmeaning
  rw [DeltaEncoder.snapshot, hfields]
  rw [hfields] at hmeaning hproper
  exact ⟨hproper, hmeaning.symm⟩

/-- A step keeps the session equal to Python.  If it was the same to JSON, it stays so just where
the call is distinct. -/
theorem step_spec {s : Session} (call : Call) (hok : s.Ok) :
    ∃ s', s.step call = some s' ∧ s'.Ok ∧ (s.Holds → (s'.Holds ↔ Distinct s call)) := by
  obtain ⟨hsnapshot, hframe⟩ := encode_cases s.encoder call.args
  have hcur := call.proper
  have hprevious : ∀ prev, (s.encoder.encode call.args).1.previousState = some prev →
      Json.proper (.obj prev) = true ∧
        meaning Scalar.python (.obj call.args.currentState) = meaning Scalar.python
          (.obj prev) := by
    intro prev hprev
    rw [hsnapshot] at hprev
    cases hprev
    rcases hold : s.encoder.previousState with _ | old
    · exact ⟨hcur, rfl⟩
    · exact snapshot_ok (hok.previous old hold).1 hcur
  rw [step]
  rcases hdelta : deltaFrom s.encoder call.args with _ | prev
  · rw [hdelta] at hframe
    dsimp only at hframe ⊢
    rw [hframe s.client]
    refine ⟨_, rfl, ⟨hcur, hprevious, rfl⟩, fun _ => ?_⟩
    rw [Distinct, hdelta]
    exact iff_of_true rfl fun h => absurd rfl h
  · rw [hdelta] at hframe
    obtain ⟨hprev, hframe⟩ := hframe
    obtain ⟨hprev_proper, hpython⟩ := hok.previous prev hprev
    obtain ⟨result, hfold, hresult⟩ := apply_diff noSkips hprev_proper hcur
      (hok.client.trans hpython)
    rw [← hframe s.client] at hfold
    dsimp only
    rw [hfold]
    have hclient := (meaning_python hresult).trans
      (patch_python hprev_proper hcur (hok.client.trans hpython))
    refine ⟨_, rfl, ⟨hcur, hprevious, hclient⟩, fun hholds => ?_⟩
    rw [Distinct, hdelta, imp_iff_right (Option.some_ne_none prev),
      ← patch_reproduces hprev_proper hok.proper hcur hholds hpython]
    show SameJson _ _ ↔ _
    rw [SameJson, hresult]
    rfl

/-- To JSON, a client holds the current state after every frame just where every call is
distinct. -/
theorem holds_iff_of {s : Session} (hok : s.Ok) (hholds : s.Holds) (calls : List Call) :
    (∀ done rest, calls = done ++ rest → ∃ s', Runs.exec step s done = some s' ∧ s'.Holds) ↔
      Runs.Along step Distinct s calls := by
  induction calls generalizing s with
  | nil =>
      refine iff_of_true (fun done rest h => ?_) trivial
      obtain ⟨rfl, rfl⟩ := List.nil_eq_append_iff.mp h
      exact ⟨s, rfl, hholds⟩
  | cons call calls ih =>
      obtain ⟨s', hstep, hok', hnext⟩ := step_spec call hok
      constructor
      · intro hall
        obtain ⟨m, hm, hm_holds⟩ := hall [call] calls rfl
        have hm_eq : m = s' := by
          rw [Runs.exec_cons, hstep] at hm
          exact (Option.some.inj hm).symm
        rw [hm_eq] at hm_holds
        refine ⟨(hnext hholds).mp hm_holds, fun m hm => ?_⟩
        rw [hstep] at hm
        rw [← Option.some.inj hm]
        refine (ih hok' hm_holds).mp fun done rest h => ?_
        obtain ⟨last, hlast, hlast_holds⟩ := hall (call :: done) rest (by rw [h]; rfl)
        rw [Runs.exec_cons, hstep] at hlast
        exact ⟨last, hlast, hlast_holds⟩
      · rintro ⟨hdistinct, hrest⟩ done rest h
        have hs'_holds := (hnext hholds).mpr hdistinct
        cases done with
        | nil => exact ⟨s, rfl, hholds⟩
        | cons first done =>
            obtain ⟨rfl, hcalls⟩ := List.cons.inj h
            obtain ⟨last, hlast, hlast_holds⟩ :=
              (ih hok' hs'_holds).mpr (hrest s' hstep) done rest hcalls
            refine ⟨last, ?_, hlast_holds⟩
            rw [Runs.exec_cons, hstep]
            exact hlast

/-- A client that starts from the first full frame holds the current state after every frame, to
JSON, just where no delta frame passes over a value that Python finds equal to the one before it
and that is another to JSON. -/
theorem holds_iff (fullStateInterval : Int) (calls : List Call) :
    (∀ done rest, calls = done ++ rest →
      ∃ s, Runs.exec step (initial fullStateInterval) done = some s ∧ s.Holds) ↔
        Runs.Along step Distinct (initial fullStateInterval) calls :=
  holds_iff_of (initial_ok fullStateInterval) rfl calls

/-- One, and then true. -/
def oneThenTrue : List Call := [⟨{ currentState := [("a", .int 1)] }, rfl⟩,
  ⟨{ currentState := [("a", .bool true)] }, rfl⟩]

/-- The client keeps the number, and the state has the boolean. -/
theorem oneThenTrue_not_held :
    ∃ s, Runs.exec step (initial 100) oneThenTrue = some s ∧ s.client = [("a", .int 1)] ∧
      s.current = [("a", .bool true)] ∧ ¬ s.Holds := by
  refine ⟨_, rfl, rfl, rfl, fun h => ?_⟩
  have hsame : same (.obj [("a", .int 1)]) (.obj [("a", .bool true)]) = true :=
    (same_iff rfl rfl).mpr h
  exact absurd hsame (by decide)

end Session

end Rigplane.Web
