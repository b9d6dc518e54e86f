import Rigplane.Commands.Commander

/-!
# How requests of the commander end

A call ends with a response, or for a cause (`Cause`): its own timeout or cancellation, an error
of the executor, or a `stop`.  Calls that are merged wait on one future though, and the timeout or
cancellation of one of them cancels it for all.

So the causes hold in every run where no call is asked to end while another shares its future
(`ends_for_cause`).  The step lemma is `Ok.step`, for the invariant `Ok`.
-/

namespace Rigplane.Commands

variable {χ ρ ε : Type} {run : List (Event χ ρ ε)} {s s' : IcomCommander χ ρ ε}

/-! ## Causes -/

/-- The run holds the cause of an outcome of a call that waited on a future. -/
def Cause (run : List (Event χ ρ ε)) (call future : Nat) : Outcome ρ ε → Prop
  | .timedOut => .timesOut call ∈ run
  | .cancelled => .cancel call ∈ run
  | .raised (.executor error) => .executeEnds future (.raised error) ∈ run
  | .raised .stopped => .stop ∈ run ∨ .executeEnds future .cancelled ∈ run
  | .lost => False
  | _ => True

/-- Every call ends for a cause, and the future of a request is only cancelled by the timeout or
the cancellation of the call that made the request. -/
structure Explained (run : List (Event χ ρ ε)) (s : IcomCommander χ ρ ε) : Prop where
  calls : ∀ call state request outcome, s.calls call = some state → state.request = some request →
    state.outcome = some outcome → Cause run call request.future outcome
  futures : ∀ future, s.futures future = .cancelled → ∃ call state request,
    s.calls call = some state ∧ state.request = some request ∧ request.future = future ∧
      request.merged = false ∧ (.timesOut call ∈ run ∨ .cancel call ∈ run)

/-- No other call has a part in the future that a call waits for. -/
def Sole (s : IcomCommander χ ρ ε) (call : Nat) (request : Request) : Prop :=
  request.merged = false ∧ ∀ other state request', other ≠ call → s.calls other = some state →
    state.request = some request' → state.outcome = none → request'.future ≠ request.future

/-- No call is asked to end while another call shares its future, and the future is not done. -/
def Unshared (s : IcomCommander χ ρ ε) : Event χ ρ ε → Prop
  | .timesOut call | .cancel call =>
      ∀ state request, s.calls call = some state → state.request = some request →
        (s.futures request.future).done = false → Sole s call request
  | _ => True

/-! ## The invariant -/

/-- The run holds the cause of a failure of a future. -/
def FailedFor (run : List (Event χ ρ ε)) (future : Nat) : Failure ε → Prop
  | .executor error => .executeEnds future (.raised error) ∈ run
  | .stopped => .stop ∈ run ∨ .executeEnds future .cancelled ∈ run

/-- The run holds the end of an execute task, or the stop that it is lost to. -/
def EndedFor (run : List (Event χ ρ ε)) (future : Nat) : Execution ρ ε → Prop
  | .returned _ => True
  | .raised error => .executeEnds future (.raised error) ∈ run
  | .cancelled => .stop ∈ run ∨ .executeEnds future .cancelled ∈ run

/-- What is known of a call. -/
structure CallOk (run : List (Event χ ρ ε)) (seq : Nat) (futures : Nat → Future ρ ε) (call : Nat)
    (state : Call ρ ε) : Prop where
  known : ∀ request, state.request = some request → request.future ≤ seq
  asked : ∀ asked, state.asked = some asked →
    match asked with
    | .timeout => .timesOut call ∈ run
    | .cancel => .cancel call ∈ run
  settled : ∀ request, state.request = some request → state.asked ≠ none →
    (futures request.future).done = true
  /-- A call that waits, and is not asked to end, waits on a future that is not cancelled. -/
  waiting : ∀ request, state.request = some request → state.outcome = none → state.asked = none →
    futures request.future ≠ .cancelled
  ended : ∀ request outcome, state.request = some request → state.outcome = some outcome →
    Cause run call request.future outcome

/-- What is known of the worker. -/
structure WorkerOk (run : List (Event χ ρ ε)) (worker : Worker χ ρ ε) : Prop where
  cancelling : worker.cancelling = true → .stop ∈ run
  executing : ∀ item execution, worker.phase = .executing item (some execution) →
    EndedFor run item.future execution

structure Ok (run : List (Event χ ρ ε)) (s : IcomCommander χ ρ ε) : Prop where
  calls : ∀ call state, s.calls call = some state → CallOk run s.seq s.futures call state
  keys : ∀ key future, s.pendingByKey.get? key = some future → future ≤ s.seq
  worker : ∀ worker, s.worker = some worker → WorkerOk run worker
  failed : ∀ future failure, s.futures future = .failed failure → FailedFor run future failure
  cancelled : ∀ future, s.futures future = .cancelled → ∃ call state request,
    s.calls call = some state ∧ state.request = some request ∧ request.future = future ∧
      request.merged = false ∧ (.timesOut call ∈ run ∨ .cancel call ∈ run)

theorem Ok.explained (h : Ok run s) : Explained run s where
  calls := fun call state request outcome hcall hrequest =>
    (h.calls call state hcall).ended request outcome hrequest
  futures := h.cancelled

/-! ## A longer run -/

section Mono

variable {run' : List (Event χ ρ ε)} (hsub : ∀ event ∈ run, event ∈ run')
include hsub

theorem Cause.mono {call future : Nat} {outcome : Outcome ρ ε} (h : Cause run call future outcome) :
    Cause run' call future outcome := by
  cases outcome with
  | timedOut => exact hsub _ h
  | cancelled => exact hsub _ h
  | raised failure =>
      cases failure with
      | executor error => exact hsub _ h
      | stopped => exact h.imp (hsub _) (hsub _)
  | lost => exact h
  | notStarted | dropped | enqueued | returned => trivial

theorem FailedFor.mono {future : Nat} {failure : Failure ε} (h : FailedFor run future failure) :
    FailedFor run' future failure := by
  cases failure with
  | executor error => exact hsub _ h
  | stopped => exact h.imp (hsub _) (hsub _)

theorem EndedFor.mono {future : Nat} {execution : Execution ρ ε}
    (h : EndedFor run future execution) :
    EndedFor run' future execution := by
  cases execution with
  | returned response => trivial
  | raised error => exact hsub _ h
  | cancelled => exact h.imp (hsub _) (hsub _)

theorem CallOk.mono {seq : Nat} {futures : Nat → Future ρ ε} {call : Nat} {state : Call ρ ε}
    (h : CallOk run seq futures call state) : CallOk run' seq futures call state where
  known := h.known
  settled := h.settled
  asked := by
    intro asked hasked
    have hmem := h.asked asked hasked
    cases asked with
    | timeout => exact hsub _ hmem
    | cancel => exact hsub _ hmem
  waiting := h.waiting
  ended := fun request outcome hrequest houtcome =>
    (h.ended request outcome hrequest houtcome).mono hsub

theorem Ok.mono (h : Ok run s) : Ok run' s where
  calls := fun call state hcall => (h.calls call state hcall).mono hsub
  keys := h.keys
  worker := fun worker hworker =>
    ⟨fun hcancelling => hsub _ ((h.worker worker hworker).cancelling hcancelling),
      fun item execution hphase =>
        ((h.worker worker hworker).executing item execution hphase).mono hsub⟩
  failed := fun future failure hfuture => (h.failed future failure hfuture).mono hsub
  cancelled := by
    intro future hfuture
    obtain ⟨call, state, request, hcall, hrequest, hequal, hmerged,
      hcause⟩ := h.cancelled future hfuture
    exact ⟨call, state, request, hcall, hrequest, hequal, hmerged, hcause.imp (hsub _) (hsub _)⟩

end Mono

/-! ## What the parts of the methods keep -/

/-- Only the calls, the worker, the futures and the keys matter. -/
theorem Ok.congr (h : Ok run s) (hcalls : s'.calls = s.calls) (hworker : s'.worker = s.worker)
    (hfutures : s'.futures = s.futures) (hseq : s'.seq = s.seq)
    (hkeys : ∀ key future, s'.pendingByKey.get? key = some future → future ≤ s.seq) :
    Ok run s' := by
  refine ⟨?_, ?_, ?_, ?_, ?_⟩
  · rw [hcalls, hfutures, hseq]
    exact h.calls
  · rw [hseq]
    exact hkeys
  · rw [hworker]
    exact h.worker
  · rw [hfutures]
    exact h.failed
  · rw [hcalls, hfutures]
    exact h.cancelled

theorem Ok.forgetKey (h : Ok run s) (key : Option String) (future : Nat) :
    Ok run (s.forgetKey key future) := by
  cases key with
  | none => exact h
  | some key =>
      rw [IcomCommander.forgetKey]
      split
      · refine h.congr rfl rfl rfl rfl fun other future' hother => ?_
        dsimp only at hother
        rw [Dict.get?_erase] at hother
        split at hother
        · cases hother
        · exact h.keys other future' hother
      · exact h

theorem Ok.leaveItem (h : Ok run s) (item : QueueItem χ) : Ok run (s.leaveItem item) := by
  have hbg : Ok run { s with
      bgInflight := if item.countsBgInflight then s.bgInflight - 1 else s.bgInflight } :=
    h.congr rfl rfl rfl rfl h.keys
  exact hbg.forgetKey item.key item.future

theorem Ok.noteForeignDispatch (h : Ok run s) (enqueuedBy : Option Nat) (priority : Int) :
    Ok run (s.noteForeignDispatch enqueuedBy priority) := by
  rw [IcomCommander.noteForeignDispatch]
  split
  · exact h
  · exact h.congr rfl rfl rfl rfl h.keys

theorem Ok.setPhase (h : Ok run s) {worker : Worker χ ρ ε} {phase : Phase χ ρ ε}
    (hworker : WorkerOk run worker) (hphase : ∀ item execution,
      phase = .executing item (some execution) → EndedFor run item.future execution) :
    Ok run (s.setPhase worker phase) := by
  refine ⟨h.calls, h.keys, ?_, h.failed, h.cancelled⟩
  intro worker' hworker'
  rw [← Option.some.inj hworker']
  exact ⟨hworker.cancelling, hphase⟩

theorem settle_done (s : IcomCommander χ ρ ε) (future : Nat) (value : Future ρ ε) {other : Nat}
    (h : (s.futures other).done = true) : (s.settle future value).futures other =
    s.futures other := by
  rw [IcomCommander.settle]
  split
  · rfl
  · rename_i hpending
    refine Function.update_of_ne (fun heq => ?_) _ _
    rw [heq] at h
    exact hpending h

theorem settle_cases (s : IcomCommander χ ρ ε) (future : Nat) (value : Future ρ ε) (other : Nat) :
    (s.settle future value).futures other = s.futures other ∨
      other = future ∧ (s.futures future).done = false ∧
        (s.settle future value).futures other = value := by
  rw [IcomCommander.settle]
  split
  · exact .inl rfl
  · rename_i hpending
    by_cases heq : other = future
    · subst heq
      exact .inr ⟨rfl, Bool.not_eq_true _ ▸ hpending, Function.update_self ..⟩
    · exact .inl (Function.update_of_ne heq _ _)

theorem settle_self_done (s : IcomCommander χ ρ ε) (future : Nat) {value : Future ρ ε}
    (h : value.done = true) : ((s.settle future value).futures future).done = true := by
  rw [IcomCommander.settle]
  split
  · rename_i hdone
    exact hdone
  · dsimp only
    rw [Function.update_self]
    exact h

theorem settle_same (s : IcomCommander χ ρ ε) (future : Nat) (value : Future ρ ε) :
    (s.settle future value).calls = s.calls ∧ (s.settle future value).seq = s.seq ∧
      (s.settle future value).pendingByKey = s.pendingByKey ∧
      (s.settle future value).worker = s.worker := by
  rw [IcomCommander.settle]
  split
  · exact ⟨rfl, rfl, rfl, rfl⟩
  · exact ⟨rfl, rfl, rfl, rfl⟩

/-- A future ends: its failure has a cause, and if it is cancelled, then for the call that made
the request, and no other call waits for it. -/
theorem Ok.settle (h : Ok run s) {future : Nat} {value : Future ρ ε}
    (hfailed : ∀ failure, value = .failed failure → FailedFor run future failure)
    (hwaiting : value = .cancelled → (s.futures future).done = false →
      ∀ call state request, s.calls call = some state → state.request = some request →
        state.outcome = none → state.asked = none → request.future ≠ future)
    (howner : value = .cancelled → (s.futures future).done = false →
      ∃ call state request, s.calls call = some state ∧ state.request = some request ∧
        request.future = future ∧ request.merged = false ∧
          (.timesOut call ∈ run ∨ .cancel call ∈ run)) :
    Ok run (s.settle future value) := by
  obtain ⟨hcalls, hseq, hkeys, hworker⟩ := settle_same s future value
  refine ⟨?_, ?_, ?_, ?_, ?_⟩
  · rw [hcalls, hseq]
    intro call state hcall
    have hok := h.calls call state hcall
    refine ⟨hok.known, hok.asked, fun request hrequest hasked => ?_,
      fun request hrequest houtcome hasked hcancelled => ?_, hok.ended⟩
    · have hdone := hok.settled request hrequest hasked
      rw [settle_done s future value hdone]
      exact hdone
    · rcases settle_cases s future value request.future with hsame | ⟨heq, hdone, hnew⟩
      · rw [hsame] at hcancelled
        exact hok.waiting request hrequest houtcome hasked hcancelled
      · rw [hnew] at hcancelled
        exact hwaiting hcancelled hdone call state request hcall hrequest houtcome hasked heq
  · rw [hseq, hkeys]
    exact h.keys
  · rw [hworker]
    exact h.worker
  · intro other failure hother
    rcases settle_cases s future value other with hsame | ⟨rfl, -, hnew⟩
    · rw [hsame] at hother
      exact h.failed other failure hother
    · rw [hnew] at hother
      exact hfailed failure hother
  · rw [hcalls]
    intro other hother
    rcases settle_cases s future value other with hsame | ⟨rfl, hdone, hnew⟩
    · rw [hsame] at hother
      exact h.cancelled other hother
    · rw [hnew] at hother
      exact howner hother hdone

theorem Ok.failItem (h : Ok run s) {item : QueueItem χ} {failure : Failure ε}
    (hfailed : FailedFor run item.future failure) : Ok run (s.failItem item failure) := by
  refine h.settle (fun failure' heq => ?_) (fun heq => ?_) (fun heq => ?_)
  · cases heq
    exact hfailed
  · cases heq
  · cases heq

theorem addCall_self (s : IcomCommander χ ρ ε) (call : Nat) (state : Call ρ ε) :
    (s.addCall call state).calls call = some state := Function.update_self ..

theorem addCall_ne (s : IcomCommander χ ρ ε) {call other : Nat} (h : other ≠ call)
    (state : Call ρ ε) : (s.addCall call state).calls other = s.calls other :=
  Function.update_of_ne h ..

/-- A call is made, or changes. -/
theorem Ok.addCall (h : Ok run s) {call : Nat} {state : Call ρ ε}
    (hstate : CallOk run s.seq s.futures call state)
    (hbefore : ∀ before, s.calls call = some before → before.request = state.request) :
    Ok run (s.addCall call state) := by
  refine ⟨?_, h.keys, h.worker, h.failed, ?_⟩
  · intro other state' hother
    by_cases heq : other = call
    · subst heq
      rw [addCall_self] at hother
      rw [← Option.some.inj hother]
      exact hstate
    · rw [addCall_ne s heq] at hother
      exact h.calls other state' hother
  · intro future hfuture
    obtain ⟨owner, before, request, howner, hrequest, hequal, hmerged,
      hcause⟩ := h.cancelled future hfuture
    by_cases heq : owner = call
    · subst heq
      refine ⟨owner, state, request, addCall_self .., ?_, hequal, hmerged, hcause⟩
      rw [← hbefore before howner]
      exact hrequest
    · exact ⟨owner, before, request, (addCall_ne s heq state).trans howner, hrequest,
        hequal, hmerged,
        hcause⟩

/-- A future is made. -/
theorem Ok.createFuture (h : Ok run s) :
    Ok run { s with
      seq := s.seq + 1, futures := Function.update s.futures (s.seq + 1) .pending } := by
  have hold : ∀ other ≤ s.seq,
      Function.update s.futures (s.seq + 1) .pending other = s.futures other :=
    fun other hother => Function.update_of_ne (by omega) _ _
  have hended : ∀ other value, value ≠ Future.pending →
      Function.update s.futures (s.seq + 1) .pending other = value → s.futures other = value := by
    intro other value hvalue hother
    by_cases heq : other = s.seq + 1
    · rw [heq, Function.update_self] at hother
      exact absurd hother.symm hvalue
    · rw [Function.update_of_ne heq] at hother
      exact hother
  refine ⟨?_, fun key future hkey => Nat.le_succ_of_le (h.keys key future hkey), h.worker, ?_, ?_⟩
  · intro call state hcall
    have hok := h.calls call state hcall
    refine ⟨fun request hrequest => Nat.le_succ_of_le (hok.known request hrequest), hok.asked,
      fun request hrequest hasked => ?_, fun request hrequest houtcome hasked => ?_, hok.ended⟩
    · dsimp only
      rw [hold _ (hok.known request hrequest)]
      exact hok.settled request hrequest hasked
    · dsimp only
      rw [hold _ (hok.known request hrequest)]
      exact hok.waiting request hrequest houtcome hasked
  · exact fun other failure hother => h.failed other failure
      (hended _ _ (fun heq => by cases heq) hother)
  · exact fun other hother => h.cancelled other (hended _ _ (fun heq => by cases heq) hother)

/-! ## What an event keeps -/

theorem Ok.initial : Ok ([] : List (Event χ ρ ε)) {} where
  calls := fun call state hcall => by cases hcall
  keys := fun key future hkey => by cases hkey
  worker := fun worker hworker => by cases hworker
  failed := fun future failure hfuture => by cases hfuture
  cancelled := fun future hfuture => by cases hfuture

theorem Ok.start (h : Ok run s) : Ok run s.start := by
  have hnew : Ok run { s with
      queue := some [], worker := some { id := s.workers }, workers := s.workers + 1 } := by
    refine ⟨h.calls, h.keys, ?_, h.failed, h.cancelled⟩
    intro worker hworker
    cases hworker
    refine ⟨fun hcancelling => ?_, fun item execution hphase => ?_⟩
    · cases hcancelling
    · cases hphase
  rw [IcomCommander.start]
  split
  · exact hnew
  · split
    · exact hnew
    · exact h

theorem WorkerOk.cancel {worker : Worker χ ρ ε} (h : WorkerOk run worker) (hstop : .stop ∈ run) :
    WorkerOk run (IcomCommander.cancelWorker worker) where
  cancelling := fun _ => hstop
  executing := by
    intro item execution hphase
    rw [IcomCommander.cancelWorker] at hphase
    dsimp only at hphase
    split at hphase
    · cases hphase
      exact .inl hstop
    · exact h.executing item execution hphase

theorem Ok.drain (h : Ok run s) (hstop : .stop ∈ run) (items : List (QueueItem χ)) :
    Ok run (items.foldl IcomCommander.drainItem s) := by
  induction items generalizing s with
  | nil => exact h
  | cons item rest ih => exact ih ((h.leaveItem item).failItem (.inl hstop))

theorem Ok.drained (hs : Ok run s) (hstop : .stop ∈ run) : Ok run (match s.queue with
    | none => s
    | some items => items.foldl IcomCommander.drainItem { s with queue := some [] }) := by
  split
  · exact hs
  · have hempty : Ok run { s with queue := some [] } := hs.congr rfl rfl rfl rfl hs.keys
    exact hempty.drain hstop _

theorem Ok.stop (h : Ok run s) (hstop : .stop ∈ run) : Ok run s.stop := by
  have hcancelled : ∀ worker, s.worker = some worker →
      Ok run { s with worker := some (IcomCommander.cancelWorker worker) } := by
    intro worker hworker
    refine ⟨h.calls, h.keys, ?_, h.failed, h.cancelled⟩
    intro worker' hworker'
    rw [← Option.some.inj hworker']
    exact (h.worker worker hworker).cancel hstop
  have hlast : ∀ s : IcomCommander χ ρ ε, Ok run s → ∀ stopping, Ok run { s with stopping } :=
    fun s hs stopping => hs.congr rfl rfl rfl rfl hs.keys
  rw [IcomCommander.stop]
  refine hlast _ (Ok.drained ?_ hstop) _
  split
  · exact h
  · rename_i worker hworker
    split
    · exact hcancelled worker hworker
    · exact h

theorem Ok.stopLeaves (h : Ok run s) {stopper : Nat} (hs' : s.stopLeaves stopper = some s') :
    Ok run s' := by
  rw [IcomCommander.stopLeaves] at hs'
  split at hs'
  · cases hs'
  · dsimp only at hs'
    split at hs'
    · cases hs'
      refine ⟨h.calls, fun key future hkey => ?_, fun worker hworker => ?_, h.failed, h.cancelled⟩
      · cases hkey
      · cases hworker
    · cases hs'
      exact h.congr rfl rfl rfl rfl h.keys

theorem mergedInto_spec {args : SendArgs χ} {existing : Nat}
    (h : s.mergedInto args = some existing) :
    (∃ key, s.pendingByKey.get? key = some existing) ∧ (s.futures existing).done = false := by
  rw [IcomCommander.mergedInto] at h
  split at h
  · rename_i key _ _
    obtain ⟨hkey, hdone⟩ := Option.filter_eq_some_iff.mp h
    exact ⟨⟨key, hkey⟩, Bool.not_eq_true' _ ▸ hdone⟩
  · cases h

theorem CallOk.refused {seq : Nat} {futures : Nat → Future ρ ε} {call : Nat}
    {outcome : Outcome ρ ε} :
    CallOk run seq futures call { request := none, outcome := some outcome } where
  known := fun request hrequest => by cases hrequest
  asked := fun asked hasked => by cases hasked
  settled := fun request hrequest => by cases hrequest
  waiting := fun request hrequest => by cases hrequest
  ended := fun request outcome hrequest => by cases hrequest

theorem CallOk.admitted {seq : Nat} {futures : Nat → Future ρ ε} {call : Nat} {request : Request}
    {outcome : Option (Outcome ρ ε)} (hknown : request.future ≤ seq)
    (hfuture : futures request.future ≠ .cancelled)
    (houtcome : outcome = none ∨ outcome = some .enqueued) :
    CallOk run seq futures call { request := some request, outcome } where
  known := by
    intro request' hrequest
    rw [← Option.some.inj hrequest]
    exact hknown
  asked := fun asked hasked => by cases hasked
  settled := fun request' _ hasked => absurd rfl hasked
  waiting := by
    intro request' hrequest _ _
    rw [← Option.some.inj hrequest]
    exact hfuture
  ended := by
    intro request' outcome' _ houtcome'
    rcases houtcome with rfl | rfl
    · cases houtcome'
    · cases houtcome'
      trivial

theorem Ok.send (h : Ok run s) {call : Nat} (hnew : s.calls call = none) (task : Nat)
    (args : SendArgs χ) : Ok run (s.send call task args) := by
  have hbefore : ∀ (request : Option Request) before, s.calls call = some before →
      before.request = request := fun request before hcall => by rw [hnew] at hcall; cases hcall
  rw [IcomCommander.send]
  split
  · exact h.addCall .refused (hbefore _)
  split
  · rename_i existing hmerged
    obtain ⟨⟨key, hkey⟩, hpending⟩ := mergedInto_spec hmerged
    refine h.addCall (.admitted (h.keys key existing hkey) (fun hcancelled => ?_) (.inl rfl))
      (hbefore _)
    dsimp only at hcancelled
    rw [hcancelled] at hpending
    cases hpending
  · have hcreated := h.createFuture
    dsimp only
    split
    · exact hcreated.addCall .refused (hbefore _)
    · refine Ok.addCall ?_ (.admitted (Nat.le_refl _) (fun hcancelled => ?_) ?_) (hbefore _)
      · refine hcreated.congr rfl rfl rfl rfl fun key future hkey => ?_
        dsimp only at hkey
        split at hkey
        · exact hcreated.keys key future hkey
        · rw [Dict.get?_set] at hkey
          split at hkey
          · exact Nat.le_of_eq (Option.some.inj hkey).symm
          · exact hcreated.keys key future hkey
      · dsimp only at hcancelled
        rw [Function.update_self] at hcancelled
        cases hcancelled
      · split
        · exact .inl rfl
        · exact .inr rfl

/-- A waiting call is asked to end, and the run holds that it is. -/
theorem Ok.ask (h : Ok run s) {call : Nat} {asked : Asked}
    (hasked : match asked with
      | .timeout => .timesOut call ∈ run
      | .cancel => .cancel call ∈ run)
    (hsole : ∀ state request, s.calls call = some state → state.request = some request →
      (s.futures request.future).done = false → Sole s call request)
    (hs' : s.ask call asked = some s') : Ok run s' := by
  rw [IcomCommander.ask] at hs'
  split at hs'
  · rename_i request before hcall
    split at hs'
    · cases hs'
    · cases hs'
      have hcause : .timesOut call ∈ run ∨ .cancel call ∈ run := by
        cases asked with
        | timeout => exact .inl hasked
        | cancel => exact .inr hasked
      have hknown := (h.calls call _ hcall).known
      have hsole := hsole _ request hcall rfl
      let asking : Call ρ ε := { request := some request, asked := some asked }
      let m := s.addCall call asking
      have hself : m.calls call = some asking := addCall_self ..
      have hne : ∀ other ≠ call, m.calls other =
        s.calls other := fun other hne => addCall_ne s hne _
      obtain ⟨hcalls, hseq, hkeys, hworker⟩ := settle_same m request.future .cancelled
      refine ⟨?_, ?_, ?_, ?_, ?_⟩
      · rw [hcalls, hseq]
        intro other state hother
        by_cases heq : other = call
        · subst heq
          rw [hself] at hother
          cases hother
          refine ⟨hknown, fun asked' hasked' => ?_, fun request' hrequest' _ => ?_,
            fun request' _ _ hnone => ?_, fun request' outcome _ houtcome => ?_⟩
          · cases hasked'
            exact hasked
          · cases hrequest'
            exact settle_self_done m request.future rfl
          · cases hnone
          · cases houtcome
        · rw [hne other heq] at hother
          have hok := h.calls other state hother
          refine ⟨hok.known, hok.asked, fun request' hrequest' hasked' => ?_,
            fun request' hrequest' houtcome hasked' hcancelled => ?_, hok.ended⟩
          · have hdone := hok.settled request' hrequest' hasked'
            rw [settle_done m request.future .cancelled hdone]
            exact hdone
          · rcases settle_cases m request.future .cancelled request'.future with
              hsame | ⟨hequal, hdone, -⟩
            · rw [hsame] at hcancelled
              exact hok.waiting request' hrequest' houtcome hasked' hcancelled
            · exact (hsole hdone).2 other state request' heq hother hrequest' houtcome hequal
      · rw [hseq, hkeys]
        exact h.keys
      · rw [hworker]
        exact h.worker
      · intro other failure hother
        rcases settle_cases m request.future .cancelled other with hsame | ⟨-, -, hnew⟩
        · rw [hsame] at hother
          exact h.failed other failure hother
        · rw [hnew] at hother
          cases hother
      · rw [hcalls]
        intro other hother
        rcases settle_cases m request.future .cancelled other with hsame | ⟨heq, hdone, -⟩
        · rw [hsame] at hother
          obtain ⟨owner, state, request', howner, hrequest', hrest⟩ := h.cancelled other hother
          by_cases heq : owner = call
          · subst heq
            rw [hcall] at howner
            cases howner
            exact ⟨owner, asking, request', hself, hrequest', hrest⟩
          · exact ⟨owner, state, request', (hne owner heq).trans howner, hrequest', hrest⟩
        · exact ⟨call, asking, request, hself, rfl, heq.symm, (hsole hdone).1, hcause⟩
  · cases hs'

/-- A call that waits gets its outcome for a cause. -/
theorem Ok.cause_of_outcome (h : Ok run s) {call : Nat} {request : Request} {asked : Option Asked}
    {outcome : Outcome ρ ε} (hcall : s.calls call = some { request := some request, asked })
    (houtcome : IcomCommander.outcomeOf asked (s.futures request.future) = some outcome) :
    Cause run call request.future outcome := by
  have hok := h.calls call _ hcall
  rcases asked with _ | asked | asked
  · rcases hfuture : s.futures request.future with _ | response | failure | _
    · rw [hfuture] at houtcome
      cases houtcome
    · rw [hfuture] at houtcome
      cases houtcome
      trivial
    · rw [hfuture] at houtcome
      cases houtcome
      have hfailed := h.failed _ failure hfuture
      cases failure with
      | executor error => exact hfailed
      | stopped => exact hfailed
    · exact absurd hfuture (hok.waiting request rfl rfl rfl)
  · cases houtcome
    exact hok.asked .timeout rfl
  · cases houtcome
    exact hok.asked .cancel rfl

/-- A call only goes on once its future is done. -/
theorem done_of_outcome {seq : Nat} {futures : Nat → Future ρ ε} {call : Nat} {request : Request}
    {asked : Option Asked} {outcome : Outcome ρ ε}
    (h : CallOk run seq futures call { request := some request, asked })
    (houtcome : IcomCommander.outcomeOf asked (futures request.future) = some outcome) :
    (futures request.future).done = true := by
  rcases asked with _ | asked
  · generalize futures request.future = future at houtcome
    cases future with
    | pending => cases houtcome
    | result | failed | cancelled => rfl
  · exact h.settled request rfl (Option.some_ne_none asked)

theorem Ok.callerGone (h : Ok run s) {request : Request}
    (hdone : (s.futures request.future).done = true)
    (outcome : Outcome ρ ε) : Ok run (s.callerGone request outcome) := by
  have hgone : Ok run (if request.merged then s
      else (s.settle request.future .cancelled).forgetKey request.key request.future) := by
    split
    · exact h
    · rw [IcomCommander.settle, if_pos hdone]
      exact h.forgetKey request.key request.future
  cases outcome with
  | cancelled | lost => exact hgone
  | notStarted | dropped | enqueued | returned | timedOut | raised => exact h

theorem Ok.wake (h : Ok run s) {call : Nat} (hs' : s.wake call = some s') : Ok run s' := by
  rw [IcomCommander.wake] at hs'
  split at hs'
  · rename_i request asked hcall
    obtain ⟨outcome, houtcome, rfl⟩ := Option.map_eq_some_iff.mp hs'
    have hok := h.calls call _ hcall
    let ended : Call ρ ε := { request := some request, asked, outcome := some outcome }
    have hadded : Ok run (s.addCall call ended) := by
      refine h.addCall ⟨hok.known, hok.asked, hok.settled, fun request' _ hnone => ?_,
        fun request' outcome' hrequest' houtcome' => ?_⟩ fun before hbefore => ?_
      · cases hnone
      · cases hrequest'
        cases houtcome'
        exact h.cause_of_outcome hcall houtcome
      · rw [hcall] at hbefore
        cases hbefore
        rfl
    exact hadded.callerGone (done_of_outcome hok houtcome) outcome
  · cases hs'

theorem Ok.take (h : Ok run s) (hs' : s.take = some s') : Ok run s' := by
  rw [IcomCommander.take] at hs'
  split at hs'
  · rename_i worker item rest hworker hqueue
    split at hs'
    · dsimp only at hs'
      have htaken : Ok run { s with queue := some rest } := h.congr rfl rfl rfl rfl h.keys
      split at hs'
      · cases hs'
        exact htaken.leaveItem item
      · cases hs'
        refine (htaken.noteForeignDispatch _ _).setPhase (h.worker worker hworker) ?_
        intro item' execution hphase
        cases hphase
    · cases hs'
  · cases hs'

theorem Ok.executeEnds (h : Ok run s) {future : Nat} {execution : Execution ρ ε}
    (hevent : .executeEnds future execution ∈ run)
    (hs' : s.executeEnds future execution = some s') : Ok run s' := by
  rw [IcomCommander.executeEnds] at hs'
  split at hs'
  · rename_i worker hworker
    split at hs'
    · rename_i item hphase
      split at hs'
      · rename_i hfuture
        cases hs'
        refine h.setPhase (h.worker worker hworker) fun item' execution' hphase' => ?_
        cases hphase'
        rw [hfuture]
        cases execution with
        | returned response => trivial
        | raised error => exact hevent
        | cancelled => exact .inr hevent
      · cases hs'
    · cases hs'
  · cases hs'

theorem Ok.workerWakes (h : Ok run s) (hs' : s.workerWakes = some s') : Ok run s' := by
  rw [IcomCommander.workerWakes] at hs'
  split at hs'
  · cases hs'
  rename_i worker hworker
  have hok := h.worker worker hworker
  split at hs'
  · split at hs'
    · cases hs'
      exact h.setPhase hok fun item execution hphase => by cases hphase
    · cases hs'
  · rename_i item execution hphase
    have hended := hok.executing item execution hphase
    dsimp only at hs'
    have hnext : ∀ (item' : QueueItem χ) execution',
        (if worker.cancelling then Phase.done else .getting) =
        Phase.executing item' (some execution') → EndedFor run item'.future execution' := by
      intro item' execution' heq
      split at heq
      · cases heq
      · cases heq
    have hleave : ∀ m : IcomCommander χ ρ ε, Ok run m →
        Ok run ((m.leaveItem item).setPhase worker
          (if worker.cancelling then .done else .getting)) :=
      fun m hm => (hm.leaveItem item).setPhase hok hnext
    cases execution with
    | returned response =>
        cases hs'
        refine hleave _ ?_
        split
        · rename_i hcancelling
          exact h.failItem (.inl (hok.cancelling hcancelling))
        · refine h.settle (fun failure heq => ?_) (fun heq => ?_) (fun heq => ?_)
          · cases heq
          · cases heq
          · cases heq
    | raised error =>
        cases hs'
        exact hleave _ (h.failItem hended)
    | cancelled =>
        dsimp only at hs'
        split at hs'
        · cases hs'
          exact (h.leaveItem item).setPhase hok fun item' execution' heq => by cases heq
        · cases hs'
          have hfailed : FailedFor run item.future (.stopped : Failure ε) := hended
          exact ((h.failItem hfailed).leaveItem item).setPhase hok
            fun item' execution' heq => by cases heq
  · cases hs'

/-- A step, where no call is asked to end while another shares its future. -/
theorem Ok.step {event : Event χ ρ ε} (h : Ok run s) (hunshared : Unshared s event)
    (hs' : s.step event = some s') : Ok (run ++ [event]) s' := by
  have hevent : event ∈ run ++ [event] := List.mem_append_right _ List.mem_cons_self
  have hrun : Ok (run ++ [event]) s := h.mono fun _ => List.mem_append_left _
  cases event with
  | start =>
      cases hs'
      exact hrun.start
  | stop =>
      cases hs'
      exact hrun.stop hevent
  | stopLeaves stopper => exact hrun.stopLeaves hs'
  | send call task args =>
      rw [IcomCommander.step] at hs'
      split at hs'
      · cases hs'
      · rename_i hnew
        cases hs'
        exact hrun.send (Option.not_isSome_iff_eq_none.mp hnew) task args
  | timesOut call => exact hrun.ask hevent hunshared hs'
  | cancel call => exact hrun.ask hevent hunshared hs'
  | wake call => exact hrun.wake hs'
  | take => exact hrun.take hs'
  | executeEnds future execution => exact hrun.executeEnds hevent hs'
  | workerWakes => exact hrun.workerWakes hs'
  | enterScope task =>
      cases hs'
      exact hrun.congr rfl rfl rfl rfl hrun.keys
  | exitScope scope =>
      cases hs'
      exact hrun.congr rfl rfl rfl rfl hrun.keys
  | foreignDispatch enqueuedBy priority =>
      cases hs'
      exact hrun.noteForeignDispatch enqueuedBy priority

theorem Ok.exec {events : List (Event χ ρ ε)} (h : Ok run s)
    (hs' : Runs.exec IcomCommander.step s events = some s')
    (hunshared : Runs.Along IcomCommander.step Unshared s events) : Ok (run ++ events) s' := by
  induction events generalizing run s with
  | nil =>
      cases hs'
      rw [List.append_nil]
      exact h
  | cons event rest ih =>
      obtain ⟨m, hm, hrest⟩ := Runs.exec_cons_eq_some.mp hs'
      obtain ⟨hevent, hunshared⟩ := hunshared.cons hm
      rw [← List.singleton_append, ← List.append_assoc]
      exact ih (h.step hevent hm) hrest hunshared

/-- Where no call is asked to end while another shares its future, every call that ends without a
response does so for its own timeout or cancellation, an error of the executor, or a stop. -/
theorem ends_for_cause {events : List (Event χ ρ ε)}
    (hs : Runs.exec IcomCommander.step {} events = some s)
    (hunshared : Runs.Along IcomCommander.step Unshared {} events) : Explained events s :=
  (Ok.initial.exec hs hunshared).explained

/-- Two merged calls get a response, and a third call is queued when the commander stops. -/
def mergedAnswered : List (Event Unit Nat Unit) :=
  [.start,
    .send 0 0 { payload := [], key := some "freq", dedupe := true },
    .send 1 1 { payload := [], key := some "freq", dedupe := true, timeout := true },
    .send 2 2 { payload := [], key := some "mode", dedupe := true },
    .take, .executeEnds 1 (.returned 7), .workerWakes, .wake 0, .wake 1, .stop, .wake 2]

theorem ends_for_cause_mergedAnswered :
    ∃ s, Runs.exec IcomCommander.step {} mergedAnswered = some s ∧ Explained mergedAnswered s := by
  refine ⟨_, rfl, ends_for_cause rfl (.of_forall fun event hevent s => ?_)⟩
  simp only [mergedAnswered, List.mem_cons, List.not_mem_nil, or_false] at hevent
  rcases hevent with rfl | rfl | rfl | rfl | rfl | rfl | rfl | rfl | rfl | rfl | rfl <;> trivial

/-- The second of two merged calls times out while the executor has the frame of the first. -/
def mergedTimesOut : List (Event Unit Nat Unit) :=
  [.start,
    .send 0 0 { payload := [], key := some "freq", dedupe := true },
    .send 1 1 { payload := [], key := some "freq", dedupe := true, timeout := true },
    .take, .timesOut 1, .wake 1, .wake 0]

/-- The first call ends with a cancellation that nobody asked it for. -/
theorem mergedTimesOut_not_explained :
    ∃ s, Runs.exec IcomCommander.step {} mergedTimesOut = some s ∧
      ¬ Explained mergedTimesOut s := by
  refine ⟨_, rfl, fun h => ?_⟩
  exact h.calls 0 _ _ _ rfl rfl rfl

end Rigplane.Commands
