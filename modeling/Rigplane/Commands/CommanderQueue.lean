import Rigplane.Commands.CommanderRequests

/-!
# The queue of the commander

The items that a commander has to do are those that are queued, and the one its worker executes
(`held`).  Where no restart drops items that are left (`KeepsQueue`), the counter of the capped
items counts them, the table of the keys only names their futures and futures that are done, and
every other item is done (`Counted`).  A worker that is asked to end gets no items any more
(`Queued`).
-/

namespace Rigplane.Commands

variable {χ ρ ε : Type}

/-! ## The items -/

/-- The item is picked before the other. -/
def QueueItem.Before (item other : QueueItem χ) : Prop :=
  item.priority < other.priority ∨ item.priority = other.priority ∧ item.seq < other.seq

/-- A send in the background that nobody waits for. -/
def QueueItem.capped (item : QueueItem χ) : Bool :=
  item.fireAndForget && decide (item.priority = Priority.background.value)

theorem mem_put {item other : QueueItem χ} {items : List (QueueItem χ)} :
    other ∈ put item items ↔ other = item ∨ other ∈ items := by
  induction items with
  | nil => simp [put]
  | cons first rest ih =>
      rw [put]
      split
      · exact List.mem_cons
      · rw [List.mem_cons, ih, List.mem_cons]
        exact or_left_comm

theorem perm_put (item : QueueItem χ) (items : List (QueueItem χ)) :
    (put item items).Perm (item :: items) := by
  induction items with
  | nil => exact .refl _
  | cons first rest ih =>
      rw [put]
      split
      · exact .refl _
      · exact (ih.cons first).trans (.swap item first rest)

/-- A new item goes behind those of its priority. -/
theorem pairwise_put {item : QueueItem χ} {items : List (QueueItem χ)}
    (hnew : ∀ other ∈ items, other.seq < item.seq) (h : items.Pairwise QueueItem.Before) :
    (put item items).Pairwise QueueItem.Before := by
  induction items with
  | nil => exact List.pairwise_singleton _ _
  | cons first rest ih =>
      obtain ⟨hfirst, hrest⟩ := List.pairwise_cons.mp h
      obtain ⟨hseq, hseqs⟩ := List.forall_mem_cons.mp hnew
      rw [put]
      split
      · rename_i hbefore
        refine List.pairwise_cons.mpr ⟨?_, h⟩
        intro other hother
        rcases List.mem_cons.mp hother with rfl | hother
        · exact hbefore
        · rcases hfirst other hother with hless | ⟨hequal, hless⟩
          · exact .inl (by omega)
          · exact .inl (by omega)
      · rename_i hbehind
        refine List.pairwise_cons.mpr ⟨?_, ih hseqs hrest⟩
        intro other hother
        rcases mem_put.mp hother with rfl | hother
        · have hless : first.priority < other.priority ∨
              first.priority = other.priority ∧ first.seq < other.seq := by omega
          exact hless
        · exact hfirst other hother

namespace IcomCommander

variable {s s' : IcomCommander χ ρ ε}

/-- The item that the worker has taken. -/
def executing (s : IcomCommander χ ρ ε) : Option (QueueItem χ) :=
  match s.worker with
  | some worker =>
      match worker.phase with
      | .executing item _ => some item
      | _ => none
  | none => none

/-- The item that the executor has. -/
def running (s : IcomCommander χ ρ ε) : Option (QueueItem χ) :=
  match s.worker with
  | some worker =>
      match worker.phase with
      | .executing item none => some item
      | _ => none
  | none => none

/-- The items that are queued or executed. -/
def held (s : IcomCommander χ ρ ε) : List (QueueItem χ) := s.queue.getD [] ++ s.executing.toList

/-! ## What the operations leave alone -/

/-- The queue, the worker and the stops are the same. -/
structure SameQueue (s s' : IcomCommander χ ρ ε) : Prop where
  queue : s'.queue = s.queue
  worker : s'.worker = s.worker
  seq : s'.seq = s.seq
  workers : s'.workers = s.workers
  stopping : s'.stopping = s.stopping

theorem SameQueue.refl (s : IcomCommander χ ρ ε) : SameQueue s s := ⟨rfl, rfl, rfl, rfl, rfl⟩

theorem SameQueue.trans {s'' : IcomCommander χ ρ ε} (h : SameQueue s s') (h' : SameQueue s' s'') :
    SameQueue s s'' :=
  ⟨h'.queue.trans h.queue, h'.worker.trans h.worker, h'.seq.trans h.seq, h'.workers.trans h.workers,
    h'.stopping.trans h.stopping⟩

theorem SameQueue.executing (h : SameQueue s s') : s'.executing = s.executing := by
  rw [IcomCommander.executing, h.worker]
  rfl

theorem SameQueue.held (h : SameQueue s s') : s'.held = s.held := by
  rw [IcomCommander.held, h.queue, h.executing]
  rfl

theorem settle_sameQueue (s : IcomCommander χ ρ ε) (future : Nat) (value : Future ρ ε) :
    SameQueue s (s.settle future value) := by
  rw [settle]
  split
  · exact .refl s
  · exact ⟨rfl, rfl, rfl, rfl, rfl⟩

theorem forgetKey_sameQueue (s : IcomCommander χ ρ ε) (key : Option String) (future : Nat) :
    SameQueue s (s.forgetKey key future) := by
  cases key with
  | none => exact .refl s
  | some key =>
      rw [forgetKey]
      split
      · exact ⟨rfl, rfl, rfl, rfl, rfl⟩
      · exact .refl s

theorem leaveItem_sameQueue (s : IcomCommander χ ρ ε) (item : QueueItem χ) :
    SameQueue s (s.leaveItem item) := by
  refine SameQueue.trans ?_ (forgetKey_sameQueue _ item.key item.future)
  exact ⟨rfl, rfl, rfl, rfl, rfl⟩

theorem noteForeignDispatch_sameQueue (s : IcomCommander χ ρ ε) (enqueuedBy : Option Nat)
    (priority : Int) : SameQueue s (s.noteForeignDispatch enqueuedBy priority) := by
  rw [noteForeignDispatch]
  split
  · exact .refl s
  · exact ⟨rfl, rfl, rfl, rfl, rfl⟩

theorem addCall_sameQueue (s : IcomCommander χ ρ ε) (call : Nat) (state : Call ρ ε) :
    SameQueue s (s.addCall call state) := ⟨rfl, rfl, rfl, rfl, rfl⟩

theorem callerGone_sameQueue (s : IcomCommander χ ρ ε) (request : Request) (outcome : Outcome ρ ε) :
    SameQueue s (s.callerGone request outcome) := by
  cases outcome with
  | cancelled | lost =>
      rw [callerGone]
      split
      · exact .refl s
      · exact (settle_sameQueue s _ _).trans (forgetKey_sameQueue _ _ _)
  | notStarted | dropped | enqueued | returned | timedOut | raised => exact .refl s

theorem drainItem_sameQueue (s : IcomCommander χ ρ ε) (item : QueueItem χ) :
    SameQueue s (s.drainItem item) :=
  (leaveItem_sameQueue s item).trans (settle_sameQueue _ _ _)

theorem drain_sameQueue (items : List (QueueItem χ)) (s : IcomCommander χ ρ ε) :
    SameQueue s (items.foldl drainItem s) := by
  induction items generalizing s with
  | nil => exact .refl s
  | cons item rest ih => exact (drainItem_sameQueue s item).trans (ih _)

/-! ## What is counted -/

/-- The counter, the keys and the calls of a commander that has the given items to do. -/
structure Counted (held : List (QueueItem χ)) (s : IcomCommander χ ρ ε) : Prop where
  known : ∀ item ∈ held, item.future = item.seq ∧ item.seq ≤ s.seq ∧
    item.countsBgInflight = item.capped
  count : s.bgInflight = held.countP QueueItem.countsBgInflight
  bound : s.bgInflight ≤ maxBgInflight
  keys : ∀ key future, s.pendingByKey.get? key = some future → future ≤ s.seq ∧
    ((s.futures future).done = true ∨ ∃ item ∈ held, item.future = future)
  calls : ∀ call state request, s.calls call = some state → state.request = some request →
    request.future ≤ s.seq ∧
      ((s.futures request.future).done = true ∨ ∃ item ∈ held, item.future = request.future)

variable {held held' : List (QueueItem χ)}

theorem Counted.congr (h : Counted held s) (hseq : s'.seq = s.seq)
    (hbg : s'.bgInflight = s.bgInflight) (hfutures : s'.futures = s.futures)
    (hkeys : s'.pendingByKey = s.pendingByKey) (hcalls : s'.calls = s.calls) : Counted held s' := by
  refine ⟨?_, ?_, ?_, ?_, ?_⟩
  · rw [hseq]
    exact h.known
  · rw [hbg]
    exact h.count
  · rw [hbg]
    exact h.bound
  · rw [hseq, hfutures, hkeys]
    exact h.keys
  · rw [hseq, hfutures, hcalls]
    exact h.calls

theorem Counted.perm (h : Counted held s) (hperm : held.Perm held') : Counted held' s where
  known := fun item hitem => h.known item (hperm.mem_iff.mpr hitem)
  count := h.count.trans (hperm.countP_eq _)
  bound := h.bound
  keys := by
    intro key future hkey
    obtain ⟨hle, hor⟩ := h.keys key future hkey
    exact ⟨hle, hor.imp_right fun ⟨item, hitem, heq⟩ => ⟨item, hperm.mem_iff.mp hitem, heq⟩⟩
  calls := by
    intro call state request hcall hrequest
    obtain ⟨hle, hor⟩ := h.calls call state request hcall hrequest
    exact ⟨hle, hor.imp_right fun ⟨item, hitem, heq⟩ => ⟨item, hperm.mem_iff.mp hitem, heq⟩⟩

theorem done_settle (s : IcomCommander χ ρ ε) (future : Nat) (value : Future ρ ε) {other : Nat}
    (h : (s.futures other).done = true) : ((s.settle future value).futures other).done = true := by
  rw [settle_done s future value h]
  exact h

theorem Counted.settle (h : Counted held s) (future : Nat) (value : Future ρ ε) :
    Counted held (s.settle future value) := by
  obtain ⟨hcalls, hseq, hkeys, -⟩ := settle_same s future value
  have hbg : (s.settle future value).bgInflight = s.bgInflight := by
    rw [IcomCommander.settle]
    split
    · rfl
    · rfl
  refine ⟨?_, ?_, ?_, ?_, ?_⟩
  · rw [hseq]
    exact h.known
  · rw [hbg]
    exact h.count
  · rw [hbg]
    exact h.bound
  · rw [hseq, hkeys]
    intro key other hkey
    obtain ⟨hle, hor⟩ := h.keys key other hkey
    exact ⟨hle, hor.imp_left (done_settle s future value)⟩
  · rw [hseq, hcalls]
    intro call state request hcall hrequest
    obtain ⟨hle, hor⟩ := h.calls call state request hcall hrequest
    exact ⟨hle, hor.imp_left (done_settle s future value)⟩

theorem Counted.forgetKey (h : Counted held s) (key : Option String) (future : Nat) :
    Counted held (s.forgetKey key future) := by
  cases key with
  | none => exact h
  | some key =>
      rw [IcomCommander.forgetKey]
      split
      · refine { h with keys := fun other future' hother => ?_ }
        dsimp only at hother
        rw [Dict.get?_erase] at hother
        split at hother
        · cases hother
        · exact h.keys other future' hother
      · exact h

/-- An item whose future is done is no longer to do. -/
theorem Counted.leave {item : QueueItem χ} (h : Counted (item :: held) s)
    (hdone : (s.futures item.future).done = true) : Counted held (s.leaveItem item) := by
  have hsettled : ∀ future, ((s.futures future).done = true ∨
      ∃ other ∈ item :: held, other.future = future) →
      (s.futures future).done = true ∨ ∃ other ∈ held, other.future = future := by
    rintro future (hdone' | ⟨other, hother, rfl⟩)
    · exact .inl hdone'
    · rcases List.mem_cons.mp hother with rfl | hother
      · exact .inl hdone
      · exact .inr ⟨other, hother, rfl⟩
  have hcount := h.count
  have hbound := h.bound
  rw [List.countP_cons] at hcount
  refine Counted.forgetKey ?_ item.key item.future
  refine ⟨fun other hother => h.known other (List.mem_cons_of_mem _ hother), ?_, ?_, ?_, ?_⟩
  · dsimp only
    split
    · rename_i hcounts
      rw [if_pos hcounts] at hcount
      omega
    · rename_i hcounts
      rw [if_neg hcounts] at hcount
      exact hcount
  · dsimp only
    split
    · omega
    · exact hbound
  · intro key future hkey
    obtain ⟨hle, hor⟩ := h.keys key future hkey
    exact ⟨hle, hsettled future hor⟩
  · intro call state request hcall hrequest
    obtain ⟨hle, hor⟩ := h.calls call state request hcall hrequest
    exact ⟨hle, hsettled request.future hor⟩

theorem Counted.addCall (h : Counted held s) {call : Nat} {state : Call ρ ε}
    (hstate : ∀ request, state.request = some request →
      request.future ≤ s.seq ∧
        ((s.futures request.future).done = true ∨ ∃ item ∈ held, item.future = request.future)) :
    Counted held (s.addCall call state) := by
  refine { h with calls := ?_ }
  intro other state' request hother
  by_cases heq : other = call
  · subst heq
    rw [addCall_self] at hother
    cases hother
    exact hstate request
  · rw [addCall_ne s heq] at hother
    exact h.calls other state' request hother

theorem forgetKey_futures (s : IcomCommander χ ρ ε) (key : Option String) (future : Nat) :
    (s.forgetKey key future).futures = s.futures := by
  cases key with
  | none => rfl
  | some key =>
      rw [forgetKey]
      split
      · rfl
      · rfl

theorem leaveItem_futures (s : IcomCommander χ ρ ε) (item : QueueItem χ) :
    (s.leaveItem item).futures = s.futures := forgetKey_futures _ item.key item.future

theorem forgetKey_withFutures (s : IcomCommander χ ρ ε) (key : Option String) (future : Nat)
    (futures : Nat → Future ρ ε) :
    ({ s with futures } : IcomCommander χ ρ ε).forgetKey key future =
      { s.forgetKey key future with futures } := by
  cases key with
  | none => rfl
  | some key =>
      rw [forgetKey, forgetKey]
      dsimp only
      split
      · rfl
      · rfl

/-- The counter and the keys do not depend on the futures. -/
theorem leaveItem_withFutures (s : IcomCommander χ ρ ε) (item : QueueItem χ)
    (futures : Nat → Future ρ ε) :
    ({ s with futures } : IcomCommander χ ρ ε).leaveItem item = { s.leaveItem item with futures } :=
  forgetKey_withFutures { s with
    bgInflight := if item.countsBgInflight then s.bgInflight - 1 else s.bgInflight } item.key
    item.future futures

theorem drainItem_eq (s : IcomCommander χ ρ ε) (item : QueueItem χ) :
    s.drainItem item = (s.failItem item .stopped).leaveItem item := by
  rw [drainItem, failItem, failItem, settle, settle, leaveItem_futures]
  split
  · rfl
  · exact (leaveItem_withFutures s item _).symm

/-- A queued item of `stop` is failed. -/
theorem Counted.drainItem {item : QueueItem χ} (h : Counted (item :: held) s) :
    Counted held (s.drainItem item) := by
  rw [drainItem_eq]
  exact (h.settle item.future _).leave (settle_self_done s item.future rfl)

theorem Counted.drain {items : List (QueueItem χ)} (h : Counted (items ++ held) s) :
    Counted held (items.foldl IcomCommander.drainItem s) := by
  induction items generalizing s with
  | nil => exact h
  | cons item rest ih => exact ih h.drainItem

/-! ## The queue -/

/-- The order of the queue, and what closes it. -/
structure Queued (s : IcomCommander χ ρ ε) : Prop where
  sorted : (s.queue.getD []).Pairwise QueueItem.Before
  opened : s.queue.isSome = s.worker.isSome
  ids : ∀ worker, s.worker = some worker → worker.id < s.workers
  stops : ∀ id, some id ∈ s.stopping → id < s.workers
  /-- A worker that is asked to end, or that a stop waits for, gets no items. -/
  closed : ∀ worker, s.worker = some worker →
    worker.cancelling = true ∨ some worker.id ∈ s.stopping →
      s.queue = some [] ∧ (worker.cancelling = true ∨ worker.done = true)

theorem Queued.congr (h : Queued s) (hsame : SameQueue s s') : Queued s' := by
  obtain ⟨hqueue, hworker, -, hworkers, hstopping⟩ := hsame
  refine ⟨?_, ?_, ?_, ?_, ?_⟩
  · rw [hqueue]
    exact h.sorted
  · rw [hqueue, hworker]
    exact h.opened
  · rw [hworker, hworkers]
    exact h.ids
  · rw [hworkers, hstopping]
    exact h.stops
  · rw [hworker, hqueue, hstopping]
    exact h.closed

/-- What holds of a commander at any time. -/
structure Accounted (s : IcomCommander χ ρ ε) : Prop where
  counted : Counted s.held s
  queued : Queued s

theorem Accounted.initial : Accounted ({} : IcomCommander χ ρ ε) where
  counted := ⟨fun item hitem => (by cases hitem), rfl, Nat.zero_le _,
    fun key future hkey => (by cases hkey),
    fun call state request hcall => (by cases hcall)⟩
  queued := ⟨List.Pairwise.nil, rfl, fun worker hworker => (by cases hworker),
    fun id hid => (by cases hid), fun worker hworker => (by cases hworker)⟩

/-- What does not touch the queue and the worker keeps their part. -/
theorem Accounted.congr (h : Accounted s) (hsame : SameQueue s s')
    (hcounted : Counted s.held s → Counted s.held s') : Accounted s' where
  counted := by
    rw [hsame.held]
    exact hcounted h.counted
  queued := h.queued.congr hsame

/-- A worker that is done executes nothing. -/
theorem executing_of_done {worker : Worker χ ρ ε} (hworker : s.worker = some worker)
    (hdone : worker.done = true) : s.executing = none := by
  rw [executing, hworker]
  dsimp only
  rw [Worker.done] at hdone
  split at hdone
  · rename_i hphase
    rw [hphase]
  · cases hdone

theorem held_of_none (h : Queued s) (hworker : s.worker = none) : s.held = [] := by
  have hqueue := h.opened
  rw [hworker, Option.isSome_none, Option.isSome_eq_false_iff, Option.isNone_iff_eq_none] at hqueue
  rw [held, hqueue, executing, hworker]
  rfl

/-! ## The methods -/

/-- A restart drops no item that is left to do. -/
def KeepsQueue (s : IcomCommander χ ρ ε) : Event χ ρ ε → Prop
  | .start => (∀ worker ∈ s.worker, worker.done = true) → ∀ item ∈ s.queue.getD [],
      (s.futures item.future).done = true ∧ item.countsBgInflight = false
  | _ => True

instance KeepsQueue.decide (s : IcomCommander χ ρ ε) :
    ∀ event : Event χ ρ ε, Decidable (KeepsQueue s event)
  | .start => inferInstanceAs (Decidable ((∀ worker ∈ s.worker, worker.done = true) →
      ∀ item ∈ s.queue.getD [],
        (s.futures item.future).done = true ∧ item.countsBgInflight = false))
  | .stop | .stopLeaves _ | .send _ _ _ | .timesOut _ | .cancel _ | .wake _ | .take
  | .executeEnds _ _ | .workerWakes | .enterScope _ | .exitScope _ | .foreignDispatch _ _ =>
      inferInstanceAs (Decidable True)

/-- The items of a queue that is dropped are done. -/
theorem Counted.dropped (h : Counted held s) (hheld : ∀ item ∈ held,
    (s.futures item.future).done = true ∧ item.countsBgInflight = false) : Counted [] s where
  known := fun item hitem => (by cases hitem)
  count := by
    rw [h.count, List.countP_eq_zero.mpr]
    · rfl
    · intro item hitem
      rw [(hheld item hitem).2]
      exact Bool.false_ne_true
  bound := h.bound
  keys := by
    intro key future hkey
    obtain ⟨hle, hdone | ⟨item, hitem, rfl⟩⟩ := h.keys key future hkey
    · exact ⟨hle, .inl hdone⟩
    · exact ⟨hle, .inl (hheld item hitem).1⟩
  calls := by
    intro call state request hcall hrequest
    obtain ⟨hle, hdone | ⟨item, hitem, heq⟩⟩ := h.calls call state request hcall hrequest
    · exact ⟨hle, .inl hdone⟩
    · exact ⟨hle, .inl (heq ▸ (hheld item hitem).1)⟩

theorem Accounted.started (h : Accounted s) (hcounted : Counted [] s) :
    Accounted
      ({ s with queue := some [], worker := some { id := s.workers }, workers := s.workers + 1 } :
      IcomCommander χ ρ ε) where
  counted := hcounted.congr rfl rfl rfl rfl rfl
  queued := by
    refine ⟨List.Pairwise.nil, rfl, ?_, ?_, ?_⟩
    · intro worker hworker
      cases hworker
      exact Nat.lt_succ_self _
    · intro id hid
      exact Nat.lt_succ_of_lt (h.queued.stops id hid)
    · intro worker hworker hclosed
      cases hworker
      rcases hclosed with hcancelling | hstopping
      · cases hcancelling
      · exact absurd (h.queued.stops _ hstopping) (Nat.lt_irrefl _)

theorem Accounted.start (h : Accounted s) (hkeeps : KeepsQueue s .start) : Accounted s.start := by
  rw [IcomCommander.start]
  cases hworker : s.worker with
  | none =>
      have hcounted := h.counted
      rw [held_of_none h.queued hworker] at hcounted
      exact h.started hcounted
  | some worker =>
      dsimp only
      split
      · rename_i hdone
        refine h.started (h.counted.dropped fun item hitem => ?_)
        rw [held, executing_of_done hworker hdone, Option.toList_none, List.append_nil] at hitem
        refine hkeeps (fun other hother => ?_) item hitem
        rw [hworker] at hother
        cases hother
        exact hdone
      · exact h

/-- The worker that `stop` has asked to end, unless it already ends. -/
def askedToEnd (worker : Worker χ ρ ε) : Worker χ ρ ε :=
  if worker.done = false ∧ worker.cancelling = false then cancelWorker worker else worker

theorem askedToEnd_spec (worker : Worker χ ρ ε) : (askedToEnd worker).id = worker.id ∧
    (askedToEnd worker).done = worker.done ∧
    ((askedToEnd worker).cancelling = true ∨ (askedToEnd worker).done = true) := by
  rw [askedToEnd]
  split
  · rename_i hlive
    refine ⟨rfl, ?_, .inl rfl⟩
    rw [Worker.done, Worker.done, cancelWorker]
    rcases worker.phase with _ | ⟨item, _ | ended⟩ | _ <;> rfl
  · rename_i hlive
    refine ⟨rfl, rfl, ?_⟩
    cases hcancelling : worker.cancelling with
    | true => exact .inl rfl
    | false =>
        rw [not_and_or, Bool.not_eq_false] at hlive
        exact hlive.resolve_right (fun h => h hcancelling) |> .inr

theorem executing_askedToEnd {worker : Worker χ ρ ε} (hworker : s.worker = some worker)
    (hworker' : s'.worker = some (askedToEnd worker)) : s'.executing = s.executing := by
  rw [executing, executing, hworker, hworker', askedToEnd]
  dsimp only
  by_cases hlive : worker.done = false ∧ worker.cancelling = false
  · rw [if_pos hlive]
    obtain ⟨id, phase, cancelling⟩ := worker
    rcases phase with _ | ⟨item, _ | ended⟩ | _ <;> rfl
  · rw [if_neg hlive]

/-- What `stop` drains. -/
def drained (s : IcomCommander χ ρ ε) : IcomCommander χ ρ ε :=
  match s.queue with
  | none => { s with worker := s.worker.map askedToEnd }
  | some items =>
      items.foldl drainItem { s with queue := some [], worker := s.worker.map askedToEnd }

theorem stop_eq (s : IcomCommander χ ρ ε) : s.stop =
    { s.drained with stopping := s.drained.stopping ++ [s.worker.map Worker.id] } := by
  cases hworker : s.worker with
  | none =>
      cases hqueue : s.queue <;>
        simp only [IcomCommander.stop, drained, hworker, hqueue, Option.map_none]
  | some worker =>
      by_cases hlive : worker.done = false ∧ worker.cancelling = false
      · cases hqueue : s.queue <;>
          simp only [IcomCommander.stop, drained, hworker, hqueue, askedToEnd, if_pos hlive,
            Option.map_some]
      · cases hqueue : s.queue <;>
          simp only [IcomCommander.stop, drained, hworker, hqueue, askedToEnd, if_neg hlive,
            Option.map_some]

/-- A `stop` that finds a worker. -/
theorem stop_of_worker {worker : Worker χ ρ ε} {items : List (QueueItem χ)}
    (hworker : s.worker = some worker) (hqueue : s.queue = some items) :
    ∃ m, m = items.foldl drainItem { s with queue := some [], worker := some (askedToEnd worker) } ∧
      s.stop = { m with stopping := m.stopping ++ [some worker.id] } := by
  refine ⟨_, rfl, ?_⟩
  rw [stop_eq, drained, hqueue, hworker]
  rfl

theorem stop_of_none (hworker : s.worker = none) (hqueue : s.queue = none) :
    s.stop = { s with stopping := s.stopping ++ [none] } := by
  simp only [stop_eq, drained, hqueue, hworker, Option.map_none]

theorem Accounted.stop (h : Accounted s) : Accounted s.stop := by
  have hopened := h.queued.opened
  cases hworker : s.worker with
  | none =>
      rw [hworker, Option.isSome_none, Option.isSome_eq_false_iff,
        Option.isNone_iff_eq_none] at hopened
      rw [stop_of_none hworker hopened]
      refine ⟨h.counted.congr rfl rfl rfl rfl rfl, h.queued.sorted, h.queued.opened,
        h.queued.ids, ?_, ?_⟩
      · intro id hid
        rcases List.mem_append.mp hid with hid | hid
        · exact h.queued.stops id hid
        · cases List.mem_singleton.mp hid
      · intro worker hworker'
        rw [hworker] at hworker'
        cases hworker'
  | some worker =>
      rw [hworker, Option.isSome_some, Option.isSome_iff_exists] at hopened
      obtain ⟨items, hqueue⟩ := hopened
      obtain ⟨m, hm, hstop⟩ := stop_of_worker hworker hqueue
      obtain ⟨hid, hdone, hends⟩ := askedToEnd_spec worker
      have hsame := drain_sameQueue items
        ({ s with queue := some [], worker := some (askedToEnd worker) } : IcomCommander χ ρ ε)
      rw [← hm] at hsame
      have hexecuting : m.executing = s.executing := executing_askedToEnd hworker hsame.worker
      rw [hstop]
      constructor
      · have hheld := h.counted
        rw [held, hqueue] at hheld
        have hbefore : Counted (items ++ s.executing.toList)
            ({ s with queue := some [], worker := some (askedToEnd worker) } :
              IcomCommander χ ρ ε) :=
          hheld.congr rfl rfl rfl rfl rfl
        have hdrained := hbefore.drain
        rw [← hm] at hdrained
        have hnow : ({ m with stopping := m.stopping ++ [some worker.id] } :
            IcomCommander χ ρ ε).held = s.executing.toList := by
          show m.queue.getD [] ++ m.executing.toList = _
          rw [hsame.queue, hexecuting]
          rfl
        rw [hnow]
        exact hdrained.congr rfl rfl rfl rfl rfl
      · refine ⟨?_, ?_, ?_, ?_, ?_⟩
        · show (m.queue.getD []).Pairwise QueueItem.Before
          rw [hsame.queue]
          exact List.Pairwise.nil
        · show m.queue.isSome = m.worker.isSome
          rw [hsame.queue, hsame.worker]
          rfl
        · intro worker' hworker'
          have hasked : askedToEnd worker = worker' := Option.some.inj
            (hsame.worker.symm.trans hworker')
          show worker'.id < m.workers
          rw [hsame.workers, ← hasked, hid]
          exact h.queued.ids worker hworker
        · intro id hmem
          show id < m.workers
          rw [hsame.workers]
          rcases List.mem_append.mp hmem with hmem | hmem
          · rw [hsame.stopping] at hmem
            exact h.queued.stops id hmem
          · cases List.mem_singleton.mp hmem
            exact h.queued.ids worker hworker
        · intro worker' hworker' _
          have hasked : askedToEnd worker = worker' := Option.some.inj
            (hsame.worker.symm.trans hworker')
          exact ⟨hsame.queue, hasked ▸ hends⟩

/-- A worker that a stop waits for, and that is done, leaves nothing to do. -/
theorem held_of_stopped (h : Queued s) {worker : Worker χ ρ ε} (hworker : s.worker = some worker)
    (hdone : worker.done = true) (hstopping : some worker.id ∈ s.stopping) : s.held = [] := by
  rw [held, (h.closed worker hworker (.inr hstopping)).1, executing_of_done hworker hdone]
  rfl

theorem Accounted.stopLeaves (h : Accounted s) {stopper : Nat}
    (hs' : s.stopLeaves stopper = some s') : Accounted s' := by
  rw [IcomCommander.stopLeaves] at hs'
  split at hs'
  · cases hs'
  · rename_i found hfound
    have hmem : found ∈ s.stopping := List.mem_of_getElem? hfound
    have hsub : ∀ id, id ∈ s.stopping.eraseIdx stopper → id ∈ s.stopping :=
      fun id hid => List.mem_of_mem_eraseIdx hid
    dsimp only at hs'
    split at hs'
    · rename_i hended
      have hheld : s.held = [] := by
        cases hworker : s.worker with
        | none => exact held_of_none h.queued hworker
        | some worker =>
            rw [hworker] at hended
            refine held_of_stopped h.queued hworker hended.2 ?_
            rw [show some worker.id = found from hended.1]
            exact hmem
      have hcounted := h.counted
      rw [hheld] at hcounted
      cases hs'
      refine ⟨⟨hcounted.known, rfl, Nat.zero_le _, fun key future hkey => (by cases hkey),
        hcounted.calls⟩, List.Pairwise.nil, rfl, fun worker hworker => (by cases hworker), ?_,
        fun worker hworker => (by cases hworker)⟩
      exact fun id hid => h.queued.stops id (hsub _ hid)
    · cases hs'
      refine ⟨h.counted.congr rfl rfl rfl rfl rfl, h.queued.sorted, h.queued.opened, h.queued.ids,
        fun id hid => h.queued.stops id (hsub _ hid), ?_⟩
      intro worker hworker hclosed
      exact h.queued.closed worker hworker (hclosed.imp_right (hsub _))

theorem Counted.createFuture (h : Counted held s) : Counted held ({ s with
    seq := s.seq + 1, futures := Function.update s.futures (s.seq + 1) .pending } :
      IcomCommander χ ρ ε) := by
  have hold : ∀ future ≤ s.seq,
      Function.update s.futures (s.seq + 1) (.pending : Future ρ ε) future = s.futures future := by
    intro future hle
    refine Function.update_of_ne ?_ _ _
    omega
  refine ⟨?_, h.count, h.bound, ?_, ?_⟩
  · intro item hitem
    obtain ⟨hfuture, hle, hflag⟩ := h.known item hitem
    exact ⟨hfuture, Nat.le_succ_of_le hle, hflag⟩
  · intro key future hkey
    obtain ⟨hle, hor⟩ := h.keys key future hkey
    dsimp only
    rw [hold future hle]
    exact ⟨Nat.le_succ_of_le hle, hor⟩
  · intro call state request hcall hrequest
    obtain ⟨hle, hor⟩ := h.calls call state request hcall hrequest
    dsimp only
    rw [hold request.future hle]
    exact ⟨Nat.le_succ_of_le hle, hor⟩

/-- A new item is to do. -/
theorem Counted.enqueue (h : Counted held s) {item : QueueItem χ} (hfuture : item.future = item.seq)
    (hseq : item.seq ≤ s.seq) (hflag : item.countsBgInflight = item.capped)
    (hroom : item.countsBgInflight = true → s.bgInflight < maxBgInflight)
    (queue : Option (List (QueueItem χ))) :
    Counted (item :: held) ({ s with
      pendingByKey :=
        match item.key with
        | none => s.pendingByKey
        | some key => s.pendingByKey.set key item.future
      bgInflight := if item.countsBgInflight then s.bgInflight + 1 else s.bgInflight
      queue } : IcomCommander χ ρ ε) := by
  have hbound := h.bound
  refine ⟨?_, ?_, ?_, ?_, ?_⟩
  · intro other hother
    rcases List.mem_cons.mp hother with rfl | hother
    · exact ⟨hfuture, hseq, hflag⟩
    · exact h.known other hother
  · rw [List.countP_cons, ← h.count]
    dsimp only
    split
    · rfl
    · rfl
  · dsimp only
    split
    · rename_i hcounts
      exact hroom hcounts
    · exact hbound
  · intro key future hkey
    have hold : ∀ {pending : Dict String Nat}, pending = s.pendingByKey →
        pending.get? key = some future → future ≤ s.seq ∧
          ((s.futures future).done = true ∨ ∃ other ∈ item :: held, other.future = future) := by
      rintro _ rfl hkey
      obtain ⟨hle, hor⟩ := h.keys key future hkey
      refine ⟨hle, hor.imp_right ?_⟩
      rintro ⟨other, hother, heq⟩
      exact ⟨other, List.mem_cons_of_mem _ hother, heq⟩
    dsimp only at hkey
    split at hkey
    · exact hold rfl hkey
    · rw [Dict.get?_set] at hkey
      split at hkey
      · cases hkey
        exact ⟨hfuture ▸ hseq, .inr ⟨item, List.mem_cons_self, rfl⟩⟩
      · exact hold rfl hkey
  · intro call state request hcall hrequest
    obtain ⟨hle, hor⟩ := h.calls call state request hcall hrequest
    refine ⟨hle, hor.imp_right ?_⟩
    rintro ⟨other, hother, heq⟩
    exact ⟨other, List.mem_cons_of_mem _ hother, heq⟩

theorem Accounted.addCall (h : Accounted s) {call : Nat} {state : Call ρ ε}
    (hstate : ∀ request, state.request = some request →
      request.future ≤ s.seq ∧
        ((s.futures request.future).done = true ∨ ∃ item ∈ s.held, item.future = request.future)) :
    Accounted (s.addCall call state) :=
  h.congr (addCall_sameQueue s call state) fun hcounted => hcounted.addCall hstate

/-- A commander that takes sends has a queue, and nothing closes it. -/
theorem open_of_admits (h : s.admits = true) : ∃ worker items, s.worker = some worker ∧
    s.queue = some items ∧ worker.cancelling = false ∧ worker.done = false := by
  rw [admits, Bool.and_eq_true, Option.isSome_iff_exists] at h
  obtain ⟨⟨items, hqueue⟩, hworker⟩ := h
  cases hfound : s.worker with
  | none =>
      rw [hfound] at hworker
      cases hworker
  | some worker =>
      rw [hfound, Option.map_some, Option.getD_some, Bool.and_eq_true, Bool.not_eq_true',
        Bool.not_eq_true'] at hworker
      exact ⟨worker, items, rfl, hqueue, hworker.2, hworker.1⟩

/-- An item is put into the queue. -/
theorem Queued.enqueue (h : Queued s) {worker : Worker χ ρ ε} {items : List (QueueItem χ)}
    {item : QueueItem χ} (hworker : s.worker = some worker) (hqueue : s.queue = some items)
    (hcancelling : worker.cancelling = false) (hdone : worker.done = false)
    (hnew : ∀ other ∈ items, other.seq < item.seq) (hqueue' : s'.queue = some (put item items))
    (hworker' : s'.worker = s.worker) (hworkers : s'.workers = s.workers)
    (hstopping : s'.stopping = s.stopping) : Queued s' := by
  have hsorted := h.sorted
  rw [hqueue] at hsorted
  refine ⟨?_, ?_, ?_, ?_, ?_⟩
  · rw [hqueue']
    exact pairwise_put hnew hsorted
  · rw [hqueue', hworker', hworker]
    rfl
  · rw [hworker', hworkers]
    exact h.ids
  · rw [hstopping, hworkers]
    exact h.stops
  · rw [hworker', hstopping]
    intro other hother hclosed
    rw [hworker] at hother
    cases hother
    obtain ⟨-, hends⟩ := h.closed worker hworker hclosed
    rw [hcancelling, hdone] at hends
    rcases hends with hends | hends <;> cases hends

/-- The item of an admitted call. -/
def itemOf (s : IcomCommander χ ρ ε) (task : Nat) (args : SendArgs χ) : QueueItem χ where
  priority := args.priority.value
  seq := s.seq + 1
  payload := args.payload
  future := s.seq + 1
  key := args.key
  waitResponse := args.waitResponse
  countsBgInflight := !args.waitDispatch && args.priority = .background
  fireAndForget := !args.waitDispatch
  isCurrent := args.isCurrent
  enqueuedBy := task

theorem itemOf_capped (s : IcomCommander χ ρ ε) (task : Nat) (args : SendArgs χ) :
    (s.itemOf task args).countsBgInflight = (s.itemOf task args).capped := by
  show (!args.waitDispatch && decide (args.priority = .background)) =
    (!args.waitDispatch && decide (args.priority.value = Priority.background.value))
  cases args.priority <;> rfl

/-- The item of an admitted call is put into the queue. -/
theorem Accounted.enqueue (h : Accounted s) (hadmits : s.admits = true) (task : Nat)
    (args : SendArgs χ) (hroom : (s.itemOf task args).countsBgInflight = true →
      s.bgInflight < maxBgInflight) {created : IcomCommander χ ρ ε} (hcreated : created = { s with
        seq := s.seq + 1
        futures := Function.update s.futures (s.seq + 1) .pending
        pendingByKey :=
          match args.key with
          | none => s.pendingByKey
          | some key => s.pendingByKey.set key (s.seq + 1)
        bgInflight :=
          if (s.itemOf task args).countsBgInflight then s.bgInflight + 1 else s.bgInflight
        queue := s.queue.map (put (s.itemOf task args)) }) :
    Accounted created ∧ s.itemOf task args ∈ created.held := by
  obtain ⟨worker, items, hworker, hqueue, hcancelling, hdone⟩ := open_of_admits hadmits
  have hnew : ∀ other ∈ items, other.seq < (s.itemOf task args).seq := by
    intro other hother
    have hmem : other ∈ s.held := by
      rw [held, hqueue]
      exact List.mem_append_left _ hother
    exact Nat.lt_succ_of_le (h.counted.known other hmem).2.1
  have hput : created.queue = some (put (s.itemOf task args) items) := by
    rw [hcreated]
    show s.queue.map (put (s.itemOf task args)) = _
    rw [hqueue]
    rfl
  have hworker' : created.worker = s.worker := by rw [hcreated]
  have hexecuting : created.executing = s.executing := by
    rw [executing, executing, hworker']
  have hheld : created.held = put (s.itemOf task args) items ++ s.executing.toList := by
    rw [held, hput, hexecuting]
    rfl
  have hperm : (s.itemOf task args :: s.held).Perm created.held := by
    rw [hheld, held, hqueue]
    exact (perm_put (s.itemOf task args) items).symm.append_right _
  refine ⟨⟨?_, ?_⟩, hperm.mem_iff.mp List.mem_cons_self⟩
  · refine Counted.perm ?_ hperm
    rw [hcreated]
    exact h.counted.createFuture.enqueue rfl (Nat.le_refl _) (itemOf_capped s task args) hroom
      (s.queue.map (put (s.itemOf task args)))
  · refine h.queued.enqueue hworker hqueue hcancelling hdone hnew hput hworker' ?_ ?_
    · rw [hcreated]
    · rw [hcreated]

theorem Accounted.send (h : Accounted s) (call task : Nat) (args : SendArgs χ) :
    Accounted (s.send call task args) := by
  rw [IcomCommander.send]
  split
  · exact h.addCall fun request hrequest => by cases hrequest
  rename_i hadmits
  split
  · rename_i existing hexisting
    obtain ⟨⟨key, hkey⟩, -⟩ := mergedInto_spec hexisting
    refine h.addCall fun request hrequest => ?_
    cases hrequest
    exact h.counted.keys key existing hkey
  · dsimp only
    split
    · have hcreated : Accounted ({ s with
          seq := s.seq + 1, futures := Function.update s.futures (s.seq + 1) .pending } :
            IcomCommander χ ρ ε) :=
        ⟨h.counted.createFuture, h.queued.sorted, h.queued.opened, h.queued.ids, h.queued.stops,
          h.queued.closed⟩
      exact hcreated.addCall fun request hrequest => by cases hrequest
    · rename_i hroom
      obtain ⟨hqueued, hmem⟩ := h.enqueue (Bool.not_eq_false _ ▸ hadmits) task args
        (fun hcounts => Nat.lt_of_not_le fun hfull => hroom ⟨hcounts, hfull⟩) rfl
      refine hqueued.addCall fun request hrequest => ?_
      cases hrequest
      exact ⟨Nat.le_refl _, .inr ⟨s.itemOf task args, hmem, rfl⟩⟩

/-- The request of a call does not change. -/
theorem Accounted.sameRequest (h : Accounted s) {call : Nat} {state state' : Call ρ ε}
    (hcall : s.calls call = some state) (hsame : state'.request = state.request) :
    Accounted (s.addCall call state') := by
  refine h.addCall fun request hrequest => ?_
  rw [hsame] at hrequest
  exact h.counted.calls call state request hcall hrequest

theorem Accounted.settle (h : Accounted s) (future : Nat) (value : Future ρ ε) :
    Accounted (s.settle future value) :=
  h.congr (settle_sameQueue s future value) fun hcounted => hcounted.settle future value

theorem Accounted.forgetKey (h : Accounted s) (key : Option String) (future : Nat) :
    Accounted (s.forgetKey key future) :=
  h.congr (forgetKey_sameQueue s key future) fun hcounted => hcounted.forgetKey key future

theorem Accounted.ask (h : Accounted s) {call : Nat} {asked : Asked}
    (hs' : s.ask call asked = some s') : Accounted s' := by
  rw [IcomCommander.ask] at hs'
  split at hs'
  · rename_i request before hcall
    split at hs'
    · cases hs'
    · cases hs'
      have hasking : Accounted (s.addCall call { request := some request, asked := some asked }) :=
        h.sameRequest hcall rfl
      exact hasking.settle request.future .cancelled
  · cases hs'

theorem Accounted.callerGone (h : Accounted s) (request : Request) (outcome : Outcome ρ ε) :
    Accounted (s.callerGone request outcome) := by
  cases outcome with
  | cancelled | lost =>
      rw [IcomCommander.callerGone]
      split
      · exact h
      · exact (h.settle request.future .cancelled).forgetKey request.key request.future
  | notStarted | dropped | enqueued | returned | timedOut | raised => exact h

theorem Accounted.wake (h : Accounted s) {call : Nat} (hs' : s.wake call = some s') :
    Accounted s' := by
  rw [IcomCommander.wake] at hs'
  split at hs'
  · rename_i request asked hcall
    obtain ⟨outcome, -, rfl⟩ := Option.map_eq_some_iff.mp hs'
    have hended : Accounted
        (s.addCall call { request := some request, asked, outcome := some outcome }) :=
      h.sameRequest hcall rfl
    exact hended.callerGone request outcome
  · cases hs'

/-- The worker goes on, and the queue stays. -/
theorem Queued.worker (h : Queued s) {worker worker' : Worker χ ρ ε}
    (hworker : s.worker = some worker) (hworker' : s'.worker = some worker')
    (hid : worker'.id = worker.id) (hcancelling : worker'.cancelling = worker.cancelling)
    (hdone : worker.done = true → worker'.done = true) {queue : Option (List (QueueItem χ))}
    (hqueue : queue = s.queue ∨ ∃ item rest, s.queue = some (item :: rest) ∧ queue = some rest)
    (hqueue' : s'.queue = queue) (hworkers : s'.workers = s.workers)
    (hstopping : s'.stopping = s.stopping) : Queued s' := by
  refine ⟨?_, ?_, ?_, ?_, ?_⟩
  · rw [hqueue']
    rcases hqueue with rfl | ⟨item, rest, hitems, rfl⟩
    · exact h.sorted
    · have hsorted := h.sorted
      rw [hitems] at hsorted
      exact (List.pairwise_cons.mp hsorted).2
  · have hopened := h.opened
    rw [hqueue', hworker', Option.isSome_some]
    rw [hworker, Option.isSome_some] at hopened
    rcases hqueue with rfl | ⟨item, rest, -, rfl⟩
    · exact hopened
    · rfl
  · rw [hworker', hworkers]
    intro other hother
    cases hother
    rw [hid]
    exact h.ids worker hworker
  · rw [hstopping, hworkers]
    exact h.stops
  · rw [hworker', hstopping, hqueue']
    intro other hother hclosed
    cases hother
    rw [hid, hcancelling] at hclosed
    obtain ⟨hempty, hends⟩ := h.closed worker hworker hclosed
    rw [hcancelling]
    refine ⟨?_, hends.imp_right hdone⟩
    rcases hqueue with rfl | ⟨item, rest, hitems, -⟩
    · exact hempty
    · rw [hitems] at hempty
      cases hempty

/-- What a `take` does: it skips the first item, which is done, or executes it. -/
theorem take_cases (hs' : s.take = some s') : ∃ worker item rest,
    s.worker = some worker ∧ s.queue = some (item :: rest) ∧ worker.phase = .getting ∧
    worker.cancelling = false ∧
    (((s.futures item.future).done = true ∧
        s' = ({ s with queue := some rest } : IcomCommander χ ρ ε).leaveItem item) ∨
      ((s.futures item.future).done = false ∧
        s' = (({ s with queue := some rest } : IcomCommander χ ρ ε).noteForeignDispatch
          (some item.enqueuedBy) item.priority).setPhase worker (.executing item none))) := by
  rw [IcomCommander.take] at hs'
  split at hs'
  · rename_i worker item rest hworker hqueue
    split at hs'
    · rename_i hphase hcancelling
      refine ⟨worker, item, rest, hworker, hqueue, hphase, hcancelling, ?_⟩
      dsimp only at hs'
      split at hs'
      · rename_i hdone
        cases hs'
        exact .inl ⟨hdone, rfl⟩
      · rename_i hpending
        cases hs'
        exact .inr ⟨Bool.not_eq_true _ ▸ hpending, rfl⟩
    · cases hs'
  · cases hs'

theorem executing_of_getting {worker : Worker χ ρ ε} (hworker : s.worker = some worker)
    (hphase : worker.phase = .getting) : s.executing = none := by
  rw [executing, hworker]
  dsimp only
  rw [hphase]

theorem Counted.noteForeignDispatch (h : Counted held s) (enqueuedBy : Option Nat)
    (priority : Int) :
    Counted held (s.noteForeignDispatch enqueuedBy priority) := by
  rw [IcomCommander.noteForeignDispatch]
  split
  · exact h
  · exact h.congr rfl rfl rfl rfl rfl

theorem Accounted.take (h : Accounted s) (hs' : s.take = some s') : Accounted s' := by
  obtain ⟨worker, item, rest, hworker, hqueue, hphase, hcancelling, ⟨hdone, rfl⟩ | ⟨-, rfl⟩⟩ :=
    take_cases hs'
  all_goals
    have hexecuting := executing_of_getting hworker hphase
    have hcounted := h.counted
    rw [held, hqueue, hexecuting, Option.toList_none, List.append_nil, Option.getD_some] at hcounted
  · have hrest : Counted (item :: rest) ({ s with queue := some rest } : IcomCommander χ ρ ε) :=
      hcounted.congr rfl rfl rfl rfl rfl
    have hsame := leaveItem_sameQueue ({ s with queue := some rest } : IcomCommander χ ρ ε) item
    have hheld : ({ s with queue := some rest } : IcomCommander χ ρ ε).held = rest := by
      rw [held, executing_of_getting (s := { s with queue := some rest }) hworker hphase]
      exact List.append_nil _
    constructor
    · rw [hsame.held, hheld]
      exact hrest.leave hdone
    · exact h.queued.worker hworker (hsame.worker.trans hworker) rfl rfl (fun hend => hend)
        (.inr ⟨item, rest, hqueue, rfl⟩) hsame.queue hsame.workers hsame.stopping
  · have hsame := noteForeignDispatch_sameQueue
      ({ s with queue := some rest } : IcomCommander χ ρ ε)
      (some item.enqueuedBy) item.priority
    have hrest : Counted (item :: rest) ({ s with queue := some rest } : IcomCommander χ ρ ε) :=
      hcounted.congr rfl rfl rfl rfl rfl
    have hheld : ((({ s with queue := some rest } : IcomCommander χ ρ ε).noteForeignDispatch
        (some item.enqueuedBy) item.priority).setPhase worker (.executing item none)).held =
          rest ++ [item] := by
      show (({ s with queue := some rest } : IcomCommander χ ρ ε).noteForeignDispatch
        (some item.enqueuedBy) item.priority).queue.getD [] ++ [item] = _
      rw [hsame.queue]
      rfl
    constructor
    · rw [hheld]
      refine Counted.congr ?_ rfl rfl rfl rfl rfl (s := ({ s with queue := some rest } :
        IcomCommander χ ρ ε).noteForeignDispatch (some item.enqueuedBy) item.priority)
      exact (hrest.noteForeignDispatch _ _).perm (List.perm_append_singleton item rest).symm
    · have hnow : ((({ s with queue := some rest } : IcomCommander χ ρ ε).noteForeignDispatch
          (some item.enqueuedBy) item.priority).setPhase worker (.executing item none)).worker =
            some { worker with phase := .executing item none } := rfl
      refine h.queued.worker hworker hnow rfl rfl (fun hend => ?_) (.inr ⟨item, rest, hqueue, rfl⟩)
        hsame.queue hsame.workers hsame.stopping
      rw [Worker.done, hphase] at hend
      cases hend

theorem executing_of_phase {worker : Worker χ ρ ε} {item : QueueItem χ}
    {ended : Option (Execution ρ ε)} (hworker : s.worker = some worker)
    (hphase : worker.phase = .executing item ended) : s.executing = some item := by
  rw [executing, hworker]
  dsimp only
  rw [hphase]

/-- The executor's part of the worker's phase. -/
theorem executeEnds_cases {future : Nat} {execution : Execution ρ ε}
    (hs' : s.executeEnds future execution = some s') : ∃ worker item,
      s.worker = some worker ∧ worker.phase = .executing item none ∧ item.future = future ∧
      s' = s.setPhase worker (.executing item (some execution)) := by
  rw [IcomCommander.executeEnds] at hs'
  split at hs'
  · rename_i worker hworker
    split at hs'
    · rename_i item hphase
      split at hs'
      · rename_i hfuture
        exact ⟨worker, item, hworker, hphase, hfuture, (Option.some.inj hs').symm⟩
      · cases hs'
    · cases hs'
  · cases hs'

theorem Accounted.executeEnds (h : Accounted s) {future : Nat} {execution : Execution ρ ε}
    (hs' : s.executeEnds future execution = some s') : Accounted s' := by
  obtain ⟨worker, item, hworker, hphase, -, rfl⟩ := executeEnds_cases hs'
  have hnow : (s.setPhase worker (.executing item (some execution))).worker =
      some { worker with phase := .executing item (some execution) } := rfl
  have hexecuting : (s.setPhase worker (.executing item (some execution))).executing =
    s.executing :=
    (executing_of_phase hnow rfl).trans (executing_of_phase hworker hphase).symm
  constructor
  · rw [held, hexecuting]
    exact h.counted.congr rfl rfl rfl rfl rfl
  · refine h.queued.worker hworker hnow rfl rfl (fun hend => ?_) (.inl rfl) rfl rfl rfl
    rw [Worker.done, hphase] at hend
    cases hend

/-- The worker has waited for an item, and is asked to end, or for the executor, and leaves the item
when its future is done. -/
theorem workerWakes_cases (hs' : s.workerWakes = some s') : ∃ worker, s.worker = some worker ∧
    ((worker.phase = .getting ∧ worker.cancelling = true ∧ s' = s.setPhase worker .done) ∨
      ∃ item execution, worker.phase = .executing item (some execution) ∧ ∃ settled next,
        (settled = s ∨ ∃ value : Future ρ ε, value.done = true ∧
          settled = s.settle item.future value) ∧
        (settled.futures item.future).done = true ∧ (next = .getting ∨ next = .done) ∧
        (worker.cancelling = true → next = .done) ∧
        s' = (settled.leaveItem item).setPhase worker next) := by
  rw [IcomCommander.workerWakes] at hs'
  split at hs'
  · cases hs'
  rename_i worker hworker
  refine ⟨worker, hworker, ?_⟩
  split at hs'
  · rename_i hphase
    split at hs'
    · rename_i hcancelling
      exact .inl ⟨hphase, hcancelling, (Option.some.inj hs').symm⟩
    · cases hs'
  · rename_i item execution hphase
    refine .inr ⟨item, execution, hphase, ?_⟩
    have hnext : ((if worker.cancelling then .done else .getting : Phase χ ρ ε) = .getting ∨
        (if worker.cancelling then .done else .getting : Phase χ ρ ε) = .done) ∧
        (worker.cancelling = true →
          (if worker.cancelling then .done else .getting : Phase χ ρ ε) = .done) := by
      cases worker.cancelling
      · exact ⟨.inl rfl, fun h => (by cases h)⟩
      · exact ⟨.inr rfl, fun _ => rfl⟩
    dsimp only at hs'
    cases execution with
    | returned response =>
        refine ⟨_, _, ?_, ?_, hnext.1, hnext.2, (Option.some.inj hs').symm⟩
        · split
          · exact .inr ⟨.failed .stopped, rfl, rfl⟩
          · exact .inr ⟨.result response, rfl, rfl⟩
        · split
          · exact settle_self_done s item.future rfl
          · exact settle_self_done s item.future rfl
    | raised error =>
        exact ⟨_, _, .inr ⟨.failed (.executor error), rfl, rfl⟩, settle_self_done s item.future rfl,
          hnext.1, hnext.2, (Option.some.inj hs').symm⟩
    | cancelled =>
        dsimp only at hs'
        split at hs'
        · rename_i hdriven
          rw [callerDriven] at hdriven
          split at hdriven
          · rename_i hcancelled
            rw [Bool.not_eq_true'] at hdriven
            refine ⟨s, .getting, .inl rfl, ?_, .inl rfl, ?_, (Option.some.inj hs').symm⟩
            · rw [hcancelled]
              rfl
            · intro hcancelling
              rw [hdriven] at hcancelling
              cases hcancelling
          · cases hdriven
        · exact ⟨_, _, .inr ⟨.failed .stopped, rfl, rfl⟩, settle_self_done s item.future rfl,
            .inr rfl, fun _ => rfl, (Option.some.inj hs').symm⟩
  · cases hs'

theorem executing_setPhase {worker : Worker χ ρ ε} {next : Phase χ ρ ε}
    (hnext : next = .getting ∨ next = .done) : (s.setPhase worker next).executing = none := by
  rcases hnext with rfl | rfl <;> rfl

theorem Accounted.workerWakes (h : Accounted s) (hs' : s.workerWakes = some s') : Accounted s' := by
  obtain ⟨worker, hworker, ⟨hphase, hcancelling, rfl⟩ |
    ⟨item, execution, hphase, settled, next, hsettled, hdone, hnext, hcancelling, rfl⟩⟩ :=
      workerWakes_cases hs'
  · have hnow : (s.setPhase worker .done).worker = some { worker with phase := .done } := rfl
    have hexecuting : (s.setPhase worker .done).executing = s.executing :=
      (executing_of_done hnow rfl).trans (executing_of_getting hworker hphase).symm
    constructor
    · rw [held, hexecuting]
      exact h.counted.congr rfl rfl rfl rfl rfl
    · exact h.queued.worker hworker hnow rfl rfl (fun _ => rfl) (.inl rfl) rfl rfl rfl
  · have hsame : SameQueue s settled := by
      rcases hsettled with rfl | ⟨value, -, rfl⟩
      · exact .refl _
      · exact settle_sameQueue s item.future value
    have hcounted : Counted s.held settled := by
      rcases hsettled with rfl | ⟨value, -, rfl⟩
      · exact h.counted
      · exact h.counted.settle item.future value
    have hleft := hsame.trans (leaveItem_sameQueue settled item)
    have hheld : ((settled.leaveItem item).setPhase worker next).held = s.queue.getD [] := by
      show (settled.leaveItem item).queue.getD [] ++
        ((settled.leaveItem item).setPhase worker next).executing.toList = _
      rw [executing_setPhase hnext, hleft.queue]
      exact List.append_nil _
    rw [held, executing_of_phase hworker hphase] at hcounted
    have hnow : ((settled.leaveItem item).setPhase worker next).worker =
        some { worker with phase := next } := rfl
    constructor
    · rw [hheld]
      refine Counted.congr ?_ rfl rfl rfl rfl rfl (s := settled.leaveItem item)
      exact (hcounted.perm (List.perm_append_singleton item _)).leave hdone
    · refine h.queued.worker hworker hnow rfl rfl (fun hend => ?_)
        (.inl rfl) hleft.queue hleft.workers
        hleft.stopping
      rw [Worker.done, hphase] at hend
      cases hend

/-- What a step keeps. -/
theorem Accounted.step (h : Accounted s) {event : Event χ ρ ε} (hkeeps : KeepsQueue s event)
    (hs' : s.step event = some s') : Accounted s' := by
  cases event with
  | start => exact Option.some.inj hs' ▸ h.start hkeeps
  | stop => exact Option.some.inj hs' ▸ h.stop
  | stopLeaves stopper => exact h.stopLeaves hs'
  | send call task args =>
      rw [IcomCommander.step] at hs'
      split at hs'
      · cases hs'
      · exact Option.some.inj hs' ▸ h.send call task args
  | timesOut call => exact h.ask hs'
  | cancel call => exact h.ask hs'
  | wake call => exact h.wake hs'
  | take => exact h.take hs'
  | executeEnds future execution => exact h.executeEnds hs'
  | workerWakes => exact h.workerWakes hs'
  | enterScope task =>
      refine Option.some.inj hs' ▸ h.congr ⟨rfl, rfl, rfl, rfl, rfl⟩ fun hcounted => ?_
      exact hcounted.congr rfl rfl rfl rfl rfl
  | exitScope scope =>
      refine Option.some.inj hs' ▸ h.congr ⟨rfl, rfl, rfl, rfl, rfl⟩ fun hcounted => ?_
      exact hcounted.congr rfl rfl rfl rfl rfl
  | foreignDispatch enqueuedBy priority =>
      exact Option.some.inj hs' ▸ h.congr (noteForeignDispatch_sameQueue s enqueuedBy priority)
        fun hcounted => hcounted.noteForeignDispatch enqueuedBy priority

end IcomCommander

end Rigplane.Commands
