import Mathlib.Data.List.Nodup
import Rigplane.SerialCiv.Link

/-!
# What a serial session writes, and what its retirement leaves

A request moves from its call to a queue, from the queue to the worker of its session, and from
there to its result.  `Ok` says where a request without a result is, and which writes and drains
stand behind a result.  A worker that ends by itself, or by a cancellation after its first step,
fails the requests of its queue.  One that is cancelled before its first step does not, so that the
disconnect must have failed them: it fails those of the queue of the link, which is another one
where a `connect` has begun.
-/

namespace Rigplane.SerialCiv

namespace SerialCivLink

/-! ## The property -/

structure Safe (s : SerialCivLink) : Prop where
  once : (s.writes.map (·.call)).Nodup
  current : ∀ w ∈ s.writes,
    w.session = (s.calls w.call).session ∧ w.current = true ∧ w.answer = .passes
  drained : ∀ c, (s.calls c).phase = .returned →
    ∃ d ∈ s.drains, d.call = c ∧ d.session = (s.calls c).session ∧ d.current = true ∧
      ∃ w ∈ s.writes, w.call = c
  completed : ∀ n ∈ s.retired, (s.workers n).phase = .done →
    ∀ c, (s.calls c).submitted = true → (s.calls c).session = n → (s.calls c).result ≠ .pending
  emptied : ∀ n ∈ s.retired, (s.workers n).phase = .done →
    ∀ queue c, .request c ∈ s.queues queue → (s.calls c).session = n →
      (s.calls c).result ≠ .pending

/-- The queue holds a request of the session that is not done. -/
def awaits (s : SerialCivLink) (queue n : Nat) : Bool :=
  (s.queues queue).any fun item =>
    match item with
    | .payload => false
    | .request c => (s.calls c).session == n && (s.calls c).result == .pending

/-- A disconnect that finds a worker before its first step finds the queue of the worker in the
link, or no request of its session there. -/
def Orderly (s : SerialCivLink) (a : Action) : Prop :=
  a = .disconnect → ∀ n ∈ s.session, (s.workers n).phase = .created →
    (s.workers n).queue = s.writeQueue ∨ s.awaits (s.workers n).queue n = false

instance (s : SerialCivLink) (a : Action) : Decidable (s.Orderly a) :=
  inferInstanceAs (Decidable (a = .disconnect → ∀ n ∈ s.session, _ → _ ∨ _))

/-! ## The invariant -/

/-- The worker does nothing for its session any more. -/
def Stopped (worker : Worker) : Prop :=
  worker.phase = .done ∨ (worker.phase = .created ∧ worker.cancelling = true)

structure Ok (s : SerialCivLink) : Prop where
  here : s.writeQueue < s.made
  fresh : ∀ queue, s.made ≤ queue → s.queues queue = []
  opened : ∀ n, s.session = some n → n < s.opened
  unopened : ∀ n, s.opened ≤ n → (s.workers n).phase = .done
  connected : s.connected = true →
    ∃ n, s.session = some n ∧ (s.workers n).queue = s.writeQueue
  lapsed : ∀ n, (s.workers n).phase = .done ∨ (s.workers n).cancelling = true →
    s.writeSessionIsCurrent (s.workers n).queue n = false
  trying : ∀ c, (s.calls c).phase = .trying → (s.calls c).submitted = false
  sent : ∀ c, (s.calls c).submitted = true → c < s.sent
  captured : ∀ c, (s.calls c).submitted = true →
    (s.calls c).session < s.opened ∧
      (s.calls c).queue = (s.workers (s.calls c).session).queue
  queued : ∀ queue c, .request c ∈ s.queues queue →
    (s.calls c).submitted = true ∧ (s.calls c).queue = queue ∧ c ∉ s.writes.map (·.call)
  queuedOnce : ∀ queue c, (s.queues queue).count (.request c) ≤ 1
  held : ∀ c, (s.calls c).submitted = true → (s.calls c).result = .pending →
    .request c ∈ s.queues (s.calls c).queue ∨
      (s.workers (s.calls c).session).phase = .draining (.request c)
  draining : ∀ n c, (s.workers n).phase = .draining (.request c) →
    (s.calls c).submitted = true ∧ (s.calls c).session = n ∧ c ∈ s.writes.map (·.call)
  started : ∀ c, (s.calls c).started = true →
    (s.workers (s.calls c).session).phase = .draining (.request c)
  stopped : ∀ c, (s.calls c).submitted = true → Stopped (s.workers (s.calls c).session) →
    (s.calls c).result ≠ .pending
  once : (s.writes.map (·.call)).Nodup
  current : ∀ w ∈ s.writes, (s.calls w.call).submitted = true ∧
    w.session = (s.calls w.call).session ∧ w.current = true ∧ w.answer = .passes
  written : ∀ c, (s.calls c).result = .written →
    ∃ d ∈ s.drains, d.call = c ∧ d.session = (s.calls c).session ∧ d.current = true ∧
      c ∈ s.writes.map (·.call)
  returned : ∀ c, (s.calls c).phase = .returned → (s.calls c).result = .written

theorem Ok.init (maxWriteQueue : Nat) : Ok (init maxWriteQueue) := by
  constructor <;> simp [SerialCivLink.init, writeSessionIsCurrent]

theorem Ok.safe {s : SerialCivLink} (h : Ok s) : s.Safe where
  once := h.once
  current := fun w hw => (h.current w hw).2
  drained := by
    intro c hc
    obtain ⟨d, hd, hcall, hsession, hcurrent, hw⟩ := h.written c (h.returned c hc)
    obtain ⟨w, hw, hwc⟩ := List.mem_map.mp hw
    exact ⟨d, hd, hcall, hsession, hcurrent, w, hw, hwc⟩
  completed := by
    intro n hn hdone c hsub hsession
    subst hsession
    exact h.stopped c hsub (.inl hdone)
  emptied := by
    intro n hn hdone queue c hq hsession
    subst hsession
    exact h.stopped c (h.queued queue c hq).1 (.inl hdone)

theorem writeSessionIsCurrent_eq_true {s : SerialCivLink} {queue n : Nat} :
    s.writeSessionIsCurrent queue n = true ↔
      s.connected = true ∧ s.session = some n ∧ s.writeQueue = queue := by
  simp [writeSessionIsCurrent, and_assoc]

theorem writeSessionIsCurrent_of_disconnected {s : SerialCivLink} (h : s.connected = false)
    (queue n : Nat) : s.writeSessionIsCurrent queue n = false := by
  simp [writeSessionIsCurrent, h]

/-! ## Calls that settle -/

/-- A call goes on without being submitted, started or written. -/
structure Settles (before after : Call) : Prop where
  session : after.session = before.session
  queue : after.queue = before.queue
  submitted : after.submitted = before.submitted
  trying : after.phase = .trying → before.phase = .trying
  returned : after.phase = .returned → before.phase = .returned ∨ before.result = .written
  started : after.started = true → before.started = true
  pending : after.result = .pending → before.result = .pending
  written : after.result = .written ↔ before.result = .written

theorem Settles.refl (call : Call) : Settles call call :=
  ⟨rfl, rfl, rfl, id, .inl, id, id, Iff.rfl⟩

theorem Settles.trans {a b c : Call} (h : Settles a b) (h' : Settles b c) : Settles a c where
  session := h'.session.trans h.session
  queue := h'.queue.trans h.queue
  submitted := h'.submitted.trans h.submitted
  trying := fun hc => h.trying (h'.trying hc)
  returned := fun hc => (h'.returned hc).elim h.returned fun hb => .inr (h.written.mp hb)
  started := fun hc => h.started (h'.started hc)
  pending := fun hc => h.pending (h'.pending hc)
  written := h'.written.trans h.written

theorem Settles.complete (call : Call) (result : Result) (hp : result ≠ .pending)
    (hw : result ≠ .written) : Settles call (call.complete result) := by
  unfold Call.complete
  split
  · rename_i hpending
    exact ⟨rfl, rfl, rfl, id, .inl, id, fun h => absurd h hp,
      ⟨fun h => absurd h hw, fun h => by rw [hpending] at h; cases h⟩⟩
  · exact .refl call

theorem Settles.stop (call : Call) : Settles call { call with started := false } :=
  ⟨rfl, rfl, rfl, id, .inl, nofun, id, Iff.rfl⟩

/-- Calls that settle leave the invariant as it is. -/
theorem Ok.settle {s t : SerialCivLink} (h : Ok s)
    (hcalls : ∀ c, Settles (s.calls c) (t.calls c)) (ht : t = { s with calls := t.calls }) :
    Ok t := by
  rw [ht]
  constructor
  · exact h.here
  · exact h.fresh
  · exact h.opened
  · exact h.unopened
  · exact h.connected
  · exact h.lapsed
  · intro c hc
    exact (hcalls c).submitted.trans (h.trying c ((hcalls c).trying hc))
  · intro c hc
    exact h.sent c ((hcalls c).submitted.symm.trans hc)
  · intro c hc
    show (t.calls c).session < s.opened ∧
      (t.calls c).queue = (s.workers (t.calls c).session).queue
    rw [(hcalls c).session, (hcalls c).queue]
    exact h.captured c ((hcalls c).submitted.symm.trans hc)
  · intro queue c hq
    obtain ⟨hsub, hqueue, hw⟩ := h.queued queue c hq
    exact ⟨(hcalls c).submitted.trans hsub, (hcalls c).queue.trans hqueue, hw⟩
  · exact h.queuedOnce
  · intro c hsub hp
    show .request c ∈ s.queues (t.calls c).queue ∨
      (s.workers (t.calls c).session).phase = .draining (.request c)
    rw [(hcalls c).session, (hcalls c).queue]
    exact h.held c ((hcalls c).submitted.symm.trans hsub) ((hcalls c).pending hp)
  · intro n c hn
    obtain ⟨hsub, hsession, hw⟩ := h.draining n c hn
    exact ⟨(hcalls c).submitted.trans hsub, (hcalls c).session.trans hsession, hw⟩
  · intro c hc
    show (s.workers (t.calls c).session).phase = .draining (.request c)
    rw [(hcalls c).session]
    exact h.started c ((hcalls c).started hc)
  · intro c hsub hstop hp
    have hstop' : Stopped (s.workers (s.calls c).session) := by
      rw [← (hcalls c).session]
      exact hstop
    exact h.stopped c ((hcalls c).submitted.symm.trans hsub) hstop' ((hcalls c).pending hp)
  · exact h.once
  · intro w hw
    obtain ⟨hsub, hsession, hrest⟩ := h.current w hw
    exact ⟨(hcalls _).submitted.trans hsub, hsession.trans (hcalls _).session.symm, hrest⟩
  · intro c hc
    obtain ⟨d, hd, hcall, hsession, hrest⟩ := h.written c ((hcalls c).written.mp hc)
    exact ⟨d, hd, hcall, hsession.trans (hcalls c).session.symm, hrest⟩
  · intro c hc
    refine (hcalls c).written.mpr ?_
    rcases (hcalls c).returned hc with hc | hc
    · exact h.returned c hc
    · exact hc

@[simp] theorem modifyCall_calls_self (s : SerialCivLink) (c : Nat) (f : Call → Call) :
    (s.modifyCall c f).calls c = f (s.calls c) := Function.update_self ..

theorem modifyCall_calls_of_ne (s : SerialCivLink) {c d : Nat} (f : Call → Call) (h : d ≠ c) :
    (s.modifyCall c f).calls d = s.calls d := Function.update_of_ne h ..

theorem settles_modifyCall (s : SerialCivLink) (c : Nat) {f : Call → Call}
    (hf : Settles (s.calls c) (f (s.calls c))) (d : Nat) :
    Settles (s.calls d) ((s.modifyCall c f).calls d) := by
  rcases eq_or_ne d c with rfl | hne
  · rw [modifyCall_calls_self]
    exact hf
  · rw [modifyCall_calls_of_ne s f hne]
    exact .refl _

theorem Ok.modifyCall {s : SerialCivLink} (h : Ok s) (c : Nat) {f : Call → Call}
    (hf : Settles (s.calls c) (f (s.calls c))) : Ok (s.modifyCall c f) :=
  h.settle (settles_modifyCall s c hf) rfl

theorem settles_complete (s : SerialCivLink) (item : Item) {result : Result}
    (hp : result ≠ .pending) (hw : result ≠ .written) (d : Nat) :
    Settles (s.calls d) ((s.complete item result).calls d) := by
  cases item with
  | payload => exact .refl _
  | request c => exact settles_modifyCall s c (.complete _ result hp hw) d

theorem complete_eq (s : SerialCivLink) (item : Item) (result : Result) :
    s.complete item result = { s with calls := (s.complete item result).calls } := by
  cases item <;> rfl

theorem Ok.complete {s : SerialCivLink} (h : Ok s) (item : Item) {result : Result}
    (hp : result ≠ .pending) (hw : result ≠ .written) : Ok (s.complete item result) :=
  h.settle (settles_complete s item hp hw) (complete_eq s item result)

theorem complete_result_ne (s : SerialCivLink) (c : Nat) {result : Result}
    (hp : result ≠ .pending) : ((s.complete (.request c) result).calls c).result ≠ .pending := by
  show ((s.modifyCall c fun call => call.complete result).calls c).result ≠ .pending
  rw [modifyCall_calls_self, Call.complete]
  split
  · exact hp
  · assumption

theorem settles_stop (s : SerialCivLink) (item : Item) (d : Nat) :
    Settles (s.calls d) ((s.stop item).calls d) := by
  cases item with
  | payload => exact .refl _
  | request c =>
      exact settles_modifyCall s c (f := fun call => { call with started := false }) (.stop _) d

theorem stop_eq (s : SerialCivLink) (item : Item) :
    s.stop item = { s with calls := (s.stop item).calls } := by
  cases item <;> rfl

theorem Ok.stop {s : SerialCivLink} (h : Ok s) (item : Item) : Ok (s.stop item) :=
  h.settle (settles_stop s item) (stop_eq s item)

theorem stop_started (s : SerialCivLink) (c : Nat) :
    ((s.stop (.request c)).calls c).started = false := by
  show ((s.modifyCall c fun call => { call with started := false }).calls c).started = false
  rw [modifyCall_calls_self]

/-! ## Queues -/

@[simp] theorem setQueue_queues_self (s : SerialCivLink) (queue : Nat) (items : List Item) :
    (s.setQueue queue items).queues queue = items := Function.update_self ..

theorem setQueue_queues_of_ne (s : SerialCivLink) {queue other : Nat} (items : List Item)
    (h : other ≠ queue) : (s.setQueue queue items).queues other = s.queues other :=
  Function.update_of_ne h ..

/-- A queue loses items whose requests are done. -/
theorem Ok.shrink {s : SerialCivLink} (h : Ok s) (queue : Nat) {items : List Item}
    (hsub : items.Sublist (s.queues queue))
    (hdone : ∀ c, .request c ∈ s.queues queue → .request c ∉ items →
      (s.calls c).result ≠ .pending) : Ok (s.setQueue queue items) := by
  have hold : ∀ other c, .request c ∈ (s.setQueue queue items).queues other →
      .request c ∈ s.queues other := by
    intro other c hc
    rcases eq_or_ne other queue with rfl | hne
    · rw [setQueue_queues_self] at hc
      exact hsub.subset hc
    · rwa [setQueue_queues_of_ne s items hne] at hc
  constructor
  · exact h.here
  · intro other ho
    rcases eq_or_ne other queue with rfl | hne
    · rw [setQueue_queues_self]
      exact List.sublist_nil.mp (h.fresh other ho ▸ hsub)
    · rw [setQueue_queues_of_ne s items hne]
      exact h.fresh other ho
  · exact h.opened
  · exact h.unopened
  · exact h.connected
  · exact h.lapsed
  · exact h.trying
  · exact h.sent
  · exact h.captured
  · exact fun other c hc => h.queued other c (hold other c hc)
  · intro other c
    rcases eq_or_ne other queue with rfl | hne
    · rw [setQueue_queues_self]
      exact Nat.le_trans (hsub.count_le _) (h.queuedOnce other c)
    · rw [setQueue_queues_of_ne s items hne]
      exact h.queuedOnce other c
  · intro c hc hp
    refine (h.held c hc hp).imp_left fun hq => ?_
    show .request c ∈ (s.setQueue queue items).queues (s.calls c).queue
    rcases eq_or_ne (s.calls c).queue queue with he | hne
    · rw [he] at hq ⊢
      rw [setQueue_queues_self]
      by_contra hnot
      exact hdone c hq hnot hp
    · rw [setQueue_queues_of_ne s items hne]
      exact hq
  · exact h.draining
  · exact h.started
  · exact h.stopped
  · exact h.once
  · exact h.current
  · exact h.written
  · exact h.returned

/-- A queue that was made grows. -/
theorem fresh_setQueue {s : SerialCivLink} (h : Ok s) {queue : Nat} (hlt : queue < s.made)
    (items : List Item) (other : Nat) (ho : s.made ≤ other) :
    (s.setQueue queue items).queues other = [] := by
  rw [setQueue_queues_of_ne s items (by omega)]
  exact h.fresh other ho

theorem Ok.push_payload {s : SerialCivLink} (h : Ok s) {queue : Nat} (hlt : queue < s.made) :
    Ok (s.setQueue queue (s.queues queue ++ [.payload])) := by
  have hmem : ∀ other c, .request c ∈
      (s.setQueue queue (s.queues queue ++ [.payload])).queues other ↔
        .request c ∈ s.queues other := by
    intro other c
    rcases eq_or_ne other queue with rfl | hne
    · simp
    · rw [setQueue_queues_of_ne s _ hne]
  constructor
  · exact h.here
  · exact fresh_setQueue h hlt _
  · exact h.opened
  · exact h.unopened
  · exact h.connected
  · exact h.lapsed
  · exact h.trying
  · exact h.sent
  · exact h.captured
  · exact fun other c hc => h.queued other c ((hmem other c).mp hc)
  · intro other c
    rcases eq_or_ne other queue with rfl | hne
    · rw [setQueue_queues_self, List.count_append]
      simpa using h.queuedOnce other c
    · rw [setQueue_queues_of_ne s _ hne]
      exact h.queuedOnce other c
  · exact fun c hc hp => (h.held c hc hp).imp_left (hmem _ c).mpr
  · exact h.draining
  · exact h.started
  · exact h.stopped
  · exact h.once
  · exact h.current
  · exact h.written
  · exact h.returned

/-- The calls once the requests of the items are failed. -/
theorem foldl_complete (items : List Item) (s : SerialCivLink) (result : Result)
    (hp : result ≠ .pending) (hw : result ≠ .written) :
    (∀ c, Settles (s.calls c)
      ((items.foldl (fun s item => s.complete item result) s).calls c)) ∧
    (items.foldl (fun s item => s.complete item result) s) =
      { s with calls := (items.foldl (fun s item => s.complete item result) s).calls } ∧
    ∀ c, .request c ∈ items →
      ((items.foldl (fun s item => s.complete item result) s).calls c).result ≠ .pending := by
  induction items generalizing s with
  | nil => exact ⟨fun c => .refl _, rfl, by simp⟩
  | cons item rest ih =>
      obtain ⟨hsettles, heq, hdone⟩ := ih (s.complete item result)
      refine ⟨fun c => (settles_complete s item hp hw c).trans (hsettles c), ?_, ?_⟩
      · rw [List.foldl_cons, heq, complete_eq s item result]
      · intro c hc
        rw [List.foldl_cons]
        rcases List.mem_cons.mp hc with rfl | hc
        · exact fun hpending => complete_result_ne s c hp ((hsettles c).pending hpending)
        · exact hdone c hc

/-- What `_fail_queued_writes` does: the calls settle, the queue is empty and its requests are
done. -/
theorem failQueuedWrites_spec (s : SerialCivLink) (queue : Nat) :
    (∀ c, Settles (s.calls c) ((s.failQueuedWrites queue).calls c)) ∧
    s.failQueuedWrites queue =
      { s.setQueue queue [] with calls := (s.failQueuedWrites queue).calls } ∧
    ∀ c, .request c ∈ s.queues queue →
      ((s.failQueuedWrites queue).calls c).result ≠ .pending := by
  obtain ⟨hsettles, heq, hdone⟩ := foldl_complete (s.queues queue) s
    (.failed "Serial writer retired.") (by simp) (by simp)
  refine ⟨hsettles, ?_, hdone⟩
  unfold failQueuedWrites
  rw [heq]
  rfl

theorem Ok.failQueuedWrites {s : SerialCivLink} (h : Ok s) (queue : Nat) :
    Ok (s.failQueuedWrites queue) := by
  obtain ⟨hsettles, heq, hdone⟩ := foldl_complete (s.queues queue) s
    (.failed "Serial writer retired.") (by simp) (by simp)
  refine (h.settle hsettles heq).shrink queue (List.nil_sublist _) fun c hc _ => ?_
  rw [heq] at hc
  exact hdone c hc

/-! ## Retirement -/

theorem Ok.endOfStream {s : SerialCivLink} (h : Ok s) : Ok { s with connected := false } := by
  constructor
  · exact h.here
  · exact h.fresh
  · exact h.opened
  · exact h.unopened
  · exact nofun
  · exact fun n _ => writeSessionIsCurrent_of_disconnected rfl _ n
  · exact h.trying
  · exact h.sent
  · exact h.captured
  · exact h.queued
  · exact h.queuedOnce
  · exact h.held
  · exact h.draining
  · exact h.started
  · exact h.stopped
  · exact h.once
  · exact h.current
  · exact h.written
  · exact h.returned

theorem resetSessionBuffers_eq {s : SerialCivLink} (h : Ok s) :
    s.resetSessionBuffers = { s with writeQueue := s.made, made := s.made + 1 } := by
  have hqueues : Function.update s.queues s.made [] = s.queues := by
    rw [← h.fresh s.made (Nat.le_refl _), Function.update_eq_self]
  simp only [resetSessionBuffers, setQueue, hqueues]

theorem Ok.reset {s : SerialCivLink} (h : Ok s) (hoff : s.connected = false) :
    Ok s.resetSessionBuffers := by
  rw [resetSessionBuffers_eq h]
  constructor
  · exact Nat.lt_succ_self _
  · exact fun queue hq => h.fresh queue (Nat.le_of_succ_le hq)
  · exact h.opened
  · exact h.unopened
  · intro hc
    rw [show s.connected = true from hc] at hoff
    cases hoff
  · exact fun n _ => writeSessionIsCurrent_of_disconnected (by exact hoff) _ n
  · exact h.trying
  · exact h.sent
  · exact h.captured
  · exact h.queued
  · exact h.queuedOnce
  · exact h.held
  · exact h.draining
  · exact h.started
  · exact h.stopped
  · exact h.once
  · exact h.current
  · exact h.written
  · exact h.returned

/-- A link that is not connected leaves its session. -/
theorem Ok.leave {s : SerialCivLink} (h : Ok s) (hoff : s.connected = false) :
    Ok { s with session := none } := by
  constructor
  · exact h.here
  · exact h.fresh
  · exact nofun
  · exact h.unopened
  · intro hc
    rw [show s.connected = true from hc] at hoff
    cases hoff
  · exact fun n _ => writeSessionIsCurrent_of_disconnected (by exact hoff) _ n
  · exact h.trying
  · exact h.sent
  · exact h.captured
  · exact h.queued
  · exact h.queuedOnce
  · exact h.held
  · exact h.draining
  · exact h.started
  · exact h.stopped
  · exact h.once
  · exact h.current
  · exact h.written
  · exact h.returned

theorem Ok.detach {s : SerialCivLink} (h : Ok s) : Ok s.detach :=
  (h.endOfStream.leave rfl).reset rfl

theorem detach_eq {s : SerialCivLink} (h : Ok s) :
    s.detach = { s with
      connected := false, session := none, writeQueue := s.made, made := s.made + 1 } :=
  resetSessionBuffers_eq (h.endOfStream.leave rfl)

/-! ## One worker -/

@[simp] theorem setWorker_workers_self (s : SerialCivLink) (n : Nat) (worker : Worker) :
    (s.setWorker n worker).workers n = worker := Function.update_self ..

theorem setWorker_workers_of_ne (s : SerialCivLink) {n m : Nat} (worker : Worker) (h : m ≠ n) :
    (s.setWorker n worker).workers m = s.workers m := Function.update_of_ne h ..

/-- A worker goes on with its queue. -/
theorem Ok.setWorker {s : SerialCivLink} (h : Ok s) {n : Nat} {worker : Worker}
    (hqueue : worker.queue = (s.workers n).queue)
    (hopen : (s.workers n).phase = .done → worker.phase = .done)
    (hover : worker.phase = .done ∨ worker.cancelling = true →
      s.writeSessionIsCurrent (s.workers n).queue n = false)
    (hkept : ∀ c, (s.workers n).phase = .draining (.request c) →
      worker.phase = .draining (.request c) ∨
        (s.calls c).result ≠ .pending ∧ (s.calls c).started = false)
    (hdraining : ∀ c, worker.phase = .draining (.request c) →
      (s.workers n).phase = .draining (.request c))
    (hstopped : Stopped worker → ∀ c, (s.calls c).submitted = true → (s.calls c).session = n →
      (s.calls c).result ≠ .pending) : Ok (s.setWorker n worker) := by
  constructor
  · exact h.here
  · exact h.fresh
  · exact h.opened
  · intro m hm
    rcases eq_or_ne m n with rfl | hmn
    · rw [setWorker_workers_self]
      exact hopen (h.unopened m hm)
    · rw [setWorker_workers_of_ne s worker hmn]
      exact h.unopened m hm
  · intro hc
    obtain ⟨m, hm, hq⟩ := h.connected hc
    refine ⟨m, hm, ?_⟩
    rcases eq_or_ne m n with rfl | hmn
    · rw [setWorker_workers_self]
      exact hqueue.trans hq
    · rw [setWorker_workers_of_ne s worker hmn]
      exact hq
  · intro m hm
    rcases eq_or_ne m n with rfl | hmn
    · rw [setWorker_workers_self] at hm ⊢
      rw [hqueue]
      exact hover hm
    · rw [setWorker_workers_of_ne s worker hmn] at hm ⊢
      exact h.lapsed m hm
  · exact h.trying
  · exact h.sent
  · intro c hc
    obtain ⟨hlt, hq⟩ := h.captured c hc
    refine ⟨hlt, ?_⟩
    show (s.calls c).queue = ((s.setWorker n worker).workers (s.calls c).session).queue
    rcases eq_or_ne (s.calls c).session n with hs | hs
    · rw [hs, setWorker_workers_self, hqueue, hq, hs]
    · rw [setWorker_workers_of_ne s worker hs]
      exact hq
  · exact h.queued
  · exact h.queuedOnce
  · intro c hc hp
    show .request c ∈ s.queues (s.calls c).queue ∨
      ((s.setWorker n worker).workers (s.calls c).session).phase = .draining (.request c)
    refine (h.held c hc hp).imp_right fun hd => ?_
    rcases eq_or_ne (s.calls c).session n with hs | hs
    · rw [hs] at hd ⊢
      rw [setWorker_workers_self]
      exact (hkept c hd).resolve_right fun hdone => hdone.1 hp
    · rw [setWorker_workers_of_ne s worker hs]
      exact hd
  · intro m c hm
    rcases eq_or_ne m n with rfl | hmn
    · rw [setWorker_workers_self] at hm
      exact h.draining m c (hdraining c hm)
    · rw [setWorker_workers_of_ne s worker hmn] at hm
      exact h.draining m c hm
  · intro c hc
    show ((s.setWorker n worker).workers (s.calls c).session).phase = .draining (.request c)
    have hd := h.started c hc
    rcases eq_or_ne (s.calls c).session n with hs | hs
    · rw [hs] at hd ⊢
      rw [setWorker_workers_self]
      refine (hkept c hd).resolve_right fun hdone => ?_
      rw [show (s.calls c).started = true from hc] at hdone
      cases hdone.2
    · rw [setWorker_workers_of_ne s worker hs]
      exact hd
  · intro c hc hstop
    replace hstop : Stopped ((s.setWorker n worker).workers (s.calls c).session) := hstop
    rcases eq_or_ne (s.calls c).session n with hs | hs
    · rw [hs, setWorker_workers_self] at hstop
      exact hstopped hstop c hc hs
    · rw [setWorker_workers_of_ne s worker hs] at hstop
      exact h.stopped c hc hstop
  · exact h.once
  · exact h.current
  · exact h.written
  · exact h.returned

/-- A worker that is not at its first step any more, or whose requests are done, is cancelled. -/
theorem Ok.cancelWorker {s : SerialCivLink} (h : Ok s) (n : Nat)
    (hover : s.writeSessionIsCurrent (s.workers n).queue n = false)
    (hdone : (s.workers n).phase = .created → ∀ c, (s.calls c).submitted = true →
      (s.calls c).session = n → (s.calls c).result ≠ .pending) : Ok (s.cancelWorker n) := by
  unfold SerialCivLink.cancelWorker
  split
  · refine h.setWorker rfl id (fun _ => hover) (fun c hc => .inl hc) (fun c hc => hc) ?_
    intro hstop c hc hs
    rcases hstop with hstop | ⟨hstop, -⟩
    · subst hs
      exact h.stopped c hc (.inl hstop)
    · exact hdone hstop c hc hs
  · exact h

/-- The invariant does not read which sessions retire, or how many `connect`s wait. -/
theorem Ok.retiring {s : SerialCivLink} (h : Ok s) (retirement : Option Nat) (retired : List Nat)
    (connecting : Nat) :
    Ok { s with retirement := retirement, retired := retired, connecting := connecting } :=
  ⟨h.here, h.fresh, h.opened, h.unopened, h.connected, h.lapsed, h.trying, h.sent, h.captured,
    h.queued, h.queuedOnce, h.held, h.draining, h.started, h.stopped, h.once, h.current, h.written,
    h.returned⟩

/-- A request without a result is in the queue of its worker, or the worker drains it. -/
theorem Ok.held_queue {s : SerialCivLink} (h : Ok s) {c n : Nat}
    (hsub : (s.calls c).submitted = true) (hs : (s.calls c).session = n)
    (hp : (s.calls c).result = .pending) (hd : (s.workers n).phase ≠ .draining (.request c)) :
    .request c ∈ s.queues (s.workers n).queue := by
  subst hs
  rw [← (h.captured c hsub).2]
  exact (h.held c hsub hp).resolve_right hd

/-- A session retires: the queue it retires with is the one of its worker, or the one of the link
while the requests of a worker before its first step are done. -/
theorem Ok.retireWriter {s : SerialCivLink} (h : Ok s) {queue n : Nat}
    (hqueue : queue = (s.workers n).queue ∨ (s.session = some n ∧ s.writeQueue = queue))
    (hdone : (s.workers n).phase = .created → ∀ c, .request c ∈ s.queues (s.workers n).queue →
      (s.calls c).session = n → (s.calls c).result = .pending →
      .request c ∈ s.queues queue) : Ok (s.retireWriter queue n) := by
  unfold SerialCivLink.retireWriter
  split
  · exact h
  · refine Ok.retiring ?_ (some n) (n :: s.retired) _
    obtain ⟨detached, hdetached, hok, hcalls, hqueues, hworkers, hover⟩ :
        ∃ detached, (if s.session = some n ∧ s.writeQueue = queue then s.detach else s) = detached ∧
          Ok detached ∧ detached.calls = s.calls ∧ detached.queues = s.queues ∧
          detached.workers = s.workers ∧
          detached.writeSessionIsCurrent (s.workers n).queue n = false := by
      by_cases hcur : s.session = some n ∧ s.writeQueue = queue
      · refine ⟨s.detach, if_pos hcur, h.detach, ?_⟩
        rw [detach_eq h]
        exact ⟨rfl, rfl, rfl, writeSessionIsCurrent_of_disconnected rfl _ n⟩
      · refine ⟨s, if_neg hcur, h, rfl, rfl, rfl, ?_⟩
        obtain rfl := hqueue.resolve_right hcur
        by_contra hnot
        rw [Bool.not_eq_false, writeSessionIsCurrent_eq_true] at hnot
        exact hcur hnot.2
    simp only [hdetached]
    obtain ⟨hsettles, heq, hfailed⟩ := failQueuedWrites_spec detached queue
    have hworkers' : (detached.failQueuedWrites queue).workers = s.workers := by
      rw [heq]
      exact hworkers
    refine (hok.failQueuedWrites queue).cancelWorker n ?_ ?_
    · rw [heq]
      show detached.writeSessionIsCurrent (detached.workers n).queue n = false
      rw [hworkers]
      exact hover
    · intro hcreated c hsub hs hp
      rw [hworkers'] at hcreated
      rw [(hsettles c).submitted, hcalls] at hsub
      rw [(hsettles c).session, hcalls] at hs
      have hp' := (hsettles c).pending hp
      rw [hcalls] at hp'
      have hmem := h.held_queue hsub hs hp' (by rw [hcreated]; simp)
      refine hfailed c ?_ hp
      rw [hqueues]
      exact hdone hcreated c hmem hs hp'

theorem Ok.disconnect {s : SerialCivLink} (h : Ok s) (ho : s.Orderly .disconnect) :
    Ok s.disconnect := by
  unfold SerialCivLink.disconnect
  split
  · exact h
  · rename_i n hn
    refine h.retireWriter (.inr ⟨hn, rfl⟩) ?_
    intro hcreated c hmem hs hp
    rcases ho rfl n hn hcreated with hsame | hnone
    · rwa [← hsame]
    · have hany : s.awaits (s.workers n).queue n = true := by
        refine List.any_eq_true.mpr ⟨.request c, hmem, ?_⟩
        simp [hs, hp]
      rw [hnone] at hany
      cases hany

/-! ## Calls -/

/-- The handler of a cancellation: the call ends, and a session that writes its request retires. -/
theorem Ok.cancelled {s : SerialCivLink} (h : Ok s) (c : Nat) : Ok (s.cancelled c) := by
  have hsettles : Settles (s.calls c)
      { (s.calls c).complete .cancelled with phase := .cancelled } := by
    have hc := Settles.complete (s.calls c) .cancelled (by simp) (by simp)
    exact hc.trans ⟨rfl, rfl, rfl, nofun, nofun, id, id, Iff.rfl⟩
  have hended :=
    h.modifyCall c (f := fun call => { call.complete .cancelled with phase := .cancelled })
    hsettles
  unfold SerialCivLink.cancelled
  split
  · rename_i hstarted
    have hd := h.started c hstarted
    obtain ⟨hsub, -, -⟩ := h.draining _ c hd
    refine hended.retireWriter (.inl (h.captured c hsub).2) fun hcreated => ?_
    rw [show (s.workers (s.calls c).session).phase = .created from hcreated] at hd
    cases hd
  · exact hended

theorem Ok.raise {s : SerialCivLink} (h : Ok s) (c : Nat) (error : String) :
    Ok (s.raise c error) :=
  h.modifyCall c (f := fun call => { call with phase := .raised error })
    ⟨rfl, rfl, rfl, nofun, nofun, id, id, Iff.rfl⟩

/-- The call of the current session puts its request in the queue. -/
theorem Ok.submit {s t : SerialCivLink} (h : Ok s) {c : Nat} (hc : c < s.sent)
    (htrying : (s.calls c).phase = .trying)
    (hcurrent : s.writeSessionIsCurrent (s.calls c).queue (s.calls c).session = true)
    (hself : t.calls c = { s.calls c with phase := .waiting, submitted := true })
    (hothers : ∀ d, d ≠ c → t.calls d = s.calls d)
    (hqueues : t.queues =
      Function.update s.queues s.writeQueue (s.queues s.writeQueue ++ [.request c]))
    (ht : t = { s with calls := t.calls, queues := t.queues }) : Ok t := by
  obtain ⟨hon, hsession, hqueue⟩ := writeSessionIsCurrent_eq_true.mp hcurrent
  obtain ⟨n, hn, hworker⟩ := h.connected hon
  obtain rfl : n = (s.calls c).session := Option.some.inj (hn.symm.trans hsession)
  have hnew := h.trying c htrying
  have hnotin : ∀ queue, .request c ∉ s.queues queue := by
    intro queue hq
    rw [(h.queued queue c hq).1] at hnew
    cases hnew
  have hnotwritten : c ∉ s.writes.map (·.call) := by
    intro hmem
    obtain ⟨w, hw, rfl⟩ := List.mem_map.mp hmem
    rw [(h.current w hw).1] at hnew
    cases hnew
  have hhere : t.queues s.writeQueue = s.queues s.writeQueue ++ [.request c] := by
    rw [hqueues, Function.update_self]
  have hthere : ∀ queue, queue ≠ s.writeQueue → t.queues queue = s.queues queue := by
    intro queue hne
    rw [hqueues, Function.update_of_ne hne]
  have hmem : ∀ queue d, .request d ∈ s.queues queue → .request d ∈ t.queues queue := by
    intro queue d hd
    rcases eq_or_ne queue s.writeQueue with rfl | hne
    · rw [hhere]
      exact List.mem_append_left _ hd
    · rw [hthere queue hne]
      exact hd
  have hsame : ∀ d, (t.calls d).session = (s.calls d).session ∧
      (t.calls d).queue = (s.calls d).queue ∧ (t.calls d).result = (s.calls d).result ∧
      (t.calls d).started = (s.calls d).started := by
    intro d
    rcases eq_or_ne d c with rfl | hne
    · rw [hself]
      exact ⟨rfl, rfl, rfl, rfl⟩
    · rw [hothers d hne]
      exact ⟨rfl, rfl, rfl, rfl⟩
  have hsubmitted : ∀ d, (s.calls d).submitted = true → (t.calls d).submitted = true := by
    intro d hd
    rcases eq_or_ne d c with rfl | hne
    · rw [hself]
    · rw [hothers d hne]
      exact hd
  rw [ht]
  constructor
  · exact h.here
  · intro queue hq
    have hne : queue ≠ s.writeQueue := Nat.ne_of_gt (Nat.lt_of_lt_of_le h.here hq)
    show t.queues queue = []
    rw [hthere queue hne]
    exact h.fresh queue hq
  · exact h.opened
  · exact h.unopened
  · exact h.connected
  · exact h.lapsed
  · intro d hd
    replace hd : (t.calls d).phase = .trying := hd
    rcases eq_or_ne d c with rfl | hne
    · rw [hself] at hd
      cases hd
    · show (t.calls d).submitted = false
      rw [hothers d hne] at hd ⊢
      exact h.trying d hd
  · intro d hd
    replace hd : (t.calls d).submitted = true := hd
    rcases eq_or_ne d c with rfl | hne
    · exact hc
    · rw [hothers d hne] at hd
      exact h.sent d hd
  · intro d hd
    replace hd : (t.calls d).submitted = true := hd
    show (t.calls d).session < s.opened ∧
      (t.calls d).queue = (s.workers (t.calls d).session).queue
    rw [(hsame d).1, (hsame d).2.1]
    rcases eq_or_ne d c with rfl | hne
    · exact ⟨h.opened _ hsession, hqueue.symm.trans hworker.symm⟩
    · rw [hothers d hne] at hd
      exact h.captured d hd
  · intro queue d hd
    replace hd : .request d ∈ t.queues queue := hd
    show (t.calls d).submitted = true ∧ (t.calls d).queue = queue ∧ d ∉ s.writes.map (·.call)
    rw [(hsame d).2.1]
    have hcases : .request d ∈ s.queues queue ∨ (d = c ∧ queue = s.writeQueue) := by
      rcases eq_or_ne queue s.writeQueue with rfl | hne
      · rw [hhere] at hd
        refine (List.mem_append.mp hd).imp_right fun hd => ⟨?_, rfl⟩
        simpa using hd
      · rw [hthere queue hne] at hd
        exact .inl hd
    rcases hcases with hd | ⟨rfl, rfl⟩
    · obtain ⟨hsub, hrest⟩ := h.queued queue d hd
      exact ⟨hsubmitted d hsub, hrest⟩
    · rw [hself]
      exact ⟨rfl, hqueue.symm, hnotwritten⟩
  · intro queue d
    show (t.queues queue).count (.request d) ≤ 1
    rcases eq_or_ne queue s.writeQueue with rfl | hne
    · rw [hhere, List.count_append]
      have hold := h.queuedOnce s.writeQueue d
      rcases eq_or_ne d c with rfl | hdc
      · rw [List.count_eq_zero.mpr (hnotin s.writeQueue)]
        simp
      · have hzero : List.count (Item.request d) [.request c] = 0 :=
          List.count_eq_zero.mpr (by simpa using hdc)
        omega
    · rw [hthere queue hne]
      exact h.queuedOnce queue d
  · intro d hd hp
    replace hd : (t.calls d).submitted = true := hd
    replace hp : (t.calls d).result = .pending := hp
    show .request d ∈ t.queues (t.calls d).queue ∨
      (s.workers (t.calls d).session).phase = .draining (.request d)
    rw [(hsame d).1, (hsame d).2.1]
    rw [(hsame d).2.2.1] at hp
    rcases eq_or_ne d c with rfl | hne
    · rw [← hqueue, hhere]
      exact .inl (List.mem_append_right _ List.mem_cons_self)
    · rw [hothers d hne] at hd
      exact (h.held d hd hp).imp_left (hmem _ d)
  · intro n d hd
    obtain ⟨hsub, hs, hw⟩ := h.draining n d hd
    exact ⟨hsubmitted d hsub, (hsame d).1.trans hs, hw⟩
  · intro d hd
    replace hd : (t.calls d).started = true := hd
    show (s.workers (t.calls d).session).phase = .draining (.request d)
    rw [(hsame d).1]
    rw [(hsame d).2.2.2] at hd
    exact h.started d hd
  · intro d hd hstop hp
    replace hd : (t.calls d).submitted = true := hd
    replace hp : (t.calls d).result = .pending := hp
    replace hstop : Stopped (s.workers (t.calls d).session) := hstop
    rw [(hsame d).1] at hstop
    rw [(hsame d).2.2.1] at hp
    rcases eq_or_ne d c with rfl | hne
    · have hover := h.lapsed _ (hstop.imp_right And.right)
      rw [hworker, hqueue, hcurrent] at hover
      cases hover
    · rw [hothers d hne] at hd
      exact h.stopped d hd hstop hp
  · exact h.once
  · intro w hw
    obtain ⟨hsub, hs, hrest⟩ := h.current w hw
    exact ⟨hsubmitted _ hsub, hs.trans (hsame _).1.symm, hrest⟩
  · intro d hd
    replace hd : (t.calls d).result = .written := hd
    rw [(hsame d).2.2.1] at hd
    obtain ⟨e, he, hcall, hs, hrest⟩ := h.written d hd
    exact ⟨e, he, hcall, hs.trans (hsame d).1.symm, hrest⟩
  · intro d hd
    replace hd : (t.calls d).phase = .returned := hd
    show (t.calls d).result = .written
    rw [(hsame d).2.2.1]
    rcases eq_or_ne d c with rfl | hne
    · rw [hself] at hd
      cases hd
    · rw [hothers d hne] at hd
      exact h.returned d hd

theorem Ok.put {s : SerialCivLink} (h : Ok s) {c : Nat} (hc : c < s.sent)
    (htrying : (s.calls c).phase = .trying) (answer : Answer) : Ok (s.put c answer) := by
  cases hcurrent : s.writeSessionIsCurrent (s.calls c).queue (s.calls c).session with
  | false =>
      simp only [SerialCivLink.put, hcurrent, Bool.false_eq_true, if_false]
      exact h.raise c _
  | true =>
      simp only [SerialCivLink.put, hcurrent, if_true]
      cases answer with
      | refuses => exact h.raise c _
      | raises error => exact h.raise c error
      | passes =>
          simp only
          split
          · exact h
          · have hqueue := (writeSessionIsCurrent_eq_true.mp hcurrent).2.2
            refine h.submit hc htrying hcurrent (modifyCall_calls_self _ _ _) ?_ ?_ rfl
            · exact fun d hd => modifyCall_calls_of_ne _ _ hd
            · rw [hqueue]
              rfl

/-- A new call captures a queue and a session of the link. -/
theorem Ok.newCall {s : SerialCivLink} (h : Ok s) (queue n : Nat) :
    Ok { s with
      calls := Function.update s.calls s.sent { queue := queue, session := n }
      sent := s.sent + 1 } := by
  have hself : Function.update s.calls s.sent { queue := queue, session := n } s.sent =
    { queue := queue, session := n } := Function.update_self ..
  have hold : ∀ d, (s.calls d).submitted = true →
      Function.update s.calls s.sent { queue := queue, session := n } d = s.calls d :=
    fun d hd => Function.update_of_ne (Nat.ne_of_lt (h.sent d hd)) ..
  have hcases : ∀ d, d = s.sent ∨
      Function.update s.calls s.sent { queue := queue, session := n } d = s.calls d := by
    intro d
    rcases eq_or_ne d s.sent with rfl | hne
    · exact .inl rfl
    · exact .inr (Function.update_of_ne hne ..)
  obtain ⟨calls, hcalls⟩ : ∃ calls, calls =
    Function.update s.calls s.sent { queue := queue, session := n } := ⟨_, rfl⟩
  rw [← hcalls] at hself hold hcases ⊢
  constructor
  · exact h.here
  · exact h.fresh
  · exact h.opened
  · exact h.unopened
  · exact h.connected
  · exact h.lapsed
  · intro d hd
    show (calls d).submitted = false
    rcases hcases d with rfl | he
    · rw [hself]
    · rw [he]
      exact h.trying d (he ▸ hd)
  · intro d hd
    rcases hcases d with rfl | he
    · exact Nat.lt_succ_self _
    · exact Nat.lt_succ_of_lt (h.sent d (he ▸ hd))
  · intro d hd
    show (calls d).session < s.opened ∧ (calls d).queue = (s.workers (calls d).session).queue
    rcases hcases d with rfl | he
    · simp [hself] at hd
    · rw [he]
      exact h.captured d (he ▸ hd)
  · intro q d hd
    have hq := h.queued q d hd
    show (calls d).submitted = true ∧ (calls d).queue = q ∧ d ∉ s.writes.map (·.call)
    rw [hold d hq.1]
    exact hq
  · exact h.queuedOnce
  · intro d hd hp
    show .request d ∈ s.queues (calls d).queue ∨
      (s.workers (calls d).session).phase = .draining (.request d)
    rcases hcases d with rfl | he
    · simp [hself] at hd
    · rw [he]
      exact h.held d (he ▸ hd) (he ▸ hp)
  · intro m d hd
    have hm := h.draining m d hd
    show (calls d).submitted = true ∧ (calls d).session = m ∧ d ∈ s.writes.map (·.call)
    rw [hold d hm.1]
    exact hm
  · intro d hd
    show (s.workers (calls d).session).phase = .draining (.request d)
    rcases hcases d with rfl | he
    · simp [hself] at hd
    · rw [he]
      exact h.started d (he ▸ hd)
  · intro d hd hstop
    rcases hcases d with rfl | he
    · simp [hself] at hd
    · show (calls d).result ≠ .pending
      rw [he]
      exact h.stopped d (he ▸ hd) (he ▸ hstop)
  · exact h.once
  · intro w hw
    have hcurrent := h.current w hw
    show (calls w.call).submitted = true ∧ w.session = (calls w.call).session ∧
      w.current = true ∧ w.answer = .passes
    rw [hold _ hcurrent.1]
    exact hcurrent
  · intro d hd
    rcases hcases d with rfl | he
    · simp [hself] at hd
    · show ∃ e ∈ s.drains, e.call = d ∧ e.session = (calls d).session ∧ e.current = true ∧
        d ∈ s.writes.map (·.call)
      rw [he]
      exact h.written d (he ▸ hd)
  · intro d hd
    rcases hcases d with rfl | he
    · simp [hself] at hd
    · show (calls d).result = .written
      rw [he]
      exact h.returned d (he ▸ hd)

theorem Ok.sendWritten {s : SerialCivLink} (h : Ok s) (answer : Answer) :
    Ok (s.sendWritten answer) := by
  unfold SerialCivLink.sendWritten
  split
  · exact h
  · rename_i n hn
    split
    · exact h
    · refine (h.newCall s.writeQueue n).put (Nat.lt_succ_self _) ?_ answer
      show (Function.update s.calls s.sent { queue := s.writeQueue, session := n } s.sent).phase =
        .trying
      rw [Function.update_self]

theorem Ok.resume {s t : SerialCivLink} (h : Ok s) {c : Nat} {answer : Answer}
    (ht : s.resume c answer = some t) : Ok t := by
  unfold SerialCivLink.resume at ht
  split at ht
  · cases ht
    exact h.cancelled c
  · rename_i hphase _
    split at ht
    · rename_i hc
      cases ht
      exact h.put hc hphase answer
    · cases ht
  · cases ht
    exact h.cancelled c
  · rename_i hresult
    cases ht
    exact h.modifyCall c (f := fun call => { call with phase := .returned })
      ⟨rfl, rfl, rfl, nofun, fun _ => .inr hresult, id, id, Iff.rfl⟩
  · cases ht
    exact h.raise c _
  · cases ht

theorem Ok.cancel {s t : SerialCivLink} (h : Ok s) {c : Nat} (ht : s.cancel c = some t) :
    Ok t := by
  unfold SerialCivLink.cancel at ht
  split at ht
  · split at ht
    · cases ht
      exact h.modifyCall c (f := fun call => { call with cancelling := true })
        ⟨rfl, rfl, rfl, id, .inl, id, id, Iff.rfl⟩
    · cases ht
  · cases ht
    have hc := Settles.complete (s.calls c) .cancelled (by simp) (by simp)
    exact h.modifyCall c (f := fun call => { call.complete .cancelled with cancelling := true })
      (hc.trans ⟨rfl, rfl, rfl, id, .inl, id, id, Iff.rfl⟩)
  · cases ht

theorem Ok.send {s : SerialCivLink} (h : Ok s) : Ok s.send := by
  unfold SerialCivLink.send
  split
  · exact h.push_payload h.here
  · exact h

/-! ## The worker -/

theorem over_of_leaving {s : SerialCivLink} (h : Ok s) {n : Nat} (hl : s.leaving n = true) :
    s.writeSessionIsCurrent (s.workers n).queue n = false := by
  rcases Bool.or_eq_true_iff.mp hl with hcurrent | hcancelling
  · simpa using hcurrent
  · exact h.lapsed n (.inr hcancelling)

/-- A worker that holds at most the item ends, and no request of its session is left. -/
theorem Ok.finish {s : SerialCivLink} (h : Ok s) {n : Nat} {item : Item}
    (hover : s.writeSessionIsCurrent (s.workers n).queue n = false)
    (hitem : ∀ c, (s.workers n).phase = .draining (.request c) →
      item = .request c ∧ (s.calls c).started = false) : Ok (s.finish n item) := by
  have hfailed : Result.failed "Serial writer retired." ≠ .pending := by simp
  have hunwritten : Result.failed "Serial writer retired." ≠ .written := by simp
  have hcompleted := h.complete item hfailed hunwritten
  have hsettled := settles_complete s item hfailed hunwritten
  have heq := complete_eq s item (.failed "Serial writer retired.")
  unfold SerialCivLink.finish
  have hdone : ∀ c, item = .request c →
      ((s.complete item (.failed "Serial writer retired.")).calls c).result ≠ .pending := by
    rintro c rfl
    exact complete_result_ne s c hfailed
  obtain ⟨u, hu⟩ : ∃ u, u = s.complete item (.failed "Serial writer retired.") := ⟨_, rfl⟩
  rw [← hu] at hcompleted hsettled heq hdone ⊢
  have hworkers : u.workers = s.workers := by rw [heq]
  have hqueues : u.queues = s.queues := by rw [heq]
  obtain ⟨hsettles, hfail, hempty⟩ := failQueuedWrites_spec u (s.workers n).queue
  have hworkers' : (u.failQueuedWrites (s.workers n).queue).workers = s.workers := by
    rw [hfail]
    exact hworkers
  refine (hcompleted.failQueuedWrites (s.workers n).queue).setWorker rfl (fun _ => rfl) ?_ ?_
    nofun ?_
  · intro _
    rw [hfail]
    show u.writeSessionIsCurrent (u.workers n).queue n = false
    rw [heq]
    exact hover
  · intro c hc
    rw [hworkers'] at hc
    obtain ⟨rfl, hstarted⟩ := hitem c hc
    refine .inr ⟨fun hp => hdone c rfl ((hsettles c).pending hp), ?_⟩
    by_contra hon
    rw [Bool.not_eq_false] at hon
    rw [(hsettled c).started ((hsettles c).started hon)] at hstarted
    cases hstarted
  · intro _ c hsub hs hp
    rw [(hsettles c).submitted, (hsettled c).submitted] at hsub
    rw [(hsettles c).session, (hsettled c).session] at hs
    have hp' := (hsettles c).pending hp
    by_cases hd : (s.workers n).phase = .draining (.request c)
    · exact hdone c (hitem c hd).1 hp'
    · have hmem := h.held_queue hsub hs ((hsettled c).pending hp') hd
      rw [← hqueues] at hmem
      exact hempty c hmem hp

/-- The worker goes on to a phase in which it holds no request. -/
theorem Ok.setPhase {s : SerialCivLink} (h : Ok s) {n : Nat} {phase : WorkerPhase}
    (halive : (s.workers n).phase ≠ .done) (hphase : phase ≠ .done) (hcreated : phase ≠ .created)
    (hdraining : ∀ c, phase ≠ .draining (.request c))
    (hdone : ∀ c, (s.workers n).phase = .draining (.request c) →
      (s.calls c).result ≠ .pending ∧ (s.calls c).started = false) : Ok (s.setPhase n phase) := by
  refine h.setWorker rfl (fun hd => absurd hd halive) ?_ (fun c hc => .inr (hdone c hc))
    (fun c hc => absurd hc (hdraining c)) ?_
  · intro hc
    exact h.lapsed n (.inr (hc.resolve_left hphase))
  · rintro (hc | ⟨hc, -⟩)
    · exact absurd hc hphase
    · exact absurd hc hcreated

theorem Ok.addDrains {s : SerialCivLink} (h : Ok s) (drains : List Drain) :
    Ok { s with drains := drains ++ s.drains } := by
  refine ⟨h.here, h.fresh, h.opened, h.unopened, h.connected, h.lapsed, h.trying, h.sent,
    h.captured,
    h.queued, h.queuedOnce, h.held, h.draining, h.started, h.stopped, h.once, h.current, ?_,
    h.returned⟩
  intro c hc
  obtain ⟨d, hd, hrest⟩ := h.written c hc
  exact ⟨d, List.mem_append_right _ hd, hrest⟩

/-- A request whose drain is noted may be written. -/
theorem Ok.complete_written {s : SerialCivLink} (h : Ok s) {c : Nat}
    (hdrain : ∃ d ∈ s.drains, d.call = c ∧ d.session = (s.calls c).session ∧ d.current = true ∧
      c ∈ s.writes.map (·.call)) : Ok (s.complete (.request c) .written) := by
  have hothers : ∀ d, d ≠ c →
      (s.complete (.request c) .written).calls d = s.calls d :=
    fun d hd => modifyCall_calls_of_ne s _ hd
  have hself : (s.complete (.request c) .written).calls c = (s.calls c).complete .written :=
    modifyCall_calls_self s c _
  have hsame : ∀ d, ((s.complete (.request c) .written).calls d).session = (s.calls d).session ∧
      ((s.complete (.request c) .written).calls d).queue = (s.calls d).queue ∧
      ((s.complete (.request c) .written).calls d).submitted = (s.calls d).submitted ∧
      ((s.complete (.request c) .written).calls d).phase = (s.calls d).phase ∧
      ((s.complete (.request c) .written).calls d).started = (s.calls d).started := by
    intro d
    rcases eq_or_ne d c with rfl | hne
    · rw [hself, Call.complete]
      split
      · exact ⟨rfl, rfl, rfl, rfl, rfl⟩
      · exact ⟨rfl, rfl, rfl, rfl, rfl⟩
    · rw [hothers d hne]
      exact ⟨rfl, rfl, rfl, rfl, rfl⟩
  have hpending : ∀ d, ((s.complete (.request c) .written).calls d).result = .pending →
      (s.calls d).result = .pending := by
    intro d hd
    rcases eq_or_ne d c with rfl | hne
    · exact absurd hd (complete_result_ne s d (by simp))
    · rwa [hothers d hne] at hd
  have hwritten : ∀ d, (s.calls d).result = .written →
      ((s.complete (.request c) .written).calls d).result = .written := by
    intro d hd
    rcases eq_or_ne d c with rfl | hne
    · rw [hself, Call.complete, if_neg (by rw [hd]; simp), hd]
    · rw [hothers d hne, hd]
  rw [complete_eq]
  obtain ⟨calls, hcalls⟩ : ∃ calls, calls = (s.complete (.request c) .written).calls := ⟨_, rfl⟩
  rw [← hcalls] at hothers hsame hpending hwritten ⊢
  constructor
  · exact h.here
  · exact h.fresh
  · exact h.opened
  · exact h.unopened
  · exact h.connected
  · exact h.lapsed
  · intro d hd
    show (calls d).submitted = false
    rw [(hsame d).2.2.1]
    exact h.trying d ((hsame d).2.2.2.1.symm.trans hd)
  · exact fun d hd => h.sent d ((hsame d).2.2.1.symm.trans hd)
  · intro d hd
    show (calls d).session < s.opened ∧ (calls d).queue = (s.workers (calls d).session).queue
    rw [(hsame d).1, (hsame d).2.1]
    exact h.captured d ((hsame d).2.2.1.symm.trans hd)
  · intro queue d hd
    obtain ⟨hsub, hqueue, hw⟩ := h.queued queue d hd
    exact ⟨(hsame d).2.2.1.trans hsub, (hsame d).2.1.trans hqueue, hw⟩
  · exact h.queuedOnce
  · intro d hd hp
    show .request d ∈ s.queues (calls d).queue ∨
      (s.workers (calls d).session).phase = .draining (.request d)
    rw [(hsame d).1, (hsame d).2.1]
    exact h.held d ((hsame d).2.2.1.symm.trans hd) (hpending d hp)
  · intro m d hd
    obtain ⟨hsub, hs, hw⟩ := h.draining m d hd
    exact ⟨(hsame d).2.2.1.trans hsub, (hsame d).1.trans hs, hw⟩
  · intro d hd
    show (s.workers (calls d).session).phase = .draining (.request d)
    rw [(hsame d).1]
    exact h.started d ((hsame d).2.2.2.2.symm.trans hd)
  · intro d hd hstop hp
    replace hstop : Stopped (s.workers (calls d).session) := hstop
    rw [(hsame d).1] at hstop
    exact h.stopped d ((hsame d).2.2.1.symm.trans hd) hstop (hpending d hp)
  · exact h.once
  · intro w hw
    obtain ⟨hsub, hs, hrest⟩ := h.current w hw
    exact ⟨(hsame _).2.2.1.trans hsub, hs.trans (hsame _).1.symm, hrest⟩
  · intro d hd
    show ∃ e ∈ s.drains, e.call = d ∧ e.session = (calls d).session ∧ e.current = true ∧
      d ∈ s.writes.map (·.call)
    rw [(hsame d).1]
    rcases eq_or_ne d c with rfl | hne
    · exact hdrain
    · exact h.written d (by rw [← hothers d hne]; exact hd)
  · intro d hd
    exact hwritten d (h.returned d ((hsame d).2.2.2.1.symm.trans hd))

/-- Once a worker has stopped the request it drains, the request is not started. -/
theorem stopped_of_draining {s : SerialCivLink} {n : Nat} {item : Item}
    (hphase : (s.workers n).phase = .draining item) (c : Nat)
    (hc : (s.workers n).phase = .draining (.request c)) :
    item = .request c ∧ ((s.stop item).calls c).started = false := by
  rw [hphase] at hc
  cases hc
  exact ⟨rfl, stop_started s c⟩

theorem Ok.drained {s : SerialCivLink} (h : Ok s) {n : Nat} {item : Item}
    (hphase : (s.workers n).phase = .draining item) : Ok (s.drained n item) := by
  unfold SerialCivLink.drained
  obtain ⟨drains, hdrains⟩ : ∃ drains, drains = item.call.toList.map fun c =>
    Drain.mk c n (s.writeSessionIsCurrent (s.workers n).queue n) := ⟨_, rfl⟩
  simp only [← hdrains]
  have hnoted := (h.addDrains drains).stop item
  cases hl : s.leaving n with
  | true =>
      simp only [if_true]
      refine hnoted.finish ?_ ?_
      · rw [stop_eq]
        exact over_of_leaving h hl
      · rw [stop_eq]
        exact stopped_of_draining (s := { s with drains := drains ++ s.drains }) hphase
  | false =>
      simp only [Bool.false_eq_true, if_false]
      obtain ⟨hcurrent, -⟩ := Bool.or_eq_false_iff.mp hl
      rw [Bool.not_eq_false'] at hcurrent
      cases item with
      | payload =>
          refine Ok.setPhase hnoted ?_ (by simp) (by simp) (by simp) ?_
          · show (s.workers n).phase ≠ .done
            rw [hphase]
            simp
          · intro c hc
            rw [show (s.workers n).phase = .draining (.request c) from hc] at hphase
            cases hphase
      | request c =>
          obtain ⟨hsub, hs, hw⟩ := h.draining n c hphase
          have hstopped := stop_started { s with drains := drains ++ s.drains } c
          have hcalls := (settles_stop { s with drains := drains ++ s.drains }
            (.request c) c).session
          refine Ok.setPhase (hnoted.complete_written ⟨⟨c, n, true⟩, ?_, rfl, ?_, rfl, hw⟩) ?_
            (by simp) (by simp) (by simp) ?_
          · rw [hdrains, hcurrent]
            exact List.mem_append_left _ (List.mem_singleton.mpr rfl)
          · exact hs.symm.trans hcalls.symm
          · show (s.workers n).phase ≠ .done
            rw [hphase]
            simp
          · intro d hd
            rw [show (s.workers n).phase = .draining (.request d) from hd] at hphase
            cases hphase
            refine ⟨complete_result_ne _ c (by simp), ?_⟩
            show
              ((SerialCivLink.modifyCall _ c fun call => call.complete .written).calls c).started =
              false
            rw [modifyCall_calls_self, Call.complete]
            split
            · exact hstopped
            · exact hstopped

theorem Ok.afterWrite {s : SerialCivLink} (h : Ok s) {n : Nat} {item : Item}
    (hphase : (s.workers n).phase = .draining item) (outcome : Outcome) :
    Ok (s.afterWrite n item outcome) := by
  have hfailed : ∀ error, Ok ((s.stop item).complete item (.failed error)) :=
    fun error => (h.stop item).complete item (by simp) (by simp)
  have hworkers : ∀ error, ((s.stop item).complete item (.failed error)).workers = s.workers := by
    intro error
    rw [complete_eq, stop_eq]
  have hcurrent : ∀ error,
      ((s.stop item).complete item (.failed error)).writeSessionIsCurrent =
        s.writeSessionIsCurrent := by
    intro error
    rw [complete_eq, stop_eq]
    rfl
  have hheld : ∀ error c, (s.workers n).phase = .draining (.request c) →
      item = .request c ∧
        (((s.stop item).complete item (.failed error)).calls c).result ≠ .pending ∧
        (((s.stop item).complete item (.failed error)).calls c).started = false := by
    intro error c hc
    obtain ⟨rfl, hstopped⟩ := stopped_of_draining hphase c hc
    refine ⟨rfl, complete_result_ne _ c (by simp), ?_⟩
    by_contra hon
    rw [Bool.not_eq_false] at hon
    rw [(settles_complete (s.stop (.request c)) (.request c) (by simp) (by simp) c).started hon]
      at hstopped
    cases hstopped
  cases outcome with
  | ok => exact h.drained hphase
  | recoverable error =>
      simp only [SerialCivLink.afterWrite]
      split
      · rename_i hl
        refine (hfailed error).finish ?_ ?_
        · rw [hcurrent, hworkers]
          exact over_of_leaving h hl
        · intro c hc
          rw [hworkers] at hc
          exact ⟨(hheld error c hc).1, (hheld error c hc).2.2⟩
      · refine (hfailed error).setPhase ?_ (by simp) (by simp) (by simp) ?_
        · rw [hworkers, hphase]
          simp
        · intro c hc
          rw [hworkers] at hc
          exact (hheld error c hc).2
  | unrecoverable error =>
      simp only [SerialCivLink.afterWrite]
      split
      · refine (hfailed error).endOfStream.finish
          (writeSessionIsCurrent_of_disconnected rfl _ n) ?_
        intro c hc
        replace hc : (((s.stop item).complete item (.failed error)).workers n).phase =
          .draining (.request c) := hc
        rw [hworkers] at hc
        exact ⟨(hheld error c hc).1, (hheld error c hc).2.2⟩
      · rename_i hnot
        refine (hfailed error).finish ?_ ?_
        · rw [hcurrent, hworkers]
          simpa using hnot
        · intro c hc
          rw [hworkers] at hc
          exact ⟨(hheld error c hc).1, (hheld error c hc).2.2⟩

/-- The worker of the current session takes a request from its queue and writes it. -/
theorem Ok.startWrite {s t : SerialCivLink} (h : Ok s) {n c : Nat} {rest : List Item}
    (hget : (s.workers n).phase = .getting)
    (hitems : s.queues (s.workers n).queue = .request c :: rest)
    (hcurrent : s.writeSessionIsCurrent (s.workers n).queue n = true)
    (hsession : (s.calls c).session = n)
    (hcalls : t.calls = Function.update s.calls c { s.calls c with started := true })
    (hqueues : t.queues = Function.update s.queues (s.workers n).queue rest)
    (hworkers : t.workers =
      Function.update s.workers n { s.workers n with phase := .draining (.request c) })
    (hwrites : t.writes = ⟨c, n, true, .passes⟩ :: s.writes)
    (ht : t = { s with
      calls := t.calls, queues := t.queues, workers := t.workers, writes := t.writes }) :
    Ok t := by
  have hhead : .request c ∈ s.queues (s.workers n).queue := by
    rw [hitems]
    exact List.mem_cons_self
  obtain ⟨hsub, hqueue, hnew⟩ := h.queued _ c hhead
  have honce := h.queuedOnce (s.workers n).queue c
  rw [hitems, List.count_cons_self] at honce
  have hgone : .request c ∉ rest := List.count_eq_zero.mp (by omega)
  have hsame : ∀ d, (t.calls d).session = (s.calls d).session ∧
      (t.calls d).queue = (s.calls d).queue ∧ (t.calls d).submitted = (s.calls d).submitted ∧
      (t.calls d).phase = (s.calls d).phase ∧ (t.calls d).result = (s.calls d).result := by
    intro d
    rw [hcalls]
    rcases eq_or_ne d c with rfl | hne
    · rw [Function.update_self]
      exact ⟨rfl, rfl, rfl, rfl, rfl⟩
    · rw [Function.update_of_ne hne]
      exact ⟨rfl, rfl, rfl, rfl, rfl⟩
  have hself : t.workers n = { s.workers n with phase := .draining (.request c) } := by
    rw [hworkers, Function.update_self]
  have hothers : ∀ m, m ≠ n → t.workers m = s.workers m := by
    intro m hm
    rw [hworkers, Function.update_of_ne hm]
  have hsameQueue : ∀ m, (t.workers m).queue = (s.workers m).queue := by
    intro m
    rcases eq_or_ne m n with rfl | hm
    · rw [hself]
    · rw [hothers m hm]
  have hold : ∀ queue d, .request d ∈ t.queues queue → .request d ∈ s.queues queue ∧ d ≠ c := by
    intro queue d hd
    rw [hqueues] at hd
    rcases eq_or_ne queue (s.workers n).queue with rfl | hne
    · rw [Function.update_self] at hd
      rw [hitems]
      exact ⟨List.mem_cons_of_mem _ hd, fun e => hgone (e ▸ hd)⟩
    · rw [Function.update_of_ne hne] at hd
      refine ⟨hd, fun e => hne ?_⟩
      rw [← (h.queued queue d hd).2.1, e, hqueue]
  have hmap : t.writes.map (·.call) = c :: s.writes.map (·.call) := by
    rw [hwrites, List.map_cons]
  rw [ht]
  constructor
  · exact h.here
  · intro queue hq
    have hq' := h.fresh queue hq
    show t.queues queue = []
    rw [hqueues]
    rcases eq_or_ne queue (s.workers n).queue with rfl | hne
    · rw [hitems] at hq'
      cases hq'
    · rw [Function.update_of_ne hne]
      exact hq'
  · exact h.opened
  · intro m hm
    have hdone := h.unopened m hm
    rcases eq_or_ne m n with rfl | hmn
    · rw [hget] at hdone
      cases hdone
    · exact (congrArg Worker.phase (hothers m hmn)).trans hdone
  · intro hc
    obtain ⟨m, hm, hq⟩ := h.connected hc
    exact ⟨m, hm, (hsameQueue m).trans hq⟩
  · intro m hm
    show s.writeSessionIsCurrent (t.workers m).queue m = false
    rw [hsameQueue]
    rcases eq_or_ne m n with rfl | hmn
    · refine h.lapsed m (.inr ?_)
      have hm' : (t.workers m).phase = .done ∨ (t.workers m).cancelling = true := hm
      rw [hself] at hm'
      exact hm'.resolve_left (by simp)
    · exact h.lapsed m (by rw [← hothers m hmn]; exact hm)
  · intro d hd
    exact (hsame d).2.2.1.trans (h.trying d ((hsame d).2.2.2.1.symm.trans hd))
  · exact fun d hd => h.sent d ((hsame d).2.2.1.symm.trans hd)
  · intro d hd
    obtain ⟨hlt, hq⟩ := h.captured d ((hsame d).2.2.1.symm.trans hd)
    show (t.calls d).session < s.opened ∧
      (t.calls d).queue = (t.workers (t.calls d).session).queue
    rw [(hsame d).1, (hsame d).2.1, hsameQueue]
    exact ⟨hlt, hq⟩
  · intro queue d hd
    obtain ⟨hd, hne⟩ := hold queue d hd
    obtain ⟨hdsub, hdqueue, hdw⟩ := h.queued queue d hd
    refine ⟨(hsame d).2.2.1.trans hdsub, (hsame d).2.1.trans hdqueue, ?_⟩
    show d ∉ t.writes.map (·.call)
    rw [hmap, List.mem_cons, not_or]
    exact ⟨hne, hdw⟩
  · intro queue d
    show (t.queues queue).count (.request d) ≤ 1
    rw [hqueues]
    have hcount := h.queuedOnce queue d
    rcases eq_or_ne queue (s.workers n).queue with rfl | hne
    · rw [Function.update_self]
      rw [hitems] at hcount
      exact Nat.le_trans ((List.sublist_cons_self _ rest).count_le _) hcount
    · rw [Function.update_of_ne hne]
      exact hcount
  · intro d hd hp
    have hsub' := (hsame d).2.2.1.symm.trans hd
    have hp' := (hsame d).2.2.2.2.symm.trans hp
    show .request d ∈ t.queues (t.calls d).queue ∨
      (t.workers (t.calls d).session).phase = .draining (.request d)
    rw [(hsame d).1, (hsame d).2.1]
    rcases eq_or_ne d c with rfl | hne
    · rw [hsession, hself]
      exact .inr rfl
    · rcases h.held d hsub' hp' with hq | hdr
      · rw [hqueues]
        rcases eq_or_ne (s.calls d).queue (s.workers n).queue with he | hqn
        · rw [he, Function.update_self]
          rw [he, hitems] at hq
          exact .inl ((List.mem_cons.mp hq).resolve_left (by simpa using hne))
        · rw [Function.update_of_ne hqn]
          exact .inl hq
      · rcases eq_or_ne (s.calls d).session n with hs | hs
        · rw [hs, hget] at hdr
          cases hdr
        · rw [hothers _ hs]
          exact .inr hdr
  · intro m d hd
    show (t.calls d).submitted = true ∧ (t.calls d).session = m ∧ d ∈ t.writes.map (·.call)
    rw [(hsame d).1, (hsame d).2.2.1, hmap]
    replace hd : (t.workers m).phase = .draining (.request d) := hd
    rcases eq_or_ne m n with rfl | hmn
    · rw [hself] at hd
      cases hd
      exact ⟨hsub, hsession, List.mem_cons_self⟩
    · rw [hothers m hmn] at hd
      obtain ⟨hdsub, hds, hdw⟩ := h.draining m d hd
      exact ⟨hdsub, hds, List.mem_cons_of_mem _ hdw⟩
  · intro d hd
    show (t.workers (t.calls d).session).phase = .draining (.request d)
    replace hd : (t.calls d).started = true := hd
    rw [(hsame d).1]
    rcases eq_or_ne d c with rfl | hne
    · rw [hsession, hself]
    · rw [hcalls, Function.update_of_ne hne] at hd
      have hdr := h.started d hd
      rcases eq_or_ne (s.calls d).session n with hs | hs
      · rw [hs, hget] at hdr
        cases hdr
      · rw [hothers _ hs]
        exact hdr
  · intro d hd hstop hp
    have hsub' := (hsame d).2.2.1.symm.trans hd
    replace hstop : Stopped (t.workers (t.calls d).session) := hstop
    rw [(hsame d).1] at hstop
    rcases eq_or_ne (s.calls d).session n with hs | hs
    · rw [hs, hself] at hstop
      rcases hstop with hstop | ⟨hstop, -⟩ <;> cases hstop
    · rw [hothers _ hs] at hstop
      exact h.stopped d hsub' hstop ((hsame d).2.2.2.2.symm.trans hp)
  · show (t.writes.map (·.call)).Nodup
    rw [hmap]
    exact List.nodup_cons.mpr ⟨hnew, h.once⟩
  · intro w hw
    replace hw : w ∈ t.writes := hw
    show (t.calls w.call).submitted = true ∧ w.session = (t.calls w.call).session ∧
      w.current = true ∧ w.answer = .passes
    rw [(hsame _).1, (hsame _).2.2.1]
    rw [hwrites] at hw
    rcases List.mem_cons.mp hw with rfl | hw
    · exact ⟨hsub, hsession.symm, rfl, rfl⟩
    · exact h.current w hw
  · intro d hd
    obtain ⟨e, he, hcall, hs, hcur, hw⟩ := h.written d ((hsame d).2.2.2.2.symm.trans hd)
    refine ⟨e, he, hcall, hs.trans (hsame d).1.symm, hcur, ?_⟩
    show d ∈ t.writes.map (·.call)
    rw [hmap]
    exact List.mem_cons_of_mem _ hw
  · intro d hd
    exact (hsame d).2.2.2.2.trans (h.returned d ((hsame d).2.2.2.1.symm.trans hd))

/-- The state in which a worker that has taken an item writes it. -/
theorem Ok.write {s : SerialCivLink} {n : Nat} {item : Item} {answer : Answer}
    (h : Ok (s.write n item answer .ok)) (outcome : Outcome) :
    Ok (s.write n item answer outcome) := by
  cases outcome with
  | ok => exact h
  | recoverable error =>
      refine Ok.afterWrite h ?_ (.recoverable error)
      exact congrArg Worker.phase (setWorker_workers_self _ n _)
  | unrecoverable error =>
      refine Ok.afterWrite h ?_ (.unrecoverable error)
      exact congrArg Worker.phase (setWorker_workers_self _ n _)

/-- The head of a queue may be dropped once its request is done. -/
theorem Ok.pop {s : SerialCivLink} (h : Ok s) {queue : Nat} {item : Item} {rest : List Item}
    (hitems : s.queues queue = item :: rest)
    (hdone : ∀ c, item = .request c → (s.calls c).result ≠ .pending) :
    Ok (s.setQueue queue rest) := by
  refine h.shrink queue (by rw [hitems]; exact List.sublist_cons_self item rest) ?_
  intro c hc hnot
  rw [hitems] at hc
  exact hdone c ((List.mem_cons.mp hc).resolve_right hnot).symm

/-- A request that its worker takes and fails. -/
theorem Ok.pop_complete {s : SerialCivLink} (h : Ok s) {queue : Nat} {item : Item}
    {rest : List Item} (hitems : s.queues queue = item :: rest) (error : String) :
    Ok ((s.setQueue queue rest).complete item (.failed error)) := by
  have hok := @Ok.complete s h item (.failed error) (by simp) (by simp)
  have hitems' : (s.complete item (.failed error)).queues queue = item :: rest := by
    rw [complete_eq]
    exact hitems
  have hpop := hok.pop hitems' (by
    rintro c rfl
    exact complete_result_ne s c (by simp))
  cases item with
  | payload => exact hpop
  | request c => exact hpop

theorem Ok.gotItem {s : SerialCivLink} (h : Ok s) {n : Nat} {item : Item} {rest : List Item}
    (hget : (s.workers n).phase = .getting)
    (hitems : s.queues (s.workers n).queue = item :: rest) (answer : Answer) (outcome : Outcome) :
    Ok ((s.setQueue (s.workers n).queue rest).gotItem n answer outcome item) := by
  have hidle : ∀ c, (s.workers n).phase ≠ .draining (.request c) := by
    intro c
    rw [hget]
    simp
  cases item with
  | payload =>
      have hpop := h.pop hitems nofun
      simp only [SerialCivLink.gotItem]
      split
      · refine Ok.write (show Ok (SerialCivLink.write _ n .payload answer .ok) from ?_) outcome
        refine hpop.setPhase ?_ (by simp) (by simp) (by simp) fun c hc => absurd hc (hidle c)
        show (s.workers n).phase ≠ .done
        rw [hget]
        simp
      · rename_i hnot
        exact hpop.finish (by simpa using hnot) fun c hc => absurd hc (hidle c)
  | request c =>
      have hfailed := h.pop_complete hitems
      simp only [SerialCivLink.gotItem]
      split
      · rename_i hresult
        exact h.pop hitems (by rintro d ⟨⟩; exact hresult)
      · split
        · rename_i hcurrent
          split
          · exact hfailed _
          · rename_i hsame
            rw [not_or, not_not, not_not] at hsame
            cases answer with
            | refuses => exact hfailed _
            | raises error => exact hfailed error
            | passes =>
                have hlog : ({ call := c, session := n, current := true, answer := .passes } :
                    Write) = ⟨c, n, s.writeSessionIsCurrent (s.workers n).queue n, .passes⟩ := by
                  rw [show s.writeSessionIsCurrent (s.workers n).queue n = true from hcurrent]
                refine
                  Ok.write (h.startWrite hget hitems hcurrent hsame.2 rfl rfl rfl ?_ rfl) outcome
                rw [hlog]
                rfl
        · rename_i hnot
          -- the request is failed on its own, and then what is left of the queue
          have hover := (Bool.not_eq_true _).mp hnot
          exact @Ok.finish _ (hfailed "Serial writer retired.") n .payload hover
            fun d hd => absurd hd (hidle d)

theorem Ok.workerGet {s t : SerialCivLink} (h : Ok s) {n : Nat} {answer : Answer}
    {outcome : Outcome} (ht : s.workerGet n answer outcome = some t) : Ok t := by
  unfold SerialCivLink.workerGet at ht
  split at ht
  · rename_i hget
    split at ht
    · cases ht
    · rename_i item rest hitems
      cases ht
      exact h.gotItem hget.1 hitems answer outcome
  · cases ht

theorem Ok.workerBegin {s t : SerialCivLink} (h : Ok s) {n : Nat}
    (ht : s.workerBegin n = some t) : Ok t := by
  unfold SerialCivLink.workerBegin at ht
  split at ht
  · rename_i hcreated
    cases ht
    have hidle : ∀ c, (s.workers n).phase ≠ .draining (.request c) := by
      intro c
      rw [hcreated]
      simp
    cases hcancelling : (s.workers n).cancelling with
    | true =>
        refine h.setWorker rfl (fun _ => rfl) (fun _ => h.lapsed n (.inr hcancelling))
          (fun c hc => absurd hc (hidle c)) nofun ?_
        intro _ c hsub hs
        subst hs
        exact h.stopped c hsub (.inr ⟨hcreated, hcancelling⟩)
    | false =>
        refine h.setPhase ?_ (by simp) (by simp) (by simp) fun c hc => absurd hc (hidle c)
        rw [hcreated]
        simp
  · cases ht

theorem Ok.workerCancelled {s t : SerialCivLink} (h : Ok s) {n : Nat}
    (ht : s.workerCancelled n = some t) : Ok t := by
  unfold SerialCivLink.workerCancelled at ht
  split at ht
  · rename_i hcancelling
    have hover := h.lapsed n (.inr hcancelling)
    split at ht
    · rename_i hphase
      cases ht
      refine h.finish hover fun c hc => ?_
      rw [hphase] at hc
      cases hc
    · rename_i hphase
      cases ht
      refine h.finish hover fun c hc => ?_
      rw [hphase] at hc
      cases hc
    · rename_i item hphase
      cases ht
      refine (h.stop item).finish ?_ ?_
      · rw [stop_eq]
        exact hover
      · rw [stop_eq]
        exact stopped_of_draining hphase
    · cases ht
  · cases ht

/-! ## Runs -/

theorem Ok.connect {s : SerialCivLink} (h : Ok s) : Ok s.connect := by
  unfold SerialCivLink.connect
  cases hon : s.connected with
  | true => exact h
  | false => exact (h.reset hon).retiring _ _ (s.connecting + 1)

theorem Ok.connectOpened {s : SerialCivLink} (h : Ok s) : Ok s.connectOpened := by
  have hold : ∀ c, (s.calls c).submitted = true → (s.calls c).session ≠ s.opened :=
    fun c hc => Nat.ne_of_lt (h.captured c hc).1
  have hidle : ∀ c, (s.workers s.opened).phase ≠ .draining (.request c) := by
    intro c
    rw [h.unopened s.opened (Nat.le_refl _)]
    simp
  have hworkers : ∀ n, n ≠ s.opened → s.connectOpened.workers n = s.workers n :=
    fun n hn => setWorker_workers_of_ne s _ hn
  have hself : s.connectOpened.workers s.opened = { queue := s.writeQueue, phase := .created } :=
    setWorker_workers_self s _ _
  constructor
  · exact h.here
  · exact h.fresh
  · intro n hn
    cases hn
    exact Nat.lt_succ_self _
  · intro n hn
    rw [hworkers n (Nat.ne_of_gt hn)]
    exact h.unopened n (Nat.le_of_succ_le hn)
  · exact fun _ => ⟨s.opened, rfl, by rw [hself]; rfl⟩
  · intro n hn
    rcases eq_or_ne n s.opened with rfl | hne
    · rw [hself] at hn
      simp at hn
    · simp [writeSessionIsCurrent, SerialCivLink.connectOpened, hne.symm]
  · exact h.trying
  · exact h.sent
  · intro c hc
    obtain ⟨hlt, hq⟩ := h.captured c hc
    refine ⟨Nat.lt_succ_of_lt hlt, ?_⟩
    show (s.calls c).queue = (s.connectOpened.workers (s.calls c).session).queue
    rw [hworkers _ (hold c hc)]
    exact hq
  · exact h.queued
  · exact h.queuedOnce
  · intro c hc hp
    show .request c ∈ s.queues (s.calls c).queue ∨
      (s.connectOpened.workers (s.calls c).session).phase = .draining (.request c)
    rw [hworkers _ (hold c hc)]
    exact h.held c hc hp
  · intro n c hn
    rcases eq_or_ne n s.opened with rfl | hne
    · rw [hself] at hn
      cases hn
    · rw [hworkers n hne] at hn
      exact h.draining n c hn
  · intro c hc
    have hdr := h.started c hc
    show (s.connectOpened.workers (s.calls c).session).phase = .draining (.request c)
    rw [hworkers _ (fun he => hidle c (he ▸ hdr))]
    exact hdr
  · intro c hc hstop
    replace hstop : Stopped (s.connectOpened.workers (s.calls c).session) := hstop
    rw [hworkers _ (hold c hc)] at hstop
    exact h.stopped c hc hstop
  · exact h.once
  · exact h.current
  · exact h.written
  · exact h.returned

theorem Ok.step {s t : SerialCivLink} {a : Action} (h : Ok s) (ho : s.Orderly a)
    (ht : s.step a = some t) : Ok t := by
  cases a with
  | connect => cases ht; exact h.connect
  | connectOpened =>
      simp only [SerialCivLink.step] at ht
      split at ht
      · cases ht
        exact h.connectOpened
      · cases ht
  | connectFailed =>
      simp only [SerialCivLink.step] at ht
      split at ht
      · cases ht
        exact h.retiring s.retirement s.retired (s.connecting - 1)
      · cases ht
  | endOfStream => cases ht; exact h.endOfStream
  | disconnect => cases ht; exact h.disconnect ho
  | retirementJoined =>
      simp only [SerialCivLink.step] at ht
      split at ht
      · cases ht
      · split at ht
        · cases ht
          exact h.retiring none s.retired s.connecting
        · cases ht
  | send => cases ht; exact h.send
  | sendWritten answer => cases ht; exact h.sendWritten answer
  | resume c answer => exact h.resume ht
  | cancel c => exact h.cancel ht
  | workerBegin n => exact h.workerBegin ht
  | workerGet n answer outcome => exact h.workerGet ht
  | workerDrained n outcome =>
      simp only [SerialCivLink.step] at ht
      split at ht
      · rename_i item hphase
        cases ht
        exact h.afterWrite hphase outcome
      · cases ht
  | workerCancelled n => exact h.workerCancelled ht
  | workerSlept n =>
      simp only [SerialCivLink.step] at ht
      split at ht
      · rename_i hphase
        cases ht
        refine h.setPhase ?_ (by simp) (by simp) (by simp) fun c hc => ?_
        · rw [hphase.1]
          simp
        · rw [hphase.1] at hc
          cases hc
      · cases ht

/-- In every run whose disconnects find the queue of a worker before its first step, each request
is written at most once, by its own session while that is current and its guard passes; a call
returns after the drain of its write in that session; and a retired session leaves no request. -/
theorem safe_of_orderly {maxWriteQueue : Nat} {s : SerialCivLink} {actions : List Action}
    (hrun : Runs.exec step (init maxWriteQueue) actions = some s)
    (ho : Runs.Along step Orderly (init maxWriteQueue) actions) : s.Safe :=
  (Runs.exec_invariant_along (fun _ _ _ h hok hstep => Ok.step h hok hstep) hrun ho
    (Ok.init maxWriteQueue)).safe

/-- A call writes, drains and returns, and a second one waits in the queue when the session
retires. -/
def retiring : List Action :=
  [.connect, .connectOpened, .workerBegin 0, .sendWritten .passes, .workerGet 0 .passes .ok,
    .workerDrained 0 .ok, .resume 0 .passes, .sendWritten .passes, .disconnect, .workerCancelled 0,
    .resume 1 .passes]

theorem safe_of_orderly_retiring : ∃ s, Runs.exec step (init 64) retiring = some s ∧
    (s.calls 0).phase = .returned ∧ (s.calls 1).phase = .raised "Serial writer retired." ∧
    s.retired = [0] ∧ s.Safe := by
  have ho : Runs.Along step Orderly (init 64) retiring := by decide +kernel
  have hsome : (Runs.exec step (init 64) retiring).isSome = true := by decide +kernel
  obtain ⟨s, hrun⟩ := Option.isSome_iff_exists.mp hsome
  have hsafe := safe_of_orderly hrun ho
  cases hrun
  exact ⟨_, rfl, by decide +kernel, by decide +kernel, by decide +kernel, hsafe⟩

/-- The worker is cancelled before its first step, and the disconnect fails the queue of a
`connect` that has begun: the request of the session is left. -/
theorem left_in_queue :
    ¬ ∀ (maxWriteQueue : Nat) (actions : List Action) (s : SerialCivLink),
      Runs.exec step (init maxWriteQueue) actions = some s → s.Safe := by
  intro hall
  obtain ⟨s, hrun⟩ := Option.isSome_iff_exists.mp (show (Runs.exec step (init 64)
    [.connect, .connectOpened, .sendWritten .passes, .endOfStream, .connect, .disconnect,
      .workerBegin 0]).isSome = true from by decide +kernel)
  have hsafe := hall 64 _ s hrun
  cases hrun
  exact hsafe.completed 0 (by decide +kernel) (by decide +kernel) 0 (by decide +kernel)
    (by decide +kernel) (by decide +kernel)

end SerialCivLink

end Rigplane.SerialCiv
