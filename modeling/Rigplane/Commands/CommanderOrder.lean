import Rigplane.Commands.CommanderQueue

/-!
# The order of the commander

The worker executes one item at a time, the first of those that are queued (`Executes`).  A stop
closes the queue for the worker it finds: once that worker has ended, what was sent before is done
(`Stopped`).  A restart after the executor has ended the worker loses the items that are left.
-/

namespace Rigplane.Commands

namespace IcomCommander

variable {χ ρ ε : Type} {s s' : IcomCommander χ ρ ε}

/-! ## What closes the queue -/

/-- What a step does to the queue and the worker. -/
inductive QueueStep (s s' : IcomCommander χ ρ ε) : Prop where
  /-- At most the phase of the worker changes, or the first item is taken. -/
  | goes (seq : s'.seq = s.seq) (workers : s'.workers = s.workers)
      (queue : s'.queue = s.queue ∨ ∃ item rest, s.queue = some (item :: rest) ∧
        s'.queue = some rest)
      (worker : s'.worker = s.worker ∨ ∃ worker phase, s.worker = some worker ∧
        worker.done = false ∧ s'.worker = some { worker with phase })
      (held : ∀ item ∈ s'.held, item ∈ s.held)
  | starts (seq : s'.seq = s.seq) (workers : s'.workers = s.workers + 1)
      (worker : s'.worker = some { id := s.workers }) (queue : s'.queue = some [])
  | stops (seq : s'.seq = s.seq) (workers : s'.workers = s.workers) (worker : Worker χ ρ ε)
      (found : s.worker = some worker) (asked : s'.worker = some (askedToEnd worker))
      (queue : s'.queue = some []) (held : ∀ item ∈ s'.held, item ∈ s.held)
  | leaves (seq : s'.seq = s.seq) (workers : s'.workers = s.workers) (worker : s'.worker = none)
      (queue : s'.queue = none)
  | sends (admits : s.admits = true) (seq : s'.seq = s.seq + 1) (workers : s'.workers = s.workers)
      (worker : s'.worker = s.worker)
      (held : ∀ item ∈ s'.held, item ∈ s.held ∨ item.seq = s.seq + 1)

theorem SameQueue.queueStep (h : SameQueue s s') : QueueStep s s' :=
  .goes h.seq h.workers (.inl h.queue) (.inl h.worker) fun _ hitem => h.held ▸ hitem

theorem start_queueStep (s : IcomCommander χ ρ ε) : QueueStep s s.start := by
  rw [IcomCommander.start]
  split
  · exact .starts rfl rfl rfl rfl
  · split
    · exact .starts rfl rfl rfl rfl
    · exact (SameQueue.refl s).queueStep

theorem stop_queueStep (h : Queued s) : QueueStep s s.stop := by
  have hopened := h.opened
  cases hworker : s.worker with
  | none =>
      rw [hworker, Option.isSome_none, Option.isSome_eq_false_iff,
        Option.isNone_iff_eq_none] at hopened
      rw [stop_of_none hworker hopened]
      exact .goes rfl rfl (.inl rfl) (.inl rfl) fun _ hitem => hitem
  | some worker =>
      rw [hworker, Option.isSome_some, Option.isSome_iff_exists] at hopened
      obtain ⟨items, hqueue⟩ := hopened
      obtain ⟨m, hm, hstop⟩ := stop_of_worker hworker hqueue
      have hsame := drain_sameQueue items
        ({ s with queue := some [], worker := some (askedToEnd worker) } : IcomCommander χ ρ ε)
      rw [← hm] at hsame
      rw [hstop]
      refine .stops hsame.seq hsame.workers worker hworker hsame.worker hsame.queue
        fun item hitem => ?_
      have hnow : item ∈ m.queue.getD [] ++ m.executing.toList := hitem
      rw [hsame.queue, executing_askedToEnd hworker hsame.worker] at hnow
      exact List.mem_append_right _ hnow

theorem stopLeaves_queueStep {stopper : Nat} (hs' : s.stopLeaves stopper = some s') :
    QueueStep s s' := by
  rw [IcomCommander.stopLeaves] at hs'
  split at hs'
  · cases hs'
  · dsimp only at hs'
    split at hs'
    · cases hs'
      exact .leaves rfl rfl rfl rfl
    · cases hs'
      exact .goes rfl rfl (.inl rfl) (.inl rfl) fun _ hitem => hitem

theorem send_queueStep (s : IcomCommander χ ρ ε) (call task : Nat) (args : SendArgs χ) :
    QueueStep s (s.send call task args) := by
  rw [IcomCommander.send]
  split
  · exact (addCall_sameQueue s call _).queueStep
  rename_i hadmits
  split
  · exact (addCall_sameQueue s call _).queueStep
  · dsimp only
    split
    · exact .sends (Bool.not_eq_false _ ▸ hadmits) rfl rfl rfl fun item hitem => .inl hitem
    · refine .sends (Bool.not_eq_false _ ▸ hadmits) rfl rfl rfl fun item hitem => ?_
      rcases List.mem_append.mp hitem with hqueued | hexecuting
      · cases hqueue : s.queue with
        | none =>
            change item ∈ (s.queue.map (put (s.itemOf task args))).getD [] at hqueued
            rw [hqueue] at hqueued
            cases hqueued
        | some items =>
            change item ∈ (s.queue.map (put (s.itemOf task args))).getD [] at hqueued
            rw [hqueue] at hqueued
            rcases mem_put.mp hqueued with rfl | hold
            · exact .inr rfl
            · rw [held, hqueue]
              exact .inl (List.mem_append_left _ hold)
      · exact .inl (List.mem_append_right _ hexecuting)

theorem take_queueStep (hs' : s.take = some s') : QueueStep s s' := by
  obtain ⟨worker, item, rest, hworker, hqueue, hphase, -, ⟨-, rfl⟩ | ⟨-, rfl⟩⟩ := take_cases hs'
  · have hsame := leaveItem_sameQueue ({ s with queue := some rest } : IcomCommander χ ρ ε) item
    refine .goes hsame.seq hsame.workers (.inr ⟨item, rest, hqueue, hsame.queue⟩)
      (.inl hsame.worker) ?_
    intro other hother
    rw [hsame.held] at hother
    rw [held, hqueue]
    rcases List.mem_append.mp hother with hother | hother
    · exact List.mem_append_left _ (List.mem_cons_of_mem _ hother)
    · exact List.mem_append_right _ hother
  · have hsame := noteForeignDispatch_sameQueue
      ({ s with queue := some rest } : IcomCommander χ ρ ε)
      (some item.enqueuedBy) item.priority
    refine .goes hsame.seq hsame.workers (.inr ⟨item, rest, hqueue, hsame.queue⟩)
      (.inr ⟨worker, _, hworker, ?_, rfl⟩) ?_
    · rw [Worker.done, hphase]
    · intro other hother
      have hnow : other ∈ (({ s with queue := some rest } : IcomCommander χ ρ ε).noteForeignDispatch
          (some item.enqueuedBy) item.priority).queue.getD [] ++ [item] := hother
      rw [hsame.queue] at hnow
      rw [held, hqueue]
      refine List.mem_append_left _ ?_
      rcases List.mem_append.mp hnow with hrest | hitem
      · exact List.mem_cons_of_mem _ hrest
      · cases List.mem_singleton.mp hitem
        exact List.mem_cons_self

theorem executeEnds_queueStep {future : Nat} {execution : Execution ρ ε}
    (hs' : s.executeEnds future execution = some s') : QueueStep s s' := by
  obtain ⟨worker, item, hworker, hphase, -, rfl⟩ := executeEnds_cases hs'
  refine .goes rfl rfl (.inl rfl) (.inr ⟨worker, _, hworker, ?_, rfl⟩) fun other hother => ?_
  · rw [Worker.done, hphase]
  · rw [held, executing_of_phase hworker hphase]
    exact hother

theorem workerWakes_queueStep (hs' : s.workerWakes = some s') : QueueStep s s' := by
  obtain ⟨worker, hworker, ⟨hphase, -, rfl⟩ |
    ⟨item, execution, hphase, settled, next, hsettled, -, hnext, -, rfl⟩⟩ := workerWakes_cases hs'
  · refine .goes rfl rfl (.inl rfl) (.inr ⟨worker, _, hworker, ?_, rfl⟩) fun other hother => ?_
    · rw [Worker.done, hphase]
    · rw [held, executing_of_getting hworker hphase]
      exact hother
  · have hsame : SameQueue s settled := by
      rcases hsettled with rfl | ⟨value, -, rfl⟩
      · exact .refl _
      · exact settle_sameQueue s item.future value
    have hleft := hsame.trans (leaveItem_sameQueue settled item)
    refine .goes hleft.seq hleft.workers (.inl hleft.queue) (.inr ⟨worker, _, hworker, ?_, rfl⟩) ?_
    · rw [Worker.done, hphase]
    · intro other hother
      have hnow : other ∈ (settled.leaveItem item).queue.getD [] ++
          ((settled.leaveItem item).setPhase worker next).executing.toList := hother
      rw [executing_setPhase hnext, hleft.queue, Option.toList_none, List.append_nil] at hnow
      exact List.mem_append_left _ hnow

theorem ask_sameQueue {call : Nat} {asked : Asked} (hs' : s.ask call asked = some s') :
    SameQueue s s' := by
  rw [IcomCommander.ask] at hs'
  split at hs'
  · split at hs'
    · cases hs'
    · cases hs'
      exact (addCall_sameQueue s call _).trans (settle_sameQueue _ _ _)
  · cases hs'

theorem wake_sameQueue {call : Nat} (hs' : s.wake call = some s') : SameQueue s s' := by
  rw [IcomCommander.wake] at hs'
  split at hs'
  · obtain ⟨outcome, -, rfl⟩ := Option.map_eq_some_iff.mp hs'
    exact (addCall_sameQueue s call _).trans (callerGone_sameQueue _ _ _)
  · cases hs'

theorem queueStep (h : Queued s) {event : Event χ ρ ε} (hs' : s.step event = some s') :
    QueueStep s s' := by
  cases event with
  | start => exact Option.some.inj hs' ▸ start_queueStep s
  | stop => exact Option.some.inj hs' ▸ stop_queueStep h
  | stopLeaves stopper => exact stopLeaves_queueStep hs'
  | send call task args =>
      rw [IcomCommander.step] at hs'
      split at hs'
      · cases hs'
      · exact Option.some.inj hs' ▸ send_queueStep s call task args
  | timesOut call => exact (ask_sameQueue hs').queueStep
  | cancel call => exact (ask_sameQueue hs').queueStep
  | wake call => exact (wake_sameQueue hs').queueStep
  | take => exact take_queueStep hs'
  | executeEnds future execution => exact executeEnds_queueStep hs'
  | workerWakes => exact workerWakes_queueStep hs'
  | enterScope task =>
      cases hs'
      exact SameQueue.queueStep ⟨rfl, rfl, rfl, rfl, rfl⟩
  | exitScope scope =>
      cases hs'
      exact SameQueue.queueStep ⟨rfl, rfl, rfl, rfl, rfl⟩
  | foreignDispatch enqueuedBy priority =>
      cases hs'
      exact (noteForeignDispatch_sameQueue s enqueuedBy priority).queueStep

/-- Since a stop that has found a worker, or none: `seq` and `workers` are the counters it had. -/
structure Stopped (seq workers : Nat) (found : Option Nat) (s : IcomCommander χ ρ ε) : Prop where
  old : ∀ id, found = some id → id < workers
  later : seq ≤ s.seq ∧ workers ≤ s.workers
  /-- Where it is not started again, nothing is sent. -/
  quiet : s.workers = workers →
    s.seq = seq ∧ ∀ worker, s.worker = some worker → some worker.id = found
  closed : ∀ worker, s.worker = some worker → some worker.id = found →
    s.queue = some [] ∧ (worker.cancelling = true ∨ worker.done = true)
  /-- What was sent before, and is to do, the worker executes. -/
  items : ∀ item ∈ s.held, item.seq ≤ seq →
    ∃ worker, s.worker = some worker ∧ some worker.id = found

variable {seq workers : Nat} {found : Option Nat}

theorem Stopped.stop (h : Queued s) :
    Stopped s.seq s.workers (s.worker.map Worker.id) s.stop := by
  have hopened := h.opened
  cases hworker : s.worker with
  | none =>
      rw [hworker, Option.isSome_none, Option.isSome_eq_false_iff,
        Option.isNone_iff_eq_none] at hopened
      rw [stop_of_none hworker hopened]
      refine ⟨fun id hid => (by cases hid), ⟨Nat.le_refl _, Nat.le_refl _⟩,
        fun _ => ⟨rfl, ?_⟩, ?_, ?_⟩
      · intro worker hfound
        rw [hworker] at hfound
        cases hfound
      · intro worker hfound
        rw [hworker] at hfound
        cases hfound
      · intro item hitem
        have hheld : item ∈ s.held := hitem
        rw [held_of_none h hworker] at hheld
        cases hheld
  | some worker =>
      rw [hworker, Option.isSome_some, Option.isSome_iff_exists] at hopened
      obtain ⟨items, hqueue⟩ := hopened
      obtain ⟨m, hm, hstop⟩ := stop_of_worker hworker hqueue
      obtain ⟨hid, -, hends⟩ := askedToEnd_spec worker
      have hsame := drain_sameQueue items
        ({ s with queue := some [], worker := some (askedToEnd worker) } : IcomCommander χ ρ ε)
      rw [← hm] at hsame
      have hnow : ∀ other, s.stop.worker = some other → other = askedToEnd worker := by
        intro other hother
        rw [hstop] at hother
        exact (Option.some.inj (hsame.worker.symm.trans hother)).symm
      have hworker' : s.stop.worker = some (askedToEnd worker) := by
        rw [hstop]
        exact hsame.worker
      have hworkers : s.stop.workers = s.workers := by
        rw [hstop]
        exact hsame.workers
      have hseq : s.stop.seq = s.seq := by
        rw [hstop]
        exact hsame.seq
      refine ⟨?_, ⟨Nat.le_of_eq hseq.symm, Nat.le_of_eq hworkers.symm⟩, fun _ => ⟨hseq, ?_⟩, ?_, ?_⟩
      · intro id hfound
        cases hfound
        exact h.ids worker hworker
      · intro other hother
        rw [hnow other hother, hid]
        rfl
      · intro other hother _
        rw [hnow other hother, hstop]
        exact ⟨hsame.queue, hends⟩
      · intro item _ _
        exact ⟨_, hworker', by rw [hid]; rfl⟩

theorem Stopped.step (h : Stopped seq workers found s) (hmove : QueueStep s s') :
    Stopped seq workers found s' := by
  cases hmove with
  | goes hseq hworkers hqueue hworker hheld =>
      have hback : ∀ now, s'.worker = some now → ∃ before, s.worker = some before ∧
          now.id = before.id ∧ now.cancelling = before.cancelling ∧
          (before.done = true → now.done = true) := by
        intro now hnow
        rcases hworker with hsame | ⟨worker, phase, hbefore, hlive, hafter⟩
        · exact ⟨now, hsame ▸ hnow, rfl, rfl, fun hdone => hdone⟩
        · rw [hafter] at hnow
          cases hnow
          refine ⟨worker, hbefore, rfl, rfl, fun hdone => ?_⟩
          rw [hlive] at hdone
          cases hdone
      refine ⟨h.old, ⟨hseq ▸ h.later.1, hworkers ▸ h.later.2⟩, fun hquiet => ?_, ?_, ?_⟩
      · obtain ⟨hsent, hfound⟩ := h.quiet (hworkers ▸ hquiet)
        refine ⟨hseq.trans hsent, fun now hnow => ?_⟩
        obtain ⟨before, hbefore, hid, -⟩ := hback now hnow
        rw [hid]
        exact hfound before hbefore
      · intro now hnow hid'
        obtain ⟨before, hbefore, hid, hcancelling, hdone⟩ := hback now hnow
        obtain ⟨hempty, hends⟩ := h.closed before hbefore (hid ▸ hid')
        refine ⟨?_, ?_⟩
        · rcases hqueue with hsame | ⟨item, rest, hitems, -⟩
          · exact hsame.trans hempty
          · rw [hempty] at hitems
            cases hitems
        · rw [hcancelling]
          exact hends.imp_right hdone
      · intro item hitem hle
        obtain ⟨worker, hbefore, hid⟩ := h.items item (hheld item hitem) hle
        rcases hworker with hsame | ⟨worker', phase, hbefore', -, hafter⟩
        · exact ⟨worker, hsame.trans hbefore, hid⟩
        · rw [hbefore] at hbefore'
          cases hbefore'
          exact ⟨_, hafter, hid⟩
  | starts hseq hworkers hworker hqueue =>
      refine ⟨h.old, ⟨hseq ▸ h.later.1, ?_⟩, fun hquiet => ?_, ?_, ?_⟩
      · rw [hworkers]
        exact Nat.le_succ_of_le h.later.2
      · have hlater := h.later.2
        omega
      · intro now hnow hid
        rw [hworker] at hnow
        cases hnow
        have hold := h.old _ hid.symm
        have hlater := h.later.2
        exact absurd hold (Nat.not_lt_of_le hlater)
      · intro item hitem
        rw [held, hqueue, executing, hworker] at hitem
        cases hitem
  | stops hseq hworkers worker hworker hasked hqueue hheld =>
      obtain ⟨hid, hdone, hends⟩ := askedToEnd_spec worker
      refine ⟨h.old, ⟨hseq ▸ h.later.1, hworkers ▸ h.later.2⟩, fun hquiet => ?_, ?_, ?_⟩
      · obtain ⟨hsent, hfound⟩ := h.quiet (hworkers ▸ hquiet)
        refine ⟨hseq.trans hsent, fun now hnow => ?_⟩
        rw [hasked] at hnow
        cases hnow
        rw [hid]
        exact hfound worker hworker
      · intro now hnow _
        rw [hasked] at hnow
        cases hnow
        exact ⟨hqueue, hends⟩
      · intro item hitem hle
        obtain ⟨before, hbefore, hfound⟩ := h.items item (hheld item hitem) hle
        rw [hworker] at hbefore
        cases hbefore
        exact ⟨_, hasked, hid ▸ hfound⟩
  | leaves hseq hworkers hworker hqueue =>
      refine ⟨h.old, ⟨hseq ▸ h.later.1, hworkers ▸ h.later.2⟩, fun hquiet => ?_, ?_, ?_⟩
      · refine ⟨hseq.trans (h.quiet (hworkers ▸ hquiet)).1, fun now hnow => ?_⟩
        rw [hworker] at hnow
        cases hnow
      · intro now hnow
        rw [hworker] at hnow
        cases hnow
      · intro item hitem
        rw [held, hqueue, executing, hworker] at hitem
        cases hitem
  | sends hadmits hseq hworkers hworker hheld =>
      obtain ⟨worker, items, hfound, -, hcancelling, hdone⟩ := open_of_admits hadmits
      have hother : some worker.id ≠ found := by
        intro hid
        obtain ⟨-, hends⟩ := h.closed worker hfound hid
        rw [hcancelling, hdone] at hends
        rcases hends with hends | hends <;> cases hends
      refine ⟨h.old, ⟨?_, hworkers ▸ h.later.2⟩, fun hquiet => ?_, ?_, ?_⟩
      · rw [hseq]
        exact Nat.le_succ_of_le h.later.1
      · exact absurd ((h.quiet (hworkers ▸ hquiet)).2 worker hfound) hother
      · intro now hnow hid
        rw [hworker, hfound] at hnow
        cases hnow
        exact absurd hid hother
      · intro item hitem hle
        rcases hheld item hitem with hold | hnew
        · rw [hworker]
          exact h.items item hold hle
        · have hlater := h.later.1
          omega

/-- Once the worker has ended, nothing that was sent before is to do. -/
theorem Stopped.ended (h : Stopped seq workers found s)
    (hended : ∀ worker, s.worker = some worker → some worker.id = found → worker.done = true)
    {item : QueueItem χ} (hitem : item ∈ s.held) : seq < item.seq := by
  by_contra hle
  obtain ⟨worker, hworker, hid⟩ := h.items item hitem (Nat.le_of_not_lt hle)
  obtain ⟨hqueue, -⟩ := h.closed worker hworker hid
  rw [held, hqueue, executing_of_done hworker (hended worker hworker hid)] at hitem
  cases hitem

/-! ## What the executor has -/

/-- How a step hands items to the executor. -/
structure Executes (s : IcomCommander χ ρ ε) (event : Event χ ρ ε) (s' : IcomCommander χ ρ ε) :
    Prop where
  begins : ∀ item, s'.running = some item → s.running = some item ∨ event = .take
  ends : ∀ item, s.running = some item →
    s'.running = some item ∨ ∃ execution, event = .executeEnds item.future execution
  /-- The item that is taken is the first of those that are queued, and nothing is executed. -/
  picks : event = .take → s.executing = none ∧ ∃ item rest, s.queue = some (item :: rest) ∧
    (∀ other ∈ rest, item.Before other) ∧ s'.queue = some rest ∧
    s'.running = if (s.futures item.future).done then none else some item

theorem running_of_worker (h : s'.worker = s.worker) : s'.running = s.running := by
  rw [running, running, h]

theorem running_of_phase {worker : Worker χ ρ ε} {item : QueueItem χ}
    (hworker : s.worker = some worker)
    (hphase : worker.phase = .executing item none) : s.running = some item := by
  rw [running, hworker]
  dsimp only
  rw [hphase]

/-- Where the executor has nothing. -/
theorem running_of_idle {worker : Worker χ ρ ε} (hworker : s.worker = some worker)
    (hphase : ∀ item, worker.phase ≠ .executing item none) : s.running = none := by
  rw [running, hworker]
  dsimp only
  split
  · rename_i item heq
    exact absurd heq (hphase item)
  · rfl

/-- A step that is neither a `take` nor the end of an execution leaves the executor alone. -/
theorem Executes.same {event : Event χ ρ ε} (hrunning : s'.running = s.running)
    (htake : event ≠ .take) : Executes s event s' where
  begins := fun _ hitem => .inl (hrunning ▸ hitem)
  ends := fun _ hitem => .inl (hrunning.trans hitem)
  picks := fun htake' => absurd htake' htake

theorem running_askedToEnd {worker : Worker χ ρ ε} (hworker : s.worker = some worker)
    (hworker' : s'.worker = some (askedToEnd worker)) : s'.running = s.running := by
  rw [running, running, hworker, hworker', askedToEnd]
  dsimp only
  by_cases hlive : worker.done = false ∧ worker.cancelling = false
  · rw [if_pos hlive]
    obtain ⟨id, phase, cancelling⟩ := worker
    rcases phase with _ | ⟨item, _ | ended⟩ | _ <;> rfl
  · rw [if_neg hlive]

theorem running_of_done {worker : Worker χ ρ ε} (hworker : s.worker = some worker)
    (hdone : worker.done = true) : s.running = none := by
  refine running_of_idle hworker fun item hphase => ?_
  rw [Worker.done, hphase] at hdone
  cases hdone

theorem start_running (s : IcomCommander χ ρ ε) : s.start.running = s.running := by
  rw [IcomCommander.start]
  split
  · rename_i hworker
    rw [running, running, hworker]
  · rename_i worker hworker
    split
    · rename_i hdone
      rw [running_of_done hworker hdone]
      rfl
    · rfl

theorem stop_worker (s : IcomCommander χ ρ ε) : s.stop.worker = s.worker.map askedToEnd := by
  rw [stop_eq, drained]
  split
  · rfl
  · rename_i items _
    exact (drain_sameQueue items _).worker

theorem stop_running (s : IcomCommander χ ρ ε) : s.stop.running = s.running := by
  have hworker' := stop_worker s
  cases hworker : s.worker with
  | none =>
      rw [hworker] at hworker'
      exact running_of_worker (hworker'.trans hworker.symm)
  | some worker =>
      rw [hworker] at hworker'
      exact running_askedToEnd hworker hworker'

theorem stopLeaves_running {stopper : Nat} (hs' : s.stopLeaves stopper = some s') :
    s'.running = s.running := by
  rw [IcomCommander.stopLeaves] at hs'
  split at hs'
  · cases hs'
  · dsimp only at hs'
    split at hs'
    · rename_i hended
      cases hs'
      cases hworker : s.worker with
      | none => rw [running, running, hworker]
      | some worker =>
          rw [hworker] at hended
          rw [running_of_done hworker hended.2]
          rfl
    · cases hs'
      rfl

theorem send_running (s : IcomCommander χ ρ ε) (call task : Nat) (args : SendArgs χ) :
    (s.send call task args).running = s.running := by
  rw [IcomCommander.send]
  split
  · rfl
  split
  · rfl
  · dsimp only
    split
    · rfl
    · rfl

theorem take_executes (h : Queued s) (hs' : s.take = some s') : Executes s .take s' := by
  obtain ⟨worker, item, rest, hworker, hqueue, hphase, -, hcases⟩ := take_cases hs'
  have hidle : s.running = none := by
    refine running_of_idle hworker fun other heq => ?_
    rw [hphase] at heq
    cases heq
  have hsorted := h.sorted
  rw [hqueue] at hsorted
  refine ⟨fun _ _ => .inr rfl, fun other hother => ?_, fun _ => ?_⟩
  · rw [hidle] at hother
    cases hother
  · refine ⟨executing_of_getting hworker hphase, item, rest, hqueue,
      (List.pairwise_cons.mp hsorted).1, ?_⟩
    rcases hcases with ⟨hdone, rfl⟩ | ⟨hpending, rfl⟩
    · have hsame := leaveItem_sameQueue ({ s with queue := some rest } : IcomCommander χ ρ ε) item
      refine ⟨hsame.queue, ?_⟩
      rw [running_of_worker hsame.worker, if_pos hdone]
      exact hidle
    · have hsame := noteForeignDispatch_sameQueue
        ({ s with queue := some rest } : IcomCommander χ ρ ε)
        (some item.enqueuedBy) item.priority
      refine ⟨hsame.queue, ?_⟩
      rw [hpending]
      rfl

theorem executeEnds_executes {future : Nat} {execution : Execution ρ ε}
    (hs' : s.executeEnds future execution = some s') :
    Executes s (.executeEnds future execution) s' := by
  obtain ⟨worker, item, hworker, hphase, rfl, rfl⟩ := executeEnds_cases hs'
  refine ⟨fun other hother => (by cases hother), fun other hother => ?_,
    fun htake => (by cases htake)⟩
  rw [running_of_phase hworker hphase] at hother
  cases hother
  exact .inr ⟨execution, rfl⟩

theorem workerWakes_running (hs' : s.workerWakes = some s') : s'.running = s.running := by
  obtain ⟨worker, hworker, ⟨hphase, -, rfl⟩ |
    ⟨item, execution, hphase, settled, next, -, -, hnext, -, rfl⟩⟩ := workerWakes_cases hs'
  · rw [running_of_idle hworker fun other heq => by rw [hphase] at heq; cases heq]
    rfl
  · rw [running_of_idle hworker fun other heq => by rw [hphase] at heq; cases heq]
    rcases hnext with rfl | rfl
    · rfl
    · rfl

/-- Only a `take` and the end of an execution change what the executor has. -/
theorem step_running {event : Event χ ρ ε} (hs' : s.step event = some s') (htake : event ≠ .take)
    (hends : ∀ future execution, event ≠ .executeEnds future execution) :
    s'.running = s.running := by
  cases event with
  | start => exact Option.some.inj hs' ▸ start_running s
  | stop => exact Option.some.inj hs' ▸ stop_running s
  | stopLeaves stopper => exact stopLeaves_running hs'
  | send call task args =>
      rw [IcomCommander.step] at hs'
      split at hs'
      · cases hs'
      · exact Option.some.inj hs' ▸ send_running s call task args
  | timesOut call => exact running_of_worker (ask_sameQueue hs').worker
  | cancel call => exact running_of_worker (ask_sameQueue hs').worker
  | wake call => exact running_of_worker (wake_sameQueue hs').worker
  | take => exact absurd rfl htake
  | executeEnds future execution => exact absurd rfl (hends future execution)
  | workerWakes => exact workerWakes_running hs'
  | enterScope task => exact Option.some.inj hs' ▸ rfl
  | exitScope scope => exact Option.some.inj hs' ▸ rfl
  | foreignDispatch enqueuedBy priority =>
      cases hs'
      exact running_of_worker (noteForeignDispatch_sameQueue s enqueuedBy priority).worker

/-- Every step executes in order. -/
theorem executes (h : Queued s) {event : Event χ ρ ε} (hs' : s.step event = some s') :
    Executes s event s' := by
  by_cases htake : event = .take
  · subst htake
    exact take_executes h hs'
  · by_cases hends : ∃ future execution, event = .executeEnds future execution
    · obtain ⟨future, execution, rfl⟩ := hends
      exact executeEnds_executes hs'
    · refine .same (step_running hs' htake fun future execution heq => ?_) htake
      exact hends ⟨future, execution, heq⟩

/-! ## Runs -/

/-- The worker that a stop has found before has ended. -/
def HasEnded (before s : IcomCommander χ ρ ε) : Prop :=
  ∀ worker, s.worker = some worker → some worker.id = before.worker.map Worker.id →
    worker.done = true

/-- The queue at the end of a run. -/
structure Orderly (run : List (Event χ ρ ε)) (s : IcomCommander χ ρ ε) : Prop where
  count : s.bgInflight = s.held.countP QueueItem.capped
  bound : s.bgInflight ≤ maxBgInflight
  keys : ∀ key future, s.pendingByKey.get? key = some future →
    (s.futures future).done = true ∨ ∃ item ∈ s.held, item.future = future
  executes : ∀ event s', s.step event = some s' → Executes s event s'
  /-- Once a stop has waited for the worker, what was sent before is done, and everything is where
  the commander is not started again. -/
  stopped : ∀ pre mid before, run = pre ++ .stop :: mid →
    Runs.exec IcomCommander.step {} pre = some before → HasEnded before s →
    ∀ call state request, s.calls call = some state → state.request = some request →
      request.future ≤ before.seq ∨ s.workers = before.workers →
      (s.futures request.future).done = true

theorem Accounted.exec (h : Accounted s) {events : List (Event χ ρ ε)}
    (hs' : Runs.exec IcomCommander.step s events = some s')
    (hkeeps : Runs.Along IcomCommander.step KeepsQueue s events) : Accounted s' :=
  Runs.exec_invariant_along (fun _ _ _ hm hevent hs => hm.step hevent hs) hs' hkeeps h

theorem Stopped.exec {seq workers : Nat} {found : Option Nat} (h : Stopped seq workers found s)
    (hs : Accounted s) {events : List (Event χ ρ ε)}
    (hs' : Runs.exec IcomCommander.step s events = some s')
    (hkeeps : Runs.Along IcomCommander.step KeepsQueue s events) :
    Stopped seq workers found s' := by
  have hboth := Runs.exec_invariant_along (I := fun m => Accounted m ∧ Stopped seq workers found m)
    (fun m event m' hm hevent hstep =>
      ⟨hm.1.step hevent hstep, hm.2.step (queueStep hm.1.queued hstep)⟩) hs' hkeeps ⟨hs, h⟩
  exact hboth.2

end IcomCommander

open IcomCommander

variable {χ ρ ε : Type} {s : IcomCommander χ ρ ε}

/-- Where no restart drops items that are left, the commander is orderly. -/
theorem orderly_of_keepsQueue {events : List (Event χ ρ ε)}
    (hs : Runs.exec IcomCommander.step {} events = some s)
    (hkeeps : Runs.Along IcomCommander.step KeepsQueue {} events) : Orderly events s := by
  have haccounted : Accounted s := Accounted.initial.exec hs hkeeps
  have hcounted := haccounted.counted
  refine ⟨?_, hcounted.bound, ?_, fun event s' => executes haccounted.queued, ?_⟩
  · rw [hcounted.count]
    refine List.countP_congr fun item hitem => ?_
    rw [(hcounted.known item hitem).2.2]
  · exact fun key future hkey => (hcounted.keys key future hkey).2
  · rintro pre mid before rfl hpre hended call state request hcall hrequest hsent
    obtain ⟨m, n, hm, hstop, hmid⟩ := Runs.exec_mid_eq_some.mp hs
    rw [hpre] at hm
    cases hm
    cases hstop
    obtain ⟨hbefore, hrest⟩ := hkeeps.append hpre
    have hfound : Accounted before := Accounted.initial.exec hpre hbefore
    have hstopped := (Stopped.stop hfound.queued).exec hfound.stop hmid (hrest.cons rfl).2
    obtain ⟨hle, hdone | ⟨item, hitem, heq⟩⟩ := hcounted.calls call state request hcall hrequest
    · exact hdone
    · have hlater := hstopped.ended hended hitem
      have hfuture := (hcounted.known item hitem).1
      have hquiet := hstopped.quiet
      omega

/-- A commander is stopped while the executor has a frame, a capped frame is queued behind one of a
higher priority, and a call is cancelled; it is started again before the stop ends. -/
def stoppedBusy : List (Event Unit Nat Unit) :=
  [.start,
    .send 0 0 { payload := [], key := some "freq" },
    .take,
    .send 1 1 { payload := [], priority := .background, waitDispatch := false, key := some "poll" },
    .send 2 2 { payload := [], priority := .immediate },
    .send 3 3 { payload := [], key := some "mode" },
    .cancel 3, .wake 3, .executeEnds 1 (.returned 7), .workerWakes, .take, .stop,
    .executeEnds 3 .cancelled, .workerWakes, .start, .stopLeaves 0,
    .send 4 4 { payload := [], priority := .background, waitDispatch := false, key := some "poll" }]

theorem orderly_stoppedBusy :
    ∃ s, Runs.exec IcomCommander.step {} stoppedBusy = some s ∧ Orderly stoppedBusy s :=
  ⟨_, rfl, orderly_of_keepsQueue rfl (by decide)⟩

/-- The executor ends the frame of one poll with a cancellation of its own, while another poll is
queued, and the commander is started again. -/
def restartedAfterEnd : List (Event Unit Nat Unit) :=
  [.start,
    .send 0 0 { payload := [], priority := .background, waitDispatch := false, key := some "freq" },
    .send 1 0 { payload := [], priority := .background, waitDispatch := false, key := some "mode" },
    .take, .executeEnds 1 .cancelled, .workerWakes, .start]

/-- Nothing is queued or executed, but one frame is counted. -/
theorem restartedAfterEnd_not_orderly :
    ∃ s, Runs.exec IcomCommander.step {} restartedAfterEnd = some s ∧
      ¬ Orderly restartedAfterEnd s := by
  refine ⟨_, rfl, fun h => ?_⟩
  cases h.count

end Rigplane.Commands
