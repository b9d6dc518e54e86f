import Rigplane.Poller.EntryCall

/-!
# What the execution of a queue entry leaves behind

`Tracked` says, await by await, what is known of the child and of the reply; every action keeps it.
When the call ends, the child is done, the reply is settled and the submission has ended
(`Finished`), but for three ways through the call: two that do not look at the submission, and a
cancellation that takes the place of the reply's exception (`Orderly`).
-/

namespace Rigplane.Poller

open EntryCall

variable {α ε : Type} {s t : EntryCall α ε}

/-! ## Settling the reply -/

/-- The reply is done, or there is none. -/
def Answered (s : EntryCall α ε) : Prop := ∀ r, s.reply = some r → r.isDone = true

theorem settle_of_done {r reply : Reply α ε} (h : s.reply = some r) (hdone : r.isDone = true) :
    s.settle reply = s := by
  rw [settle, h]
  cases r with
  | pending => cases hdone
  | _ => rfl

theorem settle_child (reply : Reply α ε) (s : EntryCall α ε) :
    (s.settle reply).child = s.child := by
  rw [settle]
  split <;> rfl

theorem settle_submission (reply : Reply α ε) (s : EntryCall α ε) :
    (s.settle reply).submission = s.submission := by
  rw [settle]
  split <;> rfl

theorem settle_byOthers (reply : Reply α ε) (s : EntryCall α ε) :
    (s.settle reply).byOthers = s.byOthers := by
  rw [settle]
  split <;> rfl

/-- The reply afterwards: the new one if it was pending. -/
theorem settle_reply {reply r : Reply α ε} (h : (s.settle reply).reply = some r) :
    s.reply = some .pending ∧ r = reply ∨ s.reply = some r ∧ r.isDone = true := by
  rw [settle] at h
  split at h
  · rename_i hpending
    exact .inl ⟨hpending, (Option.some.inj h).symm⟩
  · rename_i hnot
    refine .inr ⟨h, ?_⟩
    cases r with
    | pending => exact absurd h hnot
    | _ => rfl

theorem settle_answered {reply : Reply α ε} (hdone : reply.isDone = true) :
    Answered (s.settle reply) := by
  intro r hr
  rcases settle_reply hr with ⟨-, rfl⟩ | ⟨-, h⟩
  · exact hdone
  · exact h

/-! ## What is known at an await -/

def Known (s : EntryCall α ε) : CallPhase ε → Prop
  | .entering => s.child = .absent
  | .joining | .rejoining => s.child ≠ .absent
  | .clearing .ofCancelledReply => s.child = .absent ∧ Answered s
  | .clearing .ofCancellation => s.child.isDone = true ∧ Answered s
  | .clearing (.ofException e) => s.child = .done (.raised e)
  | .ended _ => True

/-- What others settled stays, and what the call settles before its end is a cancellation. -/
structure Settles (s : EntryCall α ε) : Prop where
  kept : ∀ r, s.byOthers = some r → s.reply = some r ∧ r.isDone = true
  skipped : s.child = .done .skipped → s.reply = some .cancelled

structure Tracked (s : EntryCall α ε) : Prop extends Settles s where
  known : Known s s.phase
  own : (∀ ending, s.phase ≠ .ended ending) → s.byOthers = none →
    ∀ r, s.reply = some r → r = .pending ∨ r = .cancelled

theorem Settles.settle (h : Settles s) (reply : Reply α ε) : Settles (s.settle reply) where
  kept r hr := by
    rw [settle_byOthers] at hr
    obtain ⟨hreply, hdone⟩ := h.kept r hr
    rw [settle_of_done hreply hdone]
    exact ⟨hreply, hdone⟩
  skipped hskipped := by
    rw [settle_child] at hskipped
    have hreply := h.skipped hskipped
    rw [settle_of_done hreply rfl]
    exact hreply

/-- The end of the call. -/
theorem Settles.finish (h : Settles s) (ending : Ending ε) : Tracked (s.finish ending) where
  kept := h.kept
  skipped := h.skipped
  known := trivial
  own hgoes := absurd rfl (hgoes ending)

/-- The next await. -/
theorem Tracked.await (h : Tracked s) (hgoes : ∀ ending, s.phase ≠ .ended ending)
    {phase : CallPhase ε} (hknown : Known (s.await phase) phase) : Tracked (s.await phase) where
  kept := h.kept
  skipped := h.skipped
  known := hknown
  own _ := h.own hgoes

theorem cancelChild_child (s : EntryCall α ε) : s.cancelChild.child = s.child := by
  rw [cancelChild]
  split <;> rfl

/-- A step that leaves the child and the reply. -/
theorem Tracked.same (h : Tracked s) (hphase : t.phase = s.phase) (hchild : t.child = s.child)
    (hreply : t.reply = s.reply) (hbyOthers : t.byOthers = s.byOthers) : Tracked t where
  kept := by rw [hreply, hbyOthers]; exact h.kept
  skipped := by rw [hreply, hchild]; exact h.skipped
  known := by
    have hknown := h.known
    rw [hphase]
    cases hs : s.phase with
    | clearing cleanup =>
        rw [hs] at hknown
        cases cleanup <;> simpa only [Known, Answered, hchild, hreply] using hknown
    | entering | joining | rejoining =>
        rw [hs] at hknown
        simpa only [Known, hchild] using hknown
    | _ => simp only [Known]
  own := by rw [hphase, hreply, hbyOthers]; exact h.own

theorem Tracked.cancelChild (h : Tracked s) : Tracked s.cancelChild := by
  rw [EntryCall.cancelChild]
  split
  · exact h
  · exact h.same rfl rfl rfl rfl

/-- The child moves on. -/
theorem Tracked.child (h : Tracked s) (hgoing : s.child ≠ .absent ∧ s.child.isDone = false)
    {child : Child α ε} (hchild : child ≠ .absent)
    (hskipped : child = .done .skipped → s.reply = some .cancelled) :
    Tracked { s with child := child } where
  kept := h.kept
  skipped := hskipped
  known := by
    have hknown := h.known
    show Known { s with child := child } s.phase
    cases hs : s.phase with
    | entering =>
        rw [hs] at hknown
        exact absurd hknown hgoing.1
    | joining => exact hchild
    | rejoining => exact hchild
    | ended => trivial
    | clearing cleanup =>
        rw [hs] at hknown
        cases cleanup with
        | ofCancelledReply => exact absurd hknown.1 hgoing.1
        | ofCancellation =>
            rw [hknown.1] at hgoing
            cases hgoing.2
        | ofException e =>
            have hraised : s.child = .done (.raised e) := hknown
            rw [hraised] at hgoing
            cases hgoing.2
  own := h.own

theorem Tracked.childEnds {leaf : Leaf α ε} (h : Tracked s)
    (hstep : childEnds leaf s = some t) (hleaf : leaf ≠ .skipped) : Tracked t := by
  rw [Poller.childEnds] at hstep
  split at hstep
  · rename_i hrunning
    cases hstep
    refine h.child ⟨by rw [hrunning]; nofun, by rw [hrunning]; rfl⟩ nofun fun hskipped => ?_
    cases hskipped
    exact absurd rfl hleaf
  · cases hstep

theorem replyCancelled_iff : s.replyCancelled = true ↔ s.reply = some .cancelled := by
  rw [replyCancelled]
  cases s.reply with
  | none => simp
  | some r => cases r <;> simp [Reply.isCancelled]

theorem Tracked.invoke (h : Tracked s) (hcreated : s.child = .created) : Tracked s.invoke := by
  have hgoing : s.child ≠ .absent ∧ s.child.isDone = false := by
    rw [hcreated]
    exact ⟨nofun, rfl⟩
  rw [EntryCall.invoke]
  split
  · exact h.child hgoing nofun nofun
  · split
    · rename_i hcancelled
      exact h.child hgoing nofun fun _ => replyCancelled_iff.mp hcancelled
    · exact h.child hgoing nofun nofun

/-! ## The steps of the call -/

theorem Tracked.enter (h : Tracked s) (hphase : s.phase = .entering) : Tracked s.enter := by
  have hgoes : ∀ ending, s.phase ≠ .ended ending := by
    rw [hphase]
    nofun
  have habsent : s.child = .absent := by
    have hknown := h.known
    rw [hphase] at hknown
    exact hknown
  rw [EntryCall.enter]
  split
  · rename_i hcancelled
    have hreply := replyCancelled_iff.mp hcancelled
    split
    · refine h.await hgoes ⟨habsent, fun r hr => ?_⟩
      change s.reply = some r at hr
      rw [hreply] at hr
      cases hr
      rfl
    · exact h.toSettles.finish .returned
  · exact ⟨⟨h.kept, nofun⟩, nofun, fun _ => h.own hgoes⟩

theorem Tracked.afterRejoin (h : Tracked s) (hgoes : ∀ ending, s.phase ≠ .ended ending)
    (hdone : s.child.isDone = true) : Tracked s.afterRejoin := by
  rw [EntryCall.afterRejoin]
  split
  · refine ⟨⟨(h.settle _).kept, (h.settle _).skipped⟩, ?_, fun _ hby r hr => ?_⟩
    · exact ⟨(settle_child _ s).symm ▸ hdone, settle_answered rfl⟩
    · rcases settle_reply hr with ⟨-, rfl⟩ | ⟨hr, -⟩
      · exact .inr rfl
      · exact h.own hgoes ((settle_byOthers _ s).symm.trans hby) r hr
  · exact (h.settle _).finish _

theorem Tracked.rejoin (h : Tracked s) (hgoes : ∀ ending, s.phase ≠ .ended ending)
    (hchild : s.child ≠ .absent) : Tracked s.rejoin := by
  rw [EntryCall.rejoin]
  split
  · rename_i hdone
    exact h.afterRejoin hgoes hdone
  · exact h.await hgoes hchild

theorem Tracked.joined (h : Tracked s) (hphase : s.phase = .joining) : Tracked s.joined := by
  have hgoes : ∀ ending, s.phase ≠ .ended ending := by
    rw [hphase]
    nofun
  have hchild : s.child ≠ .absent := by
    have hknown := h.known
    rw [hphase] at hknown
    exact hknown
  rw [EntryCall.joined]
  split
  · split
    · refine h.cancelChild.rejoin ?_ (cancelChild_child s ▸ hchild)
      rw [EntryCall.cancelChild]
      split
      · exact hgoes
      · exact hgoes
    · exact h.rejoin hgoes hchild
  · split
    · exact (h.settle _).finish _
    · exact (h.settle _).finish _
    · exact (h.settle _).finish _
    · rename_i hraised
      split
      · exact h.await hgoes hraised
      · exact (h.settle _).finish _
    · exact h

theorem Tracked.cleared (h : Tracked s) (cleanup : Cleanup ε) : Tracked (s.cleared cleanup) := by
  cases cleanup with
  | ofCancelledReply => exact h.toSettles.finish _
  | ofCancellation => exact h.toSettles.finish _
  | ofException e =>
      rw [EntryCall.cleared]
      split
      · exact h.toSettles.finish _
      · exact (h.settle _).finish _

theorem Tracked.resume (h : Tracked s) (hresume : s.resume = some t) : Tracked t := by
  rw [EntryCall.resume] at hresume
  split at hresume
  · rename_i hphase
    cases hresume
    exact h.enter hphase
  · rename_i hphase
    obtain ⟨-, heq⟩ := Option.ite_none_right_eq_some.mp hresume
    cases heq
    exact h.joined hphase
  · rename_i hphase
    obtain ⟨-, heq⟩ := Option.ite_none_right_eq_some.mp hresume
    cases heq
    have hknown := h.known
    rw [hphase] at hknown
    exact h.rejoin (by rw [hphase]; nofun) hknown
  · obtain ⟨-, heq⟩ := Option.ite_none_right_eq_some.mp hresume
    cases heq
    exact h.cleared _
  · cases hresume

/-! ## The steps of others -/

theorem Tracked.replySettled {reply : Reply α ε} (h : Tracked s)
    (hpending : s.reply = some .pending)
    (hdone : reply.isDone = true) : Tracked { s.settle reply with byOthers := some reply } := by
  have hreply : (s.settle reply).reply = some reply := by rw [settle, hpending]
  have hchild := settle_child reply s
  have hphase : (s.settle reply).phase = s.phase := by
    rw [settle]
    split <;> rfl
  have hanswered : Answered (s.settle reply) := settle_answered hdone
  refine ⟨⟨fun r hr => ?_, fun hskipped => ?_⟩, ?_, nofun⟩
  · cases hr
    exact ⟨hreply, hdone⟩
  · have hcancelled := h.skipped (hchild.symm.trans hskipped)
    rw [hpending] at hcancelled
    cases hcancelled
  · have hknown := h.known
    show Known { s.settle reply with byOthers := some reply } (s.settle reply).phase
    rw [hphase]
    cases hs : s.phase with
    | clearing cleanup =>
        rw [hs] at hknown
        cases cleanup with
        | ofCancelledReply => exact ⟨hchild.trans hknown.1, hanswered⟩
        | ofCancellation => exact ⟨hchild ▸ hknown.1, hanswered⟩
        | ofException e => exact hchild.trans hknown
    | entering =>
        rw [hs] at hknown
        exact hchild.trans hknown
    | joining =>
        rw [hs] at hknown
        exact fun habsent => hknown (hchild.symm.trans habsent)
    | rejoining =>
        rw [hs] at hknown
        exact fun habsent => hknown (hchild.symm.trans habsent)
    | ended ending => trivial

theorem Tracked.step {a : CallAction α ε} (h : Tracked s) (hstep : callStep s a = some t) :
    Tracked t := by
  cases a with
  | resume => exact h.resume hstep
  | cancelOwner =>
      rw [callStep] at hstep
      split at hstep
      · cases hstep
      · cases hstep
      · cases hstep
        exact h.same rfl rfl rfl rfl
  | childStarts =>
      rw [callStep] at hstep
      split at hstep
      · rename_i hcreated
        cases hstep
        exact h.invoke hcreated
      · cases hstep
  | childReturns a => exact h.childEnds hstep nofun
  | childRaises e => exact h.childEnds hstep nofun
  | childCancelled => exact h.childEnds hstep nofun
  | replySettled reply =>
      rw [callStep] at hstep
      split at hstep
      · rename_i hpending
        obtain ⟨hdone, heq⟩ := Option.ite_none_right_eq_some.mp hstep
        cases heq
        exact h.replySettled hpending hdone
      · cases hstep
  | callback =>
      obtain ⟨-, heq⟩ := Option.ite_none_right_eq_some.mp hstep
      cases heq
      split
      · exact h.same rfl rfl rfl rfl
      · exact h.cancelChild.same rfl rfl rfl rfl
  | submissionEnds =>
      rw [callStep] at hstep
      split at hstep
      · cases hstep
        exact h.same rfl rfl rfl rfl
      · cases hstep

theorem Tracked.start (command : LeafCommand) (positiveTxReady : Bool)
    (reply : Option (Reply α ε)) (submission : Submission) :
    Tracked (start command positiveTxReady reply submission) where
  kept r h := Option.filter_eq_some_iff.mp h
  skipped h := by cases h
  known := rfl
  own _ h r hr := by
    change reply = some r at hr
    subst hr
    cases r with
    | pending => exact .inl rfl
    | _ => cases h

theorem tracked_of_run {command : LeafCommand} {positiveTxReady : Bool}
    {reply : Option (Reply α ε)} {submission : Submission} {actions : List (CallAction α ε)}
    (hrun : Runs.exec callStep (Poller.start command positiveTxReady reply submission) actions =
      some s) : Tracked s :=
  Runs.exec_invariant (fun _ _ _ h hstep => h.step hstep) hrun (Tracked.start ..)

/-! ## The end of the call -/

/-- The executor returned, and the call with it. -/
def Succeeded (s : EntryCall α ε) : Prop :=
  s.phase = .ended .returned ∧ ∃ a, s.child = .done (.returned a)

/-- What the call makes of the child. -/
inductive Answers (child : Child α ε) : Reply α ε → Prop where
  | result {a} : child = .done (.returned a) → Answers child (.result (some a))
  | exception {e} : child = .done (.raised e) → Answers child (.exception e)
  | cancelled : Answers child .cancelled

/-- What the call leaves behind. -/
structure Finished (s : EntryCall α ε) : Prop where
  child : s.child = .absent ∨ s.child.isDone = true
  answered : Answered s
  kept : ∀ r, s.byOthers = some r → s.reply = some r
  own : s.byOthers = none → ∀ r, s.reply = some r → Answers s.child r
  submission : ¬ Succeeded s → s.submission ≠ .running

/-- The call does not end with a submission that runs, and a reply that is pending is not passed
over for a cancellation. -/
structure Orderly (s : EntryCall α ε) : Prop where
  /-- The child was cancelled by itself, or did not begin. -/
  joined : s.phase = .joining → s.cancelRequested = false →
    s.child = .done .cancelled ∨ s.child = .done .skipped → s.submission ≠ .running
  /-- The calling task was cancelled while the submission of an executor that raised was awaited. -/
  answered : ∀ e, s.phase = .clearing (.ofException e) → s.cancelRequested = true →
    s.reply ≠ some .pending

/-- The end of the call with a reply of its own. -/
theorem Tracked.finished_settle (h : Tracked s) (hgoes : ∀ ending, s.phase ≠ .ended ending)
    {reply : Reply α ε} {ending : Ending ε} (hchild : s.child = .absent ∨ s.child.isDone = true)
    (hreply : s.reply = some .pending → Answers s.child reply)
    (hsubmission : ¬ Succeeded ((s.settle reply).finish ending) → s.submission ≠ .running) :
    Finished ((s.settle reply).finish ending) := by
  have hpending : ∀ r, (s.settle reply).reply = some r → s.byOthers = none → Answers s.child r := by
    intro r hr hby
    rcases settle_reply hr with ⟨hpending, rfl⟩ | ⟨hr, hdone⟩
    · exact hreply hpending
    · rcases h.own hgoes hby r hr with rfl | rfl
      · cases hdone
      · exact .cancelled
  refine ⟨?_, fun r hr => ?_, fun r hr => ((h.settle reply).kept r hr).1, fun hby r hr => ?_,
    fun hfailed => ?_⟩
  · show (s.settle reply).child = .absent ∨ (s.settle reply).child.isDone = true
    rw [settle_child]
    exact hchild
  · rcases settle_reply hr with ⟨hp, rfl⟩ | ⟨-, hdone⟩
    · cases hreply hp <;> rfl
    · exact hdone
  · have hby' : s.byOthers = none := (settle_byOthers reply s).symm.trans hby
    have hanswers := hpending r hr hby'
    rw [← settle_child reply s] at hanswers
    exact hanswers
  · show (s.settle reply).submission ≠ .running
    rw [settle_submission]
    exact hsubmission hfailed

/-- The end of the call where the reply is done. -/
theorem Tracked.finished_answered (h : Tracked s) (hgoes : ∀ ending, s.phase ≠ .ended ending)
    {ending : Ending ε} (hchild : s.child = .absent ∨ s.child.isDone = true)
    (hanswered : Answered s) (hsubmission : s.submission ≠ .running) :
    Finished (s.finish ending) := by
  refine ⟨hchild, hanswered, fun r hr => (h.kept r hr).1, fun hby r hr => ?_, fun _ => hsubmission⟩
  rcases h.own hgoes hby r hr with rfl | rfl
  · cases hanswered _ hr
  · exact .cancelled

/-- The call after a cancellation leaves everything behind it. -/
theorem Tracked.rejoin_finished (h : Tracked s) (hgoes : ∀ ending, s.phase ≠ .ended ending)
    {ending : Ending ε} (hended : s.rejoin.phase = .ended ending) : Finished s.rejoin := by
  rw [EntryCall.rejoin] at hended ⊢
  split at hended
  · rename_i hdone
    rw [if_pos hdone]
    rw [EntryCall.afterRejoin] at hended ⊢
    split at hended
    · cases hended
    · rename_i hsubmission
      rw [if_neg hsubmission]
      exact h.finished_settle hgoes (.inr hdone) (fun _ => .cancelled) fun _ => hsubmission
  · cases hended

theorem Tracked.cancelChild_rejoin_finished (h : Tracked s)
    (hgoes : ∀ ending, s.phase ≠ .ended ending) {ending : Ending ε}
    (hended : s.cancelChild.rejoin.phase = .ended ending) : Finished s.cancelChild.rejoin := by
  refine h.cancelChild.rejoin_finished ?_ hended
  rw [EntryCall.cancelChild]
  split
  · exact hgoes
  · exact hgoes

/-- A call that returns although the executor did not does not look at the submission. -/
theorem Tracked.finished_unsuccessful_iff (h : Tracked s)
    (hgoes : ∀ ending, s.phase ≠ .ended ending) {reply : Reply α ε}
    (hleaf : s.child = .done .cancelled ∨ s.child = .done .skipped)
    (hreply : s.reply = some .pending → Answers s.child reply) :
    Finished ((s.settle reply).finish .returned) ↔ s.submission ≠ .running := by
  constructor
  · intro hfinished
    have hfailed : ¬ Succeeded ((s.settle reply).finish .returned) := by
      rintro ⟨-, a, ha⟩
      have hreturned : s.child = .done (.returned a) := (settle_child reply s).symm.trans ha
      rw [hreturned] at hleaf
      rcases hleaf with hleaf | hleaf <;> cases hleaf
    rw [← settle_submission reply s]
    exact hfinished.submission hfailed
  · intro hsubmission
    have hdone : s.child.isDone = true := by
      rcases hleaf with hleaf | hleaf
      · rw [hleaf]
        rfl
      · rw [hleaf]
        rfl
    exact h.finished_settle hgoes (.inr hdone) hreply fun _ => hsubmission

theorem Tracked.joined_finished_iff (h : Tracked s) (hphase : s.phase = .joining)
    {ending : Ending ε} (hended : s.joined.phase = .ended ending) :
    Finished s.joined ↔ Orderly s := by
  have hgoes : ∀ ending, s.phase ≠ .ended ending := by
    rw [hphase]
    nofun
  have hlater : ∀ e, s.phase = .clearing (.ofException e) → s.cancelRequested = true →
      s.reply ≠ some .pending := by
    rw [hphase]
    nofun
  rw [EntryCall.joined] at hended ⊢
  split at hended
  · rename_i hrequested
    rw [if_pos hrequested]
    have horderly : Orderly s := ⟨fun _ hno => (nomatch hrequested.symm.trans hno), hlater⟩
    split at hended
    · rename_i hcancels
      rw [if_pos hcancels]
      exact iff_of_true (h.cancelChild_rejoin_finished hgoes hended) horderly
    · rename_i hcancels
      rw [if_neg hcancels]
      exact iff_of_true (h.rejoin_finished hgoes hended) horderly
  · rename_i hrequested
    rw [if_neg hrequested]
    cases hchild : s.child with
    | absent =>
        rw [hchild] at hended
        exact absurd hended (hgoes ending)
    | created =>
        rw [hchild] at hended
        exact absurd hended (hgoes ending)
    | running =>
        rw [hchild] at hended
        exact absurd hended (hgoes ending)
    | done leaf =>
        rw [hchild] at hended
        have hdone : s.child = .absent ∨ s.child.isDone = true := by
          rw [hchild]
          exact .inr rfl
        have hchildIs : ∀ reply, (s.settle reply).child = .done leaf := fun reply =>
          (settle_child reply s).trans hchild
        cases leaf with
        | returned a =>
            refine iff_of_true (h.finished_settle hgoes hdone (fun _ => .result hchild) ?_) ?_
            · exact fun hfailed => absurd ⟨rfl, a, hchildIs _⟩ hfailed
            · refine ⟨fun _ _ hleaf => ?_, hlater⟩
              rw [hchild] at hleaf
              rcases hleaf with hleaf | hleaf <;> cases hleaf
        | skipped =>
            refine (h.finished_unsuccessful_iff hgoes (.inr hchild) fun hpending => ?_).trans
              ⟨fun hsubmission => ⟨fun _ _ _ => hsubmission, hlater⟩, fun horderly =>
                horderly.joined hphase (eq_false_of_ne_true hrequested) (.inr hchild)⟩
            rw [h.skipped hchild] at hpending
            cases hpending
        | cancelled =>
            exact (h.finished_unsuccessful_iff hgoes (.inl hchild) fun _ => .cancelled).trans
              ⟨fun hsubmission => ⟨fun _ _ _ => hsubmission, hlater⟩, fun horderly =>
                horderly.joined hphase (eq_false_of_ne_true hrequested) (.inl hchild)⟩
        | raised e =>
            dsimp only at hended ⊢
            split at hended
            · cases hended
            · rename_i hsubmission
              rw [if_neg hsubmission]
              refine iff_of_true (h.finished_settle hgoes hdone (fun _ => .exception hchild)
                fun _ => hsubmission) ⟨fun _ _ hleaf => ?_, hlater⟩
              rw [hchild] at hleaf
              rcases hleaf with hleaf | hleaf <;> cases hleaf

theorem Tracked.enter_finished (h : Tracked s) (hphase : s.phase = .entering)
    {ending : Ending ε} (hended : s.enter.phase = .ended ending) : Finished s.enter := by
  have hknown := h.known
  rw [hphase] at hknown
  rw [EntryCall.enter] at hended ⊢
  split at hended
  · rename_i hcancelled
    have hreply := replyCancelled_iff.mp hcancelled
    rw [if_pos hcancelled]
    split at hended
    · cases hended
    · rename_i hsubmission
      rw [if_neg hsubmission]
      refine h.finished_answered (by rw [hphase]; nofun) (.inl hknown) (fun r hr => ?_) hsubmission
      rw [hreply] at hr
      cases hr
      rfl
  · cases hended

theorem Tracked.cleared_finished_iff {cleanup : Cleanup ε} (h : Tracked s)
    (hphase : s.phase = .clearing cleanup) (hsubmission : s.submission = .done) :
    Finished (s.cleared cleanup) ↔ Orderly s := by
  have hgoes : ∀ ending, s.phase ≠ .ended ending := by
    rw [hphase]
    nofun
  have hidle : s.submission ≠ .running := by
    rw [hsubmission]
    nofun
  have hearlier : s.phase = .joining → s.cancelRequested = false →
      s.child = .done .cancelled ∨ s.child = .done .skipped → s.submission ≠ .running :=
    fun _ _ _ => hidle
  have hknown := h.known
  rw [hphase] at hknown
  cases cleanup with
  | ofCancelledReply =>
      refine iff_of_true (h.finished_answered hgoes (.inl hknown.1) hknown.2 hidle) ⟨hearlier, ?_⟩
      rw [hphase]
      nofun
  | ofCancellation =>
      refine iff_of_true (h.finished_answered hgoes (.inr hknown.1) hknown.2 hidle) ⟨hearlier, ?_⟩
      rw [hphase]
      nofun
  | ofException e =>
      have hraised : s.child = .done (.raised e) := hknown
      have hdone : s.child = .absent ∨ s.child.isDone = true := by
        rw [hraised]
        exact .inr rfl
      rw [EntryCall.cleared]
      split
      · rename_i hrequested
        constructor
        · intro hfinished
          refine ⟨hearlier, fun _ _ _ hpending => ?_⟩
          cases hfinished.answered _ hpending
        · intro horderly
          refine h.finished_answered hgoes hdone (fun r hr => ?_) hidle
          cases r with
          | pending => exact absurd hr (horderly.answered e hphase hrequested)
          | _ => rfl
      · rename_i hrequested
        refine iff_of_true (h.finished_settle hgoes hdone (fun _ => .exception hraised)
          fun _ => hidle) ⟨hearlier, fun _ _ hno => absurd hno hrequested⟩

/-- In every run, when the call returns or raises it leaves nothing behind if and only if the step
that ends it is orderly. -/
theorem finished_iff {command : LeafCommand} {positiveTxReady : Bool}
    {reply : Option (Reply α ε)} {submission : Submission} {actions : List (CallAction α ε)}
    {ending : Ending ε}
    (hrun : Runs.exec callStep (start command positiveTxReady reply submission) actions = some s)
    (hresume : s.resume = some t) (hended : t.phase = .ended ending) : Finished t ↔ Orderly s := by
  have h := tracked_of_run hrun
  rw [EntryCall.resume] at hresume
  split at hresume
  · rename_i hphase
    cases hresume
    refine iff_of_true (h.enter_finished hphase hended) ⟨?_, ?_⟩
    · rw [hphase]
      nofun
    · rw [hphase]
      nofun
  · rename_i hphase
    obtain ⟨-, heq⟩ := Option.ite_none_right_eq_some.mp hresume
    cases heq
    exact h.joined_finished_iff hphase hended
  · rename_i hphase
    obtain ⟨-, heq⟩ := Option.ite_none_right_eq_some.mp hresume
    cases heq
    refine iff_of_true (h.rejoin_finished (by rw [hphase]; nofun) hended) ⟨?_, ?_⟩
    · rw [hphase]
      nofun
    · rw [hphase]
      nofun
  · rename_i hphase
    obtain ⟨hsubmission, heq⟩ := Option.ite_none_right_eq_some.mp hresume
    cases heq
    exact h.cleared_finished_iff hphase hsubmission
  · cases hresume

/-- A positive TX whose executor raises: the submission is cancelled and awaited, and then the reply
has the exception. -/
def refused : List (CallAction Unit String) :=
  [.resume, .childStarts, .childRaises "expired", .resume, .submissionEnds]

theorem finished_iff_refused :
    ∃ s t : EntryCall Unit String,
      Runs.exec callStep (start .other true (some .pending) .running) refused = some s ∧
        s.resume = some t ∧ t.phase = .ended (.raised "expired") ∧
          t.reply = some (.exception "expired") ∧ (Finished t ↔ Orderly s) := by
  have hrun : Runs.exec callStep (start (α := Unit) .other true (some .pending) .running) refused =
    some _ := rfl
  exact ⟨_, _, hrun, rfl, rfl, rfl, finished_iff hrun rfl rfl⟩

/-- The calling task is cancelled while that submission is awaited: the call ends, and the reply is
pending for ever. -/
theorem unanswered_reply :
    ¬ ∀ (command : LeafCommand) (positiveTxReady : Bool) (reply : Option (Reply Unit String))
        (submission : Submission) (actions : List (CallAction Unit String))
        (s t : EntryCall Unit String) (ending : Ending String),
      Runs.exec callStep (start command positiveTxReady reply submission) actions = some s →
        s.resume = some t → t.phase = .ended ending → Finished t := by
  intro hfinished
  have hend := hfinished .other true (some .pending) .running
    [.resume, .childStarts, .childRaises "expired", .resume, .cancelOwner, .submissionEnds] _ _ _
    rfl rfl rfl
  cases hend.answered .pending rfl

end Rigplane.Poller
