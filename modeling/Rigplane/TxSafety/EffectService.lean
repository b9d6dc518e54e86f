import Rigplane.TxSafety.Attempts

/-!
# The managed TX effect service

`runtime/managed_tx_effect_service.py` carries out what the supervisor asks for.  Each attempt is
*claimed* once: its claim has a task, which waits until the claims before it are done, then for the
lane, and then calls the provider.  The call of the service that made the claim waits for the task
until the deadline of the attempt, and a call that cancels the attempt waits for it as well, until
its own deadline.  A task that has ended by then is settled in the supervisor, and one that has not
is *poisoned*: the lane is replaced, and a further task retires the provider.

The service's lock is never held over an `await`, so what runs under it is one step here.  Steps of
different calls and tasks come in any order, and a deadline may pass at any point, which is more
than the code allows: the lane serves its waiters in turn, and the effects of one transition are
processed in their order.

Claims are numbered by their creation.  The claim table holds those that are not done: `_finish`
takes a claim out of the table and sets `done` in one step.  It also clears the claim's `task`,
`retirement` and `lane`, which nothing reads once `done` is set.  Here these fields stay, for a task
may go on after its claim is done.
-/

namespace Rigplane.TxSafety

/-- `(provider_generation, id)`. -/
abbrev Key := Int × String

def ProviderAttempt.key (a : ProviderAttempt) : Key := (a.providerGeneration, a.id)

def CancelProviderAttempt.key (k : CancelProviderAttempt) :
    Key := (k.providerGeneration, k.attemptId)

/-- Where the task of a claim stands. -/
inductive Stage where
  /-- It waits for its blockers. -/
  | blocked
  /-- It waits for the lane that was in place when its blockers were done. -/
  | queued (lane : Nat)
  /-- It holds the lane and is in the provider's call. -/
  | calling (lane : Nat)
  /-- With the text of what it raised, if it raised. -/
  | ended (error : Option String)
deriving DecidableEq

/-- A retirement task. -/
inductive Retirement where
  | started
  | ended
deriving DecidableEq

structure Claim where
  effect : ProviderAttempt
  blockers : List Nat
  stage : Stage := .blocked
  done : Bool := false
  cancelDeadline : Option Time := none
  retirement : Option Retirement := none
  lane : Option Nat := none
deriving DecidableEq

/-- A call of `settle_attempt`. -/
structure Settlement where
  key : Key
  /-- The retirement of its claim had been started. -/
  retiring : Bool
deriving DecidableEq

structure EffectService where
  supervisor : Supervisor := {}
  /-- Effects of the transitions handed over so far that no call has processed yet. -/
  effects : List TxEffect := []
  barrier : Int × Option String := (-1, none)
  claims : List Claim := []
  /-- The lane in place, by its number: each replacement makes a new one. -/
  lane : Nat := 0
  /-- The calls in `_wait`, by the claims they wait for. -/
  waiting : List Nat := []
  /-- The claims whose tasks have called the provider, in the order of the calls. -/
  calls : List Nat := []
  settlements : List Settlement := []
  /-- Keys whose cancellation was processed before they were ever claimed. -/
  cancelledFirst : List Key := []
  /-- Keys whose attempt was still active when the retirement of their claim ended. -/
  leftActive : List Key := []
deriving DecidableEq

namespace EffectService

variable (c : Config) (s : EffectService)

/-! ## Claims -/

def Done (i : Nat) : Prop := ∃ claim ∈ s.claims[i]?, claim.done

instance (i : Nat) : Decidable (s.Done i) := inferInstanceAs (Decidable (∃ _ ∈ _, _))

/-- The claims in the table, oldest first. -/
def live : List Nat := (List.range s.claims.length).filter fun i => ¬ s.Done i

/-- `self._claims.get(key)`. -/
def liveClaim (key : Key) : Option Nat :=
  s.live.find? fun i => s.claims[i]?.any (·.effect.key = key)

/-- The claim of a number is replaced. -/
def put (i : Nat) (claim : Claim) : EffectService := { s with claims := s.claims.set i claim }

/-- The retirement of a claim of this key has been started. -/
def Retiring (key : Key) : Prop := ∃ claim ∈ s.claims, claim.effect.key = key ∧
    claim.retirement.isSome

instance (key : Key) : Decidable (s.Retiring key) := inferInstanceAs (Decidable (∃ _ ∈ _, _))

/-- A call of `settle_attempt`, whose effects the calling service call has then to process. -/
def settle (key : Key) (succeeded : Bool) (error : Option String) : Option EffectService :=
  match s.supervisor.settleAttempt c key.2 key.1 succeeded error with
  | .ok (t, supervisor) => some { s with
      supervisor
      effects := s.effects ++ t.effects
      settlements := ⟨key, s.Retiring key⟩ :: s.settlements }
  | .error _ => none

/-! ## The service's methods, between two awaits -/

/-- `_attempt`, up to its wait. -/
def attempt (effect : ProviderAttempt) : EffectService :=
  if (s.liveClaim effect.key).isSome ∨ s.barrier = (effect.providerGeneration, some effect.id) ∨
      s.supervisor.active ≠ some effect then s
  else if effect.providerGeneration < s.barrier.1 then s
  else { s with
    barrier := (effect.providerGeneration, none)
    claims := s.claims ++ [{ effect, blockers := s.live }]
    waiting := s.claims.length :: s.waiting }

/-- The branch of `_cancel` without a claim: an attempt that is still active is settled as not
carried out, and the barrier keeps a later `_attempt` from claiming it. -/
def cancelUnclaimed (effect : CancelProviderAttempt) : Option EffectService :=
  match s.supervisor.active with
  | some active =>
      if active.key = effect.key ∧ s.barrier.1 ≤ effect.providerGeneration then
        { s with barrier := (effect.providerGeneration, some effect.attemptId) }.settle c
          active.key false none
      else some s
  | none => some s

/-- Put down in the record of the run: the key is cancelled, and never was claimed. -/
def noted (key : Key) : EffectService :=
  { s with cancelledFirst :=
      if ∃ claim ∈ s.claims, claim.effect.key = key then s.cancelledFirst
      else key :: s.cancelledFirst }

/-- `_cancel`, up to its wait. -/
def cancel (effect : CancelProviderAttempt) : Option EffectService :=
  match s.liveClaim effect.key with
  | none => (s.noted effect.key).cancelUnclaimed c effect
  | some i => s.claims[i]?.map fun claim =>
      let claim := if claim.cancelDeadline.isNone then
          { claim with cancelDeadline := some effect.settlementDeadlineMonotonic }
        else claim
      { s.put i claim with waiting := i :: s.waiting }

/-- `_run`, once its blockers are done. -/
def admitted (i : Nat) (claim : Claim) : EffectService :=
  s.put i (if claim.done then { claim with stage := .ended none }
    else { claim with stage := .queued s.lane, lane := some s.lane })

/-- No task holds the lane. -/
def LaneFree (lane : Nat) : Prop := ∀ claim ∈ s.claims, claim.stage ≠ .calling lane

instance (lane : Nat) : Decidable (s.LaneFree lane) := inferInstanceAs (Decidable (∀ _ ∈ _, _))

/-- `_run`, once it holds the lane. -/
def entered (i lane : Nat) (claim : Claim) : EffectService :=
  if claim.done ∨ claim.retirement.isSome then s.put i { claim with stage := .ended none }
  else { s.put i { claim with stage := .calling lane } with calls := s.calls ++ [i] }

/-- `_finish`. -/
def finish (i : Nat) (claim : Claim) : EffectService := s.put i { claim with done := true }

/-- `_wait`, when the task it waited for has ended. -/
def woken (i : Nat) (claim : Claim) (error : Option String) : Option EffectService :=
  if claim.retirement.isSome ∨ claim.done then some s
  else (s.settle c claim.effect.key error.isNone error).map fun s => s.finish i claim

/-- `_poison`.  Its own wait, on the retirement, changes nothing. -/
def poison (i : Nat) (claim : Claim) : EffectService :=
  if claim.done then s
  else match claim.retirement with
  | some _ => s
  | none =>
      { s.put i { claim with retirement := some .started } with
        lane := if claim.lane = some s.lane then s.lane + 1 else s.lane }

/-- `_retire`, when the host's call has ended, in whatever way. -/
def retired (i : Nat) (claim : Claim) : EffectService :=
  { s.finish i { claim with retirement := some .ended } with
    leftActive := if s.supervisor.active = some claim.effect then claim.effect.key :: s.leftActive
      else s.leftActive }


end EffectService

/-! ## Runs -/

inductive ServiceAction where
  /-- Somebody else calls the supervisor and hands its transition to the service. -/
  | supervise (op : Op)
  /-- A call of the service takes its next effect. -/
  | process (effect : TxEffect)
  /-- The task of a claim finds its blockers done. -/
  | admitted (claim : Nat)
  /-- It gets the lane. -/
  | entered (claim : Nat)
  /-- The provider's call ends. -/
  | callEnded (claim : Nat) (error : Option String)
  /-- The task ends by the cancellation requested of it. -/
  | taskCancelled (claim : Nat)
  /-- A call in `_wait` finds the task ended. -/
  | woken (claim : Nat)
  /-- The deadline of a call in `_wait` passes before the task has ended. -/
  | expired (claim : Nat)
  /-- The host's retirement ends. -/
  | retired (claim : Nat)
  /-- A call of the service is cancelled while it waits. -/
  | abandoned (claim : Nat)

namespace EffectService

variable (c : Config) (s : EffectService)

/-- Only the service settles attempts. -/
def supervise : Op → Option EffectService
  | .settleAttempt .. => none
  | op =>
      match call c s.supervisor op with
      | .ok (t, supervisor) =>
          some { s with supervisor, effects := s.effects ++ Supervisor.effectsOf t }
      | .error (.valueError _) => some s
      | .error (.runtimeError _) => none

def process (effect : TxEffect) : Option EffectService :=
  let s' := { s with effects := s.effects.erase effect }
  if effect ∉ s.effects then none
  else match effect with
  | .attempt a => some (s'.attempt a)
  | .cancel k => s'.cancel c k

/-- What the task of a claim, or somebody who waits for it, does next. -/
def act (i : Nat) (claim : Claim) : ServiceAction → Option EffectService
  | .admitted _ =>
      if claim.stage = .blocked ∧ ∀ b ∈ claim.blockers, s.Done b then some (s.admitted i claim)
      else none
  | .entered _ =>
      match claim.stage with
      | .queued lane => if s.LaneFree lane then some (s.entered i lane claim) else none
      | _ => none
  | .callEnded _ error =>
      match claim.stage with
      | .calling _ => some (s.put i { claim with stage := .ended error })
      | _ => none
  | .taskCancelled _ =>
      match claim.stage with
      | .ended _ => none
      | _ =>
          if claim.cancelDeadline.isSome ∨ claim.retirement.isSome then
            some (s.put i { claim with stage := .ended (some "CancelledError") })
          else none
  | .woken _ =>
      match claim.stage with
      | .ended error =>
          if i ∈ s.waiting then { s with waiting := s.waiting.erase i }.woken c i claim error
          else none
      | _ => none
  | .expired _ =>
      match claim.stage with
      | .ended _ => none
      | _ =>
          if i ∈ s.waiting then some ({ s with waiting := s.waiting.erase i }.poison i claim)
          else none
  | .retired _ => if claim.retirement = some .started then some (s.retired i claim) else none
  | _ => none

def step (s : EffectService) (action : ServiceAction) : Option EffectService :=
  match action with
  | .supervise op => s.supervise c op
  | .process effect => s.process c effect
  | .abandoned i =>
      if i ∈ s.waiting then some { s with waiting := s.waiting.erase i } else none
  | .admitted i | .entered i | .callEnded i _ | .taskCancelled i | .woken i | .expired i
  | .retired i =>
      s.claims[i]?.bind fun claim => s.act c i claim action

/-! ## Safety -/

/-- The provider calls of the attempts of a key. -/
def callsOf (key : Key) : List Nat :=
  s.calls.filter fun i => s.claims[i]?.any (·.effect.key = key)

def Calling (i : Nat) : Prop := ∃ claim ∈ s.claims[i]?, ∃ lane, claim.stage = .calling lane

def RetireEnded (i : Nat) : Prop := ∃ claim ∈ s.claims[i]?, claim.retirement = some .ended

structure Safe : Prop where
  /-- An attempt starts at most one call of the provider. -/
  calledOnce : ∀ key, (s.callsOf key).length ≤ 1
  /-- It is settled at most once. -/
  settledOnce : (s.settlements.map Settlement.key).Nodup
  /-- And not once its retirement has been started, unless the supervisor still had it active when
  the retirement ended. -/
  unretired : ∀ x ∈ s.settlements, x.retiring → x.key ∈ s.leftActive
  /-- Two calls overlap only if the retirement of the earlier one has ended. -/
  overlap : s.calls.Pairwise fun i j => s.Calling i → s.Calling j → s.RetireEnded i
  /-- An attempt cancelled before it was claimed never reaches the provider. -/
  cancelled : ∀ key ∈ s.cancelledFirst, s.callsOf key = []

end EffectService

end Rigplane.TxSafety
