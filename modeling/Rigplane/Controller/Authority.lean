import Rigplane.Clock
import Rigplane.Lib.Dict
import Rigplane.Lib.Program
import Rigplane.Lib.Runs

/-!
# The controller authority

`ControllerAuthority` of `runtime/controller_authority.py`.  In its local mode every `acquire` opens
a session, and a session ends when its deadline has passed, when its primary ticket is detached or
when its key is released.  In its remote mode there is one grant at a time.

No operation awaits before it has changed the state, so each is one step; `set_mode` back to local
and the cleanup of a revocation have a second one.  Owners and keys are drawn from a source of
tokens, which is given by two sequences.

A ticket is a value, and `_channels` and a session's `channels` look tickets up by value.  The
primary ticket is compared by identity, so a ticket is also an object: `Handle` names it.  What a
registration of a channel goes through is recorded beside the state, as are the ends of sessions and
the calls of `release_session`, which is taken to be given.

The claims on audio and controls are left out, and so is the remote watchdog, which only calls
`_expire`.
-/

namespace Rigplane.Controller

structure ControllerError where
  code : String
  status : Nat := 403
deriving DecidableEq

/-- A ticket of this authority: a remote one has no owner. -/
structure Ticket where
  generation : Nat
  remote : Bool
  sessionId : Option String := none
  primary : Bool := false
  txOwner : Option String := none
  exclusive : remote = true → txOwner = none
deriving DecidableEq

/-- A ticket as an object: made by `attach`, or otherwise. -/
inductive Handle where
  | attached (n : Nat)
  | other (ticket : Ticket) (n : Nat)
deriving DecidableEq

/-- `ticket is primary`. -/
def Handle.Is (handle : Handle) (primary : Option Nat) : Prop := ∃ n ∈ primary, handle = .attached n

instance (handle : Handle) (primary : Option Nat) : Decidable (handle.Is primary) :=
  inferInstanceAs (Decidable (∃ _ ∈ _, _))

/-- `_Session`.  The channels are given by the numbers of their registrations, the primary by the
number of its attachment. -/
structure Session where
  key : String
  deadline : Time
  primary : Option Nat := none
  channels : Dict Ticket Nat := .empty
  client : Option String := none

inductive Mode where
  | localMode
  | remote
deriving DecidableEq

inductive GrantState where
  | idle
  | held
  | revoking
  | blocked
deriving DecidableEq

inductive TaskState where
  | running
  | finished
  | cancelled
deriving DecidableEq

/-- What has become of a channel. -/
structure Registration where
  handle : Handle
  ticket : Ticket
  /-- It was detached from a session that had not ended. -/
  detached : Bool := false
  /-- How often its `close` was called. -/
  closes : Nat := 0
deriving DecidableEq

structure Config where
  maxSessionsPerClient : Nat
  owner : Nat → String
  key : Nat → String
  max_pos : 1 ≤ maxSessionsPerClient

structure ControllerAuthority where
  sessions : Dict String Session := .empty
  sessionWatchdog : Option Nat := none
  mode : Mode := .localMode
  generation : Nat := 0
  state : GrantState := .idle
  key : Option String := none
  deadline : Time := 0
  primary : Option Nat := none
  channels : Dict Ticket Nat := .empty
  takingBack : Bool := false
  /-- The channels that the cleanup of a revocation has yet to close. -/
  revocation : Option (List Nat) := none
  clock : Time := 0
  /-- Tokens drawn so far, pairs of an owner and a key. -/
  tokens : Nat := 0
  /-- The tickets made by `attach`. -/
  tickets : List Ticket := []
  /-- The tasks of `_watch_sessions`. -/
  watchdogs : List TaskState := []
  registrations : List Registration := []
  /-- Owners of ended sessions. -/
  ended : List String := []
  /-- The calls of `release_session`. -/
  releases : List String := []

/-- `TTL_MS`. -/
def ttlMs : Nat := 6000

/-- `HEARTBEAT_MS`. -/
def heartbeatMs : Nat := 2000

/-- What `acquire` returns. -/
structure Grant where
  controllerKey : String
  generation : Nat
  ttlMs : Nat := ttlMs
  heartbeatMs : Nat := heartbeatMs
deriving DecidableEq

namespace ControllerAuthority

variable (c : Config) (s : ControllerAuthority)

/-! ## Ends of sessions -/

/-- The `close` of each of these channels is called, in turn. -/
def closeAll (channels : List Nat) : ControllerAuthority :=
  { s with registrations := s.registrations.mapIdx fun i r =>
      { r with closes := r.closes + channels.count i } }

/-- The watchdog is cancelled when no session is left, unless it is the one at work. -/
def stopWatchdog (current : Option Nat) : ControllerAuthority :=
  match s.sessionWatchdog with
  | some w =>
      if s.sessions.items.isEmpty ∧ some w ≠ current then
        { s with sessionWatchdog := none, watchdogs := s.watchdogs.set w .cancelled }
      else s
  | none => s

/-- `_end_session`, by the watchdog of that number or by another task. -/
def endSession (current : Option Nat) (owner : String) : ControllerAuthority :=
  match s.sessions.get? owner with
  | none => s
  | some session =>
      let s := { s with sessions := s.sessions.erase owner }.stopWatchdog current
      let s := s.closeAll session.channels.values
      { s with ended := owner :: s.ended, releases := owner :: s.releases }

def endSessions (current : Option Nat) (owners : List String) : ControllerAuthority :=
  owners.foldl (fun s => s.endSession current) s

def revoke (current : Option Nat) : ControllerAuthority :=
  match s.mode with
  | .localMode => { s with generation := s.generation + 1 }.endSessions current s.sessions.keys
  | .remote =>
      if s.state = .revoking then s
      else if s.state = .idle ∧ s.key = none then s
      else { s with
        generation := s.generation + 1
        key := none
        primary := none
        state := .revoking
        revocation := some s.channels.values
        channels := .empty }

/-- The sessions whose deadline has passed. -/
def overdue : List String := (s.sessions.items.filter fun e => e.2.deadline ≤ s.clock).map Prod.fst

/-- `_expire`. -/
def expire (current : Option Nat := none) : ControllerAuthority :=
  let s := if s.key.isSome ∧ s.deadline ≤ s.clock then s.revoke current else s
  s.endSessions current s.overdue

/-- A live session is changed. -/
def modify (owner : String) (f : Session → Session) : ControllerAuthority :=
  match s.sessions.get? owner with
  | some session => { s with sessions := s.sessions.set owner (f session) }
  | none => s

/-! ## Operations -/

abbrev Operation := Program ControllerAuthority ControllerError

open Program

/-- The state that `_open_session` leaves. -/
def opened (client : Option String) : ControllerAuthority :=
  let session : Session :=
    { key := c.key s.tokens, deadline := s.clock + (ttlMs : Time) / 1000, client }
  let s := { s with
    sessions := s.sessions.set (c.owner s.tokens) session
    tokens := s.tokens + 1 }
  if s.sessionWatchdog.any fun w => s.watchdogs[w]? = some .running then s
  else { s with sessionWatchdog := some s.watchdogs.length, watchdogs := s.watchdogs ++ [.running] }

/-- The live sessions of a client. -/
def held (client : Option String) : Nat :=
  s.sessions.values.countP fun session => session.client = client

/-- `_open_session`: a client that is not known is not bounded. -/
def openSession (client : Option String) : Operation Grant := do
  let s ← read id
  if client.isSome ∧ c.maxSessionsPerClient ≤ s.held client then
    raise ⟨"controller_session_limit", 429⟩
  else do
    update fun s => s.opened c client
    return { controllerKey := c.key s.tokens, generation := s.generation }

/-- The exclusive grant. -/
def granted : ControllerAuthority :=
  { s with
    generation := s.generation + 1
    key := some (c.key s.tokens)
    tokens := s.tokens + 1
    deadline := s.clock + (ttlMs : Time) / 1000
    state := .held }

def acquire (kind : String) (client : Option String) (ready : Bool) : Operation Grant := do
  update fun s => s.expire
  let s ← read id
  if kind ∉ ["browser", "pro"] then raise ⟨"invalid_request", 400⟩
  else if s.mode = .localMode then openSession c client
  else if s.takingBack ∨ s.state = .held ∨ s.state = .revoking then raise ⟨"controller_busy", 409⟩
  else if s.state = .blocked ∨ ¬ ready then raise ⟨"controller_not_ready", 503⟩
  else do
    update fun s => s.granted c
    return { controllerKey := c.key s.tokens, generation := s.generation + 1 }

/-- The first session of this key. -/
def ownerOf (key : String) : Option String :=
  (s.sessions.items.find? fun e => e.2.key = key).map Prod.fst

/-- `credential`, of a key that is a text. -/
def credential (key : String) : Operation Ticket := do
  update fun s => s.expire
  let s ← read id
  if ¬ (key.length = 64 ∧ key.toList.all fun ch => ch.toNat < 128) then
    raise ⟨"controller_invalid", 403⟩
  else if s.mode = .localMode then
    if (s.ownerOf key).isNone then raise ⟨"controller_invalid", 403⟩
    else return {
      generation := s.generation, remote := false, txOwner := s.ownerOf key
      exclusive := fun hremote => by cases hremote }
  else if s.key = some key ∧ s.state = .held then
    return { generation := s.generation, remote := true, exclusive := fun _ => rfl }
  else raise ⟨"controller_invalid", 403⟩

/-- The primary ticket of a session, or of the exclusive grant. -/
def primaryOf : Option String → Option Nat
  | none => s.primary
  | some owner => (s.sessions.get? owner).bind Session.primary

/-- A ticket is made, and stands in as the primary if it is one. -/
def attached (ticket : Ticket) : ControllerAuthority :=
  let n := s.tickets.length
  let s := { s with tickets := s.tickets ++ [ticket] }
  if ticket.primary then
    match ticket.txOwner with
    | none => { s with primary := some n }
    | some owner => s.modify owner fun session => { session with primary := some n }
  else s

def attach (key role sessionId : String) : Operation Nat := do
  let grant ← credential key
  let s ← read id
  if role ∉ ["primary", "auxiliary"] then raise ⟨"invalid_request", 400⟩
  else if role ≠ "primary" ∧ (s.primaryOf grant.txOwner).isNone then
    raise ⟨"controller_primary_required", 403⟩
  else if role = "primary" ∧ (s.primaryOf grant.txOwner).isSome then raise ⟨"controller_busy", 409⟩
  else do
    update fun s => s.attached
      { grant with sessionId := some sessionId, primary := decide (role = "primary") }
    return s.tickets.length

def Valid (ticket : Ticket) : Prop :=
  ticket.generation = s.generation ∧
    (ticket.remote = false ∧ s.mode = .localMode ∧
    (∀ owner ∈ ticket.txOwner, owner ∈ s.sessions.keys) ∨
      ticket.remote = true ∧ s.mode = .remote ∧ s.state = .held ∧ s.key.isSome)

instance (ticket : Ticket) : Decidable (s.Valid ticket) := inferInstanceAs (Decidable (_ ∧ (_ ∨ _)))

def validate (ticket : Ticket) : Operation Unit := do
  update fun s => s.expire
  let s ← read id
  if s.Valid ticket then return () else raise ⟨"controller_invalid", 403⟩

def heartbeat (handle : Handle) (ticket : Ticket) : Operation Unit := do
  validate ticket
  let s ← read id
  if ticket.primary = false ∨ ¬ handle.Is (s.primaryOf ticket.txOwner) then
    raise ⟨"controller_primary_required", 403⟩
  else update fun s =>
    let deadline := s.clock + (ttlMs : Time) / 1000
    match ticket.txOwner with
    | none => { s with deadline }
    | some owner => s.modify owner fun session => { session with deadline }

/-- A channel is put under its ticket; without the session of the ticket, nothing is. -/
def registered (handle : Handle) (ticket : Ticket) : ControllerAuthority :=
  let n := s.registrations.length
  let registrations := s.registrations ++ [({ handle, ticket } : Registration)]
  match ticket.txOwner with
  | none => { s with registrations, channels := s.channels.set ticket n }
  | some owner =>
      match s.sessions.get? owner with
      | some session =>
          { s with
            registrations
            sessions :=
              s.sessions.set owner { session with channels := session.channels.set ticket n } }
      | none => s

def addChannel (handle : Handle) (ticket : Ticket) : Operation Unit := do
  validate ticket
  update fun s => s.registered handle ticket

/-- In the record, the channels of this ticket are detached. -/
def detaches (handle : Handle) (owner : String) : ControllerAuthority :=
  { s with registrations := s.registrations.map fun r =>
      if r.handle = handle ∧ r.ticket.txOwner = some owner then { r with detached := true } else r }

def detach (handle : Handle) (ticket : Ticket) : ControllerAuthority :=
  let s := { s with channels := s.channels.erase ticket }
  match ticket.txOwner with
  | some owner =>
      match s.sessions.get? owner with
      | some session =>
          let s := (s.detaches handle owner).modify owner fun session =>
            { session with channels := session.channels.erase ticket }
          if handle.Is session.primary then s.endSession none owner else s
      | none => s
  | none => if handle.Is s.primary then s.revoke none else s

/-- `release`, up to its wait. -/
def release (key : String) : Operation Unit := do
  let grant ← credential key
  update fun s =>
    match grant.txOwner with
    | some owner => s.endSession none owner
    | none => s.revoke none

/-- The mode of a name that was checked. -/
def modeOf (mode : String) : Mode := if mode = "local" then .localMode else .remote

/-- `set_mode`, up to its wait if it takes the remote grant back. -/
def setMode (mode : String) (ready : Bool) : Operation Unit := do
  let s ← read id
  if mode ∉ ["local", "remote"] then raise ⟨"invalid_request", 400⟩
  else if s.takingBack then raise ⟨"controller_busy", 409⟩
  else if modeOf mode = s.mode ∧ s.state ≠ .blocked then return ()
  else if modeOf mode = .localMode ∧ s.mode = .remote then
    update fun s => { (if s.state ≠ .blocked then s.revoke none else s) with takingBack := true }
  else if ¬ ready then raise ⟨"controller_not_ready", 503⟩
  else update fun s =>
    let s := s.endSessions none s.sessions.keys
    { s with generation := s.generation + 1, mode := modeOf mode, state := .idle }

/-- The grant has been taken back: the cleanup is over, and the radio is ready or is not.  Without
an answer, the wait was cancelled. -/
def tookBack (ready : Option Bool) : ControllerAuthority :=
  match ready with
  | some true =>
      { s with
        takingBack := false, generation := s.generation + 1, mode := .localMode, state := .idle }
  | _ => { s with takingBack := false }

/-! ## Steps -/

/-- The ticket of an object. -/
def value : Handle → Option Ticket
  | .attached n => s.tickets[n]?
  | .other ticket _ => some ticket

inductive Action where
  | acquire (kind : String) (client : Option String) (ready : Bool)
  | attach (key role sessionId : String)
  | heartbeat (handle : Handle)
  | addChannel (handle : Handle)
  | detach (handle : Handle)
  | release (key : String)
  | revoke
  | setMode (mode : String) (ready : Bool)
  | tookBack (ready : Option Bool)
  | cleanedUp (safe : Bool)
  /-- `status`, or another operation that starts with `_expire` and changes nothing else. -/
  | status
  /-- `_watch_sessions` after a sleep. -/
  | wakes (watchdog : Nat)
  | advance (clock : Time)

def step (s : ControllerAuthority) : Action → Option ControllerAuthority
  | .acquire kind client ready => some (acquire c kind client ready s).2
  | .attach key role sessionId => some (attach key role sessionId s).2
  | .heartbeat handle => (s.value handle).map fun ticket => (heartbeat handle ticket s).2
  | .addChannel handle => (s.value handle).map fun ticket => (addChannel handle ticket s).2
  | .detach handle => (s.value handle).map fun ticket => s.detach handle ticket
  | .release key => some (release key s).2
  | .revoke => some (s.revoke none)
  | .setMode mode ready => some (setMode mode ready s).2
  | .tookBack ready =>
      if s.takingBack ∧ (ready.isNone ∨ s.revocation.isNone) then some (s.tookBack ready) else none
  | .cleanedUp safe =>
      s.revocation.map fun channels =>
        { s.closeAll channels with revocation := none, state := if safe then .idle else .blocked }
  | .status => some s.expire
  | .wakes w =>
      if s.watchdogs[w]? ≠ some .running then none
      else
        let s := s.expire (some w)
        some (if s.sessions.items.isEmpty then { s with watchdogs := s.watchdogs.set w .finished }
          else s)
  | .advance clock => if s.clock ≤ clock then some { s with clock } else none

end ControllerAuthority

end Rigplane.Controller
