import SmartDialer.Conc.World
import SmartDialer.Repositories.BorrowerRepo
import SmartDialer.Repositories.CallRepo
import SmartDialer.Safety.Models

/-!
# The operations the components await

Everything the components share is behind these operations: one per repository
call that reaches the database, one per provider request, and one per reading of
something local to the worker process (its clock, its health samples, its memory
of the last availability). Each is atomic, and each takes what the environment
contributes — the clock, a fresh id, a provider's answer, a fault — from a
`Choice`.

A database operation may fail, having had its effect or not; and wherever the
source awaits, the task may be cancelled, the operation having had its effect or
not. The releases that run under `asyncio.shield` are the exception, and say so.

The state carries a log of everything that was answered. No component reads it:
it is there so that statements about runs can mention what happened.
-/

namespace SmartDialer

open Store Conc

/-! ## Exceptions -/

/-- `app/providers/errors.py`; `other` is a `ProviderError` of a provider's own. -/
inductive ProviderError where
  | timeout
  | rejected (reason : String)
  | unavailable (providerName : String)
  | other (typeName : String)
  deriving DecidableEq, Repr

/-- The exceptions that reach the modelled components. -/
inductive Exn where
  | pyMongoError (typeName : String)
  | duplicateKeyError
  | cancelledError
  | timeoutError
  | provider (e : ProviderError)
  | stateMachine (e : StateMachineError)
  | validationError
  | notFoundError (resource identifier : String)
  | conflictError
  deriving DecidableEq, Repr

namespace Exn

/-- `except PyMongoError`; a `DuplicateKeyError` is one. -/
def isPyMongoError : Exn → Bool
  | pyMongoError _ | duplicateKeyError => true
  | _ => false

/-- `except Exception`; a `CancelledError` is not one. -/
def isException : Exn → Bool
  | cancelledError => false
  | _ => true

/-- `type(error).__name__`. -/
def typeName : Exn → String
  | pyMongoError name => name
  | duplicateKeyError => "DuplicateKeyError"
  | cancelledError => "CancelledError"
  | timeoutError => "TimeoutError"
  | provider .timeout => "ProviderTimeout"
  | provider (.rejected _) => "ProviderRejected"
  | provider (.unavailable _) => "ProviderUnavailable"
  | provider (.other name) => name
  | stateMachine (.invalidStateTransition ..) => "InvalidStateTransition"
  | stateMachine (.unauthorizedTransitionActor ..) => "UnauthorizedTransitionActor"
  | validationError => "ValidationError"
  | notFoundError _ _ => "NotFoundError"
  | conflictError => "ConflictError"

end Exn

/-! ## Operations and answers -/

/-- `ReservationPair`. -/
structure ReservationPair where
  campaignId : String
  workerId : String
  agent : Agent
  borrower : Borrower
  deriving DecidableEq, Repr

/-- `OriginateRequest`. -/
structure OriginateRequest where
  callId : String
  campaignId : String
  phoneNumber : String
  timeoutSeconds : ℚ
  deriving DecidableEq, Repr

/-- What a component may await. -/
inductive Op where
  -- agents
  | tryReserveAgent (campaignId agentId workerId : String) (ttlSeconds : Int)
  | findClaimableAgents (campaignId : String) (needed : Int)
  | releaseAgent (agentId workerId : String) (target : AgentState) (actor : TransitionActor)
      (shielded : Bool)
  | transitionAgent (agentId : String) (fromState toState : AgentState) (expectedVersion : Nat)
  | bindCall (agentId workerId callId : String)
  | countAgentsByState (campaignId : String)
  | findExpiredAgentLeases (now : Time) (limit : Int)
  | releaseExpiredAgentLease (agent : Agent) (now : Time)
  | findHeartbeatExpired (olderThan : Time) (limit : Int)
  | findExpiredWrapUps (olderThan : Time) (limit : Int) (campaignId : Option String)
  | countExpiredLeases (now : Time)
  | findAgentById (agentId : String)
  | heartbeat (agentId : String)
  -- borrowers
  | tryReserveBorrower (campaignId borrowerId workerId : String) (ttlSeconds : Int)
  | findClaimableBorrowers (campaignId : String) (needed : Int)
  | releaseBorrower (borrowerId workerId : String) (outcome : BorrowerReleaseOutcome)
      (maxAttempts backoffBaseSeconds : Int) (shielded : Bool)
  | findExpiredBorrowerLeases (now : Time) (limit : Int)
  | reclaimExpiredBorrowerLease (candidate : Borrower) (now : Time)
  -- calls
  | insertCall (campaignId agentId borrowerId providerName workerId : String) (attempt : Nat)
  | findByIdempotencyKey (idempotencyKey : String)
  | findCallById (callId : String)
  | findByProviderCallId (providerName providerCallId : String)
  | attachProviderCallId (callId : String) (providerCallId : Option String)
  | transitionCall (callId : String) (targetState : CallState) (failureReason : Option String)
  | findStaleCalls (olderThan : Time) (limit : Int)
  | outcomeCountsBetween (campaignId : String) (start stop : Time)
  | countCallsByState (campaignId : String)
  -- events and decisions
  | recordEvent (event : ProviderEvent)
  | markProcessed (providerName providerEventId : String) (status : EventProcessingStatus)
      (appliedTransition : Option String)
  | findProviderEventsForCall (providerCallId : String)
  | findLatestEvents (limit : Int)
  | recordPacingRequest (campaignId : String) (request : PacingRequest)
  | recordSafetyDecision (decision : SafetyDecision)
  -- providers; the pair is what the request is made for, and is not part of it
  | originateCall (providerName : String) (pair : ReservationPair) (request : OriginateRequest)
  | hangupCall (providerName : String) (providerCallId : Option String)
  | getCallStatus (providerName providerCallId : String)
  -- local to the worker process
  | utcNow
  | shouldAllowRetry (providerName : String)
  | getHealth (providerName : String)
  | recordAvailable (campaignId : String) (availableAgents : Nat)
  | logEvent (event campaignId : String)

/-- What each operation answers. -/
@[reducible] def Ans : Op → Type
  | .tryReserveAgent .. | .releaseAgent .. | .transitionAgent .. | .bindCall ..
  | .releaseExpiredAgentLease .. | .findAgentById .. => Option Agent
  | .findClaimableAgents .. | .findExpiredAgentLeases .. | .findHeartbeatExpired ..
  | .findExpiredWrapUps .. => List Agent
  | .countAgentsByState .. => AgentState → Nat
  | .countExpiredLeases .. => Nat
  | .heartbeat .. => Bool
  | .tryReserveBorrower .. | .releaseBorrower .. | .reclaimExpiredBorrowerLease .. =>
      Option Borrower
  | .findClaimableBorrowers .. | .findExpiredBorrowerLeases .. => List Borrower
  | .insertCall .. => Call
  | .findByIdempotencyKey .. | .findCallById .. | .findByProviderCallId ..
  | .attachProviderCallId .. | .transitionCall .. => Option Call
  | .findStaleCalls .. => List Call
  | .outcomeCountsBetween .. => OutcomeCounts
  | .countCallsByState .. => CallState → Nat
  | .recordEvent .. => EventRecordResult
  | .findProviderEventsForCall .. | .findLatestEvents .. => List ProviderEvent
  | .markProcessed .. | .recordSafetyDecision .. | .hangupCall .. | .logEvent .. => Unit
  | .recordPacingRequest .. => String
  | .originateCall .. => OriginateResult
  | .getCallStatus .. => ProviderCallStatus
  | .utcNow => Time
  | .shouldAllowRetry .. => Bool
  | .getHealth .. => ProviderHealthStatus
  | .recordAvailable .. => Option Nat

/-- The operations, their answers, and the exceptions. -/
@[reducible] def sig : Sig := ⟨Op, Ans, Exn⟩

/-- A coroutine of the dialer. -/
abbrev Async (α : Type) : Type := Prog sig α

/-- `await` one operation. -/
abbrev await (o : Op) : Async (Ans o) := Prog.perform (S := sig) o

/-- `raise`. -/
abbrev throw {α : Type} (e : Exn) : Async α := Prog.raise (S := sig) e

/-! ## The environment's part -/

/-- What may go wrong with an operation, and whether it had its effect by then. -/
inductive Fault where
  | none
  | dbError (typeName : String) (performed : Bool)
  | cancelled (performed : Bool)
  deriving DecidableEq, Repr

/-- How an originate request under `asyncio.wait_for` ends. -/
inductive OriginateAnswer where
  | result (r : OriginateResult)
  | timeoutError
  | providerError (e : ProviderError)
  deriving DecidableEq, Repr

/-- What the environment contributes to one operation. -/
structure Choice where
  now : Time := 0
  fault : Fault := .none
  newId : String := ""
  originate : OriginateAnswer := .timeoutError
  hangup : Option ProviderError := none
  callStatus : Except ProviderError ProviderCallStatus := .ok .unknown
  health : ProviderHealthStatus := .healthy
  previousAvailable : Option Nat := none

/-! ## The shared state -/

/-- Something that happened. -/
inductive Entry where
  | answered (i : Nat) (o : Op) (r : Except Exn (Ans o))
  | crashed (i : Nat)

/-- The process an entry of the log is about. -/
def Entry.process : Entry → Nat
  | .answered i _ _ => i
  | .crashed i => i

/-- What an entry says of process `i`; `f` tells the answers that begin and end something. -/
def Entry.tells (f : (o : Op) → Except Exn (Ans o) → Option Bool) (i : Nat) : Entry → Option Bool
  | .answered j o r => if j = i then f o r else none
  | .crashed j => if j = i then some false else none

/-- Process `i` has begun what `f` tells, and has not ended it. -/
def engaged (f : (o : Op) → Except Exn (Ans o) → Option Bool) (i : Nat) (log : List Entry) :
    Bool :=
  (log.findSome? (Entry.tells f i)).getD false

/-- The database, and the log of what was answered so far, newest first. -/
structure State where
  agents : Collection Agent
  borrowers : Collection Borrower
  calls : Collection Call
  events : Collection ProviderEventDocument
  log : List Entry

/-- Worked on by the database: may fail with a `PyMongoError`. -/
def Op.isDatabase : Op → Bool
  | .originateCall .. | .hangupCall .. | .getCallStatus .. | .utcNow | .shouldAllowRetry ..
  | .getHealth .. | .recordAvailable .. | .logEvent .. => false
  | _ => true

/-- Awaited in the source, and not under `asyncio.shield`: may end in a `CancelledError`. -/
def Op.isCancellable : Op → Bool
  | .releaseAgent _ _ _ _ shielded | .releaseBorrower _ _ _ _ _ shielded => !shielded
  | .utcNow | .shouldAllowRetry .. | .getHealth .. | .recordAvailable .. | .logEvent .. => false
  | _ => true

namespace State

/-- Run a repository function on the agents. -/
def onAgents {α : Type} (s : State) (f : Collection Agent → α × Collection Agent) :
    Except Exn α × State :=
  (.ok (f s.agents).1, { s with agents := (f s.agents).2 })

/-- Run a repository function on the borrowers. -/
def onBorrowers {α : Type} (s : State) (f : Collection Borrower → α × Collection Borrower) :
    Except Exn α × State :=
  (.ok (f s.borrowers).1, { s with borrowers := (f s.borrowers).2 })

/-- Run a repository function on the calls. -/
def onCalls {α : Type} (s : State) (f : Collection Call → α × Collection Call) :
    Except Exn α × State :=
  (.ok (f s.calls).1, { s with calls := (f s.calls).2 })

/-- Run a repository function on the events. -/
def onEvents {α : Type} (s : State)
    (f : Collection ProviderEventDocument → α × Collection ProviderEventDocument) :
    Except Exn α × State :=
  (.ok (f s.events).1, { s with events := (f s.events).2 })

/-- Note an event in the log. -/
def record (s : State) (e : Entry) : State := { s with log := e :: s.log }

end State

/-- The call `create_call` inserts. -/
def Choice.newCall (c : Choice) (campaignId agentId borrowerId providerName workerId : String)
    (attempt : Nat) : Call :=
  CallRepository.newCall c.newId c.now campaignId agentId borrowerId providerName workerId attempt

/-- What an operation does when nothing goes wrong with it. -/
def effect (o : Op) (c : Choice) (s : State) : Except Exn (Ans o) × State :=
  match o with
  | .tryReserveAgent campaignId agentId workerId ttlSeconds =>
      s.onAgents (AgentRepository.tryReserveAgent c.now campaignId agentId workerId ttlSeconds)
  | .findClaimableAgents campaignId needed =>
      (.ok (AgentRepository.findClaimableAgents campaignId needed s.agents), s)
  | .releaseAgent agentId workerId target actor _ =>
      s.onAgents (AgentRepository.releaseAgent c.now agentId workerId target actor)
  | .transitionAgent agentId fromState toState expectedVersion =>
      s.onAgents
        (AgentRepository.transitionAgent c.now agentId fromState toState expectedVersion)
  | .bindCall agentId workerId callId =>
      s.onAgents (AgentRepository.bindCall agentId workerId callId)
  | .countAgentsByState campaignId =>
      (.ok (AgentRepository.countByState campaignId s.agents), s)
  | .findExpiredAgentLeases now limit =>
      (.ok (AgentRepository.findExpiredAgentLeases now limit s.agents), s)
  | .releaseExpiredAgentLease agent now =>
      s.onAgents (AgentRepository.releaseExpiredAgentLease agent now)
  | .findHeartbeatExpired olderThan limit =>
      (.ok (AgentRepository.findHeartbeatExpired olderThan limit s.agents), s)
  | .findExpiredWrapUps olderThan limit campaignId =>
      (.ok (AgentRepository.findExpiredWrapUps olderThan limit campaignId s.agents), s)
  | .countExpiredLeases now => (.ok (AgentRepository.countExpiredLeases now s.agents), s)
  | .findAgentById agentId => (.ok (AgentRepository.findById agentId s.agents), s)
  | .heartbeat agentId => s.onAgents (AgentRepository.heartbeat c.now agentId)
  | .tryReserveBorrower campaignId borrowerId workerId ttlSeconds =>
      s.onBorrowers
        (BorrowerRepository.tryReserveBorrower c.now campaignId borrowerId workerId ttlSeconds)
  | .findClaimableBorrowers campaignId needed =>
      (.ok (BorrowerRepository.findClaimableBorrowers c.now campaignId needed s.borrowers), s)
  | .releaseBorrower borrowerId workerId outcome maxAttempts backoffBaseSeconds _ =>
      s.onBorrowers (BorrowerRepository.releaseBorrower c.now borrowerId workerId outcome
        maxAttempts backoffBaseSeconds)
  | .findExpiredBorrowerLeases now limit =>
      (.ok (BorrowerRepository.findExpiredBorrowerLeases now limit s.borrowers), s)
  | .reclaimExpiredBorrowerLease candidate now =>
      s.onBorrowers (BorrowerRepository.reclaimExpiredBorrowerLease candidate now)
  | .insertCall campaignId agentId borrowerId providerName workerId attempt =>
      let call := c.newCall campaignId agentId borrowerId providerName workerId attempt
      match CallRepository.insertCall call s.calls with
      | some calls => (.ok call, { s with calls := calls })
      | none => (.error .duplicateKeyError, s)
  | .findByIdempotencyKey idempotencyKey =>
      (.ok (CallRepository.findByIdempotencyKey idempotencyKey s.calls), s)
  | .findCallById callId => (.ok (CallRepository.findById callId s.calls), s)
  | .findByProviderCallId providerName providerCallId =>
      (.ok (CallRepository.findByProviderCallId providerName providerCallId s.calls), s)
  | .attachProviderCallId callId providerCallId =>
      s.onCalls (CallRepository.attachProviderCallId c.now callId providerCallId)
  | .transitionCall callId targetState failureReason =>
      s.onCalls (CallRepository.transitionCall c.now callId targetState failureReason)
  | .findStaleCalls olderThan limit =>
      (.ok (CallRepository.findStaleCalls olderThan limit s.calls), s)
  | .outcomeCountsBetween campaignId start stop =>
      (.ok (CallRepository.outcomeCountsBetween campaignId start stop s.calls), s)
  | .countCallsByState campaignId => (.ok (CallRepository.countByState campaignId s.calls), s)
  | .recordEvent event =>
      s.onEvents (EventRepository.recordEvent c.now event)
  | .markProcessed providerName providerEventId status appliedTransition =>
      s.onEvents fun events => ((), EventRepository.markProcessed providerName providerEventId
        status appliedTransition events)
  | .findProviderEventsForCall providerCallId =>
      (.ok (EventRepository.findProviderEventsForCall providerCallId s.events), s)
  | .findLatestEvents limit => (.ok (EventRepository.findLatest limit s.events), s)
  | .recordPacingRequest _ _ => (.ok c.newId, s)
  | .recordSafetyDecision _ => (.ok (), s)
  | .originateCall _ _ _ =>
      match c.originate with
      | .result r => (.ok r, s)
      | .timeoutError => (.error .timeoutError, s)
      | .providerError e => (.error (.provider e), s)
  | .hangupCall _ _ =>
      match c.hangup with
      | some e => (.error (.provider e), s)
      | none => (.ok (), s)
  | .getCallStatus _ _ =>
      match c.callStatus with
      | .ok status => (.ok status, s)
      | .error e => (.error (.provider e), s)
  | .utcNow => (.ok c.now, s)
  | .shouldAllowRetry _ => (.ok (c.health != .unhealthy), s)
  | .getHealth _ => (.ok c.health, s)
  | .recordAvailable _ _ => (.ok c.previousAvailable, s)
  | .logEvent _ _ => (.ok (), s)

/-- What an operation does, faults included. -/
def attempt (o : Op) (c : Choice) (s : State) : Except Exn (Ans o) × State :=
  match c.fault with
  | .none => effect o c s
  | .dbError name performed =>
      if o.isDatabase then
        (.error (.pyMongoError name), if performed then (effect o c s).2 else s)
      else effect o c s
  | .cancelled performed =>
      if o.isCancellable then
        (.error .cancelledError, if performed then (effect o c s).2 else s)
      else effect o c s

/-- Process `i` performs `o`. -/
def exec (i : Nat) (o : Op) (c : Choice) (s : State) : Except Exn (Ans o) × State :=
  ((attempt o c s).1, (attempt o c s).2.record (.answered i o (attempt o c s).1))

/-- Process `i` by itself: its `n`-th operation gets the environment's `n`-th choice. -/
def solo (i : Nat) (env : Nat → Choice) (o : Op) (x : State × Nat) :
    Except Exn (Ans o) × State × Nat :=
  ((exec i o (env x.2) x.1).1, (exec i o (env x.2) x.1).2, x.2 + 1)

/-- Process `i` dies. -/
def crash (i : Nat) (s : State) : State := s.record (.crashed i)

end SmartDialer
