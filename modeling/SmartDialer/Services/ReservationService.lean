import SmartDialer.Runtime

/-!
# Reserving and releasing a pair

`app/services/reservation_service.py`, after the repository methods that do
something besides their one database operation.
-/

namespace SmartDialer

open Conc

/-! ## Repository methods around an operation -/

namespace Agents

/-- `AgentRepository.release_agent`: no sources, no query. -/
def releaseAgent (agentId workerId : String) (target : AgentState) (actor : TransitionActor)
    (shielded : Bool) : Async (Option Agent) :=
  if (allowedSources target actor).isEmpty then pure none
  else await (.releaseAgent agentId workerId target actor shielded)

/-- `AgentRepository.transition_agent`: validated against what the caller read. -/
def transitionAgent (agentId : String) (fromState toState : AgentState)
    (actor : TransitionActor) (expectedVersion : Nat) : Async (Option Agent) :=
  match validateTransition fromState toState actor with
  | .error e => throw (.stateMachine e)
  | .ok () => await (.transitionAgent agentId fromState toState expectedVersion)

/-- `release_agent` performs one operation at most. -/
theorem releaseAgent_all {R : Op → Prop} {agentId workerId : String} {target : AgentState}
    {actor : TransitionActor} {shielded : Bool}
    (h : R (.releaseAgent agentId workerId target actor shielded)) :
    (releaseAgent agentId workerId target actor shielded).All R := by
  rw [releaseAgent]
  split
  · trivial
  · exact Prog.all_perform h

/-- `transition_agent` performs one operation at most, if the table allows it. -/
theorem transitionAgent_all {R : Op → Prop} {agentId : String} {fromState toState : AgentState}
    {actor : TransitionActor} {version : Nat}
    (h : ∀ u, validateTransition fromState toState actor = .ok u →
      R (.transitionAgent agentId fromState toState version)) :
    (transitionAgent agentId fromState toState actor version).All R := by
  rw [transitionAgent]
  split
  · trivial
  · rename_i hvalid
    exact Prog.all_perform (h _ hvalid)

end Agents

namespace Calls

/-- `CallRepository.create_call`: on a duplicate key, whatever call has the key. -/
def createCall (campaignId agentId borrowerId providerName workerId : String) (attempt : Nat) :
    Async Call :=
  Prog.tryCatch
    (await (.insertCall campaignId agentId borrowerId providerName workerId attempt))
    fun
      | .duplicateKeyError => do
          match ← await (.findByIdempotencyKey
            (buildIdempotencyKey campaignId agentId borrowerId attempt)) with
          | some existing => pure existing
          | none => throw .validationError
      | e => throw e

end Calls

/-! ## The service -/

namespace ReservationService

/-- `_release_agent`. -/
def releaseAgent (agentId workerId : String) (shielded : Bool) : Async Unit := do
  let _ ← Agents.releaseAgent agentId workerId .available .allocator shielded
  pure ()

/-- The loop of `_claim_agent`: the first candidate nobody else gets first. -/
def claimFirstAgent (cfg : Settings) (campaignId workerId : String) :
    List Agent → Async (Option Agent)
  | [] => pure none
  | candidate :: rest => do
      match ← await (.tryReserveAgent campaignId candidate.id workerId
        cfg.reservationTtlSeconds) with
      | some agent => pure (some agent)
      | none => claimFirstAgent cfg campaignId workerId rest

/-- `_claim_agent`. -/
def claimAgent (cfg : Settings) (campaignId workerId : String) : Async (Option Agent) := do
  let candidates ← await (.findClaimableAgents campaignId 1)
  claimFirstAgent cfg campaignId workerId candidates

/-- The loop of `_claim_borrower`. -/
def claimFirstBorrower (cfg : Settings) (campaignId workerId : String) :
    List Borrower → Async (Option Borrower)
  | [] => pure none
  | candidate :: rest => do
      match ← await (.tryReserveBorrower campaignId candidate.id workerId
        cfg.reservationTtlSeconds) with
      | some borrower => pure (some borrower)
      | none => claimFirstBorrower cfg campaignId workerId rest

/-- `_claim_borrower`. -/
def claimBorrower (cfg : Settings) (campaignId workerId : String) : Async (Option Borrower) := do
  let candidates ← await (.findClaimableBorrowers campaignId 1)
  claimFirstBorrower cfg campaignId workerId candidates

/-- `reserve_pair`. -/
def reservePair (cfg : Settings) (campaignId workerId : String) :
    Async (Option ReservationPair) := do
  match ← claimAgent cfg campaignId workerId with
  | none => pure none
  | some agent =>
      let borrower ← Prog.tryCatch (claimBorrower cfg campaignId workerId) fun e =>
        if e.isPyMongoError then do
          releaseAgent agent.id workerId false
          throw e
        else throw e
      match borrower with
      | none => do
          releaseAgent agent.id workerId false
          pure none
      | some borrower => pure (some ⟨campaignId, workerId, agent, borrower⟩)

/-- `release_pair`. -/
def releasePair (cfg : Settings) (pair : ReservationPair) (outcome : BorrowerReleaseOutcome)
    (shielded : Bool) : Async Unit := do
  releaseAgent pair.agent.id pair.workerId shielded
  let _ ← await (.releaseBorrower pair.borrower.id pair.workerId outcome cfg.maxCallAttempts
    cfg.retryBackoffBaseSeconds shielded)
  pure ()

end ReservationService

end SmartDialer
