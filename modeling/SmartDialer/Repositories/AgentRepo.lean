import SmartDialer.Models.Documents
import SmartDialer.StateMachines.AgentSm

/-!
# The agent repository

`app/repositories/agent_repo.py`, with the helpers of `app/repositories/base.py`
the other repositories share. Each write is a filter and an update, and both are
definitions of their own: who may change an agent, and when, is what most of this
development is about, and it is said in terms of the filters.
-/

namespace SmartDialer

open Store

/-- `CANDIDATE_WINDOW_MULTIPLIER`. -/
def candidateWindowMultiplier : Int := 3

/-- `candidate_window`. -/
def candidateWindow (needed : Int) : Int := max needed 0 * candidateWindowMultiplier

/-- `allowed_sources(AVAILABLE, RECOVERY)`: the states of the lease queries. -/
def leaseSources : List AgentState := allowedSources .available .recovery

namespace AgentRepository

/--
`time_accounting_updates`: the time spent in `source` is added to that state's
counters, per `TIME_ACCOUNTING_FIELDS`.
-/
def timeAccountingUpdates (source : AgentState) (now : Time) (a : Agent) : Agent :=
  let elapsed := (max 0 (now - a.stateChangedAt)).toNat
  match source with
  | .available => { a with availableTimeMs := a.availableTimeMs + elapsed }
  | .reserved | .dialing => { a with busyTimeMs := a.busyTimeMs + elapsed }
  | .connected =>
      { a with
        busyTimeMs := a.busyTimeMs + elapsed
        connectedTimeMs := a.connectedTimeMs + elapsed }
  | .wrapUp =>
      { a with
        busyTimeMs := a.busyTimeMs + elapsed
        wrapUpTimeMs := a.wrapUpTimeMs + elapsed }
  | .offline | .paused => a

/-- `_conditional_accounting`: the branch of the agent's own state, if it is a source. -/
def conditionalAccounting (sources : List AgentState) (now : Time) (a : Agent) : Agent :=
  if a.state ∈ sources then timeAccountingUpdates a.state now a else a

/-! ## Filters -/

/-- Whom `try_reserve_agent` reserves. -/
def reservable (campaignId : String) (a : Agent) : Bool :=
  a.campaignId == campaignId && a.state == .available

/-- Whom `release_agent` releases. -/
def releasable (workerId : String) (sources : List AgentState) (a : Agent) : Bool :=
  a.reservedBy == some workerId && sources.contains a.state

/-- Whom `transition_agent` moves. -/
def movable (fromState : AgentState) (expectedVersion : Nat) (a : Agent) : Bool :=
  a.state == fromState && a.stateVersion == expectedVersion

/-- Whom `bind_call` binds. -/
def bindable (workerId : String) (a : Agent) : Bool := a.reservedBy == some workerId

/-- `lease_expires_at < now`. -/
def leaseExpired (now : Time) (leaseExpiresAt : Option Time) : Bool :=
  leaseExpiresAt.any (· < now)

/-- Whose lease `find_expired_agent_leases` reports. -/
def leaseReclaimable (now : Time) (a : Agent) : Bool :=
  leaseSources.contains a.state && a.reservedBy.isSome && leaseExpired now a.leaseExpiresAt

/-- Whom `release_expired_agent_lease` releases: the agent as it was found. -/
def leaseUnchanged (agent : Agent) (now : Time) (a : Agent) : Bool :=
  a.state == agent.state && a.stateVersion == agent.stateVersion
    && leaseExpired now a.leaseExpiresAt

section

variable {a : Agent} {now : Time} {workerId : String}

theorem reservable_iff {campaignId : String} :
    reservable campaignId a = true ↔ a.campaignId = campaignId ∧ a.state = .available := by
  rw [reservable, Bool.and_eq_true, beq_iff_eq, beq_iff_eq]

theorem releasable_iff {sources : List AgentState} : releasable workerId sources a = true
    ↔ a.reservedBy = some workerId ∧ a.state ∈ sources := by
  rw [releasable, Bool.and_eq_true, beq_iff_eq, List.contains_iff_mem]

theorem movable_iff {fromState : AgentState} {expectedVersion : Nat} :
    movable fromState expectedVersion a = true
      ↔ a.state = fromState ∧ a.stateVersion = expectedVersion := by
  rw [movable, Bool.and_eq_true, beq_iff_eq, beq_iff_eq]

theorem bindable_iff : bindable workerId a = true ↔ a.reservedBy = some workerId := by
  rw [bindable, beq_iff_eq]

theorem leaseExpired_iff {leaseExpiresAt : Option Time} :
    leaseExpired now leaseExpiresAt = true ↔ ∃ t, leaseExpiresAt = some t ∧ t < now := by
  simp [leaseExpired, Option.any_eq_true]

theorem leaseReclaimable_iff : leaseReclaimable now a = true ↔ a.state ∈ leaseSources
    ∧ a.reservedBy.isSome = true ∧ leaseExpired now a.leaseExpiresAt = true := by
  rw [leaseReclaimable, Bool.and_eq_true, Bool.and_eq_true, List.contains_iff_mem, and_assoc]

theorem leaseUnchanged_iff {agent : Agent} : leaseUnchanged agent now a = true
    ↔ a.state = agent.state ∧ a.stateVersion = agent.stateVersion
      ∧ leaseExpired now a.leaseExpiresAt = true := by
  rw [leaseUnchanged, Bool.and_eq_true, Bool.and_eq_true, beq_iff_eq, beq_iff_eq, and_assoc]

end

/-! ## Updates -/

/-- The update of `try_reserve_agent`, with `build_lease_fields`. -/
def reserve (now : Time) (workerId : String) (ttlSeconds : Int) : Update Agent where
  apply a :=
    { a with
      state := .reserved
      stateChangedAt := now
      reservedBy := some workerId
      reservedAt := some now
      leaseExpiresAt := some (now + seconds ttlSeconds)
      stateVersion := a.stateVersion + 1 }
  key_apply _ := rfl

/-- The update of `release_agent`, with `cleared_lease_fields`. -/
def release (now : Time) (sources : List AgentState) (target : AgentState) : Update Agent where
  apply a :=
    { conditionalAccounting sources now a with
      state := target
      stateChangedAt := now
      currentCallId := none
      stateVersion := a.stateVersion + 1
      reservedBy := none
      reservedAt := none
      leaseExpiresAt := none }
  key_apply a := by
    simp only [agent_key, conditionalAccounting, timeAccountingUpdates]
    split
    · split <;> rfl
    · rfl

/-- The update of `transition_agent`; the lease and the bound call stay. -/
def move (now : Time) (fromState toState : AgentState) : Update Agent where
  apply a :=
    { timeAccountingUpdates fromState now a with
      state := toState
      stateChangedAt := now
      stateVersion := a.stateVersion + 1 }
  key_apply a := by
    simp only [agent_key, timeAccountingUpdates]
    split <;> rfl

/-- The update of `bind_call`; the version stays. -/
def setCurrentCall (callId : String) : Update Agent where
  apply a := { a with currentCallId := some callId }
  key_apply _ := rfl

/-- The update of `release_expired_agent_lease`; no time is accounted. -/
def reclaim (now : Time) : Update Agent where
  apply a :=
    { a with
      state := .available
      stateChangedAt := now
      currentCallId := none
      reservedBy := none
      reservedAt := none
      leaseExpiresAt := none
      stateVersion := a.stateVersion + 1 }
  key_apply _ := rfl

/-- The update of `heartbeat`. -/
def beat (now : Time) : Update Agent where
  apply a := { a with lastHeartbeatAt := some now }
  key_apply _ := rfl

/-! ## Operations -/

/-- `try_reserve_agent`. -/
def tryReserveAgent (now : Time) (campaignId agentId workerId : String) (ttlSeconds : Int)
    (agents : Collection Agent) : Option Agent × Collection Agent :=
  agents.findOneAndUpdate agentId (reservable campaignId) (reserve now workerId ttlSeconds)

/-- `find_claimable_agents`. -/
def findClaimableAgents (campaignId : String) (needed : Int) (agents : Collection Agent) :
    List Agent :=
  if candidateWindow needed = 0 then []
  else Collection.limit (candidateWindow needed)
    (Collection.sortOn Agent.stateChangedAt (agents.find (reservable campaignId)))

/-- `release_agent`, past its check that there are sources at all. -/
def releaseAgent (now : Time) (agentId workerId : String) (target : AgentState)
    (actor : TransitionActor) (agents : Collection Agent) : Option Agent × Collection Agent :=
  let sources := allowedSources target actor
  agents.findOneAndUpdate agentId (releasable workerId sources) (release now sources target)

/-- `transition_agent`, past `validate_transition`. -/
def transitionAgent (now : Time) (agentId : String) (fromState toState : AgentState)
    (expectedVersion : Nat) (agents : Collection Agent) : Option Agent × Collection Agent :=
  agents.findOneAndUpdate agentId (movable fromState expectedVersion)
    (move now fromState toState)

/-- `bind_call`. -/
def bindCall (agentId workerId callId : String) (agents : Collection Agent) :
    Option Agent × Collection Agent :=
  agents.findOneAndUpdate agentId (bindable workerId) (setCurrentCall callId)

/-- `count_by_state`. -/
def countByState (campaignId : String) (agents : Collection Agent) : AgentState → Nat :=
  fun s => (agents.find (fun a => a.campaignId == campaignId && a.state == s)).length

/-- `find_expired_agent_leases`. -/
def findExpiredAgentLeases (now : Time) (limit : Int) (agents : Collection Agent) : List Agent :=
  Collection.limit limit (agents.find (leaseReclaimable now))

/-- `release_expired_agent_lease`. -/
def releaseExpiredAgentLease (agent : Agent) (now : Time) (agents : Collection Agent) :
    Option Agent × Collection Agent :=
  agents.findOneAndUpdate agent.id (leaseUnchanged agent now) (reclaim now)

/-- `find_heartbeat_expired`. -/
def findHeartbeatExpired (olderThan : Time) (limit : Int) (agents : Collection Agent) :
    List Agent :=
  Collection.limit limit
    (agents.find (fun a => a.state != .offline && a.lastHeartbeatAt.any (· < olderThan)))

/-- `find_expired_wrap_ups`. -/
def findExpiredWrapUps (olderThan : Time) (limit : Int) (campaignId : Option String)
    (agents : Collection Agent) : List Agent :=
  Collection.limit limit (Collection.sortOn Agent.stateChangedAt
    (agents.find (fun a => a.state == .wrapUp && decide (a.stateChangedAt ≤ olderThan)
      && campaignId.all (a.campaignId == ·))))

/-- `count_expired_leases`. -/
def countExpiredLeases (now : Time) (agents : Collection Agent) : Nat :=
  (agents.find (leaseReclaimable now)).length

/-- `find_by_id`. -/
def findById (agentId : String) (agents : Collection Agent) : Option Agent := agents.get agentId

/-- `heartbeat`: whether there was such an agent. -/
def heartbeat (now : Time) (agentId : String) (agents : Collection Agent) :
    Bool × Collection Agent :=
  ((agents.get agentId).isSome, agents.update agentId (fun _ => true) (beat now))

/-! ## What the updates leave alone -/

@[simp] theorem timeAccountingUpdates_id (s : AgentState) (now : Time) (a : Agent) :
    (timeAccountingUpdates s now a).id = a.id := by
  cases s <;> rfl

@[simp] theorem timeAccountingUpdates_campaignId (s : AgentState) (now : Time) (a : Agent) :
    (timeAccountingUpdates s now a).campaignId = a.campaignId := by
  cases s <;> rfl

@[simp] theorem timeAccountingUpdates_reservedBy (s : AgentState) (now : Time) (a : Agent) :
    (timeAccountingUpdates s now a).reservedBy = a.reservedBy := by
  cases s <;> rfl

@[simp] theorem timeAccountingUpdates_currentCallId (s : AgentState) (now : Time) (a : Agent) :
    (timeAccountingUpdates s now a).currentCallId = a.currentCallId := by
  cases s <;> rfl

@[simp] theorem timeAccountingUpdates_lastHeartbeatAt (s : AgentState) (now : Time) (a : Agent) :
    (timeAccountingUpdates s now a).lastHeartbeatAt = a.lastHeartbeatAt := by
  cases s <;> rfl

@[simp] theorem conditionalAccounting_lastHeartbeatAt (sources : List AgentState) (now : Time)
    (a : Agent) : (conditionalAccounting sources now a).lastHeartbeatAt = a.lastHeartbeatAt := by
  rw [conditionalAccounting]
  split
  · exact timeAccountingUpdates_lastHeartbeatAt ..
  · rfl

@[simp] theorem timeAccountingUpdates_leaseExpiresAt (s : AgentState) (now : Time) (a : Agent) :
    (timeAccountingUpdates s now a).leaseExpiresAt = a.leaseExpiresAt := by
  cases s <;> rfl

end AgentRepository

end SmartDialer
