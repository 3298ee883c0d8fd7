import SmartDialer.Safety.SafetyController
import SmartDialer.Workers.RecoveryWorker

/-!
# The dialer, the agent API, and the tasks of the system

`app/dialers/base.py`, `app/workers/dialer_worker.py`, `app/services/wrap_up_service.py`
and `agent_action` of `app/api/routes_agents.py`; and, over them, the `System`
whose runs the protocol is proved about. The pacing request is an input of a tick:
here it may be any, and `MetricsSnapshot.lean` has what makes it.

An iteration of a loop is a task, and a task may be started at any time, however many
of its kind are under way. The loops themselves are in `WorkerLoops.lean`, and
`Refinement.lean` has their runs among the runs of these tasks.
-/

namespace SmartDialer

open Conc

namespace DialerBase

/-- The pacing decision `tick` records, unless it is idle. -/
def recordRequest (campaign : Campaign) (request : PacingRequest) : Async (Option String) :=
  if request.requested = 0 then pure none
  else do
    let id ← await (.recordPacingRequest campaign.id request)
    pure (some id)

/-- `tick`. The log line at its end is kept: it is where a tick is over. -/
def tick (cfg : Settings) (campaign : Campaign) (request : PacingRequest) (workerId : String) :
    Async AllocationResult := do
  let pacingDecisionId ← recordRequest campaign request
  let decision ← SafetyController.evaluate cfg campaign request pacingDecisionId
    (request.requested != 0)
  let allocation ← CallAllocator.allocate cfg campaign decision.approved workerId
  await (.logEvent "dialer_tick" campaign.id)
  pure allocation

end DialerBase

namespace DialerWorker

/-- `WRAP_UP_SWEEP_LIMIT`. -/
def wrapUpSweepLimit : Int := 500

/-- `_release_finished_wrap_ups`, with `find_finished_wrap_ups`. -/
def releaseFinishedWrapUps (cfg : Settings) (campaignId : String) : Async Unit := do
  let now ← await .utcNow
  let agents ← await (.findExpiredWrapUps (now - seconds cfg.wrapUpSeconds) wrapUpSweepLimit
    (some campaignId))
  let _ ← Prog.count (RecoveryWorker.endWrapUp .workerTimer) agents
  pure ()

/-- `_tick_campaign`. -/
def tickCampaign (cfg : Settings) (campaign : Campaign) (request : PacingRequest)
    (workerId : String) : Async Unit :=
  Prog.tryCatch
    (do
      let _ ← DialerBase.tick cfg campaign request workerId
      releaseFinishedWrapUps cfg campaign.id)
    fun e =>
      if e.isException then await (.logEvent "campaign_tick_failed" campaign.id) else throw e

end DialerWorker

/-! ## `agent_action` -/

namespace RoutesAgents

/-- `AGENT_ACTIONS`. -/
def agentActions : String → Option AgentState
  | "login" => some .available
  | "logout" => some .offline
  | "pause" => some .paused
  | "resume" => some .available
  | _ => none

/-- `agent_action`, without the rendering of the agent it answers. -/
def agentAction (agentId action : String) : Async Unit := do
  match ← await (.findAgentById agentId) with
  | none => throw (.notFoundError "agent" agentId)
  | some agent =>
      if action = "heartbeat" then do
        let _ ← await (.heartbeat agent.id)
        let _ ← await (.findAgentById agent.id)
        pure ()
      else
        match agentActions action with
        | none => throw (.notFoundError "agent action" action)
        | some target => do
            match ← Agents.transitionAgent agent.id agent.state target .agent
              agent.stateVersion with
            | none => throw .conflictError
            | some _ =>
                if action = "login" then do
                  let _ ← await (.heartbeat agent.id)
                  let _ ← await (.findAgentById agent.id)
                  pure ()
                else pure ()

end RoutesAgents

/-! ## The system -/

/-- What may be started. -/
inductive Task where
  /-- One iteration of the dialer loop on one campaign. -/
  | tick (campaign : Campaign) (request : PacingRequest) (workerId : String)
  /-- An allocation on its own, with any number approved. -/
  | allocate (campaign : Campaign) (approved : Int) (workerId : String)
  /-- The delivery of one event. -/
  | processEvent (event : ProviderEvent)
  /-- One iteration of the recovery loop. -/
  | runSweeps
  /-- The wrap-up timer of a campaign. -/
  | releaseFinishedWrapUps (campaignId : String)
  /-- A request to the agent API. -/
  | agentAction (agentId action : String)

/-- The program of a task. -/
def Task.program (cfg : Settings) : Task → Async Unit
  | .tick campaign request workerId =>
      DialerWorker.tickCampaign cfg campaign request workerId
  | .allocate campaign approved workerId => do
      let _ ← CallAllocator.allocate cfg campaign approved workerId
      pure ()
  | .processEvent event => do
      let _ ← EventProcessor.processEvent cfg event
      pure ()
  | .runSweeps => do
      let _ ← RecoveryWorker.runSweeps cfg
      pure ()
  | .releaseFinishedWrapUps campaignId => DialerWorker.releaseFinishedWrapUps cfg campaignId
  | .agentAction agentId action => RoutesAgents.agentAction agentId action

/-- The dialer under settings `cfg`, as a system of processes over one database. -/
@[reducible] def dialer (cfg : Settings) : System sig where
  St := State
  Choice := Choice
  Task := Task
  Ret := Unit
  exec := exec
  crash := crash
  killed := .cancelledError
  prog := Task.program cfg

end SmartDialer
