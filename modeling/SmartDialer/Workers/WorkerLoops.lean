import SmartDialer.Pacing.MetricsSnapshot
import SmartDialer.Workers.DialerWorker

/-!
# The loops of the workers

`app/dialers/`, `app/workers/dialer_worker.py` and `app/workers/recovery_worker.py` from the top:
the dialer worker finds the running campaigns, and for each of them reads a snapshot, asks the
pacing engine and ticks; the recovery worker runs its sweeps over and over. Beside them events
are delivered, agents log in and out, and campaigns are started, paused and stopped.

A loop is given the number of its iterations. The programs are finite, and a loop that goes on
for ever goes on for any number of iterations.
-/

namespace SmartDialer

open Store Conc

namespace ModeRouter

/-- `select`, as far as the dialers differ: in the configuration of the engine. -/
def select (pacing : PacingSettings) : DialingMode → PacingEngineConfig
  | .progressive => ProgressiveDialer.engineConfig pacing
  | .predictive => DialerBase.engineConfig pacing

end ModeRouter

namespace Application

/-- The pacing request of a tick. -/
def pacingRequest (pacing : PacingSettings) (campaign : CampaignDocument)
    (snapshot : PacingSnapshot) : PacingRequest :=
  (PacingEngine.computeRequest snapshot
    (ModeRouter.select pacing campaign.dialingMode)).toPacingRequest

/-- `DialerBase.tick`. -/
def tick (cfg : Settings) (pacing : PacingSettings) (campaign : CampaignDocument)
    (workerId : String) : AppAsync AllocationResult := do
  let snapshot ← MetricsSnapshotBuilder.buildSnapshot cfg campaign
  runTask (DialerBase.tick cfg campaign.toCampaign (pacingRequest pacing campaign snapshot)
    workerId)

/-! ## The dialer worker -/

/-- `_tick_campaign`. -/
def tickCampaign (cfg : Settings) (pacing : PacingSettings) (campaign : CampaignDocument)
    (workerId : String) : AppAsync Unit :=
  Prog.tryCatch
    (do
      let _ ← tick cfg pacing campaign workerId
      runTask (DialerWorker.releaseFinishedWrapUps cfg campaign.id))
    fun e =>
      if e.isException then awaitShared (.logEvent "campaign_tick_failed" campaign.id)
      else .raise e

/-- The loop of `run_once`. -/
def tickAll (cfg : Settings) (pacing : PacingSettings) (workerId : String) :
    List CampaignDocument → AppAsync Unit
  | [] => pure ()
  | campaign :: rest => do
      tickCampaign cfg pacing campaign workerId
      tickAll cfg pacing workerId rest

/-- `run_once`. -/
def runOnce (cfg : Settings) (pacing : PacingSettings) (workerId : String) : AppAsync Unit := do
  let campaigns ← awaitApp .findRunning
  tickAll cfg pacing workerId campaigns

/-- An iteration of a loop: only a cancellation gets through. -/
def guardIteration (event : String) (iteration : AppAsync Unit) : AppAsync Unit :=
  Prog.tryCatch iteration fun e =>
    if e.isException then awaitApp (.logFailure event) else .raise e

/-- `DialerWorker._run`, for so many iterations. -/
def runDialer (cfg : Settings) (pacing : PacingSettings) (workerId : String) : Nat → AppAsync Unit
  | 0 => pure ()
  | iterations + 1 => do
      guardIteration "dialer_tick_failed" (runOnce cfg pacing workerId)
      let stopping ← awaitApp .waitForStop
      if stopping then pure () else runDialer cfg pacing workerId iterations

/-! ## The recovery worker -/

/-- `RecoveryWorker._run`, for so many iterations. -/
def runRecovery (cfg : Settings) : Nat → AppAsync Unit
  | 0 => pure ()
  | iterations + 1 => do
      guardIteration "recovery_loop_failed" (runTask (Task.program cfg .runSweeps))
      awaitApp .sleep
      runRecovery cfg iterations

/-! ## `app/api/routes_campaigns.py` -/

/-- `require_campaign`. -/
def requireCampaign (campaignId : String) : AppAsync CampaignDocument := do
  match ← awaitApp (.findCampaignById campaignId) with
  | none => .raise (.notFoundError "campaign" campaignId)
  | some campaign => pure campaign

/-- `CampaignAction`. -/
inductive CampaignAction where
  | start | pause | stop
  deriving DecidableEq, Repr

/-- `STATUS_ACTIONS`. -/
def statusActions : CampaignAction → CampaignStatus
  | .start => .running
  | .pause => .paused
  | .stop => .stopped

/-- `change_status`, without the rendering of the campaign it answers. -/
def changeStatus (campaignId : String) (action : CampaignAction) : AppAsync Unit := do
  let campaign ← requireCampaign campaignId
  let _ ← awaitApp (.setStatus campaign.id (statusActions action))
  pure ()

/-- `set_mode`, without the rendering. -/
def setMode (campaignId : String) (mode : DialingMode) : AppAsync Unit := do
  let campaign ← requireCampaign campaignId
  let _ ← awaitApp (.setDialingMode campaign.id mode)
  pure ()

end Application

/-! ## The system -/

/-- What runs in the application. -/
inductive AppTask where
  /-- The dialer worker, for so many iterations of its loop. -/
  | dialerWorker (workerId : String) (iterations : Nat)
  /-- The recovery worker. -/
  | recoveryWorker (iterations : Nat)
  /-- The delivery of an event. -/
  | onEvent (event : ProviderEvent)
  /-- A request to the agent API. -/
  | agentAction (agentId action : String)
  /-- Requests to the campaign API. -/
  | createCampaign (dialingMode : DialingMode) (providerName : String) (maxConcurrentCalls : Nat)
      (pacingConfig : PacingConfig)
  | changeStatus (campaignId : String) (action : Application.CampaignAction)
  | setMode (campaignId : String) (mode : DialingMode)

/-- The program of a task. -/
def AppTask.program (cfg : Settings) (pacing : PacingSettings) : AppTask → AppAsync Unit
  | .dialerWorker workerId iterations => Application.runDialer cfg pacing workerId iterations
  | .recoveryWorker iterations => Application.runRecovery cfg iterations
  | .onEvent event => runTask (Task.program cfg (.processEvent event))
  | .agentAction agentId action => runTask (Task.program cfg (.agentAction agentId action))
  | .createCampaign dialingMode providerName maxConcurrentCalls pacingConfig =>
      awaitApp (.insertCampaign dialingMode providerName maxConcurrentCalls pacingConfig)
  | .changeStatus campaignId action => Application.changeStatus campaignId action
  | .setMode campaignId mode => Application.setMode campaignId mode

/-- The application, as a system of processes over one database. -/
@[reducible] def application (cfg : Settings) (pacing : PacingSettings) : System appSig where
  St := AppState
  Choice := AppChoice
  Task := AppTask
  Ret := Unit
  exec := Application.exec
  crash := Application.crash
  killed := .cancelledError
  prog := AppTask.program cfg pacing

end SmartDialer
