import SmartDialer.Metrics.Utilization
import SmartDialer.Workers.WorkerLoops

/-!
# The metrics of a campaign

`app/metrics/campaign_metrics.py` and `app/metrics/collector.py`: what a server tells of a campaign,
to a request, or every so often to its history. A report is put together from several readings,
and the dialer goes on between them. One thing in it is in no collection: the greatest number of
calls that the server has ever counted as active.

There may be several servers over one database, and each remembers its own. A server that is
started again is another one.
-/

namespace SmartDialer

open Store Conc

/-- `find_for_campaign`. -/
def AgentRepository.findForCampaign (campaignId : String) (agents : Collection Agent) :
    List Agent :=
  Collection.limit 10000 (agents.find fun a => a.campaignId == campaignId)

/-- `count_by_verdict`, with 0 for the verdicts there are none of. -/
def DecisionRepository.countByVerdict (campaignId : String) (decisions : List SafetyDecision) :
    SafetyVerdict → Nat :=
  fun verdict => decisions.countP fun d => d.campaignId == campaignId && d.verdict == verdict

/-! ## Reports -/

/-- `MetricsRegistry`: the counters of a server. -/
structure MetricsRegistry where
  counters : List (String × Nat) := []

/-- `value`. -/
def MetricsRegistry.value (registry : MetricsRegistry) (name : String) : Nat :=
  (registry.counters.lookup name).getD 0

/-- `COUNTER_RESERVATION_CONTENTION`. -/
def counterReservationContention : String := "reservation_contention"

/-- `COUNTER_RETRY_ATTEMPTS`. -/
def counterRetryAttempts : String := "retry_attempts"

/-- `COUNTER_PROVIDER_FAILURES`. -/
def counterProviderFailures : String := "provider_failures"

/-- `CampaignMetrics`. -/
structure CampaignMetrics where
  campaignId : String
  dialingMode : DialingMode
  campaignStatus : CampaignStatus
  collectedAt : Time
  callsInitiated : Nat
  callsConnected : Nat
  callsCompleted : Nat
  callsFailed : Nat
  callsCancelled : Nat
  callsRinging : Nat
  activeCalls : Nat
  peakConcurrentCalls : Nat
  answerRate : Option ℚ
  averageTalkTimeSeconds : ℚ
  averageSetupTimeMs : ℚ
  agentStates : AgentState → Nat
  talkUtilization : Option ℚ
  productiveUtilization : Option ℚ
  safetyVerdicts : SafetyVerdict → Nat
  progressiveFallbacks : Nat
  reservationContention : Nat
  retryAttempts : Nat
  providerFailures : Nat
  counters : List (String × Nat)

/-- The states that `calls_initiated` counts: all but QUEUED. -/
def initiatedCallStates : List CallState :=
  [.reserved, .initiated, .ringing, .answered, .connected, .completed, .failed, .cancelled]

/-- What a report is made of. -/
structure CampaignMetricsCollector.Readings where
  now : Time
  callCounts : CallState → Nat
  agentCounts : AgentState → Nat
  utilization : CampaignUtilization
  outcomes : OutcomeCounts
  peak : Nat
  verdicts : SafetyVerdict → Nat
  averageTalkTime : ℚ
  averageSetupTime : ℚ
  registry : MetricsRegistry

/-- The sum that `collect` calls `active_calls`. -/
def CampaignMetricsCollector.activeOf (callCounts : CallState → Nat) : Nat :=
  (activeCallStates.map callCounts).sum

/-- The report that is made of them. -/
def CampaignMetricsCollector.reportOf (campaign : CampaignDocument)
    (read : CampaignMetricsCollector.Readings) : CampaignMetrics where
  campaignId := campaign.id
  dialingMode := campaign.dialingMode
  campaignStatus := campaign.status
  collectedAt := read.now
  callsInitiated := (initiatedCallStates.map read.callCounts).sum
  callsConnected := read.callCounts .connected
  callsCompleted := read.callCounts .completed
  callsFailed := read.callCounts .failed
  callsCancelled := read.callCounts .cancelled
  callsRinging := read.callCounts .ringing
  activeCalls := CampaignMetricsCollector.activeOf read.callCounts
  peakConcurrentCalls := read.peak
  answerRate :=
    if read.outcomes.total ≠ 0 then some (read.outcomes.answered / read.outcomes.total) else none
  averageTalkTimeSeconds := read.averageTalkTime
  averageSetupTimeMs := read.averageSetupTime
  agentStates := read.agentCounts
  talkUtilization := read.utilization.talkUtilization
  productiveUtilization := read.utilization.productiveUtilization
  safetyVerdicts := read.verdicts
  progressiveFallbacks := read.verdicts .fallbackProgressive
  reservationContention := read.registry.value counterReservationContention
  retryAttempts := read.registry.value counterRetryAttempts
  providerFailures := read.registry.value counterProviderFailures
  counters := read.registry.counters

/-! ## Operations and answers -/

/-- What is awaited for the metrics. -/
inductive MetricsOp where
  | findForCampaign (campaignId : String)
  | countByVerdict (campaignId : String)
  | recordSample (metrics : CampaignMetrics)
  -- local to the server
  | notePeak (server : Nat) (campaignId : String) (activeCalls : Nat)
  | readRegistry (server : Nat)

/-- What each of them answers. -/
@[reducible] def MetricsAns : MetricsOp → Type
  | .findForCampaign _ => List Agent
  | .countByVerdict _ => SafetyVerdict → Nat
  | .recordSample _ => Unit
  | .notePeak .. => Nat
  | .readRegistry _ => MetricsRegistry

/-- The operations of the application, and these. -/
@[reducible] def metricsSig : Sig := appSig.more MetricsOp MetricsAns

/-- A coroutine of a server. -/
abbrev MetricsAsync (α : Type) : Type := Prog metricsSig α

/-- `await` one of the operations for the metrics. -/
abbrev awaitMetrics (o : MetricsOp) : MetricsAsync (MetricsAns o) :=
  Prog.perform (S := metricsSig) (.inr o)

/-- `await` an operation that the tasks of the dialer await as well. -/
abbrev awaitRead (o : Op) : MetricsAsync (Ans o) := Prog.perform (S := metricsSig) (.inl (.inl o))

/-- `await` an operation that the application awaits as well. -/
abbrev awaitLook (o : AppOp) : MetricsAsync (AppAns o) :=
  Prog.perform (S := metricsSig) (.inl (.inr o))

/-! ## The programs -/

namespace CampaignMetricsCollector

/-- The readings of `collect`. -/
def observe (cfg : Settings) (server : Nat) (campaign : CampaignDocument) :
    MetricsAsync Readings := do
  let now ← awaitRead .utcNow
  let callCounts ← awaitRead (.countCallsByState campaign.id)
  let agentCounts ← awaitRead (.countAgentsByState campaign.id)
  let agents ← awaitMetrics (.findForCampaign campaign.id)
  let moment ← awaitRead .utcNow
  let windowStart := now - truncate (1000 * cfg.answerRateWindowSeconds)
  let outcomes ← awaitRead (.outcomeCountsBetween campaign.id windowStart now)
  let peak ← awaitMetrics (.notePeak server campaign.id (activeOf callCounts))
  let verdicts ← awaitMetrics (.countByVerdict campaign.id)
  let averageTalkTime ← awaitLook (.averageTalkTimeSeconds campaign.id)
  let averageSetupTime ← awaitLook (.averageSetupTimeMs campaign.id)
  let registry ← awaitMetrics (.readRegistry server)
  pure ⟨now, callCounts, agentCounts, campaignUtilization agents moment, outcomes, peak, verdicts,
    averageTalkTime, averageSetupTime, registry⟩

/-- `collect`. -/
def collect (cfg : Settings) (server : Nat) (campaign : CampaignDocument) :
    MetricsAsync CampaignMetrics := do
  let read ← observe cfg server campaign
  pure (reportOf campaign read)

end CampaignMetricsCollector

namespace MetricsSampler

/-- The loop of `sample_once`. -/
def sampleAll (cfg : Settings) (server : Nat) : List CampaignDocument → MetricsAsync Nat
  | [] => pure 0
  | campaign :: rest => do
      let metrics ← CampaignMetricsCollector.collect cfg server campaign
      awaitMetrics (.recordSample metrics)
      let sampled ← sampleAll cfg server rest
      pure (sampled + 1)

/-- `sample_once`. -/
def sampleOnce (cfg : Settings) (server : Nat) : MetricsAsync Nat := do
  let campaigns ← awaitLook .findRunning
  sampleAll cfg server campaigns

/-- An iteration of `_run`. -/
def guardSample (cfg : Settings) (server : Nat) : MetricsAsync Unit :=
  Prog.tryCatch
    (do
      let _ ← sampleOnce cfg server
      pure ())
    fun e =>
      if e.isException then awaitLook (.logFailure "metrics_sampling_failed") else .raise e

/-- `_run`, for so many iterations. -/
def run (cfg : Settings) (server : Nat) : Nat → MetricsAsync Unit
  | 0 => pure ()
  | iterations + 1 => do
      guardSample cfg server
      awaitLook .sleep
      run cfg server iterations

end MetricsSampler

/-- `get_metrics`, without the rendering of the report. -/
def RoutesMetrics.getMetrics (cfg : Settings) (server : Nat) (campaignId : String) :
    MetricsAsync CampaignMetrics := do
  let campaign ← (Application.requireCampaign campaignId).lift
  CampaignMetricsCollector.collect cfg server campaign

/-! ## State and environment -/

/-- What the application works on, the decisions it has stored, and what the metrics leave. -/
structure MonitoringState where
  app : AppState
  /-- `safety_decisions`. -/
  decisions : List SafetyDecision := []
  /-- `_peak_concurrent` of each server. -/
  peaks : Nat → String → Nat := fun _ _ => 0
  /-- `metrics_samples`, the latest first. -/
  samples : List CampaignMetrics := []

/-- What the environment contributes to one operation. -/
structure MonitoringChoice extends AppChoice where
  /-- What the services of the server have counted. -/
  registry : MetricsRegistry := {}

/-- Worked on by the database, and awaited. -/
def MetricsOp.isDatabase : MetricsOp → Bool
  | .notePeak .. | .readRegistry _ => false
  | _ => true

namespace Monitoring

/-- What an operation does when nothing goes wrong with it. -/
def effect (o : MetricsOp) (c : MonitoringChoice) (s : MonitoringState) :
    Except Exn (MetricsAns o) × MonitoringState :=
  match o with
  | .findForCampaign campaignId =>
      (.ok (AgentRepository.findForCampaign campaignId s.app.st.agents), s)
  | .countByVerdict campaignId =>
      (.ok (DecisionRepository.countByVerdict campaignId s.decisions), s)
  | .recordSample metrics => (.ok (), { s with samples := metrics :: s.samples })
  | .notePeak server campaignId activeCalls =>
      let peak := max (s.peaks server campaignId) activeCalls
      let ofServer := Function.update (s.peaks server) campaignId peak
      (.ok peak, { s with peaks := Function.update s.peaks server ofServer })
  | .readRegistry _ => (.ok c.registry, s)

/-- What an operation does, faults included. -/
def attempt (o : MetricsOp) (c : MonitoringChoice) (s : MonitoringState) :
    Except Exn (MetricsAns o) × MonitoringState :=
  if o.isDatabase then
    match c.fault with
    | .none => effect o c s
    | .dbError name performed =>
        (.error (.pyMongoError name), if performed then (effect o c s).2 else s)
    | .cancelled performed => (.error .cancelledError, if performed then (effect o c s).2 else s)
  else effect o c s

/-- An operation has its effect, or none. -/
theorem attempt_state (o : MetricsOp) (c : MonitoringChoice) (s : MonitoringState) :
    (attempt o c s).2 = s ∨ (attempt o c s).2 = (effect o c s).2 := by
  rw [attempt]
  split
  · split
    · exact .inr rfl
    · cases ‹Bool›
      · exact .inl rfl
      · exact .inr rfl
    · cases ‹Bool›
      · exact .inl rfl
      · exact .inr rfl
  · exact .inr rfl

/-- What is answered, the operation did. -/
theorem attempt_ok {o : MetricsOp} {c : MonitoringChoice} {s : MonitoringState} {a : MetricsAns o}
    (h : (attempt o c s).1 = .ok a) : (effect o c s).1 = .ok a := by
  rw [attempt] at h
  split at h
  · split at h
    · exact h
    · cases h
    · cases h
  · exact h

/-- What an operation of the application adds to the decisions. -/
def decided (o : Op ⊕ AppOp) (c : AppChoice) (decisions : List SafetyDecision) :
    List SafetyDecision :=
  match o with
  | .inl (.recordSafetyDecision decision) =>
      if c.performs (.recordSafetyDecision decision) then decision :: decisions else decisions
  | _ => decisions

/-- Process `i` performs an operation. -/
def exec (i : Nat) (o : (Op ⊕ AppOp) ⊕ MetricsOp) (c : MonitoringChoice) (s : MonitoringState) :
    Except Exn (metricsSig.Ans o) × MonitoringState :=
  match o with
  | .inl o =>
      ((Application.exec i o c.toAppChoice s.app).1,
        { s with
          app := (Application.exec i o c.toAppChoice s.app).2
          decisions := decided o c.toAppChoice s.decisions })
  | .inr o => attempt o c s

/-- Process `i` dies. -/
def crash (i : Nat) (s : MonitoringState) : MonitoringState :=
  { s with app := Application.crash i s.app }

end Monitoring

/-! ## The system -/

/-- What runs in the servers. -/
inductive MonitoringTask where
  | app (t : AppTask)
  /-- The sampler of a server, for so many iterations of its loop. -/
  | sampler (server iterations : Nat)
  /-- A request for the metrics of a campaign. -/
  | getMetrics (server : Nat) (campaignId : String)

/-- The program of a task; a request is answered with a report. -/
def MonitoringTask.program (cfg : Settings) (pacing : PacingSettings) :
    MonitoringTask → MetricsAsync (Option CampaignMetrics)
  | .app t => do
      (t.program cfg pacing).lift
      pure none
  | .sampler server iterations => do
      MetricsSampler.run cfg server iterations
      pure none
  | .getMetrics server campaignId => do
      let metrics ← RoutesMetrics.getMetrics cfg server campaignId
      pure (some metrics)

/-- The application, and its metrics. -/
@[reducible] def monitoring (cfg : Settings) (pacing : PacingSettings) : System metricsSig where
  St := MonitoringState
  Choice := MonitoringChoice
  Task := MonitoringTask
  Ret := Option CampaignMetrics
  exec := Monitoring.exec
  crash := Monitoring.crash
  killed := .cancelledError
  prog := MonitoringTask.program cfg pacing

end SmartDialer
