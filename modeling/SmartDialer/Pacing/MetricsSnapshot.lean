import SmartDialer.Application
import SmartDialer.Pacing.PacingEngine
import SmartDialer.Safety.SafetyController
import SmartDialer.Services.ProviderHealth

/-!
# The metrics snapshot

`observed_answer_rate` of `app/pacing/answer_rate.py`, and `MetricsSnapshotBuilder`. A snapshot is
read in eight steps, and the database goes on changing between them: it need not describe any
moment there ever was. What can be said of every snapshot is that its rates are rates.
-/

namespace SmartDialer

open Store Conc

/-- `observed_answer_rate`. -/
def observedAnswerRate (answered total : Nat) : Option ℚ :=
  if total ≤ 0 then none else some (answered / total)

namespace MetricsSnapshotBuilder

/-- What the builder reads, in order. -/
structure Observations where
  now : Time
  agentCounts : AgentState → Nat
  callCounts : CallState → Nat
  avgTalkTime : ℚ
  avgSetupTime : ℚ
  recent : OutcomeCounts
  previous : OutcomeCounts
  longConnected : Nat
  previousAvailable : Nat
  healthStatus : ProviderHealthStatus
  /-- The status of the provider, read once more for its factor. -/
  factorStatus : ProviderHealthStatus

/-- `long_connected`: nobody, when no call has been talked on. -/
def countLongConnected (campaignId : String) (now : Time) (avgTalkTime : ℚ) : AppAsync Nat :=
  if 0 < avgTalkTime then
    awaitApp (.countConnectedLongerThan campaignId ⌊(now : ℚ) - 1000 * avgTalkTime⌋)
  else pure 0

/-- The reads of `build_snapshot`. -/
def observe (cfg : Settings) (campaign : CampaignDocument) : AppAsync Observations := do
  let now ← awaitShared .utcNow
  let agentCounts ← awaitShared (.countAgentsByState campaign.id)
  let callCounts ← awaitShared (.countCallsByState campaign.id)
  let avgTalkTime ← awaitApp (.averageTalkTimeSeconds campaign.id)
  let avgSetupTime ← awaitApp (.averageSetupTimeMs campaign.id)
  let window := truncate (1000 * cfg.answerRateWindowSeconds)
  let recent ← awaitShared (.outcomeCountsBetween campaign.id (now - window) now)
  let previous ← awaitShared
    (.outcomeCountsBetween campaign.id (now - window * 2) (now - window))
  let longConnected ← countLongConnected campaign.id now avgTalkTime
  let previousAvailable ← awaitApp (.rememberAvailable campaign.id (agentCounts .available))
  let healthStatus ← awaitShared (.getHealth campaign.providerName)
  let factorStatus ← awaitShared (.getHealth campaign.providerName)
  pure ⟨now, agentCounts, callCounts, avgTalkTime, avgSetupTime, recent, previous, longConnected,
    previousAvailable, healthStatus, factorStatus⟩

/-- The snapshot that is made of them. -/
def snapshotOf (campaign : CampaignDocument) (seen : Observations) : PacingSnapshot where
  campaignId := campaign.id
  mode := campaign.dialingMode
  availableAgents := seen.agentCounts .available
  reservedAgents := seen.agentCounts .reserved
  dialingAgents := seen.agentCounts .dialing
  connectedAgents := seen.agentCounts .connected
  wrapUpAgents := seen.agentCounts .wrapUp
  longConnectedAgents := seen.longConnected
  previousAvailableAgents := seen.previousAvailable
  ringingCalls := seen.callCounts .ringing
  initiatedCalls := seen.callCounts .initiated
  activeCalls := seen.callCounts .ringing + seen.callCounts .initiated
  recentAnswerRate := observedAnswerRate seen.recent.answered seen.recent.total
  previousAnswerRate := observedAnswerRate seen.previous.answered seen.previous.total
  baselineAnswerRate := campaign.pacingConfig.baselineAnswerRate
  avgTalkTimeSeconds := seen.avgTalkTime
  avgSetupTimeMs := seen.avgSetupTime
  providerStatus := seen.healthStatus
  healthFactor := healthFactors seen.factorStatus
  capturedAt := seen.now

/-- `build_snapshot`. -/
def buildSnapshot (cfg : Settings) (campaign : CampaignDocument) : AppAsync PacingSnapshot := do
  let seen ← observe cfg campaign
  pure (snapshotOf campaign seen)

/-! ## What it performs -/

/-- What a snapshot is read with. -/
def Reads : Op ⊕ AppOp → Prop
  | .inl .utcNow | .inl (.countAgentsByState _) | .inl (.countCallsByState _)
  | .inl (.outcomeCountsBetween ..) | .inl (.getHealth _) => True
  | .inr (.averageTalkTimeSeconds _) | .inr (.averageSetupTimeMs _)
  | .inr (.countConnectedLongerThan ..) | .inr (.rememberAvailable ..) => True
  | _ => False

theorem observe_all {cfg : Settings} {campaign : CampaignDocument} :
    (observe cfg campaign).All Reads := by
  refine Prog.all_bind (Prog.all_perform trivial) fun now => ?_
  refine Prog.all_bind (Prog.all_perform trivial) fun agentCounts => ?_
  refine Prog.all_bind (Prog.all_perform trivial) fun callCounts => ?_
  refine Prog.all_bind (Prog.all_perform trivial) fun avgTalkTime => ?_
  refine Prog.all_bind (Prog.all_perform trivial) fun avgSetupTime => ?_
  refine Prog.all_bind (Prog.all_perform trivial) fun recent => ?_
  refine Prog.all_bind (Prog.all_perform trivial) fun previous => ?_
  refine Prog.all_bind ?_ fun longConnected => ?_
  · rw [countLongConnected]
    split
    · exact Prog.all_perform trivial
    · trivial
  refine Prog.all_bind (Prog.all_perform trivial) fun previousAvailable => ?_
  refine Prog.all_bind (Prog.all_perform trivial) fun healthStatus => ?_
  exact Prog.all_bind (Prog.all_perform trivial) fun factorStatus => trivial

/-! ## Rates -/

/-- Not more calls were answered than ended. -/
theorem isRate_observed {answered total : Nat} (h : answered ≤ total) :
    ∀ r ∈ observedAnswerRate answered total, IsRate r := by
  intro r hr
  rw [observedAnswerRate] at hr
  split at hr
  · cases hr
  · rename_i htotal
    obtain rfl := Option.some.inj hr
    have hpos : (0 : ℚ) < total := by exact_mod_cast Nat.lt_of_not_le htotal
    exact ⟨by positivity, (div_le_one hpos).mpr (by exact_mod_cast h)⟩

theorem isRate_healthFactors (status : ProviderHealthStatus) : IsRate (healthFactors status) := by
  cases status <;> constructor <;> norm_num [healthFactors]

/-- A snapshot of counts that make sense makes sense. -/
theorem sound_snapshotOf {campaign : CampaignDocument} {seen : Observations}
    (hrecent : seen.recent.answered ≤ seen.recent.total)
    (hprevious : seen.previous.answered ≤ seen.previous.total) :
    (snapshotOf campaign seen).Sound where
  recent := isRate_observed hrecent
  previous := isRate_observed hprevious
  baseline := ⟨le_of_lt campaign.pacingConfig.pos, campaign.pacingConfig.le_one⟩
  health := isRate_healthFactors seen.factorStatus

end MetricsSnapshotBuilder

/-- What is counted as answered is counted. -/
theorem CallRepository.answered_le_total (campaignId : String) (start stop : Time)
    (calls : Collection Call) :
    (outcomeCountsBetween campaignId start stop calls).answered
      ≤ (outcomeCountsBetween campaignId start stop calls).total :=
  List.length_filter_le ..

end SmartDialer
