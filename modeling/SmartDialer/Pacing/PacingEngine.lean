import Mathlib.Algebra.Order.Field.Basic
import Mathlib.Algebra.Order.Field.Rat
import Mathlib.Data.Rat.Floor
import Mathlib.Tactic.Linarith
import SmartDialer.Safety.Models

/-!
# The pacing engine

`app/pacing/answer_rate.py` and `app/pacing/pacing_engine.py`, and the configurations the
dialers give the engine. Rates, weights and factors are exact rationals.

A request is what is missing to the free capacity, at the rate at which calls are answered,
cut down by three factors and a cap. It never asks for more answers than there are agents
to take them, and it moves the way its inputs do.
-/

namespace SmartDialer

/-! ## Answer rates -/

/-- `RECENT_WEIGHT`. -/
def recentWeight : ℚ := 7 / 10

/-- `BASELINE_WEIGHT`. -/
def baselineWeight : ℚ := 3 / 10

/-- `clamp`. -/
def clamp (value minimum maximum : ℚ) : ℚ := max minimum (min maximum value)

/-- `blended_answer_rate`. -/
def blendedAnswerRate (recentAnswerRate : Option ℚ) (baselineAnswerRate minAnswerRate
    maxAnswerRate : ℚ) : ℚ :=
  clamp
    (match recentAnswerRate with
      | none => baselineAnswerRate
      | some recent => recentWeight * recent + baselineWeight * baselineAnswerRate)
    minAnswerRate maxAnswerRate

/-- `is_volatile`. -/
def isVolatile (recentAnswerRate previousAnswerRate : Option ℚ) (threshold : ℚ) : Bool :=
  match recentAnswerRate, previousAnswerRate with
  | some recent, some previous => decide (threshold < |recent - previous|)
  | _, _ => false

theorem le_clamp (value minimum maximum : ℚ) : minimum ≤ clamp value minimum maximum :=
  le_max_left ..

theorem clamp_mono {value value' : ℚ} (h : value ≤ value') (minimum maximum : ℚ) :
    clamp value minimum maximum ≤ clamp value' minimum maximum :=
  max_le_max_left minimum (min_le_min_left maximum h)

theorem blendedAnswerRate_mono (recentAnswerRate : Option ℚ) {baseline baseline' : ℚ}
    (h : baseline ≤ baseline') (minAnswerRate maxAnswerRate : ℚ) :
    blendedAnswerRate recentAnswerRate baseline minAnswerRate maxAnswerRate
      ≤ blendedAnswerRate recentAnswerRate baseline' minAnswerRate maxAnswerRate := by
  refine clamp_mono ?_ minAnswerRate maxAnswerRate
  cases recentAnswerRate with
  | none => exact h
  | some recent =>
      refine add_le_add_right (mul_le_mul_of_nonneg_left h ?_) _
      rw [baselineWeight]
      norm_num

/-! ## The engine -/

/-- `PacingSnapshot` of `app/pacing/metrics_snapshot.py`. -/
structure PacingSnapshot where
  campaignId : String
  mode : DialingMode
  availableAgents : Nat
  reservedAgents : Nat
  dialingAgents : Nat
  connectedAgents : Nat
  wrapUpAgents : Nat
  longConnectedAgents : Nat
  previousAvailableAgents : Nat
  ringingCalls : Nat
  initiatedCalls : Nat
  activeCalls : Nat
  recentAnswerRate : Option ℚ
  previousAnswerRate : Option ℚ
  baselineAnswerRate : ℚ
  avgTalkTimeSeconds : ℚ
  avgSetupTimeMs : ℚ
  providerStatus : ProviderHealthStatus
  healthFactor : ℚ
  capturedAt : Time

/-- `low_confidence`. -/
def PacingSnapshot.lowConfidence (snapshot : PacingSnapshot) : Bool :=
  snapshot.recentAnswerRate.isNone

/-- `PacingEngineConfig`. -/
structure PacingEngineConfig where
  soonFreeWeight : ℚ
  safetyMargin : ℚ
  minAnswerRate : ℚ
  maxAnswerRate : ℚ
  volatilityThreshold : ℚ
  volatilityFactor : ℚ
  maxRequestPerTick : Int
  forcedAnswerRate : Option ℚ := none

/-- The `inputs` of a request that could be computed. -/
structure PacingInputs where
  availableAgents : Nat
  reservedAgents : Nat
  wrapUpAgents : Nat
  longConnectedAgents : Nat
  soonFreeAgents : Nat
  soonFreeWeight : ℚ
  freeCapacity : ℚ
  ringingCalls : Nat
  initiatedCalls : Nat
  activeCalls : Nat
  inFlight : Nat
  historicalAnswerRate : Option ℚ
  baselineAnswerRate : ℚ
  effectiveAnswerRate : ℚ
  avgTalkTimeSeconds : ℚ
  avgSetupTimeMs : ℚ
  providerStatus : ProviderHealthStatus
  healthFactor : ℚ
  volatilityFactor : ℚ
  safetyMargin : ℚ
  callsNeeded : ℚ
  rawRequest : Int
  requested : Int
  lowConfidence : Bool

/-- The `inputs` of a request: how it came about, or the name of the exception. -/
inductive PacingReport where
  | inputs (inputs : PacingInputs)
  | pacingError (typeName : String)

/-- A request with its `inputs`. -/
structure ReportedRequest extends PacingRequest where
  inputs : PacingReport

namespace PacingEngine

/-- `effective_answer_rate`. -/
def effectiveAnswerRate (snapshot : PacingSnapshot) (config : PacingEngineConfig) : ℚ :=
  match config.forcedAnswerRate with
  | some rate => rate
  | none => blendedAnswerRate snapshot.recentAnswerRate snapshot.baselineAnswerRate
      config.minAnswerRate config.maxAnswerRate

/-- `soon_free_agents`. -/
def soonFreeAgents (snapshot : PacingSnapshot) : Nat :=
  snapshot.wrapUpAgents + snapshot.longConnectedAgents

/-- `free_capacity`. -/
def freeCapacity (snapshot : PacingSnapshot) (config : PacingEngineConfig) : ℚ :=
  snapshot.availableAgents + soonFreeAgents snapshot * config.soonFreeWeight

/-- `calls_needed`. -/
def callsNeeded (snapshot : PacingSnapshot) (config : PacingEngineConfig) : ℚ :=
  freeCapacity snapshot config / effectiveAnswerRate snapshot config

/-- `in_flight`. -/
def inFlight (snapshot : PacingSnapshot) : Nat :=
  snapshot.ringingCalls + snapshot.initiatedCalls + snapshot.reservedAgents

/-- `raw_request`. -/
def rawRequest (snapshot : PacingSnapshot) (config : PacingEngineConfig) : Int :=
  ⌊max 0 (callsNeeded snapshot config - inFlight snapshot)⌋

/-- `volatility_factor`, of a calm or a volatile answer rate. -/
def volatilityFactor (snapshot : PacingSnapshot) (config : PacingEngineConfig) : ℚ :=
  if isVolatile snapshot.recentAnswerRate snapshot.previousAnswerRate config.volatilityThreshold
  then config.volatilityFactor
  else 1

/-- `scaled`. -/
def scaled (snapshot : PacingSnapshot) (config : PacingEngineConfig) : ℚ :=
  rawRequest snapshot config * config.safetyMargin * snapshot.healthFactor
    * volatilityFactor snapshot config

/-- `requested`. -/
def requested (snapshot : PacingSnapshot) (config : PacingEngineConfig) : Int :=
  min ⌊scaled snapshot config⌋ config.maxRequestPerTick

/-- `inputs`. -/
def inputs (snapshot : PacingSnapshot) (config : PacingEngineConfig) : PacingInputs where
  availableAgents := snapshot.availableAgents
  reservedAgents := snapshot.reservedAgents
  wrapUpAgents := snapshot.wrapUpAgents
  longConnectedAgents := snapshot.longConnectedAgents
  soonFreeAgents := soonFreeAgents snapshot
  soonFreeWeight := config.soonFreeWeight
  freeCapacity := freeCapacity snapshot config
  ringingCalls := snapshot.ringingCalls
  initiatedCalls := snapshot.initiatedCalls
  activeCalls := snapshot.activeCalls
  inFlight := inFlight snapshot
  historicalAnswerRate := snapshot.recentAnswerRate
  baselineAnswerRate := snapshot.baselineAnswerRate
  effectiveAnswerRate := effectiveAnswerRate snapshot config
  avgTalkTimeSeconds := snapshot.avgTalkTimeSeconds
  avgSetupTimeMs := snapshot.avgSetupTimeMs
  providerStatus := snapshot.providerStatus
  healthFactor := snapshot.healthFactor
  volatilityFactor := volatilityFactor snapshot config
  safetyMargin := config.safetyMargin
  callsNeeded := callsNeeded snapshot config
  rawRequest := rawRequest snapshot config
  requested := requested snapshot config
  lowConfidence := snapshot.lowConfidence

/-- `_compute`: the one thing that may go wrong is the division. -/
def compute (snapshot : PacingSnapshot) (config : PacingEngineConfig) :
    Except String ReportedRequest :=
  if effectiveAnswerRate snapshot config = 0 then .error "ZeroDivisionError"
  else
    .ok
      { requested := requested snapshot config
        mode := snapshot.mode
        snapshotCapturedAt := snapshot.capturedAt
        inputs := .inputs (inputs snapshot config) }

/-- `compute_request`. -/
def computeRequest (snapshot : PacingSnapshot) (config : PacingEngineConfig) : ReportedRequest :=
  match compute snapshot config with
  | .ok request => request
  | .error typeName =>
      { requested := 0
        mode := snapshot.mode
        snapshotCapturedAt := snapshot.capturedAt
        inputs := .pacingError typeName }

end PacingEngine

/-! ## The dialers' configurations -/

/-- `app/config.py`, the settings the engine is configured with. -/
structure PacingSettings where
  safetyMargin : ℚ := 17 / 20
  soonFreeWeight : ℚ := 1 / 2
  minAnswerRate : ℚ := 1 / 20
  maxAnswerRate : ℚ := 19 / 20
  volatilityThreshold : ℚ := 3 / 20
  volatilityFactor : ℚ := 3 / 5
  maxRequestPerTick : Int := 50

/-- `DialerBase.engine_config`, which the predictive dialer inherits. -/
def DialerBase.engineConfig (settings : PacingSettings) : PacingEngineConfig where
  soonFreeWeight := settings.soonFreeWeight
  safetyMargin := settings.safetyMargin
  minAnswerRate := settings.minAnswerRate
  maxAnswerRate := settings.maxAnswerRate
  volatilityThreshold := settings.volatilityThreshold
  volatilityFactor := settings.volatilityFactor
  maxRequestPerTick := settings.maxRequestPerTick

namespace ProgressiveDialer

/-- `PROGRESSIVE_ANSWER_RATE`. -/
def answerRate : ℚ := 1

/-- `PROGRESSIVE_SAFETY_MARGIN`. -/
def safetyMargin : ℚ := 1

/-- `PROGRESSIVE_SOON_FREE_WEIGHT`. -/
def soonFreeWeight : ℚ := 0

/-- `ProgressiveDialer.engine_config`. -/
def engineConfig (settings : PacingSettings) : PacingEngineConfig :=
  { DialerBase.engineConfig settings with
    forcedAnswerRate := some answerRate
    safetyMargin := safetyMargin
    soonFreeWeight := soonFreeWeight }

end ProgressiveDialer

/-! ## What the engine may be given -/

/-- A proportion. -/
def IsRate (x : ℚ) : Prop := 0 ≤ x ∧ x ≤ 1

/-- What the snapshot says of rates and of the provider's health makes sense. -/
structure PacingSnapshot.Sound (snapshot : PacingSnapshot) : Prop where
  recent : ∀ r ∈ snapshot.recentAnswerRate, IsRate r
  previous : ∀ r ∈ snapshot.previousAnswerRate, IsRate r
  baseline : IsRate snapshot.baselineAnswerRate
  health : IsRate snapshot.healthFactor

/-- The configuration makes sense. -/
structure PacingEngineConfig.Sound (config : PacingEngineConfig) : Prop where
  margin : IsRate config.safetyMargin
  volatility : IsRate config.volatilityFactor
  min : 0 < config.minAnswerRate
  min_le_max : config.minAnswerRate ≤ config.maxAnswerRate
  max : config.maxAnswerRate ≤ 1
  forced : ∀ r ∈ config.forcedAnswerRate, 0 < r ∧ r ≤ 1
  weight : 0 ≤ config.soonFreeWeight
  cap : 0 ≤ config.maxRequestPerTick

/-- There is more room for calls in `snapshot'`, all else being equal. -/
structure PacingSnapshot.Roomier (snapshot snapshot' : PacingSnapshot) : Prop where
  available : snapshot.availableAgents ≤ snapshot'.availableAgents
  wrapUp : snapshot.wrapUpAgents ≤ snapshot'.wrapUpAgents
  longConnected : snapshot.longConnectedAgents ≤ snapshot'.longConnectedAgents
  health : snapshot.healthFactor ≤ snapshot'.healthFactor
  ringing : snapshot'.ringingCalls ≤ snapshot.ringingCalls
  initiated : snapshot'.initiatedCalls ≤ snapshot.initiatedCalls
  reserved : snapshot'.reservedAgents ≤ snapshot.reservedAgents
  baseline : snapshot'.baselineAnswerRate ≤ snapshot.baselineAnswerRate
  recent : snapshot'.recentAnswerRate = snapshot.recentAnswerRate
  previous : snapshot'.previousAnswerRate = snapshot.previousAnswerRate

namespace PacingEngine

variable {snapshot snapshot' : PacingSnapshot} {config : PacingEngineConfig}

/-! ## Bounds -/

theorem effectiveAnswerRate_pos (hc : config.Sound) : 0 < effectiveAnswerRate snapshot config := by
  rw [effectiveAnswerRate]
  split
  · rename_i rate hforced
    exact (hc.forced rate hforced).1
  · exact lt_of_lt_of_le hc.min (le_clamp ..)

/-- With a sound configuration nothing goes wrong. -/
theorem computeRequest_requested (hc : config.Sound) :
    (computeRequest snapshot config).requested = requested snapshot config := by
  rw [computeRequest, compute, if_neg (effectiveAnswerRate_pos hc).ne']

theorem rawRequest_nonneg : 0 ≤ rawRequest snapshot config :=
  Int.floor_nonneg.mpr (le_max_left ..)

theorem isRate_volatilityFactor (hc : config.Sound) :
    IsRate (volatilityFactor snapshot config) := by
  rw [volatilityFactor]
  split
  · exact hc.volatility
  · exact ⟨zero_le_one, le_refl 1⟩

/-- A proportion of something is not more than it. -/
theorem mul_isRate_le {x r : ℚ} (hx : 0 ≤ x) (hr : IsRate r) : 0 ≤ x * r ∧ x * r ≤ x :=
  ⟨mul_nonneg hx hr.1, mul_le_of_le_one_right hx hr.2⟩

/-- The factors only ever reduce. -/
theorem scaled_bounds (hc : config.Sound) (hs : snapshot.Sound) :
    0 ≤ scaled snapshot config ∧ scaled snapshot config ≤ rawRequest snapshot config := by
  have hraw : (0 : ℚ) ≤ rawRequest snapshot config := Int.cast_nonneg rawRequest_nonneg
  obtain ⟨hmargin, hmargin'⟩ := mul_isRate_le hraw hc.margin
  obtain ⟨hhealth, hhealth'⟩ := mul_isRate_le hmargin hs.health
  have hfactor : IsRate (volatilityFactor snapshot config) := isRate_volatilityFactor hc
  obtain ⟨hvolatile, hvolatile'⟩ := mul_isRate_le hhealth hfactor
  exact ⟨hvolatile, hvolatile'.trans (hhealth'.trans hmargin')⟩

theorem requested_nonneg (hc : config.Sound) (hs : snapshot.Sound) :
    0 ≤ requested snapshot config :=
  le_min (Int.floor_nonneg.mpr (scaled_bounds hc hs).1) hc.cap

/-- What is requested is missing to the calls needed. -/
theorem requested_le_raw (hc : config.Sound) (hs : snapshot.Sound) :
    requested snapshot config ≤ rawRequest snapshot config := by
  have hfloor : ((⌊scaled snapshot config⌋ : Int) : ℚ) ≤ rawRequest snapshot config :=
    (Int.floor_le _).trans (scaled_bounds hc hs).2
  exact (min_le_left ..).trans (Int.cast_le.mp hfloor)

theorem rawRequest_le : (rawRequest snapshot config : ℚ)
    ≤ max 0 (callsNeeded snapshot config - inFlight snapshot) :=
  Int.floor_le _

/-- **The answers to be expected** never exceed the free capacity. -/
theorem expected_le_capacity (hc : config.Sound) (hs : snapshot.Sound)
    (hpos : 0 < requested snapshot config) :
    ((requested snapshot config : ℚ) + inFlight snapshot) * effectiveAnswerRate snapshot config
      ≤ freeCapacity snapshot config := by
  have hreq : (requested snapshot config : ℚ) ≤ rawRequest snapshot config :=
    Int.cast_le.mpr (requested_le_raw hc hs)
  have hroom : (requested snapshot config : ℚ)
      ≤ max 0 (callsNeeded snapshot config - inFlight snapshot) := hreq.trans rawRequest_le
  -- something is requested, so there is room
  have hmissing : (requested snapshot config : ℚ)
      ≤ callsNeeded snapshot config - inFlight snapshot := by
    rcases le_max_iff.mp hroom with hzero | h
    · exact absurd (Int.cast_nonpos.mp hzero) (not_le.mpr hpos)
    · exact h
  rw [← le_div_iff₀ (effectiveAnswerRate_pos hc), ← callsNeeded]
  linarith

/-! ## Monotonicity -/

theorem effectiveAnswerRate_anti (h : snapshot.Roomier snapshot') :
    effectiveAnswerRate snapshot' config ≤ effectiveAnswerRate snapshot config := by
  rw [effectiveAnswerRate, effectiveAnswerRate, h.recent]
  split
  · exact le_refl _
  · exact blendedAnswerRate_mono _ h.baseline _ _

theorem freeCapacity_nonneg (hc : config.Sound) : 0 ≤ freeCapacity snapshot config :=
  add_nonneg (Nat.cast_nonneg _) (mul_nonneg (Nat.cast_nonneg _) hc.weight)

theorem freeCapacity_mono (hc : config.Sound) (h : snapshot.Roomier snapshot') :
    freeCapacity snapshot config ≤ freeCapacity snapshot' config := by
  have hsoon : soonFreeAgents snapshot ≤ soonFreeAgents snapshot' :=
    Nat.add_le_add h.wrapUp h.longConnected
  exact add_le_add (Nat.cast_le.mpr h.available)
    (mul_le_mul_of_nonneg_right (Nat.cast_le.mpr hsoon) hc.weight)

theorem callsNeeded_mono (hc : config.Sound) (h : snapshot.Roomier snapshot') :
    callsNeeded snapshot config ≤ callsNeeded snapshot' config :=
  div_le_div₀ (freeCapacity_nonneg hc) (freeCapacity_mono hc h) (effectiveAnswerRate_pos hc)
    (effectiveAnswerRate_anti h)

theorem inFlight_anti (h : snapshot.Roomier snapshot') : inFlight snapshot' ≤ inFlight snapshot :=
  Nat.add_le_add (Nat.add_le_add h.ringing h.initiated) h.reserved

theorem rawRequest_mono (hc : config.Sound) (h : snapshot.Roomier snapshot') :
    rawRequest snapshot config ≤ rawRequest snapshot' config :=
  Int.floor_mono (max_le_max_left 0
    (sub_le_sub (callsNeeded_mono hc h) (Nat.cast_le.mpr (inFlight_anti h))))

theorem volatilityFactor_eq (h : snapshot.Roomier snapshot') :
    volatilityFactor snapshot' config = volatilityFactor snapshot config := by
  rw [volatilityFactor, volatilityFactor, h.recent, h.previous]

theorem scaled_mono (hc : config.Sound) (hs : snapshot.Sound) (h : snapshot.Roomier snapshot') :
    scaled snapshot config ≤ scaled snapshot' config := by
  have hraw : (0 : ℚ) ≤ rawRequest snapshot config := Int.cast_nonneg rawRequest_nonneg
  have hraw' : (0 : ℚ) ≤ rawRequest snapshot' config := Int.cast_nonneg rawRequest_nonneg
  have hmargin : rawRequest snapshot config * config.safetyMargin
      ≤ rawRequest snapshot' config * config.safetyMargin :=
    mul_le_mul_of_nonneg_right (Int.cast_le.mpr (rawRequest_mono hc h)) hc.margin.1
  rw [scaled, scaled, volatilityFactor_eq h]
  exact mul_le_mul_of_nonneg_right
    (mul_le_mul hmargin h.health hs.health.1 (mul_nonneg hraw' hc.margin.1))
    (isRate_volatilityFactor hc).1

theorem requested_mono (hc : config.Sound) (hs : snapshot.Sound) (h : snapshot.Roomier snapshot') :
    requested snapshot config ≤ requested snapshot' config :=
  min_le_min_right _ (Int.floor_mono (scaled_mono hc hs h))

/-! ## The progressive dialer -/

/-- One call for each agent who is free, less the calls under way. -/
theorem requested_progressive {settings : PacingSettings}
    (hc : (ProgressiveDialer.engineConfig settings).Sound) (hs : snapshot.Sound) :
    requested snapshot (ProgressiveDialer.engineConfig settings)
      ≤ max 0 ((snapshot.availableAgents : Int) - inFlight snapshot) := by
  have hneeded : callsNeeded snapshot (ProgressiveDialer.engineConfig settings)
      = snapshot.availableAgents := by
    simp [callsNeeded, freeCapacity, effectiveAnswerRate, ProgressiveDialer.engineConfig,
      ProgressiveDialer.answerRate, ProgressiveDialer.soonFreeWeight]
  have hraw : (rawRequest snapshot (ProgressiveDialer.engineConfig settings) : ℚ) ≤ _ :=
    rawRequest_le
  rw [hneeded] at hraw
  refine (requested_le_raw hc hs).trans ?_
  exact_mod_cast hraw

/--
**The pacing law.** With a sound configuration, the request for a sound snapshot is between 0
and the cap; if it is not 0, the answers expected of it and of the calls in flight do not
exceed the free capacity; it does not decrease when there is more room; and the progressive
dialer asks for no more calls than there are agents available who are not already waited for.
-/
theorem pacing_law (hc : config.Sound) (hs : snapshot.Sound) :
    (0 ≤ (computeRequest snapshot config).requested
        ∧ (computeRequest snapshot config).requested ≤ config.maxRequestPerTick)
      ∧ (0 < (computeRequest snapshot config).requested →
        (((computeRequest snapshot config).requested : ℚ) + inFlight snapshot)
          * effectiveAnswerRate snapshot config ≤ freeCapacity snapshot config)
      ∧ (∀ snapshot', snapshot.Roomier snapshot' →
        (computeRequest snapshot config).requested ≤ (computeRequest snapshot' config).requested)
      ∧ (∀ settings, config = ProgressiveDialer.engineConfig settings →
        (computeRequest snapshot config).requested
          ≤ max 0 ((snapshot.availableAgents : Int) - inFlight snapshot)) := by
  rw [computeRequest_requested hc]
  refine ⟨⟨requested_nonneg hc hs, min_le_right ..⟩, expected_le_capacity hc hs, ?_, ?_⟩
  · intro snapshot' h
    rw [computeRequest_requested hc]
    exact requested_mono hc hs h
  · rintro settings rfl
    exact requested_progressive hc hs

/-! ## A campaign in full swing -/

/-- Some agents are free, some will be soon, and a few calls are under way. -/
def fullSwing : PacingSnapshot where
  campaignId := "campaign"
  mode := .predictive
  availableAgents := 6
  reservedAgents := 1
  dialingAgents := 2
  connectedAgents := 8
  wrapUpAgents := 3
  longConnectedAgents := 1
  previousAvailableAgents := 5
  ringingCalls := 2
  initiatedCalls := 1
  activeCalls := 3
  recentAnswerRate := some (1 / 4)
  previousAnswerRate := some (1 / 5)
  baselineAnswerRate := 3 / 10
  avgTalkTimeSeconds := 90
  avgSetupTimeMs := 4000
  providerStatus := .healthy
  healthFactor := 1
  capturedAt := 0

theorem fullSwing_sound : fullSwing.Sound where
  recent := by rintro _ ⟨⟩; constructor <;> norm_num
  previous := by rintro _ ⟨⟩; constructor <;> norm_num
  baseline := by constructor <;> norm_num [fullSwing]
  health := by constructor <;> norm_num [fullSwing]

theorem engineConfig_sound : (DialerBase.engineConfig {}).Sound where
  margin := by constructor <;> norm_num [DialerBase.engineConfig]
  volatility := by constructor <;> norm_num [DialerBase.engineConfig]
  min := by norm_num [DialerBase.engineConfig]
  min_le_max := by norm_num [DialerBase.engineConfig]
  max := by norm_num [DialerBase.engineConfig]
  forced := fun _ h => by cases h
  weight := by norm_num [DialerBase.engineConfig]
  cap := by norm_num [DialerBase.engineConfig]

/-- Ask for 22 more calls, and with the 4 under way, 8 agents will not be too few. -/
theorem pacing_law_fullSwing :
    (computeRequest fullSwing (DialerBase.engineConfig {})).requested = 22
      ∧ (22 + 4 : ℚ) * effectiveAnswerRate fullSwing (DialerBase.engineConfig {}) ≤ 8 := by
  have hrequested : (computeRequest fullSwing (DialerBase.engineConfig {})).requested = 22 := by
    decide +kernel
  have hlaw := (pacing_law engineConfig_sound fullSwing_sound).2.1 (by rw [hrequested]; decide)
  rw [hrequested] at hlaw
  have hcapacity : freeCapacity fullSwing (DialerBase.engineConfig {}) = 8 := by
    decide +kernel
  rw [hcapacity] at hlaw
  exact ⟨hrequested, hlaw⟩

end PacingEngine

end SmartDialer
