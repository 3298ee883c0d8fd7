import Mathlib.Data.Rat.Floor
import Mathlib.Tactic.Linarith
import Mathlib.Tactic.Positivity
import SmartDialer.Numeric.Binary
import SmartDialer.Runtime

/-!
# The safety controller

`app/safety/safety_controller.py`, `app/safety/fallback.py` and
`app/services/agent_availability.py`. Ratios are exact rationals.

The reads come first and may fail; everything after them is a function of what
they answered, `decisionOf`.
-/

namespace SmartDialer

open Conc

/-! ## `app/safety/fallback.py` -/

/-- `FallbackInputs`. -/
structure FallbackInputs where
  providerStatus : ProviderHealthStatus
  availabilityDropRatio : ℚ
  availabilityDropThreshold : ℚ
  ringingCalls : Int
  ringingCeiling : Int
  callFailureRate : ℚ
  failureRateThreshold : ℚ
  snapshotIsStale : Bool

/-- `should_fallback_to_progressive`. -/
def shouldFallbackToProgressive (inputs : FallbackInputs) : Option String :=
  if inputs.snapshotIsStale then some "stale_state"
  else if inputs.providerStatus ≠ .healthy then some "provider_degraded"
  else if inputs.availabilityDropThreshold < inputs.availabilityDropRatio then
    some "availability_drop"
  else if inputs.ringingCeiling < inputs.ringingCalls then some "excessive_ringing"
  else if inputs.failureRateThreshold < inputs.callFailureRate then some "high_failure_rate"
  else none

/-! ## `app/services/agent_availability.py` -/

/-- `record_and_detect`, given what was recorded the time before: the drop ratio, if a drop. -/
def recordAndDetect (cfg : Settings) (previous : Option Nat) (availableAgents : Nat) : Option ℚ :=
  match previous with
  | none => none
  | some previous =>
      if previous = 0 ∨ previous ≤ availableAgents then none
      else
        let dropRatio : ℚ := ((previous : ℚ) - availableAgents) / previous
        if dropRatio ≤ cfg.availabilityDropThreshold then none else some dropRatio

/-! ## `app/safety/safety_controller.py` -/

/-- `int(x)`: truncation towards zero. -/
def truncate (x : ℚ) : Int := if 0 ≤ x then ⌊x⌋ else ⌈x⌉

/-- `timedelta.total_seconds`, of so many milliseconds: a float. -/
def totalSeconds (ms : Int) : ℚ := Numeric.toDouble (ms / 1000)

/-- `int(delta.total_seconds() * 1000)`: the product is a float, too, and is truncated. -/
def wholeMs (ms : Int) : Int := truncate (Numeric.toDouble (totalSeconds ms * 1000))

/-- What is a double in seconds as well as in milliseconds comes back as it was. -/
theorem wholeMs_of_representable {ms : Int}
    (hseconds : Numeric.Representable Numeric.doublePrecision (ms / 1000))
    (hms : Numeric.Representable Numeric.doublePrecision ms) : wholeMs ms = ms := by
  have hback : totalSeconds ms * 1000 = ms := by
    rw [totalSeconds, Numeric.toDouble, Numeric.roundTo_of_representable hseconds]
    exact div_mul_cancel₀ _ (by decide)
  rw [wholeMs, hback, Numeric.toDouble, Numeric.roundTo_of_representable hms, truncate]
  split
  · exact Int.floor_intCast ms
  · exact Int.ceil_intCast ms

/-- Less than a unit away from an integer, the integer or the one before is what is left. -/
theorem truncate_near {x : ℚ} {n : Int} (hn : 0 ≤ n) (h : |x - n| < 1) :
    truncate x = n ∨ truncate x = n - 1 := by
  obtain ⟨hlow, hhigh⟩ := abs_sub_lt_iff.mp h
  rw [truncate]
  split
  · have hle : n - 1 ≤ ⌊x⌋ := Int.le_floor.mpr (by push_cast; linarith)
    have hlt : ⌊x⌋ < n + 1 := Int.floor_lt.mpr (by push_cast; linarith)
    omega
  · -- `x` is negative, so the integer is zero
    have hn' : (0 : ℚ) ≤ n := Int.cast_nonneg hn
    have hzero : n < 1 := by
      rw [← Int.cast_lt (R := ℚ)]
      push_cast
      linarith
    have hle : ⌈x⌉ ≤ 0 := Int.ceil_le.mpr (by push_cast; linarith)
    have hlt : -1 < ⌈x⌉ := Int.lt_ceil.mpr (by push_cast; linarith)
    omega

/-- **The conversion loses a millisecond at most**, of anything up to seventy thousand years. -/
theorem wholeMs_near {ms : Int} (hpos : 0 ≤ ms) (hlong : ms < 2 ^ 51) :
    wholeMs ms = ms ∨ wholeMs ms = ms - 1 := by
  have hms : (0 : ℚ) ≤ ms := Int.cast_nonneg hpos
  have hlong' : (ms : ℚ) < 2 ^ 51 := by exact_mod_cast hlong
  have hseconds : |totalSeconds ms - ms / 1000| ≤ ms / 1000 / 2 ^ 53 := by
    have h := Numeric.abs_roundTo_sub_le_mul Numeric.doublePrecision ((ms : ℚ) / 1000)
    rwa [abs_of_nonneg (div_nonneg hms (by decide))] at h
  have hexact : |totalSeconds ms * 1000 - ms| ≤ ms / 2 ^ 53 := by
    rw [abs_sub_le_iff] at hseconds ⊢
    constructor <;> linarith only [hseconds.1, hseconds.2]
  have hsize : |totalSeconds ms * 1000| ≤ 2 * ms := by
    rw [abs_sub_le_iff] at hexact
    rw [abs_le]
    constructor <;> linarith only [hexact.1, hexact.2, hms]
  refine truncate_near hpos ?_
  calc |Numeric.toDouble (totalSeconds ms * 1000) - ms|
      ≤ |Numeric.toDouble (totalSeconds ms * 1000) - totalSeconds ms * 1000|
          + |totalSeconds ms * 1000 - ms| := abs_sub_le _ _ _
    _ ≤ 2 * ms / 2 ^ 53 + ms / 2 ^ 53 := by
        refine add_le_add ((Numeric.abs_roundTo_sub_le_mul _ _).trans ?_) hexact
        exact div_le_div_of_nonneg_right hsize (by positivity)
    _ < 1 := by linarith only [hlong']

example : wholeMs 1001 = 1000 := by decide +kernel

/-- `CapacityReading`. -/
structure CapacityReading where
  availableAgents : Nat
  reservedAgents : Nat
  activeCalls : Nat
  ringingCalls : Nat
  expiredLeases : Nat
  callFailureRate : ℚ
  providerStatus : ProviderHealthStatus

/-- `ACTIVE_CALL_STATES`. -/
def activeCallStates : List CallState := [.reserved, .initiated, .ringing, .answered, .connected]

/-- All that `_evaluate` reads. -/
structure Readings where
  reading : CapacityReading
  snapshotAgeMs : Int
  /-- What the availability tracker had recorded for the campaign. -/
  previousAvailable : Option Nat

namespace SafetyController

/-- `_read_capacity`. -/
def readCapacity (cfg : Settings) (campaign : Campaign) : Async CapacityReading := do
  let now ← await .utcNow
  let agentCounts ← await (.countAgentsByState campaign.id)
  let callCounts ← await (.countCallsByState campaign.id)
  let expiredLeases ← await (.countExpiredLeases now)
  let windowStart := now - truncate (1000 * cfg.answerRateWindowSeconds)
  let outcomes ← await (.outcomeCountsBetween campaign.id windowStart now)
  let status ← await (.getHealth campaign.providerName)
  pure
    { availableAgents := agentCounts .available
      reservedAgents := agentCounts .reserved
      activeCalls := (activeCallStates.map callCounts).sum
      ringingCalls := callCounts .ringing
      expiredLeases := expiredLeases
      callFailureRate :=
        if outcomes.total ≠ 0 then (outcomes.systemFailed : ℚ) / outcomes.total else 0
      providerStatus := status }

/-- `_snapshot_age_ms`. -/
def snapshotAgeMs (request : PacingRequest) : Async Int := do
  let now ← await .utcNow
  pure (max 0 (wholeMs (now - request.snapshotCapturedAt)))

/-- The reads of `_evaluate`, in order. -/
def readings (cfg : Settings) (campaign : Campaign) (request : PacingRequest) :
    Async Readings := do
  let reading ← readCapacity cfg campaign
  let age ← snapshotAgeMs request
  let previous ← await (.recordAvailable campaign.id reading.availableAgents)
  pure ⟨reading, age, previous⟩

/-- `_build_constraints`. -/
def buildConstraints (cfg : Settings) (campaign : Campaign) (request : PacingRequest)
    (reading : CapacityReading) (progressiveEquivalent ringingCeiling : Int)
    (snapshotIsStale : Bool) (availabilityDropRatio : ℚ) : List SafetyConstraintResult :=
  let uncapped := request.requested
  let healthLimit :=
    match reading.providerStatus with
    | .unhealthy => 0
    | .degraded => progressiveEquivalent
    | .healthy => uncapped
  [ { name := "agent_capacity"
      limit := max 0 ((reading.availableAgents : Int) - reading.reservedAgents)
      value := some reading.availableAgents },
    { name := "campaign_concurrency"
      limit := max 0 ((campaign.maxConcurrentCalls : Int) - reading.activeCalls)
      value := some reading.activeCalls },
    { name := "ringing_ceiling"
      limit := max 0 (ringingCeiling - reading.ringingCalls)
      value := some reading.ringingCalls },
    { name := "provider_health"
      limit := healthLimit },
    { name := "progressive_mode_cap"
      limit := if request.mode = .progressive then progressiveEquivalent else uncapped
      value := some progressiveEquivalent },
    { name := "stale_state"
      limit := if snapshotIsStale then 0 else uncapped
      value := some reading.expiredLeases },
    { name := "availability_drop"
      limit :=
        if cfg.availabilityDropThreshold < availabilityDropRatio then progressiveEquivalent
        else uncapped
      value := some availabilityDropRatio },
    { name := "failure_rate"
      limit :=
        if cfg.highFailureRateThreshold < reading.callFailureRate then progressiveEquivalent
        else uncapped
      value := some reading.callFailureRate } ]

/-- The loop of `_mark_binding`: the first constraint at the approved number, if none yet. -/
def markFirst (approved : Int) : Bool → List SafetyConstraintResult → List SafetyConstraintResult
  | _, [] => []
  | marked, constraint :: rest =>
      let binding := !marked && constraint.limit == approved
      { constraint with binding := binding } :: markFirst approved (marked || binding) rest

/-- `_mark_binding`. -/
def markBinding (constraints : List SafetyConstraintResult) (approved requested : Int) :
    List SafetyConstraintResult :=
  if requested ≤ approved then constraints else markFirst approved false constraints

/-- `_verdict`. -/
def verdict (requested approved : Int) (fallbackReason : Option String) : SafetyVerdict :=
  if requested = 0 then .approved
  else if fallbackReason.isSome ∧ 0 < approved then .fallbackProgressive
  else if approved = 0 then .rejected
  else if approved < requested then .reduced
  else .approved

/-- The snapshot is too old, or recovery has work to do. -/
def snapshotIsStale (cfg : Settings) (r : Readings) : Bool :=
  decide (cfg.maxSnapshotAgeSeconds * 1000 < r.snapshotAgeMs)
    || decide (0 < r.reading.expiredLeases)

/-- The availability drop ratio, zero without a drop. -/
def availabilityDropRatio (cfg : Settings) (r : Readings) : ℚ :=
  (recordAndDetect cfg r.previousAvailable r.reading.availableAgents).getD 0

/-- How many calls may ring at once. -/
def ringingCeiling (cfg : Settings) (reading : CapacityReading) : Int :=
  truncate (cfg.maxRingingRatio * reading.availableAgents)

/-- The constraints of an evaluation. -/
def constraintsOf (cfg : Settings) (campaign : Campaign) (request : PacingRequest)
    (r : Readings) : List SafetyConstraintResult :=
  buildConstraints cfg campaign request r.reading r.reading.availableAgents
    (ringingCeiling cfg r.reading) (snapshotIsStale cfg r) (availabilityDropRatio cfg r)

/-- The fallback reason of an evaluation. -/
def fallbackReasonOf (cfg : Settings) (r : Readings) : Option String :=
  shouldFallbackToProgressive
    { providerStatus := r.reading.providerStatus
      availabilityDropRatio := availabilityDropRatio cfg r
      availabilityDropThreshold := cfg.availabilityDropThreshold
      ringingCalls := r.reading.ringingCalls
      ringingCeiling := ringingCeiling cfg r.reading
      callFailureRate := r.reading.callFailureRate
      failureRateThreshold := cfg.highFailureRateThreshold
      snapshotIsStale := snapshotIsStale cfg r }

/-- `max(0, min(requested, *limits))`. -/
def approvedOf (requested : Int) (constraints : List SafetyConstraintResult) : Int :=
  max 0 ((constraints.map (·.limit)).foldl min requested)

/-- `_evaluate`, after the reads. -/
def decisionOf (cfg : Settings) (campaign : Campaign) (request : PacingRequest)
    (pacingDecisionId : Option String) (r : Readings) : SafetyDecision :=
  let constraints := constraintsOf cfg campaign request r
  let approved := approvedOf request.requested constraints
  let constraints := markBinding constraints approved request.requested
  { campaignId := campaign.id
    requested := request.requested
    approved := approved
    verdict := verdict request.requested approved (fallbackReasonOf cfg r)
    constraints := constraints
    bindingConstraint := (constraints.find? (·.binding)).map (·.name)
    snapshotAgeMs := r.snapshotAgeMs
    fallbackReason := fallbackReasonOf cfg r
    pacingDecisionId := pacingDecisionId }

/-- What `evaluate` decides when the evaluation raises. -/
def evaluationError (campaign : Campaign) (request : PacingRequest)
    (pacingDecisionId : Option String) : SafetyDecision :=
  { campaignId := campaign.id
    requested := request.requested
    approved := 0
    verdict := .rejected
    constraints := []
    bindingConstraint := some "evaluation_error"
    snapshotAgeMs := 0
    fallbackReason := some "evaluation_error"
    pacingDecisionId := pacingDecisionId }

/-- `_persist`. -/
def persistDecision (decision : SafetyDecision) : Async Unit :=
  Prog.tryCatch (await (.recordSafetyDecision decision)) fun e =>
    if e.isException then pure () else throw e

/-- The decision `evaluate` comes to: a failed evaluation rejects everything. -/
def decideOrReject (cfg : Settings) (campaign : Campaign) (request : PacingRequest)
    (pacingDecisionId : Option String) : Async SafetyDecision :=
  Prog.tryCatch
    (do
      let r ← readings cfg campaign request
      pure (decisionOf cfg campaign request pacingDecisionId r))
    fun e =>
      if e.isException then pure (evaluationError campaign request pacingDecisionId) else throw e

/-- `evaluate`. -/
def evaluate (cfg : Settings) (campaign : Campaign) (request : PacingRequest)
    (pacingDecisionId : Option String) (persist : Bool) : Async SafetyDecision := do
  let decision ← decideOrReject cfg campaign request pacingDecisionId
  if persist then persistDecision decision else pure ()
  pure decision

end SafetyController

/-! ## What an evaluation awaits -/

/-- A read of the safety controller, or the record of what it decided. -/
def Op.Evaluation : Op → Prop
  | .utcNow | .countAgentsByState _ | .countCallsByState _ | .countExpiredLeases _
  | .outcomeCountsBetween .. | .getHealth _ | .recordAvailable .. | .recordSafetyDecision _ => True
  | _ => False

namespace SafetyController

theorem evaluate_all (cfg : Settings) (campaign : Campaign) (request : PacingRequest)
    (pacingDecisionId : Option String) (persist : Bool) :
    (evaluate cfg campaign request pacingDecisionId persist).All Op.Evaluation := by
  have hread : (readCapacity cfg campaign).All Op.Evaluation := by
    refine Prog.all_bind (Prog.all_perform trivial) fun _ => ?_
    refine Prog.all_bind (Prog.all_perform trivial) fun _ => ?_
    refine Prog.all_bind (Prog.all_perform trivial) fun _ => ?_
    refine Prog.all_bind (Prog.all_perform trivial) fun _ => ?_
    refine Prog.all_bind (Prog.all_perform trivial) fun _ => ?_
    exact Prog.all_bind (Prog.all_perform trivial) fun _ => trivial
  have hage : (snapshotAgeMs request).All Op.Evaluation :=
    Prog.all_bind (Prog.all_perform trivial) fun _ => trivial
  have hpersist : ∀ d, (persistDecision d).All Op.Evaluation := by
    intro d
    refine Prog.all_tryCatch (Prog.all_perform trivial) fun e => ?_
    split <;> trivial
  refine Prog.all_bind (Prog.all_tryCatch (Prog.all_bind ?_ fun _ => trivial) fun e => ?_)
    fun d => ?_
  · refine Prog.all_bind hread fun _ => Prog.all_bind hage fun _ => ?_
    exact Prog.all_bind (Prog.all_perform trivial) fun _ => trivial
  · split <;> trivial
  · split
    · exact Prog.all_bind (hpersist d) fun _ => trivial
    · trivial

end SafetyController

end SmartDialer
