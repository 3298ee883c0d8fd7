import Mathlib.Algebra.Order.Field.Rat
import Mathlib.Data.List.Sort
import Mathlib.Data.Rat.Floor
import Mathlib.Tactic.Linarith
import SmartDialer.Models.Documents
import SmartDialer.Store.SlidingWindow

/-!
# Provider health

`app/services/provider_health.py`. The manager keeps, for each provider, the samples of its
originate requests, and drops the old ones from the front whenever it touches them. What
`get_health` answers does not depend on when that was: it is what all samples ever recorded
say that lie in the window.

`time.monotonic()` reads seconds, as exact rationals here.
-/

namespace SmartDialer

open Store

/-! ## Samples and what is made of them -/

/-- `app/config.py`, the settings of the health manager. -/
structure HealthSettings where
  healthWindowSeconds : ℚ := 60
  healthMinSamples : Int := 10
  unhealthyConsecutiveFailures : Int := 5
  unhealthyTimeoutRate : ℚ := 1 / 2
  degradedFailureRate : ℚ := 1 / 5
  degradedLatencyMs : ℚ := 3000

/-- `OriginateSample`. -/
structure OriginateSample where
  recordedAt : ℚ
  success : Bool
  timedOut : Bool
  latencyMs : Int
  deriving DecidableEq, Repr

/-- `ProviderHealth`. -/
structure ProviderHealth where
  providerName : String
  status : ProviderHealthStatus
  requestCount : Nat
  successRate : ℚ
  failureRate : ℚ
  timeoutRate : ℚ
  p50LatencyMs : ℚ
  p95LatencyMs : ℚ
  consecutiveFailures : Nat
  eventsReceived : Nat
  lowConfidence : Bool
  computedAt : Time
  deriving DecidableEq, Repr

/-- `HEALTH_FACTORS`. -/
def healthFactors : ProviderHealthStatus → ℚ
  | .healthy => 1
  | .degraded => 1 / 2
  | .unhealthy => 0

/-- `round`: to the nearest integer, and to the even one of two that are equally near. -/
def roundHalfEven (x : ℚ) : Int :=
  if x - ⌊x⌋ < 1 / 2 then ⌊x⌋
  else if 1 / 2 < x - ⌊x⌋ then ⌊x⌋ + 1
  else ⌊x⌋ + ⌊x⌋ % 2

/-- `xs[index]`: a negative index counts from the end. -/
def getItem {α : Type} (xs : List α) (index : Int) : Except String α :=
  match (if index < 0 then xs.length + index else index) with
  | .ofNat n => xs[n]?.elim (.error "IndexError") .ok
  | .negSucc _ => .error "IndexError"

/-- `percentile`. -/
def percentile (values : List ℚ) (fraction : ℚ) : Except String ℚ :=
  if values.isEmpty then .ok 0
  else
    let ordered := values.insertionSort (· ≤ ·)
    getItem ordered
      (min (ordered.length - 1) (roundHalfEven (fraction * ((ordered.length : ℚ) - 1))))

namespace ProviderHealthManager

/-- `_count_trailing_failures`. -/
def countTrailingFailures (samples : List OriginateSample) : Nat :=
  (samples.reverse.takeWhile fun sample => !sample.success).length

/-- `_derive_status`. -/
def deriveStatus (settings : HealthSettings) (failureRate timeoutRate : ℚ)
    (consecutiveFailures : Nat) (p95LatencyMs : ℚ) (lowConfidence : Bool) :
    ProviderHealthStatus :=
  if settings.unhealthyConsecutiveFailures ≤ consecutiveFailures then .unhealthy
  else if !lowConfidence && decide (settings.unhealthyTimeoutRate < timeoutRate) then .unhealthy
  else if lowConfidence then .healthy
  else if settings.degradedFailureRate < failureRate then .degraded
  else if settings.degradedLatencyMs < p95LatencyMs then .degraded
  else .healthy

/-- `success_rate`. -/
def successRate (samples : List OriginateSample) : ℚ :=
  if samples.length = 0 then 1
  else (samples.countP fun sample => sample.success) / samples.length

/-- `failure_rate`. -/
def failureRate (samples : List OriginateSample) : ℚ :=
  if samples.length = 0 then 0 else 1 - successRate samples

/-- `timeout_rate`. -/
def timeoutRate (samples : List OriginateSample) : ℚ :=
  if samples.length = 0 then 0
  else (samples.countP fun sample => sample.timedOut) / samples.length

/-- `_compute_health`, from the samples on. -/
def healthOf (settings : HealthSettings) (providerName : String)
    (samples : List OriginateSample) (eventsReceived : Nat) (computedAt : Time) :
    Except String ProviderHealth := do
  let lowConfidence := decide ((samples.length : Int) < settings.healthMinSamples)
  let latencies := samples.map fun sample => (sample.latencyMs : ℚ)
  let p95 ← percentile latencies (19 / 20)
  let status := deriveStatus settings (failureRate samples) (timeoutRate samples)
    (countTrailingFailures samples) p95 lowConfidence
  let p50 ← percentile latencies (1 / 2)
  pure
    { providerName := providerName
      status := status
      requestCount := samples.length
      successRate := successRate samples
      failureRate := failureRate samples
      timeoutRate := timeoutRate samples
      p50LatencyMs := p50
      p95LatencyMs := p95
      consecutiveFailures := countTrailingFailures samples
      eventsReceived := eventsReceived
      lowConfidence := lowConfidence
      computedAt := computedAt }

/-- What `get_health` answers when the computation fails. -/
def fallbackHealth (providerName : String) (eventsReceived : Nat) (computedAt : Time) :
    ProviderHealth where
  providerName := providerName
  status := .degraded
  requestCount := 0
  successRate := 0
  failureRate := 0
  timeoutRate := 0
  p50LatencyMs := 0
  p95LatencyMs := 0
  consecutiveFailures := 0
  eventsReceived := eventsReceived
  lowConfidence := true
  computedAt := computedAt

end ProviderHealthManager

/-! ## The manager -/

/-- `ProviderHealthManager`: the samples and the events of each provider, and its last status. -/
structure ProviderHealthManager where
  samples : String → List OriginateSample
  eventsReceived : String → Nat
  lastStatus : String → Option ProviderHealthStatus

namespace ProviderHealthManager

/-- `__init__`. -/
def initial : ProviderHealthManager where
  samples _ := []
  eventsReceived _ := 0
  lastStatus _ := none

/-- `_trim`, when the clock reads `t`. -/
def trim (settings : HealthSettings) (t : ℚ) (window : List OriginateSample) :
    List OriginateSample :=
  SlidingWindow.trim OriginateSample.recordedAt (t - settings.healthWindowSeconds) window

/-- `record_originate`, which reads the clock for the sample, and again to trim. -/
def recordOriginate (settings : HealthSettings) (m : ProviderHealthManager)
    (providerName : String) (success : Bool) (latencyMs : Int) (timedOut : Bool)
    (recordedAt t : ℚ) : ProviderHealthManager :=
  let window := m.samples providerName ++ [⟨recordedAt, success, timedOut, latencyMs⟩]
  { m with samples := Function.update m.samples providerName (trim settings t window) }

/-- `record_event_received`. -/
def recordEventReceived (m : ProviderHealthManager) (providerName : String) :
    ProviderHealthManager :=
  { m with
    eventsReceived :=
      Function.update m.eventsReceived providerName (m.eventsReceived providerName + 1) }

/-- `get_health`, with the clock reading of its trim and its `computed_at`. -/
def getHealth (settings : HealthSettings) (m : ProviderHealthManager) (providerName : String)
    (t : ℚ) (computedAt : Time) : ProviderHealth × ProviderHealthManager :=
  let window := trim settings t (m.samples providerName)
  let m := { m with samples := Function.update m.samples providerName window }
  match healthOf settings providerName window (m.eventsReceived providerName) computedAt with
  | .ok health =>
      (health, { m with lastStatus := Function.update m.lastStatus providerName health.status })
  | .error _ => (fallbackHealth providerName (m.eventsReceived providerName) computedAt, m)

/-- `should_allow_retry`. -/
def shouldAllowRetry (settings : HealthSettings) (m : ProviderHealthManager)
    (providerName : String) (t : ℚ) (computedAt : Time) : Bool × ProviderHealthManager :=
  let (health, m) := getHealth settings m providerName t computedAt
  (health.status != .unhealthy, m)

/-- `health_factor`. -/
def healthFactor (settings : HealthSettings) (m : ProviderHealthManager) (providerName : String)
    (t : ℚ) (computedAt : Time) : ℚ × ProviderHealthManager :=
  let (health, m) := getHealth settings m providerName t computedAt
  (healthFactors health.status, m)

/-! ## Nothing goes wrong in the computation -/

theorem getItem_ok {α : Type} {xs : List α} {index : Int} (h : 0 ≤ index)
    (h' : index < xs.length) : ∃ x, getItem xs index = .ok x := by
  obtain ⟨n, rfl⟩ := Int.eq_ofNat_of_zero_le h
  have hn : n < xs.length := Int.ofNat_lt.mp h'
  refine ⟨xs[n], ?_⟩
  simp [getItem, not_lt.mpr h, List.getElem?_eq_getElem hn]

theorem roundHalfEven_nonneg {x : ℚ} (h : 0 ≤ x) : 0 ≤ roundHalfEven x := by
  have hfloor : 0 ≤ ⌊x⌋ := Int.floor_nonneg.mpr h
  rw [roundHalfEven]
  split
  · exact hfloor
  · split <;> omega

theorem percentile_ok (values : List ℚ) {fraction : ℚ} (h : 0 ≤ fraction) :
    ∃ x, percentile values fraction = .ok x := by
  rw [percentile]
  split
  · exact ⟨0, rfl⟩
  · rename_i hvalues
    have hlength : 1 ≤ (values.insertionSort (· ≤ ·)).length := by
      rw [List.length_insertionSort]
      exact List.length_pos_iff.mpr fun hnil => hvalues (List.isEmpty_iff.mpr hnil)
    have hlast : (0 : ℚ) ≤ ((values.insertionSort (· ≤ ·)).length : ℚ) - 1 :=
      sub_nonneg.mpr (by exact_mod_cast hlength)
    have hindex := roundHalfEven_nonneg (mul_nonneg h hlast)
    refine getItem_ok (le_min (by omega) hindex) (lt_of_le_of_lt (min_le_left ..) (by omega))

variable {settings : HealthSettings}

theorem healthOf_ok (settings : HealthSettings) (providerName : String)
    (samples : List OriginateSample) (eventsReceived : Nat) (computedAt : Time) :
    ∃ health, healthOf settings providerName samples eventsReceived computedAt = .ok health := by
  obtain ⟨p95, hp95⟩ := percentile_ok (samples.map fun sample => (sample.latencyMs : ℚ))
    (show (0 : ℚ) ≤ 19 / 20 by norm_num)
  obtain ⟨p50, hp50⟩ := percentile_ok (samples.map fun sample => (sample.latencyMs : ℚ))
    (show (0 : ℚ) ≤ 1 / 2 by norm_num)
  rw [healthOf, hp95, hp50]
  exact ⟨_, rfl⟩

/-- `get_health` never falls back. -/
theorem getHealth_computed (settings : HealthSettings) (m : ProviderHealthManager)
    (providerName : String) (t : ℚ) (computedAt : Time) :
    healthOf settings providerName (trim settings t (m.samples providerName))
        (m.eventsReceived providerName) computedAt
      = .ok (getHealth settings m providerName t computedAt).1 := by
  obtain ⟨health, hhealth⟩ := healthOf_ok settings providerName
    (trim settings t (m.samples providerName)) (m.eventsReceived providerName) computedAt
  rw [getHealth, hhealth]

/-- A provider without samples is given the benefit of the doubt. -/
theorem healthOf_nil (hmin : 1 ≤ settings.healthMinSamples)
    (hfailures : 1 ≤ settings.unhealthyConsecutiveFailures) {providerName : String}
    {eventsReceived : Nat} {computedAt : Time} {health : ProviderHealth}
    (h : healthOf settings providerName [] eventsReceived computedAt = .ok health) :
    health.status = .healthy ∧ health.lowConfidence = true := by
  have hfew : ((([] : List OriginateSample).length : Int) < settings.healthMinSamples) :=
    lt_of_lt_of_le Int.zero_lt_one hmin
  have hnone : ¬settings.unhealthyConsecutiveFailures
      ≤ (countTrailingFailures ([] : List OriginateSample) : Int) :=
    not_le.mpr (lt_of_lt_of_le Int.zero_lt_one hfailures)
  obtain rfl := Except.ok.inj h
  refine ⟨?_, decide_eq_true hfew⟩
  change deriveStatus settings _ _ _ _ (decide _) = _
  rw [deriveStatus, if_neg hnone, decide_eq_true hfew]
  rfl

/-! ## Runs -/

/-- A call to the manager, with what it reads. -/
inductive Request where
  | recordOriginate (providerName : String) (success : Bool) (latencyMs : Int) (timedOut : Bool)
      (recordedAt t : ℚ)
  | recordEventReceived (providerName : String)
  | getHealth (providerName : String) (t : ℚ) (computedAt : Time)

/-- The manager after these requests, the latest of them first. -/
def after (settings : HealthSettings) : List Request → ProviderHealthManager
  | [] => initial
  | .recordOriginate providerName success latencyMs timedOut recordedAt t :: requests =>
      recordOriginate settings (after settings requests) providerName success latencyMs timedOut
        recordedAt t
  | .recordEventReceived providerName :: requests =>
      recordEventReceived (after settings requests) providerName
  | .getHealth providerName t computedAt :: requests =>
      (getHealth settings (after settings requests) providerName t computedAt).2

/-- All samples ever recorded for a provider, in the order in which they were. -/
def recordedFor (providerName : String) : List Request → List OriginateSample
  | [] => []
  | .recordOriginate name success latencyMs timedOut recordedAt _ :: requests =>
      recordedFor providerName requests
        ++ if name = providerName then [⟨recordedAt, success, timedOut, latencyMs⟩] else []
  | .recordEventReceived _ :: requests => recordedFor providerName requests
  | .getHealth _ _ _ :: requests => recordedFor providerName requests

/-- The last reading of the monotonic clock, which read `t₀` at the start. -/
def clockAfter (t₀ : ℚ) : List Request → ℚ
  | [] => t₀
  | .recordOriginate _ _ _ _ _ t :: _ => t
  | .recordEventReceived _ :: requests => clockAfter t₀ requests
  | .getHealth _ t _ :: _ => t

/-- The clock does not go back. -/
def Monotonic (t₀ : ℚ) : List Request → Prop
  | [] => True
  | .recordOriginate _ _ _ _ recordedAt t :: requests =>
      clockAfter t₀ requests ≤ recordedAt ∧ recordedAt ≤ t ∧ Monotonic t₀ requests
  | .recordEventReceived _ :: requests => Monotonic t₀ requests
  | .getHealth _ t _ :: requests => clockAfter t₀ requests ≤ t ∧ Monotonic t₀ requests

/-- What the manager holds, and what it has been given. -/
structure Windowed (settings : HealthSettings) (clock : ℚ) (held given : List OriginateSample) :
    Prop where
  agree : SlidingWindow.AgreeFrom OriginateSample.recordedAt
    (clock - settings.healthWindowSeconds) held given
  ordered : SlidingWindow.Ordered OriginateSample.recordedAt given
  past : ∀ x ∈ given, x.recordedAt ≤ clock

namespace Windowed

variable {clock t : ℚ} {held given : List OriginateSample}

theorem later (h : Windowed settings clock held given) (ht : clock ≤ t) :
    Windowed settings t held given where
  agree := h.agree.later (sub_le_sub_right ht _)
  ordered := h.ordered
  past x hx := (h.past x hx).trans ht

theorem trimmed (h : Windowed settings clock held given) (ht : clock ≤ t) :
    Windowed settings t (trim settings t held) given :=
  { h.later ht with agree := (h.later ht).agree.trimmed }

/-- A sample is recorded. -/
theorem append (h : Windowed settings clock held given) {x : OriginateSample}
    (hx : clock ≤ x.recordedAt) :
    Windowed settings x.recordedAt (held ++ [x]) (given ++ [x]) where
  agree := (h.later hx).agree.append [x]
  ordered := List.pairwise_append.mpr ⟨h.ordered, List.pairwise_singleton .., fun y hy z hz => by
    obtain rfl := List.mem_singleton.mp hz
    exact (h.past y hy).trans hx⟩
  past y hy := by
    rcases List.mem_append.mp hy with hy | hy
    · exact (h.past y hy).trans hx
    · obtain rfl := List.mem_singleton.mp hy
      exact le_refl _

/-- What the next trim leaves is what lies in the window. -/
theorem trim_eq (h : Windowed settings clock held given) (ht : clock ≤ t) :
    trim settings t held = SlidingWindow.within OriginateSample.recordedAt
      (t - settings.healthWindowSeconds) given :=
  (h.agree _ (sub_le_sub_right ht _)).trans (SlidingWindow.trim_eq_within h.ordered _)

end Windowed

theorem getHealth_samples (m : ProviderHealthManager) (providerName : String) (t : ℚ)
    (computedAt : Time) : (getHealth settings m providerName t computedAt).2.samples
      = Function.update m.samples providerName (trim settings t (m.samples providerName)) := by
  rw [getHealth]
  split <;> rfl

/-- **Over a run**, nothing that is still in the window has been dropped. -/
theorem windowed_after {t₀ : ℚ} {requests : List Request} (h : Monotonic t₀ requests)
    (providerName : String) : Windowed settings (clockAfter t₀ requests)
      ((after settings requests).samples providerName) (recordedFor providerName requests) := by
  induction requests with
  | nil => exact ⟨.refl _ _, List.Pairwise.nil, fun _ hx => by cases hx⟩
  | cons request requests ih =>
      cases request with
      | recordOriginate name success latencyMs timedOut recordedAt t =>
          obtain ⟨hclock, ht, hrest⟩ := h
          have hbefore := ih hrest
          rw [after, recordOriginate, recordedFor, clockAfter]
          by_cases hname : name = providerName
          · subst hname
            dsimp only
            rw [Function.update_self, if_pos rfl]
            exact (hbefore.append (x := ⟨recordedAt, success, timedOut, latencyMs⟩)
              hclock).trimmed ht
          · dsimp only
            rw [Function.update_of_ne (Ne.symm hname), if_neg hname, List.append_nil]
            exact hbefore.later (hclock.trans ht)
      | recordEventReceived name => exact ih h
      | getHealth name t computedAt =>
          obtain ⟨hclock, hrest⟩ := h
          have hbefore := ih hrest
          rw [after, getHealth_samples, recordedFor, clockAfter]
          by_cases hname : name = providerName
          · subst hname
            rw [Function.update_self]
            exact hbefore.trimmed hclock
          · rw [Function.update_of_ne (Ne.symm hname)]
            exact hbefore.later hclock

/--
**Health is that of the window.** After any requests about any providers, with a clock that does
not go back, `get_health` answers what the samples say that were ever recorded for the provider
and are in the window, whenever it was trimmed. With no sample in the window a provider is
HEALTHY with low confidence, and may be dialled again.
-/
theorem health_of_window {t₀ : ℚ} {requests : List Request} (h : Monotonic t₀ requests) {t : ℚ}
    (ht : clockAfter t₀ requests ≤ t) (providerName : String) (computedAt : Time) :
    healthOf settings providerName
          (SlidingWindow.within OriginateSample.recordedAt (t - settings.healthWindowSeconds)
            (recordedFor providerName requests))
          ((after settings requests).eventsReceived providerName) computedAt
        = .ok (getHealth settings (after settings requests) providerName t computedAt).1
      ∧ (1 ≤ settings.healthMinSamples → 1 ≤ settings.unhealthyConsecutiveFailures →
        (∀ x ∈ recordedFor providerName requests,
          x.recordedAt < t - settings.healthWindowSeconds) →
        (getHealth settings (after settings requests) providerName t computedAt).1.status
            = .healthy
          ∧ (getHealth settings (after settings requests) providerName t
            computedAt).1.lowConfidence = true
          ∧ (shouldAllowRetry settings (after settings requests) providerName t computedAt).1
            = true) := by
  have hcomputed := getHealth_computed settings (after settings requests) providerName t computedAt
  rw [(windowed_after h providerName).trim_eq ht] at hcomputed
  refine ⟨hcomputed, fun hmin hfailures hold => ?_⟩
  have hempty : SlidingWindow.within OriginateSample.recordedAt
      (t - settings.healthWindowSeconds) (recordedFor providerName requests) = [] :=
    List.filter_eq_nil_iff.mpr fun x hx h => not_le.mpr (hold x hx) (of_decide_eq_true h)
  rw [hempty] at hcomputed
  obtain ⟨hstatus, hconfidence⟩ := healthOf_nil hmin hfailures hcomputed
  refine ⟨hstatus, hconfidence, ?_⟩
  change ((getHealth settings _ providerName t computedAt).1.status != .unhealthy) = true
  rw [hstatus]
  rfl

/-! ## A provider that recovers -/

/-- A request that is accepted, and then five in a row that time out. -/
def fiveFailures : List Request :=
  .getHealth "mock_a" 30 0
    :: (List.range 5).map (fun n => .recordOriginate "mock_a" false 0 true (25 - n) (25 - n))
    ++ [.recordOriginate "mock_a" true 800 false 20 20]

/-- The provider is UNHEALTHY, and a minute later, when nobody has dialled it, HEALTHY. -/
theorem health_of_window_fiveFailures :
    (getHealth {} (after {} fiveFailures) "mock_a" 30 0).1.status = .unhealthy
      ∧ (getHealth {} (after {} fiveFailures) "mock_a" 90 0).1.status = .healthy := by
  have hfailing : (getHealth {} (after {} fiveFailures) "mock_a" 30 0).1.status = .unhealthy := by
    decide +kernel
  have hclock : Monotonic 0 fiveFailures := by
    refine ⟨?_, ?_, ?_, ?_, ?_, ?_, ?_, ?_, ?_, ?_, ?_, ?_, ?_, trivial⟩ <;> decide +kernel
  have hold : ∀ x ∈ recordedFor "mock_a" fiveFailures,
      x.recordedAt < 90 - ({} : HealthSettings).healthWindowSeconds := by
    decide +kernel
  exact ⟨hfailing, ((health_of_window hclock (by decide +kernel) "mock_a" 0).2 (by decide)
    (by decide) hold).1⟩

end ProviderHealthManager

end SmartDialer
