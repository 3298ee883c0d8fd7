import Mathlib.Algebra.Order.Ring.Unbundled.Rat
import Mathlib.Data.List.Infix
import SmartDialer.Conc.Failures
import SmartDialer.Simulation.Runner

/-!
# One simulation, from beginning to end

`SimulationEngine.run` of `app/simulation/engine.py`. It seeds the database, starts a worker or
several and everything they need, and looks at the invariants ten times a second until time is up.
Then, whatever came of it, it stops all it has started, lets the calls come to an end, settles
what is left, and looks once more.

What it looks at changes under its eyes, so a look that finds something is followed by a second
one, and only what that finds counts. The report passes if no second look has found anything
and nothing failed (`passes_iff`), and when the last look is taken nothing that was started still
runs (`all_stopped_at_last`).
-/

namespace SmartDialer

open Store Conc

/-! ## Configuration -/

/-- `AvailabilityChange`. -/
structure AvailabilityChange where
  atSecond : ℚ
  agentsOffline : Nat
  deriving DecidableEq

/-- `ConditionChange`. -/
structure ConditionChange where
  atSecond : ℚ
  answerRate : Option ℚ := none
  avgTalkTimeSeconds : Option ℚ := none
  deriving DecidableEq

/-- What the engine reads of a `SimulationConfig`. -/
structure EngineConfig extends SimulationConfig where
  workerCount : Nat := 1
  avgTalkTimeSeconds : ℚ := 120
  ringDurationSeconds : ℚ := 3
  durationSeconds : ℚ := 60
  timeScale : ℚ := 30
  availabilitySchedule : List AvailabilityChange := []
  conditionSchedule : List ConditionChange := []
  deriving DecidableEq

namespace EngineConfig

/-- `scaled`. -/
def scaled (config : EngineConfig) (seconds : ℚ) : ℚ := seconds / config.timeScale

/-- `wall_clock_seconds`. -/
def wallClockSeconds (config : EngineConfig) : ℚ := config.scaled config.durationSeconds

end EngineConfig

/-! ## What the engine awaits -/

/-- What the engine awaits, and what it does at once to the others. -/
inductive EngineOp where
  | seed (config : EngineConfig)
  | logEveryoneIn
  | startHeartbeats
  | startWorker (number : Nat)
  | startRecovery
  | loopTime
  | agentAvailabilityDrop (count : Nat)
  | applyAnswerRate (answerRate : ℚ)
  | applyTalkTime (seconds : ℚ)
  | check (campaignId : String) (final : Bool)
  | sleep
  | stopWorker (number : Nat)
  | stopCampaign (campaignId : String)
  | findActive (campaignId : String)
  | stopRecovery
  | stopSimulator
  | shutdownProviders
  | settle (campaignId : String)
  | collect (campaignId : String)
  deriving DecidableEq

/-- What each answers; of a violation, its name, and of calls, how many they are. -/
@[reducible] def EngineAns : EngineOp → Type
  | .seed _ => String
  | .logEveryoneIn | .agentAvailabilityDrop _ | .findActive _ => Nat
  | .loopTime => ℚ
  | .check .. => List String
  | _ => Unit

/-- It is a look at the invariants, and not the last. -/
def EngineOp.looks : EngineOp → Bool
  | .check _ false => true
  | _ => false

/-- It is the last look. -/
def EngineOp.looksLast : EngineOp → Bool
  | .check _ true => true
  | _ => false

/-- It is one of the timeline. -/
def EngineOp.duringTimeline : EngineOp → Bool
  | .loopTime | .agentAvailabilityDrop _ | .applyAnswerRate _ | .applyTalkTime _
  | .check _ false | .sleep => true
  | _ => false

/-- It is one of the `finally`, and not its last. -/
def EngineOp.duringStop : EngineOp → Bool
  | .stopWorker _ | .stopCampaign _ | .loopTime | .findActive _ | .sleep | .stopRecovery
  | .stopSimulator | .shutdownProviders => true
  | _ => false

/-- The operations, their answers, and the exceptions of the runner. -/
@[reducible] def engineSig : Sig := ⟨EngineOp, EngineAns, RunnerExn⟩

/-- A coroutine of the engine. -/
abbrev EngineAsync (α : Type) : Type := Prog engineSig α

/-- `await` one operation. -/
abbrev awaitEngine (o : EngineOp) : EngineAsync (EngineAns o) := Prog.perform (S := engineSig) o

namespace SimulationEngine

/-- `MIN_DRAIN_SECONDS`. -/
def minDrainSeconds : ℚ := 1

/-- `DRAIN_BUDGET_MULTIPLIER`. -/
def drainBudgetMultiplier : ℚ := 2

/-! ## The timeline -/

/-- The changes of availability that are due, and those that are left. -/
def dropAgents (elapsedSimulated : ℚ) :
    List AvailabilityChange → EngineAsync (List AvailabilityChange)
  | [] => pure []
  | change :: rest =>
      if change.atSecond ≤ elapsedSimulated then do
        let _ ← awaitEngine (.agentAvailabilityDrop change.agentsOffline)
        dropAgents elapsedSimulated rest
      else pure (change :: rest)

/-- An operation, if there is something to do it with. -/
def applyOption {β : Type} (o : β → EngineOp) : Option β → EngineAsync Unit
  | none => pure ()
  | some b => do
      let _ ← awaitEngine (o b)
      pure ()

/-- The changes of the conditions that are due, and those that are left. -/
def changeConditions (elapsedSimulated : ℚ) :
    List ConditionChange → EngineAsync (List ConditionChange)
  | [] => pure []
  | change :: rest =>
      if change.atSecond ≤ elapsedSimulated then do
        applyOption .applyAnswerRate change.answerRate
        applyOption .applyTalkTime change.avgTalkTimeSeconds
        changeConditions elapsedSimulated rest
      else pure (change :: rest)

/-- A look at the invariants, and a second one if it has found anything: what is confirmed. -/
def look (campaignId : String) : EngineAsync (List String) := do
  let found ← awaitEngine (.check campaignId false)
  if found.isEmpty then pure [] else awaitEngine (.check campaignId false)

/--
The loop of `_run_timeline`, for so many iterations. If it has not ended by then it is cancelled,
which may happen to it at any time.
-/
def watch (config : EngineConfig) (campaignId : String) (startedAt deadline : ℚ) :
    Nat → List AvailabilityChange → List ConditionChange → EngineAsync (List String)
  | 0, _, _ => .raise .cancelledError
  | iterations + 1, pendingChanges, pendingConditions => do
      let now ← awaitEngine .loopTime
      if deadline ≤ now then pure [] else
      let time ← awaitEngine .loopTime
      let elapsedSimulated := (time - startedAt) * config.timeScale
      let pendingChanges ← dropAgents elapsedSimulated pendingChanges
      let pendingConditions ← changeConditions elapsedSimulated pendingConditions
      let confirmed ← look campaignId
      if confirmed.isEmpty then do
        let _ ← awaitEngine .sleep
        watch config campaignId startedAt deadline iterations pendingChanges pendingConditions
      else pure confirmed

/-- `_run_timeline`. -/
def runTimeline (config : EngineConfig) (campaignId : String) (iterations : Nat) :
    EngineAsync (List String) := do
  let now ← awaitEngine .loopTime
  let startedAt ← awaitEngine .loopTime
  watch config campaignId startedAt (now + config.wallClockSeconds) iterations
    (Collection.sortOn AvailabilityChange.atSecond config.availabilitySchedule)
    (Collection.sortOn ConditionChange.atSecond config.conditionSchedule)

/-! ## Winding up -/

/-- The loop of `_drain`, for so many iterations. -/
def awaitCalls (campaignId : String) (deadline : ℚ) : Nat → EngineAsync Unit
  | 0 => .raise .cancelledError
  | iterations + 1 => do
      let now ← awaitEngine .loopTime
      if deadline ≤ now then
        let _ ← awaitEngine (.findActive campaignId)
        pure ()
      else
        let active ← awaitEngine (.findActive campaignId)
        if active = 0 then pure () else do
          let _ ← awaitEngine .sleep
          awaitCalls campaignId deadline iterations

/-- `_drain`. -/
def drain (config : EngineConfig) (campaignId : String) (iterations : Nat) :
    EngineAsync Unit := do
  let budget := max minDrainSeconds
    (config.scaled (config.ringDurationSeconds + config.avgTalkTimeSeconds)
      * drainBudgetMultiplier)
  let now ← awaitEngine .loopTime
  awaitCalls campaignId (now + budget) iterations

/-- Operations, one after the other. -/
def each (os : List EngineOp) : EngineAsync Unit :=
  match os with
  | [] => pure ()
  | o :: rest => do
      let _ ← awaitEngine o
      each rest

/-- The `finally` of `run`, up to its last line. -/
def stopAll (config : EngineConfig) (campaignId : String) (workers iterations : Nat) :
    EngineAsync Unit := do
  each ((List.range workers).map .stopWorker)
  let _ ← awaitEngine (.stopCampaign campaignId)
  drain config campaignId iterations
  each [.stopRecovery, .stopSimulator, .shutdownProviders]

/-! ## The engine -/

/-- The first part of the `try`, before there are workers. -/
def logIn : EngineAsync Unit := do
  let _ ← awaitEngine .logEveryoneIn
  let _ ← awaitEngine .startHeartbeats
  pure ()

/-- The second part. -/
def work (config : EngineConfig) (campaignId : String) (iterations : Nat) :
    EngineAsync (List String) := do
  each ((List.range config.workerCount).map .startWorker)
  let _ ← awaitEngine .startRecovery
  runTimeline config campaignId iterations

/-- What comes after the `try`. -/
def conclude (campaignId : String) (violations : List String) (error : Option String) :
    EngineAsync SimulationReport := do
  let found ← awaitEngine (.check campaignId true)
  let _ ← awaitEngine (.collect campaignId)
  pure { violations := violations ++ found, error := error }

/-- `run`; an exception that is not a cancellation ends up in the report. -/
def run (config : EngineConfig) (iterations : Nat) : EngineAsync SimulationReport := do
  let campaignId ← awaitEngine (.seed config)
  match ← logIn.attempt with
  | .error e => windUpAfter campaignId 0 (.error e)
  | .ok () =>
      let seen ← (work config campaignId iterations).attempt
      windUpAfter campaignId config.workerCount seen
where
  /-- The `except` and the `finally`, and what comes after them. -/
  windUpAfter (campaignId : String) (workers : Nat) (seen : Except RunnerExn (List String)) :
      EngineAsync SimulationReport := do
    stopAll config campaignId workers iterations
    let _ ← awaitEngine (.settle campaignId)
    match seen with
    | .error .cancelledError => .raise .cancelledError
    | .error (.exception typeName text) => conclude campaignId [] (some (typeName ++ ": " ++ text))
    | .ok violations => conclude campaignId violations none

/-! ## Looks that count -/

/-- What a loop raises of its own that has gone on for too long. -/
def Cancels (e : RunnerExn) : Prop := e = .cancelledError

/-- It is none of the looks on the way. -/
def NoLook (o : EngineOp) : Prop := o.looks = false

/-- Two looks in a row have found something. -/
def Confirmed (past : List (Reply engineSig)) : Prop :=
  ∃ campaignId, ∃ first second : List String, first ≠ [] ∧ second ≠ []
    ∧ [⟨.check campaignId false, .ok second⟩, ⟨.check campaignId false, .ok first⟩] <:+: past

/-- Nothing has been confirmed, and the next look is a first one. -/
structure Unconfirmed (past : List (Reply engineSig)) : Prop where
  none : ¬Confirmed past
  first : ∀ r older, past = r :: older → r.op.looks = false

section

variable {past new : List (Reply engineSig)} {r : Reply engineSig}

theorem confirmed_cons (h : r.op.looks = false) : Confirmed (r :: past) ↔ Confirmed past := by
  refine ⟨?_, ?_⟩
  · rintro ⟨campaignId, first, second, hfirst, hsecond, hinfix⟩
    refine ⟨campaignId, first, second, hfirst, hsecond, ?_⟩
    rcases List.infix_cons_iff.mp hinfix with hprefix | hinfix
    · rw [← (List.cons_prefix_cons.mp hprefix).1] at h
      cases h
    · exact hinfix
  · rintro ⟨campaignId, first, second, hfirst, hsecond, hinfix⟩
    exact ⟨campaignId, first, second, hfirst, hsecond, List.infix_cons_iff.mpr (.inr hinfix)⟩

theorem confirmed_append (h : ∀ r ∈ new, r.op.looks = false) :
    Confirmed (new ++ past) ↔ Confirmed past := by
  induction new with
  | nil => rfl
  | cons r new ih =>
      obtain ⟨hr, hnew⟩ := List.forall_mem_cons.mp h
      rw [List.cons_append, confirmed_cons hr, ih hnew]

theorem Unconfirmed.cons (h : ¬Confirmed past) (hr : r.op.looks = false) :
    Unconfirmed (r :: past) where
  none hconfirmed := h ((confirmed_cons hr).mp hconfirmed)
  first r' older heq := by
    obtain ⟨rfl, -⟩ := List.cons.inj heq
    exact hr

theorem Unconfirmed.append (h : Unconfirmed past) (hnew : ∀ r ∈ new, r.op.looks = false) :
    Unconfirmed (new ++ past) := by
  induction new with
  | nil => exact h
  | cons r new ih =>
      obtain ⟨hr, hnew⟩ := List.forall_mem_cons.mp hnew
      exact .cons (ih hnew).none hr

/-- A first look confirms nothing. -/
theorem Unconfirmed.look (h : Unconfirmed past) : ¬Confirmed (r :: past) := by
  rintro ⟨campaignId, first, second, hfirst, hsecond, hinfix⟩
  rcases List.infix_cons_iff.mp hinfix with hprefix | hinfix
  · obtain ⟨older, rfl⟩ := (List.cons_prefix_cons.mp hprefix).2
    have hnot := h.first _ _ rfl
    cases hnot
  · exact h.none ⟨campaignId, first, second, hfirst, hsecond, hinfix⟩

/-- Nor does a second one that finds nothing. -/
theorem not_confirmed_second {campaignId : String} (h : ¬Confirmed past) :
    ¬Confirmed (⟨.check campaignId false, .ok []⟩ :: past) := by
  rintro ⟨campaignId', first, second, hfirst, hsecond, hinfix⟩
  rcases List.infix_cons_iff.mp hinfix with hprefix | hinfix
  · have heq := (List.cons_prefix_cons.mp hprefix).1
    cases heq
    exact hsecond rfl
  · exact h ⟨campaignId', first, second, hfirst, hsecond, hinfix⟩

/-- What is not a look changes nothing. -/
theorem unconfirmed_follows {α : Type} {p : EngineAsync α}
    (hp : p.Plain (NoLook) Cancels) (h : Unconfirmed past) :
    p.Follows (fun _ _ => True) (fun _ past' => Unconfirmed past') past :=
  Prog.follows_all hp.all (fun _ _ _ _ => trivial) (fun _ _ _ ho hpast => .cons hpast.none ho) h

end

/-! ## Programs without handlers -/

section

variable {config : EngineConfig} {campaignId : String} {elapsed deadline startedAt : ℚ}
  {R : EngineOp → Prop} {own : RunnerExn → Prop}

theorem dropAgents_plain (hR : ∀ count, R (.agentAvailabilityDrop count))
    (changes : List AvailabilityChange) : (dropAgents elapsed changes).Plain R own := by
  induction changes with
  | nil => trivial
  | cons change rest ih =>
      rw [dropAgents]
      split
      · exact (Prog.plain_perform (hR _)).bind fun _ => ih
      · trivial

theorem applyOption_plain {β : Type} {o : β → EngineOp} (hR : ∀ b, R (o b)) (x : Option β) :
    (applyOption o x).Plain R own := by
  cases x with
  | none => trivial
  | some b => exact (Prog.plain_perform (hR b)).bind fun _ => trivial

theorem changeConditions_plain (hrate : ∀ rate, R (.applyAnswerRate rate))
    (htalk : ∀ seconds, R (.applyTalkTime seconds)) (changes : List ConditionChange) :
    (changeConditions elapsed changes).Plain R own := by
  induction changes with
  | nil => trivial
  | cons change rest ih =>
      rw [changeConditions]
      split
      · exact (applyOption_plain hrate _).bind fun _ => (applyOption_plain htalk _).bind fun _ => ih
      · trivial

theorem each_plain {os : List EngineOp} (hR : ∀ o ∈ os, R o) : (each os).Plain R own := by
  induction os with
  | nil => trivial
  | cons o rest ih =>
      obtain ⟨ho, hrest⟩ := List.forall_mem_cons.mp hR
      exact (Prog.plain_perform ho).bind fun _ => ih hrest

theorem watch_plain (hop : ∀ o : EngineOp, o.duringTimeline = true → R o) (iterations : Nat)
    (changes : List AvailabilityChange) (conditions : List ConditionChange) :
    (watch config campaignId startedAt deadline iterations changes conditions).Plain R
      Cancels := by
  induction iterations generalizing changes conditions with
  | zero => rfl
  | succ iterations ih =>
      refine (Prog.plain_perform (hop _ rfl)).bind fun now => ?_
      split
      · trivial
      refine (Prog.plain_perform (hop _ rfl)).bind fun time => ?_
      refine (dropAgents_plain (fun _ => hop _ rfl) _).bind fun changes => ?_
      refine (changeConditions_plain (fun _ => hop _ rfl) (fun _ => hop _ rfl) _).bind
        fun conditions => ?_
      refine Prog.Plain.bind ((Prog.plain_perform (hop _ rfl)).bind fun found => ?_)
        fun confirmed => ?_
      · split
        · trivial
        · exact Prog.plain_perform (hop _ rfl)
      · split
        · exact (Prog.plain_perform (hop _ rfl)).bind fun _ => ih _ _
        · trivial

theorem work_plain (hop : ∀ o : EngineOp, o.duringTimeline = true → R o)
    (hworker : ∀ number < config.workerCount, R (.startWorker number))
    (hrecovery : R .startRecovery) (iterations : Nat) :
    (work config campaignId iterations).Plain R Cancels := by
  refine (each_plain fun o ho => ?_).bind fun _ => (Prog.plain_perform hrecovery).bind fun _ =>
    (Prog.plain_perform (hop _ rfl)).bind fun _ => (Prog.plain_perform (hop _ rfl)).bind fun _ =>
      watch_plain hop _ _ _
  obtain ⟨number, hnumber, rfl⟩ := List.mem_map.mp ho
  exact hworker number (List.mem_range.mp hnumber)

theorem awaitCalls_plain (hop : ∀ o : EngineOp, o.duringStop = true → R o) (iterations : Nat) :
    (awaitCalls campaignId deadline iterations).Plain R Cancels := by
  induction iterations with
  | zero => rfl
  | succ iterations ih =>
      refine (Prog.plain_perform (hop _ rfl)).bind fun now => ?_
      split
      · exact (Prog.plain_perform (hop _ rfl)).bind fun _ => trivial
      refine (Prog.plain_perform (hop _ rfl)).bind fun active => ?_
      split
      · trivial
      · exact (Prog.plain_perform (hop _ rfl)).bind fun _ => ih

theorem stopAll_plain (hop : ∀ o : EngineOp, o.duringStop = true → R o) (workers iterations : Nat) :
    (stopAll config campaignId workers iterations).Plain R Cancels := by
  refine (each_plain fun o ho => ?_).bind fun _ => (Prog.plain_perform (hop _ rfl)).bind fun _ =>
    ((Prog.plain_perform (hop _ rfl)).bind fun _ => awaitCalls_plain hop _).bind fun _ =>
      each_plain fun o ho => ?_
  · obtain ⟨number, -, rfl⟩ := List.mem_map.mp ho
    exact hop _ rfl
  · exact hop o (by revert o; decide)

end

/-! ## What the report says -/

section

variable {config : EngineConfig} {campaignId : String} {deadline startedAt : ℚ}
  {past : List (Reply engineSig)}

/-- What a look comes to is what has been confirmed. -/
def TellsConfirmed (result : Except RunnerExn (List String)) (past : List (Reply engineSig)) :
    Prop :=
  ∀ violations, result = .ok violations → (violations = [] ↔ ¬Confirmed past)

theorem tellsConfirmed_error {e : RunnerExn} : TellsConfirmed (.error e) past :=
  fun _ h => by cases h

theorem look_confirmed (h : Unconfirmed past) :
    (look campaignId).Follows (fun _ _ => True) TellsConfirmed past := by
  refine Prog.follows_perform_bind trivial (fun _ => tellsConfirmed_error) fun found => ?_
  cases found with
  | nil => exact fun _ hresult => iff_of_true (Except.ok.inj hresult).symm h.look
  | cons violation found =>
      refine Prog.follows_perform trivial fun r => ?_
      rintro violations rfl
      cases violations with
      | nil => exact iff_of_true rfl (not_confirmed_second h.look)
      | cons violation' confirmed =>
          refine iff_of_false (List.cons_ne_nil _ _) fun hnot => hnot ?_
          have hprefix : [(⟨.check campaignId false, .ok (violation' :: confirmed)⟩ :
              Reply engineSig), ⟨.check campaignId false, .ok (violation :: found)⟩]
                <+: ⟨.check campaignId false, .ok (violation' :: confirmed)⟩
                  :: ⟨.check campaignId false, .ok (violation :: found)⟩ :: past :=
            ⟨past, rfl⟩
          exact ⟨campaignId, violation :: found, violation' :: confirmed, List.cons_ne_nil _ _,
            List.cons_ne_nil _ _, hprefix.isInfix⟩

/-- The timeline ends with violations if, and only if, some have been confirmed. -/
theorem watch_confirmed (iterations : Nat) (changes : List AvailabilityChange)
    (conditions : List ConditionChange) (h : ¬Confirmed past) :
    (watch config campaignId startedAt deadline iterations changes conditions).Follows
      (fun _ _ => True) TellsConfirmed past := by
  induction iterations generalizing changes conditions past with
  | zero => exact tellsConfirmed_error
  | succ iterations ih =>
      refine Prog.follows_perform_bind trivial (fun _ => tellsConfirmed_error) fun now => ?_
      split
      · exact fun _ hresult =>
          iff_of_true (Except.ok.inj hresult).symm (Unconfirmed.cons h rfl).none
      refine Prog.follows_perform_bind trivial (fun _ => tellsConfirmed_error) fun time => ?_
      have hbegin : Unconfirmed (⟨.loopTime, .ok time⟩ :: ⟨.loopTime, .ok now⟩ :: past) :=
        .cons (Unconfirmed.cons h rfl).none rfl
      refine Prog.follows_bind ((unconfirmed_follows
        (dropAgents_plain (fun _ => rfl) changes) hbegin).mono fun result past₁ _ h₁ => ?_)
      cases result with
      | error e => exact tellsConfirmed_error
      | ok changes =>
      refine Prog.follows_bind ((unconfirmed_follows
        (changeConditions_plain (fun _ => rfl) (fun _ => rfl) conditions) h₁).mono
          fun result past₂ _ h₂ => ?_)
      cases result with
      | error e => exact tellsConfirmed_error
      | ok conditions =>
      refine Prog.follows_bind ((look_confirmed h₂).mono fun result past₃ _ h₃ => ?_)
      cases result with
      | error e => exact tellsConfirmed_error
      | ok confirmed =>
      cases confirmed with
      | nil =>
          have hnone : ¬Confirmed past₃ := (h₃ [] rfl).mp rfl
          exact Prog.follows_perform_bind trivial (fun _ => tellsConfirmed_error) fun _ =>
            ih _ _ (Unconfirmed.cons hnone rfl).none
      | cons violation confirmed => exact h₃

theorem work_confirmed (iterations : Nat) (h : Unconfirmed past) :
    (work config campaignId iterations).Follows (fun _ _ => True) TellsConfirmed past := by
  have hworkers : (each ((List.range config.workerCount).map .startWorker)).Plain NoLook
      Cancels := by
    refine each_plain fun o ho => ?_
    obtain ⟨number, -, rfl⟩ := List.mem_map.mp ho
    rfl
  refine Prog.follows_bind ((unconfirmed_follows hworkers h).mono fun result past₁ _ h₁ => ?_)
  cases result with
  | error e => exact tellsConfirmed_error
  | ok _ =>
      refine Prog.follows_perform_bind trivial (fun _ => tellsConfirmed_error) fun _ => ?_
      refine Prog.follows_perform_bind trivial (fun _ => tellsConfirmed_error) fun _ => ?_
      refine Prog.follows_perform_bind trivial (fun _ => tellsConfirmed_error) fun _ => ?_
      have h₂ := (Unconfirmed.cons (r := ⟨.startRecovery, .ok ()⟩) h₁.none rfl).none
      exact watch_confirmed _ _ _ (Unconfirmed.cons (Unconfirmed.cons h₂ rfl).none rfl).none

/-- Nothing has failed, nothing was confirmed, and the last look found nothing. -/
structure Clean (past : List (Reply engineSig)) : Prop where
  answered : ∀ r ∈ past, ¬r.Failed
  none : ¬Confirmed past
  last : ∀ campaignId, ∀ found : List String,
    ⟨.check campaignId true, .ok found⟩ ∈ past → found = []

/-- What a report says. -/
def PassesIfClean (result : Except RunnerExn SimulationReport) (past : List (Reply engineSig)) :
    Prop :=
  ∀ report, result = .ok report → (report.passed = true ↔ Clean past)

theorem passesIfClean_error {e : RunnerExn} : PassesIfClean (.error e) past :=
  fun _ h => by cases h

/-- The last look, and the report. -/
theorem conclude_passes {violations : List String} {error : Option String}
    (hlast : ∀ r ∈ past, r.op.looksLast = false)
    (h : violations = [] ∧ error = none ↔ (∀ r ∈ past, ¬r.Failed) ∧ ¬Confirmed past) :
    (conclude campaignId violations error).Follows (fun _ _ => True) PassesIfClean past := by
  refine Prog.follows_perform_bind trivial (fun _ => passesIfClean_error) fun found => ?_
  refine Prog.follows_perform_bind trivial (fun _ => passesIfClean_error) fun _ => ?_
  intro report hreport
  obtain rfl := Except.ok.inj hreport
  have hpassed : ({ violations := violations ++ found, error := error } :
      SimulationReport).passed = true ↔ (violations = [] ∧ error = none) ∧ found = [] := by
    simp only [SimulationReport.passed, Bool.and_eq_true, List.isEmpty_iff,
      List.append_eq_nil_iff, Option.isNone_iff_eq_none]
    exact and_right_comm
  rw [hpassed, h]
  refine ⟨fun ⟨⟨hanswered, hnone⟩, hfound⟩ => ⟨fun r hr => ?_, ?_, fun id found' hmem => ?_⟩,
    fun hclean => ⟨⟨fun r hr => hclean.answered r (by simp [hr]), ?_⟩, ?_⟩⟩
  · rcases List.mem_cons.mp hr with rfl | hr
    · exact not_failed_ok _
    · rcases List.mem_cons.mp hr with rfl | hr
      · exact not_failed_ok _
      · exact hanswered r hr
  · rwa [confirmed_cons rfl, confirmed_cons rfl]
  · rcases List.mem_cons.mp hmem with heq | hmem
    · cases heq
    · rcases List.mem_cons.mp hmem with heq | hmem
      · cases heq
        exact hfound
      · cases hlast _ hmem
  · have hnone := hclean.none
    rwa [confirmed_cons rfl, confirmed_cons rfl] at hnone
  · exact hclean.last campaignId found (by simp)

theorem duringStop_quiet {o : EngineOp} (h : o.duringStop = true) :
    o.looks = false ∧ o.looksLast = false := by
  cases o with
  | check campaignId final => cases h
  | _ => exact ⟨rfl, rfl⟩

/-- Winding up changes nothing about what the report has to say. -/
theorem windUpAfter_passes {seen : Except RunnerExn (List String)} {workers iterations : Nat}
    (hlast : ∀ r ∈ past, r.op.looksLast = false)
    (hok : ∀ violations, seen = .ok violations →
      (∀ r ∈ past, ¬r.Failed) ∧ (violations = [] ↔ ¬Confirmed past))
    (herror : ∀ e, seen = .error e → Cancels e ∨ ∃ r ∈ past, r.Failed) :
    (run.windUpAfter config iterations campaignId workers seen).Follows (fun _ _ => True)
      PassesIfClean past := by
  have hstop : (stopAll config campaignId workers iterations).Plain
      (fun o : EngineOp => o.duringStop = true) Cancels :=
    stopAll_plain (fun _ h => h) workers iterations
  refine Prog.follows_bind (((hstop.follows past).imp fun _ _ _ _ => trivial).mono
    fun result past₁ _ h₁ => ?_)
  obtain ⟨new, rfl, hran⟩ := h₁
  cases result with
  | error e => exact passesIfClean_error
  | ok _ =>
      refine Prog.follows_perform_bind trivial (fun _ => passesIfClean_error) fun _ => ?_
      have hquiet : ∀ r ∈ new, r.op.looks = false ∧ r.op.looksLast = false :=
        fun r hr => duringStop_quiet (hran.ops r hr)
      have hlast' : ∀ r ∈ (⟨.settle campaignId, .ok ()⟩ : Reply engineSig) :: (new ++ past),
          r.op.looksLast = false :=
        List.forall_mem_cons.mpr ⟨rfl, List.forall_mem_append.mpr
          ⟨fun r hr => (hquiet r hr).2, hlast⟩⟩
      have hanswered : (∀ r ∈ (⟨.settle campaignId, .ok ()⟩ : Reply engineSig) :: (new ++ past),
          ¬r.Failed) ↔ ∀ r ∈ past, ¬r.Failed :=
        ⟨fun h r hr => h r (by simp [hr]), fun h => List.forall_mem_cons.mpr
          ⟨not_failed_ok _, List.forall_mem_append.mpr ⟨hran.ok _ rfl, h⟩⟩⟩
      have hconfirmed : Confirmed (⟨.settle campaignId, .ok ()⟩ :: (new ++ past))
          ↔ Confirmed past :=
        (confirmed_cons rfl).trans (confirmed_append fun r hr => (hquiet r hr).1)
      cases seen with
      | ok violations =>
          obtain ⟨hpast, hviolations⟩ := hok violations rfl
          refine conclude_passes hlast' ?_
          rw [hanswered, hconfirmed, ← hviolations]
          exact ⟨fun h => ⟨hpast, h.1⟩, fun h => ⟨h.2, rfl⟩⟩
      | error e =>
          cases e with
          | cancelledError => exact passesIfClean_error
          | exception typeName text =>
              refine conclude_passes hlast' (iff_of_false (fun h => by cases h.2) fun h => ?_)
              obtain ⟨r, hr, hfailed⟩ := (herror _ rfl).resolve_left fun h => by cases h
              exact hanswered.mp h.1 r hr hfailed

theorem duringTimeline_notLast {o : EngineOp} (h : o.duringTimeline = true) :
    o.looksLast = false := by
  cases o with
  | check campaignId final =>
      cases final with
      | false => rfl
      | true => cases h
  | _ => rfl

/--
**What a report says.** Whatever the engine is answered, and by whatever it is interrupted: if it
comes to report, the report passes if, and only if, nothing the engine awaited has failed, no two
looks in a row have found the invariants violated, and the last look found nothing.
-/
theorem passes_iff (config : EngineConfig) (iterations : Nat) :
    (run config iterations).Follows (fun _ _ => True) PassesIfClean [] := by
  refine Prog.follows_perform_bind trivial (fun _ => passesIfClean_error) fun campaignId => ?_
  have hlogIn : logIn.Plain (fun o : EngineOp => o.looks = false ∧ o.looksLast = false) Cancels :=
    (Prog.plain_perform ⟨rfl, rfl⟩).bind fun _ => (Prog.plain_perform ⟨rfl, rfl⟩).bind
      fun _ => trivial
  refine Prog.follows_attempt_bind (((hlogIn.follows _).imp fun _ _ _ _ => trivial).mono
    fun result past₁ _ h₁ => ?_)
  obtain ⟨new, rfl, hran⟩ := h₁
  have hseed : Unconfirmed [(⟨.seed config, .ok campaignId⟩ : Reply engineSig)] :=
    .cons (fun ⟨_, _, _, _, _, h⟩ => by simp at h) rfl
  have hlast : ∀ r ∈ new ++ [(⟨.seed config, .ok campaignId⟩ : Reply engineSig)],
      r.op.looksLast = false :=
    List.forall_mem_append.mpr ⟨fun r hr => (hran.ops r hr).2, by simp [EngineOp.looksLast]⟩
  cases result with
  | error e =>
      refine windUpAfter_passes hlast (fun _ h => by cases h) fun e' he => ?_
      obtain rfl := Except.error.inj he
      exact (hran.error e rfl).imp id fun ⟨r, hr, hfailed⟩ =>
        ⟨r, List.mem_append_left _ hr, hfailed⟩
  | ok _ =>
      have hwork : (work config campaignId iterations).Plain
          (fun o : EngineOp => o.looksLast = false) Cancels := work_plain
            (fun _ h => duringTimeline_notLast h) (fun _ _ => rfl) rfl iterations
      have hbegin := hseed.append fun r hr => (hran.ops r hr).1
      have hanswered : ∀ r ∈ new ++ [(⟨.seed config, .ok campaignId⟩ : Reply engineSig)],
          ¬r.Failed := List.forall_mem_append.mpr ⟨hran.ok _ rfl, fun r hr => by
        obtain rfl := List.mem_singleton.mp hr
        exact not_failed_ok _⟩
      refine Prog.follows_attempt_bind ((((hwork.follows _).and (work_confirmed iterations
        hbegin)).imp fun _ _ _ _ => trivial).mono fun result past₂ _ h₂ => ?_)
      obtain ⟨⟨new', rfl, hran'⟩, htells⟩ := h₂
      refine windUpAfter_passes (List.forall_mem_append.mpr ⟨hran'.ops, hlast⟩)
        (fun violations hresult => ⟨?_, htells violations hresult⟩) fun e he => ?_
      · exact List.forall_mem_append.mpr ⟨hran'.ok _ hresult, hanswered⟩
      · exact (hran'.error e he).imp id fun ⟨r, hr, hfailed⟩ =>
          ⟨r, List.mem_append_left _ hr, hfailed⟩

end

/-! ## Nothing runs when it is over -/

/-- Who stops what the operation starts. -/
def stoppedBy : EngineOp → Option EngineOp
  | .startHeartbeats => some .stopSimulator
  | .startWorker number => some (.stopWorker number)
  | .startRecovery => some .stopRecovery
  | _ => none

/-- Whatever was started has been stopped since, and so have the campaign and the providers. -/
structure AllStopped (past : List (Reply engineSig)) : Prop where
  started : ∀ newer r older o, past = newer ++ r :: older → stoppedBy r.op = some o →
    ∃ s ∈ newer, s.op = o ∧ ¬s.Failed
  campaign : ∃ campaignId, ∃ s ∈ past, s.op = .stopCampaign campaignId ∧ ¬s.Failed
  providers : ∃ s ∈ past, s.op = .shutdownProviders ∧ ¬s.Failed

/-- What is settled, and looked at last, is at rest; and it is settled before it is looked at. -/
def AtRest (past : List (Reply engineSig)) (o : EngineOp) : Prop :=
  (∀ campaignId, o = .settle campaignId → AllStopped past)
    ∧ (o.looksLast = true → AllStopped past
      ∧ ∃ campaignId, ∃ s ∈ past, s.op = .settle campaignId ∧ ¬s.Failed)

/-- What is awaited before all that, and is stopped by one of `os` if it starts anything. -/
structure Before (os : List EngineOp) (o : EngineOp) : Prop where
  settle : ∀ campaignId, o ≠ .settle campaignId
  last : o.looksLast = false
  stopped : ∀ o', stoppedBy o = some o' → o' ∈ os

section

variable {config : EngineConfig} {campaignId : String} {past new : List (Reply engineSig)}
  {os : List EngineOp} {o : EngineOp} {r : Reply engineSig}

theorem Before.atRest (h : Before os o) (past : List (Reply engineSig)) : AtRest past o :=
  ⟨fun id heq => (h.settle id heq).elim, fun hlast => by simp [h.last] at hlast⟩

/-- Something that starts nothing. -/
theorem AllStopped.cons (h : AllStopped past) (hr : stoppedBy r.op = none) :
    AllStopped (r :: past) where
  started newer r' older o heq ho := by
    cases newer with
    | nil =>
        obtain ⟨rfl, -⟩ := List.cons.inj heq
        cases hr.symm.trans ho
    | cons x newer =>
        obtain ⟨rfl, rfl⟩ := List.cons.inj heq
        obtain ⟨s, hs, hop⟩ := h.started newer r' older o rfl ho
        exact ⟨s, List.mem_cons_of_mem _ hs, hop⟩
  campaign := by
    obtain ⟨id, s, hs, hop⟩ := h.campaign
    exact ⟨id, s, List.mem_cons_of_mem _ hs, hop⟩
  providers := by
    obtain ⟨s, hs, hop⟩ := h.providers
    exact ⟨s, List.mem_cons_of_mem _ hs, hop⟩

/-- All that stops what was started has been done since. -/
theorem AllStopped.of_stopped (campaignId : String)
    (hpast : ∀ r ∈ past, ∀ o, stoppedBy r.op = some o → o ∈ os)
    (hnew : ∀ r ∈ new, stoppedBy r.op = none)
    (hdone : ∀ o ∈ .stopCampaign campaignId :: .shutdownProviders :: os,
      ∃ s ∈ new, s.op = o ∧ ¬s.Failed) : AllStopped (new ++ past) where
  started newer r older o heq ho := by
    rcases List.append_eq_append_iff.mp heq with ⟨between, rfl, hpast'⟩ | ⟨between, rfl, hcons⟩
    · have hmem : r ∈ past := by simp [hpast']
      obtain ⟨s, hs, hop⟩ := hdone o (by simp [hpast r hmem o ho])
      exact ⟨s, List.mem_append_left _ hs, hop⟩
    · cases between with
      | nil =>
          have hmem : r ∈ past := by
            rw [← List.nil_append past, ← hcons]
            exact List.mem_cons_self
          obtain ⟨s, hs, hop⟩ := hdone o (by simp [hpast r hmem o ho])
          exact ⟨s, by simpa using hs, hop⟩
      | cons x between =>
          obtain ⟨rfl, -⟩ := List.cons.inj hcons
          cases (hnew r (by simp)).symm.trans ho
  campaign := by
    obtain ⟨s, hs, hop⟩ := hdone (.stopCampaign campaignId) (by simp)
    exact ⟨campaignId, s, List.mem_append_left _ hs, hop⟩
  providers := by
    obtain ⟨s, hs, hop⟩ := hdone .shutdownProviders (by simp)
    exact ⟨s, List.mem_append_left _ hs, hop⟩

/-- The operations that stop something. -/
def stops (workers : Nat) : List EngineOp :=
  (List.range workers).map .stopWorker ++ [.stopRecovery, .stopSimulator]

theorem each_does {o : EngineOp} (ho : o ∈ os) : (each os).Does o := by
  induction os with
  | nil => cases ho
  | cons o' rest ih =>
      rcases List.mem_cons.mp ho with rfl | ho
      · exact (Prog.does_perform _).bind _
      · exact Prog.Does.after fun _ => ih ho

/-- The `finally` stops everything. -/
theorem stopAll_does {workers : Nat} (iterations : Nat)
    (ho : o ∈ .stopCampaign campaignId :: .shutdownProviders :: stops workers) :
    (stopAll config campaignId workers iterations).Does o := by
  have hrest : ∀ o ∈ [EngineOp.stopRecovery, .stopSimulator, .shutdownProviders],
      (stopAll config campaignId workers iterations).Does o := fun o ho =>
    Prog.Does.after fun _ => Prog.Does.after fun _ => Prog.Does.after fun _ => each_does ho
  rcases List.mem_cons.mp ho with rfl | ho
  · exact Prog.Does.after fun _ => (Prog.does_perform _).bind _
  rcases List.mem_cons.mp ho with rfl | ho
  · exact hrest _ (by simp)
  rcases List.mem_append.mp ho with ho | ho
  · exact (each_does ho).bind _
  · exact hrest o (by
      rcases List.mem_cons.mp ho with rfl | ho
      · simp
      · simp [List.mem_singleton.mp ho])

theorem duringStop_before (os : List EngineOp) {o : EngineOp} (h : o.duringStop = true) :
    Before os o ∧ stoppedBy o = none := by
  cases o with
  | check campaignId final => cases h
  | settle campaignId => cases h
  | startHeartbeats => cases h
  | startWorker number => cases h
  | startRecovery => cases h
  | _ => exact ⟨⟨fun _ h => (by cases h), rfl, fun _ h => (by cases h)⟩, rfl⟩

theorem conclude_atRest {violations : List String} {error : Option String}
    (hpast : AllStopped past)
    (hsettled : ∃ campaignId, ∃ s ∈ past, s.op = .settle campaignId ∧ ¬s.Failed) :
    (conclude campaignId violations error).Follows AtRest (fun _ _ => True) past :=
  Prog.follows_perform_bind ⟨fun _ h => (by cases h), fun _ => ⟨hpast, hsettled⟩⟩
    (fun _ => trivial) fun _ => Prog.follows_perform_bind
      ⟨fun _ h => (by cases h), fun h => by cases h⟩ (fun _ => trivial) fun _ => trivial

theorem windUpAfter_atRest {seen : Except RunnerExn (List String)} {workers iterations : Nat}
    (hpast : ∀ r ∈ past, ∀ o, stoppedBy r.op = some o → o ∈ stops workers) :
    (run.windUpAfter config iterations campaignId workers seen).Follows AtRest (fun _ _ => True)
      past := by
  have hstop : (stopAll config campaignId workers iterations).Plain
      (fun o : EngineOp => o.duringStop = true) Cancels :=
    stopAll_plain (fun _ h => h) workers iterations
  refine Prog.follows_bind (((hstop.follows past).imp fun past' o _ h =>
    (duringStop_before [] h).1.atRest past').mono fun result past₁ _ h₁ => ?_)
  obtain ⟨new, rfl, hran⟩ := h₁
  cases result with
  | error e => trivial
  | ok _ =>
      have hstopped : AllStopped (new ++ past) := by
        refine .of_stopped campaignId hpast
          (fun r hr => (duringStop_before [] (hran.ops r hr)).2) fun o ho => ?_
        obtain ⟨s, hs, hop⟩ := hran.done o (stopAll_does iterations ho) _ rfl
        exact ⟨s, hs, hop, hran.ok _ rfl s hs⟩
      refine Prog.follows_perform_bind ⟨fun _ _ => hstopped, fun h => by cases h⟩
        (fun _ => trivial) fun _ => ?_
      have hstopped' : AllStopped (⟨.settle campaignId, .ok ()⟩ :: (new ++ past)) :=
        hstopped.cons rfl
      have hsettled : ∃ campaignId', ∃ s ∈ (⟨.settle campaignId, .ok ()⟩ : Reply engineSig)
          :: (new ++ past), s.op = .settle campaignId' ∧ ¬s.Failed :=
        ⟨campaignId, _, List.mem_cons_self, rfl, not_failed_ok _⟩
      cases seen with
      | ok violations => exact conclude_atRest hstopped' hsettled
      | error e =>
          cases e with
          | cancelledError => trivial
          | exception typeName text => exact conclude_atRest hstopped' hsettled

theorem duringTimeline_before {o : EngineOp} (h : o.duringTimeline = true) : Before os o := by
  refine ⟨fun id heq => ?_, duringTimeline_notLast h, fun o' ho => ?_⟩
  · rw [heq] at h
    cases h
  · cases o with
    | startHeartbeats => cases h
    | startWorker number => cases h
    | startRecovery => cases h
    | _ => cases ho

/--
**Nothing runs when it is over.** Whatever the engine is answered: when it settles what is left,
and when it looks for the last time, all that it has started by then has been stopped since, and
so have the campaign and the providers.
-/
theorem all_stopped_at_last (config : EngineConfig) (iterations : Nat) :
    (run config iterations).Follows AtRest (fun _ _ => True) [] := by
  refine Prog.follows_perform_bind ⟨fun _ h => (by cases h), fun h => by cases h⟩
    (fun _ => trivial) fun campaignId => ?_
  have hlogIn : logIn.Plain (Before [.stopSimulator]) Cancels :=
    (Prog.plain_perform ⟨fun _ h => (by cases h), rfl, fun _ h => by cases h⟩).bind fun _ =>
      (Prog.plain_perform ⟨fun _ h => (by cases h), rfl, fun _ h => by cases h; simp⟩).bind
        fun _ => trivial
  have hseed : ∀ os : List EngineOp, ∀ r ∈ [(⟨.seed config, .ok campaignId⟩ : Reply engineSig)],
      ∀ o, stoppedBy r.op = some o → o ∈ os := by
    intro os r hr o ho
    obtain rfl := List.mem_singleton.mp hr
    cases ho
  refine Prog.follows_attempt_bind (((hlogIn.follows _).imp fun past' _ _ h =>
    h.atRest past').mono fun result past₁ _ h₁ => ?_)
  obtain ⟨new, rfl, hran⟩ := h₁
  have hopened : ∀ workers, ∀ r ∈ new ++ [(⟨.seed config, .ok campaignId⟩ : Reply engineSig)],
      ∀ o, stoppedBy r.op = some o → o ∈ stops workers := fun workers =>
    List.forall_mem_append.mpr ⟨fun r hr o ho => by
      have hmem := (hran.ops r hr).stopped o ho
      simp [stops, List.mem_singleton.mp hmem], hseed _⟩
  cases result with
  | error e => exact windUpAfter_atRest (hopened 0)
  | ok _ =>
      have hwork : (work config campaignId iterations).Plain (Before (stops config.workerCount))
          Cancels := by
        refine work_plain (fun _ h => duringTimeline_before h) (fun number hnumber => ?_) ?_ _
        · refine ⟨fun _ h => (by cases h), rfl, fun o ho => ?_⟩
          obtain rfl := Option.some.inj ho
          simp [stops, hnumber]
        · refine ⟨fun _ h => (by cases h), rfl, fun o ho => ?_⟩
          obtain rfl := Option.some.inj ho
          simp [stops]
      refine Prog.follows_attempt_bind (((hwork.follows _).imp fun past' _ _ h =>
        h.atRest past').mono fun result past₂ _ h₂ => ?_)
      obtain ⟨new', rfl, hran'⟩ := h₂
      exact windUpAfter_atRest (List.forall_mem_append.mpr
        ⟨fun r hr o ho => (hran'.ops r hr).stopped o ho, hopened _⟩)

end

end SimulationEngine

end SmartDialer
