import SmartDialer.Simulation.Engine

/-!
# What a simulation has scheduled

A simulation may have agents leave at given times. The loop of `_run_timeline` comes round ten
times a second at best, and each round it awaits a look at the invariants and whatever changes
there are to be made. So a change is late, as a rule.

`changes_on_schedule` has the changes made in the order of their times, each of them at most once
and none too early, and the invariants are never looked at while one is due. A run that ends early
makes no further changes.
-/

namespace SmartDialer.SimulationEngine

open Store Conc

/-- A reading of the clock. -/
def reading : Reply engineSig → Option ℚ
  | ⟨.loopTime, .ok time⟩ => some time
  | _ => none

/-- How many agents are to leave. -/
def drop : EngineOp → Option Nat
  | .agentAvailabilityDrop count => some count
  | _ => none

/-- All readings of the clock, the latest first. -/
def readings (past : List (Reply engineSig)) : List ℚ := past.filterMap reading

/-- All changes of availability, in order. -/
def drops (past : List (Reply engineSig)) : List Nat :=
  (past.filterMap fun r => drop r.op).reverse

/-- The simulated time; the timeline takes two readings when it begins, and starts at the second. -/
def Elapsed (config : EngineConfig) (past : List (Reply engineSig)) (elapsed : ℚ) : Prop :=
  ∃ time between startedAt first, readings past = time :: between ++ [startedAt, first]
    ∧ elapsed = (time - startedAt) * config.timeScale

/-- All changes have been made, in order, but `pending` ones. -/
def Pending (config : EngineConfig) (pending : List AvailabilityChange)
    (past : List (Reply engineSig)) : Prop :=
  ∃ made, Collection.sortOn AvailabilityChange.atSecond config.availabilitySchedule
      = made ++ pending
    ∧ drops past = made.map AvailabilityChange.agentsOffline

/-- The changes are made when they are due, and nobody looks before. -/
def OnSchedule (config : EngineConfig) (past : List (Reply engineSig)) (o : EngineOp) : Prop :=
  (∀ count, o = .agentAvailabilityDrop count → ∃ change pending elapsed,
    Pending config (change :: pending) past ∧ change.agentsOffline = count
      ∧ Elapsed config past elapsed ∧ change.atSecond ≤ elapsed)
  ∧ (o.looks = true → ∃ pending elapsed, Pending config pending past
      ∧ Elapsed config past elapsed ∧ ∀ change ∈ pending, elapsed < change.atSecond)

/-- It neither reads the clock, nor changes availability, nor looks at the invariants. -/
structure Neutral (o : EngineOp) : Prop where
  time : o ≠ .loopTime
  drop : drop o = none
  looks : o.looks = false

section

variable {config : EngineConfig} {campaignId : String} {elapsed startedAt deadline : ℚ}
  {pending : List AvailabilityChange} {past new : List (Reply engineSig)} {o : EngineOp}
  {r : Reply engineSig}

theorem onSchedule_of_idle (hdrop : drop o = none) (hlooks : o.looks = false)
    (past : List (Reply engineSig)) : OnSchedule config past o := by
  refine ⟨?_, fun h => by simp [hlooks] at h⟩
  rintro count rfl
  cases hdrop

theorem Neutral.reading (h : Neutral r.op) : reading r = none := by
  obtain ⟨o, answer⟩ := r
  cases o with
  | loopTime => exact (h.time rfl).elim
  | _ => rfl

theorem readings_append (h : ∀ r ∈ new, Neutral r.op) : readings (new ++ past) = readings past := by
  rw [readings, List.filterMap_append, List.filterMap_eq_nil_iff.mpr fun r hr => (h r hr).reading]
  rfl

theorem drops_append (h : ∀ r ∈ new, Neutral r.op) : drops (new ++ past) = drops past := by
  rw [drops, List.filterMap_append, List.filterMap_eq_nil_iff.mpr fun r hr => (h r hr).drop]
  rfl

theorem drops_cons (past : List (Reply engineSig)) :
    drops (r :: past) = drops past ++ (drop r.op).toList := by
  rw [drops, drops, List.filterMap_cons]
  cases drop r.op with
  | none => simp
  | some count => simp

theorem Elapsed.congr {past' : List (Reply engineSig)} (h : Elapsed config past elapsed)
    (heq : readings past' = readings past) : Elapsed config past' elapsed := by
  obtain ⟨time, between, startedAt, first, hreadings, helapsed⟩ := h
  exact ⟨time, between, startedAt, first, heq.trans hreadings, helapsed⟩

theorem Pending.congr {past' : List (Reply engineSig)} (h : Pending config pending past)
    (heq : drops past' = drops past) : Pending config pending past' := by
  obtain ⟨made, hmade, hdrops⟩ := h
  exact ⟨made, hmade, heq.trans hdrops⟩

/-- What is pending is in order. -/
theorem Pending.sorted (h : Pending config pending past) :
    pending.Pairwise fun a b => a.atSecond ≤ b.atSecond := by
  obtain ⟨made, hmade, -⟩ := h
  have hsorted : (Collection.sortOn AvailabilityChange.atSecond
      config.availabilitySchedule).Pairwise fun a b => a.atSecond ≤ b.atSecond :=
    List.pairwise_insertionSort _ _
  exact (List.pairwise_append.mp (hmade ▸ hsorted)).2.1

/-! ## One iteration -/

/-- All that is due is done, and nothing else is. -/
theorem dropAgents_onSchedule (h : Pending config pending past)
    (helapsed : Elapsed config past elapsed) :
    (dropAgents elapsed pending).Follows (OnSchedule config)
      (fun result past' => ∀ rest, result = .ok rest → Pending config rest past'
        ∧ readings past' = readings past ∧ ∀ change ∈ rest, elapsed < change.atSecond) past := by
  induction pending generalizing past with
  | nil =>
      intro rest hresult
      obtain rfl := Except.ok.inj hresult
      exact ⟨h, rfl, by simp⟩
  | cons change pending ih =>
      rw [dropAgents]
      split
      · rename_i hdue
        refine Prog.follows_perform_bind ⟨?_, fun h => by cases h⟩ (fun _ _ h => by cases h)
          fun removed => ?_
        · rintro count heq
          exact ⟨change, pending, elapsed, h, EngineOp.agentAvailabilityDrop.inj heq, helapsed,
            hdue⟩
        · obtain ⟨made, hmade, hdrops⟩ := h
          have hpending : Pending config pending
              (⟨.agentAvailabilityDrop change.agentsOffline, .ok removed⟩ :: past) :=
            ⟨made ++ [change], by simp [hmade], by simp [drops_cons, hdrops, drop]⟩
          exact ih hpending helapsed
      · rename_i hearly
        intro rest hresult
        obtain rfl := Except.ok.inj hresult
        refine ⟨h, rfl, fun change' hchange' => ?_⟩
        rcases List.mem_cons.mp hchange' with rfl | hchange'
        · exact not_le.mp hearly
        · exact lt_of_lt_of_le (not_le.mp hearly)
            ((List.pairwise_cons.mp h.sorted).1 change' hchange')

/-- A program that leaves the schedule alone. -/
theorem neutral_follows {α : Type} {p : EngineAsync α}
    (hp : p.Plain Neutral Cancels) :
    p.Follows (OnSchedule config)
      (fun _ past' => drops past' = drops past ∧ readings past' = readings past) past := by
  refine ((hp.follows past).imp fun past' o _ h => onSchedule_of_idle h.drop h.looks past').mono
    fun result past' _ h => ?_
  obtain ⟨new, rfl, hran⟩ := h
  exact ⟨drops_append hran.ops, readings_append hran.ops⟩

/-- Looking while nothing is due. -/
theorem look_onSchedule (h : Pending config pending past) (helapsed : Elapsed config past elapsed)
    (hnone : ∀ change ∈ pending, elapsed < change.atSecond) :
    (look campaignId).Follows (OnSchedule config)
      (fun _ past' => drops past' = drops past ∧ readings past' = readings past) past := by
  refine Prog.follows_perform_bind ⟨fun _ h => (by cases h), fun _ => ⟨pending, elapsed, h,
    helapsed, hnone⟩⟩ (fun _ => ⟨?_, rfl⟩) fun found => ?_
  · simp [drops_cons, drop]
  have hdrops : ∀ r : Except RunnerExn (List String),
      drops (⟨.check campaignId false, r⟩ :: past) = drops past := fun r => by
    simp [drops_cons, drop]
  split
  · exact ⟨hdrops _, rfl⟩
  · refine Prog.follows_perform ⟨fun _ h => (by cases h), fun _ => ⟨pending, elapsed,
      h.congr (hdrops _), helapsed.congr rfl, hnone⟩⟩ fun r => ⟨?_, rfl⟩
    simp [drops_cons, drop]

/-! ## The run -/

/-- The timeline was started at `startedAt`. -/
def StartedAt (startedAt : ℚ) (past : List (Reply engineSig)) : Prop :=
  ∃ between first, readings past = between ++ [startedAt, first]

theorem watch_onSchedule (iterations : Nat) (conditions : List ConditionChange)
    (h : Pending config pending past) (hstarted : StartedAt startedAt past) :
    (watch config campaignId startedAt deadline iterations pending conditions).Follows
      (OnSchedule config) (fun _ _ => True) past := by
  induction iterations generalizing pending conditions past with
  | zero => trivial
  | succ iterations ih =>
      obtain ⟨between, first, hreadings⟩ := hstarted
      have hidle : ∀ past, OnSchedule config past .loopTime := onSchedule_of_idle rfl rfl
      refine Prog.follows_perform_bind (hidle _) (fun _ => trivial) fun now => ?_
      split
      · trivial
      refine Prog.follows_perform_bind (hidle _) (fun _ => trivial) fun time => ?_
      have hpending : Pending config pending
          (⟨.loopTime, .ok time⟩ :: ⟨.loopTime, .ok now⟩ :: past) :=
        h.congr (by simp [drops_cons, drop])
      have htimes : readings (⟨.loopTime, .ok time⟩ :: ⟨.loopTime, .ok now⟩ :: past)
          = time :: now :: between ++ [startedAt, first] :=
        congrArg (fun times => time :: now :: times) hreadings
      have helapsed : Elapsed config (⟨.loopTime, .ok time⟩ :: ⟨.loopTime, .ok now⟩ :: past)
          ((time - startedAt) * config.timeScale) :=
        ⟨time, now :: between, startedAt, first, htimes, rfl⟩
      refine Prog.follows_bind ((dropAgents_onSchedule hpending helapsed).mono
        fun result past₁ _ h₁ => ?_)
      cases result with
      | error e => trivial
      | ok rest =>
      obtain ⟨hrest, htimes₁, hnone⟩ := h₁ rest rfl
      have hconditions : (changeConditions ((time - startedAt) * config.timeScale)
          conditions).Plain Neutral Cancels :=
        changeConditions_plain (fun _ => ⟨by simp, rfl, rfl⟩) (fun _ => ⟨by simp, rfl, rfl⟩) _
      refine Prog.follows_bind ((neutral_follows hconditions).mono fun result past₂ _ h₂ => ?_)
      cases result with
      | error e => trivial
      | ok conditions =>
      refine Prog.follows_bind ((look_onSchedule (hrest.congr h₂.1)
        (helapsed.congr (h₂.2.trans htimes₁)) hnone).mono fun result past₃ _ h₃ => ?_)
      cases result with
      | error e => trivial
      | ok confirmed =>
      cases confirmed with
      | nil =>
          refine Prog.follows_perform_bind (onSchedule_of_idle rfl rfl _) (fun _ => trivial)
            fun _ => ih _ (hrest.congr ?_) ⟨time :: now :: between, first, ?_⟩
          · simp [drops_cons, drop, h₃.1, h₂.1]
          · exact (h₃.2.trans (h₂.2.trans htimes₁)).trans htimes
      | cons violation confirmed => trivial

theorem work_onSchedule (iterations : Nat) (hdrops : drops past = [])
    (hreadings : readings past = []) :
    (work config campaignId iterations).Follows (OnSchedule config) (fun _ _ => True) past := by
  have hworkers : (each ((List.range config.workerCount).map .startWorker)).Plain Neutral
      Cancels := by
    refine each_plain fun o ho => ?_
    obtain ⟨number, -, rfl⟩ := List.mem_map.mp ho
    exact ⟨by simp, rfl, rfl⟩
  refine Prog.follows_bind ((neutral_follows hworkers).mono fun result past₁ _ h₁ => ?_)
  cases result with
  | error e => trivial
  | ok _ =>
      refine Prog.follows_perform_bind (onSchedule_of_idle rfl rfl _) (fun _ => trivial) fun _ => ?_
      refine Prog.follows_perform_bind (onSchedule_of_idle rfl rfl _) (fun _ => trivial)
        fun now => ?_
      refine Prog.follows_perform_bind (onSchedule_of_idle rfl rfl _) (fun _ => trivial)
        fun startedAt => ?_
      refine watch_onSchedule _ _ ⟨[], rfl, ?_⟩ ⟨[], now, ?_⟩
      · simp [drops_cons, drop, h₁.1, hdrops]
      · exact congrArg (fun times => startedAt :: now :: times) (h₁.2.trans hreadings)

theorem windUpAfter_onSchedule (seen : Except RunnerExn (List String)) (workers iterations : Nat) :
    (run.windUpAfter config iterations campaignId workers seen).Follows (OnSchedule config)
      (fun _ _ => True) past := by
  have hidle : ∀ o : EngineOp, o.duringStop = true → ∀ past, OnSchedule config past o := by
    intro o ho
    refine onSchedule_of_idle ?_ (duringStop_quiet ho).1
    cases o with
    | agentAvailabilityDrop count => cases ho
    | _ => rfl
  have hconclude : ∀ violations error, (conclude campaignId violations error).All fun o =>
      ∀ past, OnSchedule config past o := fun _ _ =>
    Prog.all_bind (Prog.all_perform (onSchedule_of_idle rfl rfl)) fun _ =>
      Prog.all_bind (Prog.all_perform (onSchedule_of_idle rfl rfl)) fun _ => trivial
  refine Prog.follows_free (Prog.all_bind (stopAll_plain hidle _ _).all fun _ =>
    Prog.all_bind (Prog.all_perform (onSchedule_of_idle rfl rfl)) fun _ => ?_)
  cases seen with
  | ok violations => exact hconclude _ _
  | error e =>
      cases e with
      | cancelledError => trivial
      | exception typeName text => exact hconclude _ _

/--
**The schedule is kept.** Whatever the engine is answered: agents leave in the order of the
schedule, each change is made at most once and not before its time by the clock of the simulation,
and whenever the invariants are looked at, all changes that were due by the last reading of the
clock have been made.
-/
theorem changes_on_schedule (config : EngineConfig) (iterations : Nat) :
    (run config iterations).Follows (OnSchedule config) (fun _ _ => True) [] := by
  refine Prog.follows_perform_bind (onSchedule_of_idle rfl rfl _) (fun _ => trivial)
    fun campaignId => ?_
  have hlogIn : logIn.Plain Neutral Cancels :=
    (Prog.plain_perform ⟨by simp, rfl, rfl⟩).bind fun _ =>
      (Prog.plain_perform ⟨by simp, rfl, rfl⟩).bind fun _ => trivial
  refine Prog.follows_attempt_bind ((neutral_follows hlogIn).mono fun result past₁ _ h₁ => ?_)
  cases result with
  | error e => exact windUpAfter_onSchedule _ _ _
  | ok _ =>
      refine Prog.follows_attempt_bind ((work_onSchedule iterations h₁.1 h₁.2).mono
        fun _ _ _ _ => windUpAfter_onSchedule _ _ _)

end

end SmartDialer.SimulationEngine
