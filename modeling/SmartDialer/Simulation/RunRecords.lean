import SmartDialer.Conc.Retrospect
import SmartDialer.Simulation.Runner
import SmartDialer.Store.UpdateMany

/-!
# What the records of simulation runs say

A simulation leaves a record: RUNNING while it runs, and then COMPLETED or FAILED. Others write to
it too. When the server starts again it marks all RUNNING records as interrupted (`reconcile`), and
it cannot know whether a server that is still up has a simulation under way; and a request that
fails, or is cancelled, may leave its record behind.

`records_told` says what a record tells of the run that is past, whatever has happened: it is
RUNNING exactly as long as nothing has ended it, and if its request has finished it, it says what
the engine of that request came to.
-/

namespace SmartDialer

open Store Conc

/-! ## Restarts -/

namespace SimulationRunRepository

/-- `INTERRUPTED_ERROR`. -/
def interruptedError : String := "interrupted_by_restart"

/-- The update of `mark_interrupted_runs`. -/
def interrupted (now : Time) : Update SimulationRun where
  apply run :=
    { run with status := .failed, error := some interruptedError, finishedAt := some now }
  key_apply _ := rfl

/-- `mark_interrupted_runs`: those that are RUNNING, and how many they were. -/
def markInterruptedRuns (now : Time) (runs : Collection SimulationRun) :
    Nat × Collection SimulationRun :=
  (runs.count fun run => run.status == .running,
    runs.updateMany (fun run => run.status == .running) (interrupted now))

end SimulationRunRepository

/-- What the server awaits beyond the requests. -/
inductive ServerOp where
  | markInterruptedRuns
  deriving DecidableEq

/-- What it answers. -/
@[reducible] def ServerAns : ServerOp → Type
  | .markInterruptedRuns => Nat

/-- The operations of the requests, and this one. -/
@[reducible] def serverSig : Sig := runnerSig.more ServerOp ServerAns

/-- Whether the operation had its effect. -/
def RunnerFault.performed : RunnerFault → Bool
  | .none => true
  | .failed _ performed => performed

namespace SimulationServer

/-- Process `i` performs an operation. -/
def exec (i : Nat) (o : RunnerOp ⊕ ServerOp) (c : RunnerChoice) (s : RunnerState) :
    Except RunnerExn (serverSig.Ans o) × RunnerState :=
  match o with
  | .inl o => runnerExec i o c s
  | .inr .markInterruptedRuns =>
      let (marked, runs) := SimulationRunRepository.markInterruptedRuns c.now s.runs
      match c.fault with
      | .none => (.ok marked, { s with runs := runs })
      | .failed e performed => (.error e, if performed then { s with runs := runs } else s)

end SimulationServer

/-- `reconcile`. -/
def SimulationRunner.reconcile : Prog serverSig Nat :=
  Prog.perform (S := serverSig) (.inr .markInterruptedRuns)

/-- What runs in a server: the reconciliation when it starts, and requests. -/
inductive ServerTask where
  | simulate (config : SimulationConfig)
  | reconcile

/-- The program of a task. -/
def ServerTask.program : ServerTask → Prog serverSig Unit
  | .simulate config => config.program.lift
  | .reconcile => do
      let _ ← SimulationRunner.reconcile
      pure ()

/-- Servers over one collection of simulation runs. -/
@[reducible] def simulationServer : System serverSig where
  St := RunnerState
  Choice := RunnerChoice
  Task := ServerTask
  Ret := Unit
  exec := SimulationServer.exec
  crash := runnerCrash
  killed := .cancelledError
  prog := ServerTask.program

/-! ## What a request knows when it finishes its record -/

/-- How a run has ended, as its record has it. -/
structure Verdict where
  status : SimulationRunStatus
  error : Option String
  report : Option SimulationReport

/-- The verdict of `_execute` on what the engine has come to. -/
def verdictOn : Except RunnerExn SimulationReport → Verdict
  | .ok report => ⟨if report.passed then .completed else .failed, report.error, some report⟩
  | .error .cancelledError => ⟨.failed, some "cancelled", none⟩
  | .error (.exception typeName text) => ⟨.failed, some (typeName ++ ": " ++ text), none⟩

theorem verdict_not_running (outcome : Except RunnerExn SimulationReport) :
    (verdictOn outcome).status ≠ .running := by
  cases outcome with
  | ok report =>
      rw [verdictOn]
      split
      · simp
      · simp
  | error e => cases e <;> simp [verdictOn]

/-- A record is finished once, by the request that created it, with what its engine came to. -/
def FinishesOwn (past : List (Reply serverSig)) (o : RunnerOp ⊕ ServerOp) : Prop :=
  ∀ runId status error report, o = .inl (.finish runId status error report) →
    ∃ (config : SimulationConfig) (outcome : Except RunnerExn SimulationReport)
      (record : SimulationRun) (found : Except RunnerExn (Option SimulationRun)),
      past = [⟨.inl (.runEngine config), outcome⟩, ⟨.inl (.create config), .ok record⟩,
          ⟨.inl .findRunning, found⟩]
        ∧ record.id = runId ∧ ⟨status, error, report⟩ = verdictOn outcome

theorem finishesOwn_of_ne {past : List (Reply serverSig)} {o : RunnerOp ⊕ ServerOp}
    (h : ∀ runId status error report, o ≠ .inl (.finish runId status error report)) :
    FinishesOwn past o :=
  fun runId status error report heq => (h runId status error report heq).elim

theorem execute_follows {config : SimulationConfig} {record : SimulationRun}
    {found : Except RunnerExn (Option SimulationRun)} :
    (SimulationRunner.execute record.id config).Follows
      (fun new o => FinishesOwn (new.map Reply.lift ++ []) (.inl o)) (fun _ _ => True)
      [⟨.create config, .ok record⟩, ⟨.findRunning, found⟩] := by
  -- finished with what the engine came to, and then there is nothing left to do
  have hfinish : ∀ (outcome : Except RunnerExn SimulationReport) (status : SimulationRunStatus)
      (error : Option String) (report : Option SimulationReport),
      ⟨status, error, report⟩ = verdictOn outcome →
      FinishesOwn (([⟨.runEngine config, outcome⟩, ⟨.create config, .ok record⟩,
        ⟨.findRunning, found⟩] : List (Reply runnerSig)).map Reply.lift ++ [])
        (.inl (.finish record.id status error report)) := by
    rintro outcome status error report hverdict _ _ _ _ heq
    obtain ⟨rfl, rfl, rfl, rfl⟩ := RunnerOp.finish.inj (Sum.inl.inj heq)
    exact ⟨config, outcome, record, found, rfl, rfl, hverdict⟩
  refine Prog.follows_bind (Prog.follows_tryCatch (Prog.follows_bind
    (Prog.follows_perform (finishesOwn_of_ne (by simp)) fun outcome => ?_)))
  cases outcome with
  | ok report =>
      refine ⟨hfinish (.ok report) _ _ _ rfl, fun r => ?_⟩
      cases r <;> trivial
  | error e =>
      cases e with
      | cancelledError =>
          exact Prog.follows_perform_bind (hfinish (.error .cancelledError) _ _ _ rfl)
            (fun _ => trivial) fun _ => trivial
      | exception typeName text =>
          exact Prog.follows_perform_bind (hfinish (.error (.exception typeName text)) _ _ _ rfl)
            (fun _ => trivial) fun _ => trivial

theorem program_follows (t : ServerTask) :
    t.program.Follows FinishesOwn (fun _ _ => True) [] := by
  cases t with
  | reconcile =>
      exact Prog.follows_perform_bind (finishesOwn_of_ne (by simp)) (fun _ => trivial)
        fun _ => trivial
  | simulate config =>
      have hprogram : config.program.Follows
          (fun new o => FinishesOwn (new.map Reply.lift ++ []) (.inl o)) (fun _ _ => True) [] := by
        refine Prog.follows_bind (Prog.follows_perform_bind (finishesOwn_of_ne (by simp))
          (fun _ => trivial) fun found => ?_)
        cases found with
        | some run => trivial
        | none =>
            refine Prog.follows_perform (finishesOwn_of_ne (by simp)) fun r => ?_
            cases r with
            | error e => trivial
            | ok record => exact execute_follows
      have hlift : (config.program.lift (A := ServerAns)).Follows FinishesOwn (fun _ _ => True)
          (([] : List (Reply runnerSig)).map Reply.lift ++ []) := hprogram.lift
      exact hlift

/-! ## What has happened to a record -/

/-- The moment inserted the record filed under `id`. -/
def CreatesRecord (config : SimulationConfig) (id : String) (m : Moment simulationServer) : Prop :=
  m.op = .inl (.create config) ∧ m.choice.fault.performed = true ∧ m.choice.newId = id
    ∧ m.before.runs.get id = none

/-- The moment finished the record filed under `id`. -/
def FinishesRecord (id : String) (m : Moment simulationServer) : Prop :=
  (∃ status error report, m.op = .inl (.finish id status error report))
    ∧ m.choice.fault.performed = true

/-- The moment marked what was RUNNING as interrupted. -/
def Interrupts (m : Moment simulationServer) : Prop :=
  m.op = .inr .markInterruptedRuns ∧ m.choice.fault.performed = true

theorem not_finishes {id : String} {m : Moment simulationServer}
    (h : ∀ runId status error report, m.op ≠ .inl (.finish runId status error report)) :
    ¬FinishesRecord id m := by
  rintro ⟨⟨status, error, report, hop⟩, -⟩
  exact h id status error report hop

theorem Interrupts.not_finishes {id : String} {m : Moment simulationServer} (h : Interrupts m) :
    ¬FinishesRecord id m :=
  SmartDialer.not_finishes (by simp [h.1])

/-- The engine of process `i` has come to `outcome`. -/
def EngineEnded (i : Nat) (config : SimulationConfig)
    (outcome : Except RunnerExn SimulationReport) (history : List (Moment simulationServer)) :
    Prop :=
  ⟨.inl (.runEngine config), outcome⟩ ∈ replies i history

/-- A record as it was inserted. -/
structure StillRunning (run : SimulationRun) : Prop where
  status : run.status = .running
  finishedAt : run.finishedAt = none
  passed : run.passed = none
  violations : run.violations = []
  error : run.error = none

/-- A record of a run that was interrupted at `now`. -/
structure Broken (now : Time) (run : SimulationRun) : Prop where
  status : run.status = .failed
  finishedAt : run.finishedAt = some now
  passed : run.passed = none
  violations : run.violations = []
  error : run.error = some SimulationRunRepository.interruptedError

/-- A record that was finished at `now` with what the engine came to. -/
structure BearsVerdict (now : Time) (outcome : Except RunnerExn SimulationReport)
    (run : SimulationRun) : Prop where
  status : run.status = (verdictOn outcome).status
  finishedAt : run.finishedAt = some now
  passed : run.passed = (verdictOn outcome).report.map SimulationReport.passed
  violations : run.violations = (verdictOn outcome).report.elim [] SimulationReport.violations
  error : run.error = (verdictOn outcome).error

/-- What became of a record that process `i` inserted, by all that has happened since. -/
inductive Fate (i : Nat) (config : SimulationConfig) (run : SimulationRun) :
    List (Moment simulationServer) → Prop where
  /-- Nothing has ended it. -/
  | running {later : List (Moment simulationServer)} (hrun : StillRunning run)
      (hlater : ∀ x ∈ later, ¬Interrupts x ∧ ¬FinishesRecord run.id x) : Fate i config run later
  /-- It was interrupted, and nobody has finished it. -/
  | interrupted (since : List (Moment simulationServer))
      {before : List (Moment simulationServer)} {m : Moment simulationServer}
      (hrun : Broken m.choice.now run) (hm : Interrupts m)
      (hbefore : ∀ x ∈ before, ¬Interrupts x ∧ ¬FinishesRecord run.id x)
      (hsince : ∀ x ∈ since, ¬FinishesRecord run.id x) : Fate i config run (since ++ m :: before)
  /-- Process `i` finished it, and nobody else did. -/
  | finished (since : List (Moment simulationServer))
      {before : List (Moment simulationServer)} {m : Moment simulationServer}
      {outcome : Except RunnerExn SimulationReport} (hrun : BearsVerdict m.choice.now outcome run)
      (hm : FinishesRecord run.id m) (hi : m.process = i)
      (hengine : EngineEnded i config outcome before)
      (hbefore : ∀ x ∈ before, ¬FinishesRecord run.id x)
      (hsince : ∀ x ∈ since, ¬FinishesRecord run.id x) :
      Fate i config run (since ++ m :: before)

/-- All that a record tells. -/
def Told (history : List (Moment simulationServer)) (run : SimulationRun) : Prop :=
  ∃ later created earlier config, history = later ++ created :: earlier
    ∧ CreatesRecord config run.id created ∧ run.scenario = config.name
    ∧ run.dialingMode = config.dialingMode ∧ run.startedAt = created.choice.now
    ∧ Fate created.process config run later

namespace Fate

variable {i : Nat} {config : SimulationConfig} {run : SimulationRun}
  {later : List (Moment simulationServer)} {m : Moment simulationServer}

/-- What neither interrupts nor finishes the record. -/
theorem cons (h : Fate i config run later) (hm : ¬Interrupts m) (hfin : ¬FinishesRecord run.id m) :
    Fate i config run (m :: later) := by
  cases h with
  | running hrun hlater =>
      exact .running hrun (List.forall_mem_cons.mpr ⟨⟨hm, hfin⟩, hlater⟩)
  | interrupted since hrun hx hbefore hsince =>
      exact .interrupted (m :: _) hrun hx hbefore
        (List.forall_mem_cons.mpr ⟨hfin, hsince⟩)
  | finished since hrun hx hi hengine hbefore hsince =>
      exact .finished (m :: _) hrun hx hi hengine hbefore
        (List.forall_mem_cons.mpr ⟨hfin, hsince⟩)

/-- A restart. -/
theorem interrupt (h : Fate i config run later) (hm : Interrupts m) :
    Fate i config (if run.status == .running then
      (SimulationRunRepository.interrupted m.choice.now).apply run else run) (m :: later) := by
  have hfin : ¬FinishesRecord run.id m := hm.not_finishes
  cases h with
  | running hrun hlater =>
      rw [if_pos (by simp [hrun.status])]
      exact .interrupted [] ⟨rfl, rfl, hrun.passed, hrun.violations, rfl⟩ hm hlater
        (by simp)
  | interrupted since hrun hx hbefore hsince =>
      rw [if_neg (by simp [hrun.status])]
      exact .interrupted (m :: _) hrun hx hbefore
        (List.forall_mem_cons.mpr ⟨hfin, hsince⟩)
  | finished since hrun hx hi hengine hbefore hsince =>
      rw [if_neg (by simp [hrun.status, verdict_not_running])]
      exact .finished (m :: _) hrun hx hi hengine hbefore
        (List.forall_mem_cons.mpr ⟨hfin, hsince⟩)

/-- The request has finished it. -/
theorem finish {outcome : Except RunnerExn SimulationReport} {status : SimulationRunStatus}
    {error : Option String} {report : Option SimulationReport} (h : Fate i config run later)
    (hfirst : ∀ x ∈ later, x.process = i → ¬FinishesRecord run.id x) (hm : FinishesRecord run.id m)
    (hi : m.process = i) (hengine : EngineEnded i config outcome later)
    (hverdict : ⟨status, error, report⟩ = verdictOn outcome) :
    Fate i config ((SimulationRunRepository.finished m.choice.now status error report).apply run)
      (m :: later) := by
  -- whatever its fate was, nothing has been said of an engine, and nobody has finished it
  have hunfinished : (run.passed = none ∧ run.violations = [])
      ∧ ∀ x ∈ later, ¬FinishesRecord run.id x := by
    cases h with
    | running hrun hlater => exact ⟨⟨hrun.passed, hrun.violations⟩, fun x hx => (hlater x hx).2⟩
    | interrupted since hrun hx hbefore hsince =>
        refine ⟨⟨hrun.passed, hrun.violations⟩, fun x hmem => ?_⟩
        rcases List.mem_append.mp hmem with hmem | hmem
        · exact hsince x hmem
        · rcases List.mem_cons.mp hmem with rfl | hmem
          · exact hx.not_finishes
          · exact (hbefore x hmem).2
    | finished since hrun hx hxi hengine hbefore hsince =>
        exact absurd hx (hfirst _ (by simp) hxi)
  obtain ⟨⟨hpassed, hviolations⟩, hlater⟩ := hunfinished
  refine .finished [] ⟨?_, rfl, ?_, ?_, ?_⟩ hm hi hengine hlater (by simp)
  · rw [← hverdict]
    rfl
  · rw [← hverdict]
    cases report with
    | none => exact hpassed
    | some report => rfl
  · rw [← hverdict]
    cases report with
    | none => exact hviolations
    | some report => rfl
  · rw [← hverdict]
    rfl

end Fate

/-! ## What an operation does to the records -/

section

variable {i : Nat} {c : RunnerChoice} {s : RunnerState}

/-- An operation that is not performed leaves the records alone. -/
theorem runs_of_not_performed (o : RunnerOp ⊕ ServerOp) (h : c.fault.performed = false) :
    (SimulationServer.exec i o c s).2.runs = s.runs := by
  cases hf : c.fault with
  | none => simp [hf, RunnerFault.performed] at h
  | failed e performed =>
      rw [hf] at h
      obtain rfl : performed = false := h
      rcases o with o | ⟨⟩
      · simp [SimulationServer.exec, runnerExec, runnerAttempt, hf]
      · simp [SimulationServer.exec, hf]

/-- One of the runner's that is has its effect. -/
theorem runs_of_performed (o : RunnerOp) (h : c.fault.performed = true) :
    (SimulationServer.exec i (.inl o) c s).2.runs = (runnerEffect o c s).2.runs := by
  cases hf : c.fault with
  | none => simp [SimulationServer.exec, runnerExec, runnerAttempt, hf]
  | failed e performed =>
      rw [hf] at h
      obtain rfl : performed = true := h
      simp [SimulationServer.exec, runnerExec, runnerAttempt, hf]

theorem runs_of_interrupted (h : c.fault.performed = true) :
    (SimulationServer.exec i (.inr .markInterruptedRuns) c s).2.runs
      = (SimulationRunRepository.markInterruptedRuns c.now s.runs).2 := by
  cases hf : c.fault with
  | none => simp [SimulationServer.exec, hf]
  | failed e performed =>
      rw [hf] at h
      obtain rfl : performed = true := h
      simp [SimulationServer.exec, hf]

/-- An insertion took effect if its key was free. -/
theorem runs_of_creation (config : SimulationConfig) (h : c.fault.performed = true) :
    s.runs.insert (config.record c.newId c.now)
        = some (SimulationServer.exec i (.inl (.create config)) c s).2.runs
      ∨ s.runs.get c.newId ≠ none
        ∧ (SimulationServer.exec i (.inl (.create config)) c s).2.runs = s.runs := by
  rw [runs_of_performed _ h, runnerEffect]
  cases hins : s.runs.insert (config.record c.newId c.now) with
  | some runs => exact .inl rfl
  | none =>
      refine .inr ⟨fun hfree => ?_, rfl⟩
      have hsome := Collection.insert_isSome_iff.mpr
        (show s.runs.get (key (config.record c.newId c.now)) = none from hfree)
      rw [hins] at hsome
      cases hsome

/-- No operation takes a record away. -/
theorem stored_exec {id : String} (o : RunnerOp ⊕ ServerOp) (h : s.runs.get id ≠ none) :
    (SimulationServer.exec i o c s).2.runs.get id ≠ none := by
  cases hp : c.fault.performed with
  | false => rwa [runs_of_not_performed o hp]
  | true =>
      rcases o with o | ⟨⟩
      · cases o with
        | findRunning => rwa [runs_of_performed _ hp]
        | runEngine config => rwa [runs_of_performed _ hp]
        | finish runId status error report =>
            rw [runs_of_performed _ hp]
            simpa [runnerEffect, SimulationRunRepository.finish, Collection.get_update] using h
        | create config =>
            rcases runs_of_creation (i := i) (s := s) config hp with hins | ⟨-, hsame⟩
            · rw [Collection.get_insert hins]
              split
              · simp
              · exact h
            · rwa [hsame]
      · rw [runs_of_interrupted hp]
        simpa [SimulationRunRepository.markInterruptedRuns, Collection.get_updateMany] using h

end

/-! ## Records are inserted once -/

/-- No run has been recorded yet. -/
def NoRuns (s : RunnerState) : Prop := s.runs = .empty

section

variable {config : SimulationConfig} {id : String} {m : Moment simulationServer}

theorem CreatesRecord.inserted (h : CreatesRecord config id m) :
    m.before.runs.insert (config.record id m.choice.now) = some m.after.runs := by
  obtain ⟨i, o, c, s⟩ := m
  obtain ⟨rfl, hp, rfl, hfree⟩ := h
  rcases runs_of_creation (i := i) (s := s) config hp with hins | ⟨htaken, -⟩
  · exact hins
  · exact absurd hfree htaken

theorem CreatesRecord.stored (h : CreatesRecord config id m) : m.after.runs.get id ≠ none := by
  rw [Collection.get_insert h.inserted]
  exact (if_pos rfl).trans_ne (Option.some_ne_none _)

/-- What a process was answered when it inserted its record. -/
theorem creates_of_answer {i : Nat} {c : RunnerChoice} {s : RunnerState} {record : SimulationRun}
    (h : (SimulationServer.exec i (.inl (.create config)) c s).1 = .ok record) :
    CreatesRecord config record.id ⟨i, .inl (.create config), c, s⟩ := by
  simp only [SimulationServer.exec, runnerExec, runnerAttempt] at h
  cases hf : c.fault with
  | failed e performed =>
      rw [hf] at h
      cases h
  | none =>
      rw [hf] at h
      simp only [runnerEffect] at h
      cases hins : s.runs.insert (config.record c.newId c.now) with
      | none =>
          rw [hins] at h
          cases h
      | some runs =>
          rw [hins] at h
          obtain rfl := Except.ok.inj h
          have hfree := Collection.insert_isSome_iff.mp (Option.isSome_of_eq_some hins)
          exact ⟨rfl, by simp [hf, RunnerFault.performed], rfl, hfree⟩

variable {P : Policy simulationServer.recorded} {w : World simulationServer.recorded}

/-- No two moments insert a record under one id. -/
theorem created_once (h : Reachable P (Blank NoRuns) w) :
    w.st.2.Pairwise fun later earlier =>
      ∀ id config config', CreatesRecord config id earlier → ¬CreatesRecord config' id later := by
  have hkept : w.st.2.Pairwise fun later earlier =>
      ∀ id, earlier.after.runs.get id ≠ none → later.before.runs.get id ≠ none :=
    (Reachable.along (M := simulationServer)
      (R := fun s s' => ∀ id, s.runs.get id ≠ none → s'.runs.get id ≠ none)
      (fun _ _ h => h) (fun _ _ _ h h' id hid => h' id (h id hid))
      (fun i o c s id hid => stored_exec o hid) (fun _ _ _ hid => hid) h).2
  exact hkept.imp fun hR id config config' hearlier hlater =>
    hR id hearlier.stored hlater.2.2.2

/-- So whoever was answered with a record is who inserted it. -/
theorem eq_of_creates {later earlier : List (Moment simulationServer)}
    {created : Moment simulationServer} {config' : SimulationConfig}
    (hpair : (later ++ created :: earlier).Pairwise fun later earlier =>
      ∀ id config config', CreatesRecord config id earlier → ¬CreatesRecord config' id later)
    (hcreated : CreatesRecord config' id created) (hm : CreatesRecord config id m)
    (hmem : m ∈ later ++ created :: earlier) : m = created := by
  obtain ⟨-, hrest, hcross⟩ := List.pairwise_append.mp hpair
  rcases List.mem_append.mp hmem with hmem | hmem
  · exact absurd hm (hcross m hmem created List.mem_cons_self _ _ _ hcreated)
  · rcases List.mem_cons.mp hmem with rfl | hmem
    · rfl
    · exact absurd hcreated ((List.pairwise_cons.mp hrest).1 m hmem _ _ _ hm)

end

/-! ## What the records tell -/

namespace Told

variable {history : List (Moment simulationServer)} {run : SimulationRun}
  {m : Moment simulationServer}

theorem cons (h : Told history run) (hm : ¬Interrupts m) (hfin : ¬FinishesRecord run.id m) :
    Told (m :: history) run := by
  obtain ⟨later, created, earlier, config, rfl, hcreated, hscenario, hmode, hstart, hfate⟩ := h
  exact ⟨m :: later, created, earlier, config, rfl, hcreated, hscenario, hmode, hstart,
    hfate.cons hm hfin⟩

theorem interrupt (h : Told history run) (hm : Interrupts m) : Told (m :: history)
    (if run.status == .running then
      (SimulationRunRepository.interrupted m.choice.now).apply run else run) := by
  obtain ⟨later, created, earlier, config, rfl, hcreated, hscenario, hmode, hstart, hfate⟩ := h
  refine ⟨m :: later, created, earlier, config, rfl, ?_, ?_, ?_, ?_, hfate.interrupt hm⟩
  all_goals
    split
    · assumption
    · assumption

/-- A new record. -/
theorem created {config : SimulationConfig} {id : String} (h : CreatesRecord config id m) :
    Told (m :: history) (config.record id m.choice.now) :=
  ⟨[], m, history, config, rfl, h, rfl, rfl, rfl, .running ⟨rfl, rfl, rfl, rfl, rfl⟩ (by simp)⟩

/-- The request that inserted the record finishes it. -/
theorem finish {status : SimulationRunStatus} {error : Option String}
    {report : Option SimulationReport} (h : Told history run)
    (hpair : history.Pairwise fun later earlier =>
      ∀ id config config', CreatesRecord config id earlier → ¬CreatesRecord config' id later)
    (hown : FinishesOwn (replies m.process history) m.op)
    (hop : m.op = .inl (.finish run.id status error report))
    (hp : m.choice.fault.performed = true) :
    Told (m :: history)
      ((SimulationRunRepository.finished m.choice.now status error report).apply run) := by
  obtain ⟨later, created, earlier, config, rfl, hcreated, hscenario, hmode, hstart, hfate⟩ := h
  obtain ⟨config', outcome, record, found, hpast, hid, hverdict⟩ := hown _ _ _ _ hop
  -- who finishes the record was answered with it, so it was this process that inserted it
  have hanswer : (⟨.inl (.create config'), .ok record⟩ : Reply serverSig)
      ∈ replies m.process (later ++ created :: earlier) := by simp [hpast]
  obtain ⟨c, s, hmem, hexec⟩ := exists_of_mem_replies hanswer
  have hsame : (⟨m.process, .inl (.create config'), c, s⟩ : Moment simulationServer) = created :=
    eq_of_creates hpair hcreated (hid ▸ creates_of_answer hexec) hmem
  have hself : created.process = m.process := hsame ▸ rfl
  have hconfig : config = config' := by
    have hop' := hcreated.1
    rw [← hsame] at hop'
    exact (RunnerOp.create.inj (Sum.inl.inj hop')).symm
  -- since then it has been answered by its engine, and has done nothing else
  have hsplit : replies m.process later ++ created.reply :: replies m.process earlier
      = replies m.process (later ++ created :: earlier) := by
    simp [replies, hself]
  rw [hpast] at hsplit
  have hfirst : ∀ x ∈ later, x.process = created.process → ¬FinishesRecord run.id x := by
    rintro x hx hxi ⟨⟨_, _, _, hxop⟩, -⟩
    have hreply : x.reply ∈ replies m.process later :=
      mem_replies.mpr ⟨x, hx, hxi.trans hself, rfl⟩
    have hamong := List.mem_append_left (created.reply :: replies m.process earlier) hreply
    rw [hsplit] at hamong
    have hops := List.mem_map_of_mem (f := Reply.op) hamong
    simp [Moment.reply, hxop] at hops
  have hengine : EngineEnded created.process config' outcome later := by
    rw [EngineEnded, hself]
    cases hlater : replies m.process later with
    | nil =>
        rw [hlater] at hsplit
        have hops := congrArg Reply.op (List.cons.inj hsplit).1
        simp [Moment.reply, hcreated.1] at hops
    | cons r rest =>
        rw [hlater] at hsplit
        exact (List.cons.inj hsplit).1 ▸ List.mem_cons_self
  exact ⟨m :: later, created, earlier, config, rfl, hcreated, hscenario, hmode, hstart,
    hfate.finish hfirst ⟨⟨status, error, report, hop⟩, hp⟩ hself.symm (hconfig ▸ hengine)
      hverdict⟩

end Told

section

variable {P : Policy simulationServer.recorded} {w : World simulationServer.recorded} {i : Nat}
  {o : RunnerOp ⊕ ServerOp}

/-- One operation: what the records tell stays true. -/
theorem told_exec {c : RunnerChoice} (h : Reachable P (Blank NoRuns) w) (hi : w.Awaits i o)
    (htold : ∀ id run, w.st.1.runs.get id = some run → Told w.st.2 run) {id : String}
    {run' : SimulationRun}
    (hget : (SimulationServer.exec i o c w.st.1).2.runs.get id = some run') :
    Told (⟨i, o, c, w.st.1⟩ :: w.st.2) run' := by
  have hown : FinishesOwn (replies i w.st.2) o := by
    obtain ⟨k, hk⟩ := hi
    obtain ⟨t, -, hstarted⟩ := h.started (List.getElem?_eq_some_iff.mp hk).1
    exact (hstarted.follows (program_follows t) _ hk).1
  cases hp : c.fault.performed with
  | false =>
      rw [runs_of_not_performed o hp] at hget
      exact (htold id run' hget).cons (fun h => Bool.false_ne_true (hp.symm.trans h.2))
        fun h => Bool.false_ne_true (hp.symm.trans h.2)
  | true =>
      rcases o with o | ⟨⟩
      · have hnot : ¬Interrupts (⟨i, .inl o, c, w.st.1⟩ : Moment simulationServer) :=
          fun h => Sum.inl_ne_inr h.1
        cases o with
        | findRunning =>
            rw [runs_of_performed _ hp] at hget
            exact (htold id run' hget).cons hnot (not_finishes (by simp))
        | runEngine config =>
            rw [runs_of_performed _ hp] at hget
            exact (htold id run' hget).cons hnot (not_finishes (by simp))
        | create config =>
            rcases runs_of_creation (i := i) (s := w.st.1) config hp with hins | ⟨-, hsame⟩
            · rw [Collection.get_insert hins] at hget
              split at hget
              · obtain rfl := Option.some.inj hget
                have hfree := Collection.insert_isSome_iff.mp (Option.isSome_of_eq_some hins)
                exact Told.created ⟨rfl, hp, rfl, hfree⟩
              · exact (htold id run' hget).cons hnot (not_finishes (by simp))
            · rw [hsame] at hget
              exact (htold id run' hget).cons hnot (not_finishes (by simp))
        | finish runId status error report =>
            rw [runs_of_performed _ hp] at hget
            simp only [runnerEffect, SimulationRunRepository.finish, Collection.get_update,
              Option.map_eq_some_iff, and_true] at hget
            obtain ⟨run, hrun, rfl⟩ := hget
            have hid : run.id = id := Collection.key_of_get hrun
            split
            · rename_i heq
              obtain rfl : runId = run.id := (hid.trans heq).symm
              exact (htold id run hrun).finish (created_once h) hown rfl hp
            · rename_i hne
              refine (htold id run hrun).cons hnot ?_
              rintro ⟨⟨_, _, _, heq⟩, -⟩
              have heq' := (RunnerOp.finish.inj (Sum.inl.inj heq)).1
              exact hne (hid.symm.trans heq'.symm)
      · rw [runs_of_interrupted hp] at hget
        obtain ⟨run, hrun, hcase⟩ := Collection.get_updateMany_some hget
        have hkept := (htold id run hrun).interrupt
          (m := (⟨i, .inr .markInterruptedRuns, c, w.st.1⟩ : Moment simulationServer)) ⟨rfl, hp⟩
        rcases hcase with ⟨hrunning, rfl⟩ | ⟨hnot, rfl⟩
        · rwa [if_pos hrunning] at hkept
        · rwa [if_neg (by simp [hnot])] at hkept

/--
**What a record tells of its run.** Whatever requests, restarts, deaths and failed operations
there have been, a record is RUNNING if nothing has ended it, FAILED and interrupted if a restart
was all that did; and once its own request has finished it, which happens once and on no word but
that of its own engine, it says what the engine came to, and says so ever after.
-/
theorem records_told (h : Reachable P (Blank NoRuns) w) {run : SimulationRun}
    (hrun : run ∈ w.st.1.runs.docs) : Told w.st.2 run := by
  have htold : ∀ id run, w.st.1.runs.get id = some run → Told w.st.2 run := by
    clear hrun
    induction h with
    | init h =>
        intro id run hget
        rw [h.1] at hget
        cases hget
    | tail h hs ih =>
        cases hs with
        | spawn _ _ => exact ih
        | crash _ _ _ _ => exact ih
        | run i o k c hi _ => exact fun id run hget => told_exec h ⟨k, hi⟩ ih hget
  exact htold _ _ (Collection.get_of_mem hrun)

end

/-! ## A server that starts while a simulation runs -/

/-- The record is marked as interrupted, and then finished all the same. -/
def interruptedMeanwhile : List (Label simulationServer.recorded) :=
  [.spawn (.simulate { name := "steady" }), .run 0 {}, .run 0 { newId := "first" },
    .spawn .reconcile, .run 1 { now := 5 }, .run 0 { engine := .ok {} }, .run 0 { now := 9 }]

theorem records_told_interruptedMeanwhile :
    ∃ (w : World simulationServer.recorded) (run : SimulationRun),
      run.status = .completed ∧ run.finishedAt = some 9 ∧ Told w.st.2 run := by
  obtain ⟨w, hw, htest⟩ := Reachable.of_play (Policy.any simulationServer).recorded
    (show Blank (M := simulationServer) NoRuns ({ runs := .empty }, []) from ⟨rfl, rfl⟩)
    interruptedMeanwhile
    (fun w => w.st.1.runs.docs.any fun run => run.status == .completed
      && run.finishedAt == some 9) (by decide +kernel)
  obtain ⟨run, hrun, htest⟩ := List.any_eq_true.mp htest
  obtain ⟨hstatus, hfinished⟩ := Bool.and_eq_true_iff.mp htest
  exact ⟨w, run, beq_iff_eq.mp hstatus, beq_iff_eq.mp hfinished, records_told hw hrun⟩

end SmartDialer
