import SmartDialer.Conc.World
import SmartDialer.Models.Documents

/-!
# The simulation runner

`app/simulation/runner.py`, with `app/repositories/simulation_run_repo.py`: a system of its
own. Requests to start a simulation share the collection of simulation runs with the tasks
they leave behind, and share nothing with the dialer. An engine run is a single operation
here. It awaits a great deal, but touches no simulation run; what matters is who is at it.

`create_task` is the end of a request and the beginning of a task. A process of the model is
both: the request, and from there on the task.
-/

namespace SmartDialer

open Store Conc

/-! ## Documents -/

/-- `STATUS_RUNNING`, `STATUS_COMPLETED`, `STATUS_FAILED`. -/
inductive SimulationRunStatus where
  | running | completed | failed
  deriving DecidableEq, Repr

/-- `SimulationConfig`. -/
structure SimulationConfig where
  name : String
  dialingMode : DialingMode := .progressive
  deriving DecidableEq, Repr

/-- `SimulationReport`; of a violation, its name. -/
structure SimulationReport where
  violations : List String := []
  error : Option String := none
  deriving DecidableEq, Repr

/-- `SimulationReport.passed`. -/
def SimulationReport.passed (report : SimulationReport) : Bool :=
  report.violations.isEmpty && report.error.isNone

/-- The record of a simulation run. -/
structure SimulationRun where
  id : String
  scenario : String
  dialingMode : DialingMode
  status : SimulationRunStatus
  startedAt : Time
  finishedAt : Option Time
  passed : Option Bool
  violations : List String
  error : Option String
  deriving DecidableEq, Repr

instance : Document SimulationRun String := ⟨SimulationRun.id⟩

@[simp] theorem simulationRun_key (run : SimulationRun) : key run = run.id := rfl

/-! ## The repository -/

namespace SimulationRunRepository

/-- `find_running`. -/
def findRunning (runs : Collection SimulationRun) : Option SimulationRun :=
  runs.findOne (fun run => run.status == .running)

/-- The update of `_finish`. -/
def finished (now : Time) (status : SimulationRunStatus) (error : Option String)
    (report : Option SimulationReport) : Update SimulationRun where
  apply run :=
    { run with
      status := status
      finishedAt := some now
      error := error
      passed := report.elim run.passed fun r => some r.passed
      violations := report.elim run.violations SimulationReport.violations }
  key_apply _ := rfl

/-- `finish`. -/
def finish (now : Time) (runId : String) (status : SimulationRunStatus) (error : Option String)
    (report : Option SimulationReport) (runs : Collection SimulationRun) :
    Collection SimulationRun :=
  runs.update runId (fun _ => true) (finished now status error report)

end SimulationRunRepository

/-! ## Operations -/

/-- The exceptions a run may end in; of any but a cancellation, its type and its text. -/
inductive RunnerExn where
  | cancelledError
  | exception (typeName text : String)
  deriving DecidableEq, Repr

/-- What a request, or a run, awaits. -/
inductive RunnerOp where
  | findRunning
  | create (config : SimulationConfig)
  | finish (runId : String) (status : SimulationRunStatus) (error : Option String)
      (report : Option SimulationReport)
  | runEngine (config : SimulationConfig)
  deriving DecidableEq

/-- What each operation answers. -/
@[reducible] def RunnerAns : RunnerOp → Type
  | .findRunning => Option SimulationRun
  | .create _ => SimulationRun
  | .finish .. => Unit
  | .runEngine _ => SimulationReport

/-- The operations, their answers, and the exceptions. -/
@[reducible] def runnerSig : Sig := ⟨RunnerOp, RunnerAns, RunnerExn⟩

/-- A coroutine of the runner. -/
abbrev RunnerAsync (α : Type) : Type := Prog runnerSig α

/-- `await` one operation. -/
abbrev awaitRunner (o : RunnerOp) : RunnerAsync (RunnerAns o) := Prog.perform (S := runnerSig) o

/-- `raise`. -/
abbrev throwRunner {α : Type} (e : RunnerExn) : RunnerAsync α := Prog.raise (S := runnerSig) e

/-- What may go wrong with an operation, and whether it had its effect by then. -/
inductive RunnerFault where
  | none
  | failed (e : RunnerExn) (performed : Bool)
  deriving DecidableEq, Repr

/-- What the environment contributes to one operation. -/
structure RunnerChoice where
  now : Time := 0
  newId : String := ""
  fault : RunnerFault := .none
  engine : Except RunnerExn SimulationReport := .ok {}

/-- Something that happened. -/
inductive RunnerEntry where
  | answered (i : Nat) (o : RunnerOp) (r : Except RunnerExn (RunnerAns o))
  | crashed (i : Nat)

/-- The process an entry of the log is about. -/
def RunnerEntry.process : RunnerEntry → Nat
  | .answered i _ _ => i
  | .crashed i => i

/-- The simulation runs, and the log of what was answered so far, newest first. -/
structure RunnerState where
  runs : Collection SimulationRun
  log : List RunnerEntry := []

/-- The record of `start`. -/
def SimulationConfig.record (config : SimulationConfig) (newId : String) (now : Time) :
    SimulationRun where
  id := newId
  scenario := config.name
  dialingMode := config.dialingMode
  status := .running
  startedAt := now
  finishedAt := none
  passed := none
  violations := []
  error := none

/-- What an operation does when nothing goes wrong with it. -/
def runnerEffect (o : RunnerOp) (c : RunnerChoice) (s : RunnerState) :
    Except RunnerExn (RunnerAns o) × RunnerState :=
  match o with
  | .findRunning => (.ok (SimulationRunRepository.findRunning s.runs), s)
  | .create config =>
      let record := config.record c.newId c.now
      match s.runs.insert record with
      | some runs => (.ok record, { s with runs := runs })
      | none => (.error (.exception "DuplicateKeyError" record.id), s)
  | .finish runId status error report =>
      (.ok (), { s with
        runs := SimulationRunRepository.finish c.now runId status error report s.runs })
  | .runEngine _ => (c.engine, s)

/-- What an operation does, faults included. -/
def runnerAttempt (o : RunnerOp) (c : RunnerChoice) (s : RunnerState) :
    Except RunnerExn (RunnerAns o) × RunnerState :=
  match c.fault with
  | .none => runnerEffect o c s
  | .failed e performed => (.error e, if performed then (runnerEffect o c s).2 else s)

/-- Process `i` performs `o`. -/
def runnerExec (i : Nat) (o : RunnerOp) (c : RunnerChoice) (s : RunnerState) :
    Except RunnerExn (RunnerAns o) × RunnerState :=
  ((runnerAttempt o c s).1, { (runnerAttempt o c s).2 with
    log := .answered i o (runnerAttempt o c s).1 :: (runnerAttempt o c s).2.log })

/-- Process `i` dies. -/
def runnerCrash (i : Nat) (s : RunnerState) : RunnerState :=
  { s with log := .crashed i :: s.log }

/-! ## The runner -/

namespace SimulationRunner

/-- `start`, up to its `create_task`. -/
def start (config : SimulationConfig) : RunnerAsync SimulationRun := do
  match ← awaitRunner .findRunning with
  | some _ => throwRunner (.exception "RuntimeError" "A simulation is already running")
  | none => awaitRunner (.create config)

/-- `_finish`. -/
def finish (runId : String) (status : SimulationRunStatus) (error : Option String)
    (report : Option SimulationReport) : RunnerAsync Unit :=
  awaitRunner (.finish runId status error report)

/-- `_execute`. -/
def execute (runId : String) (config : SimulationConfig) : RunnerAsync Unit := do
  let report ← Prog.tryCatch
    (do
      let report ← awaitRunner (.runEngine config)
      pure (some report))
    fun
      | .cancelledError => do
          finish runId .failed (some "cancelled") none
          throwRunner .cancelledError
      | .exception typeName text => do
          finish runId .failed (some (typeName ++ ": " ++ text)) none
          pure none
  match report with
  | none => pure ()
  | some report =>
      finish runId (if report.passed then .completed else .failed) report.error (some report)

end SimulationRunner

/-- A request to start a simulation, and the task it leaves behind. -/
def SimulationConfig.program (config : SimulationConfig) : RunnerAsync Unit := do
  let record ← SimulationRunner.start config
  SimulationRunner.execute record.id config

/-- The runner, as a system of processes over the simulation runs. -/
@[reducible] def runner : System runnerSig where
  St := RunnerState
  Choice := RunnerChoice
  Task := SimulationConfig
  Ret := Unit
  exec := runnerExec
  crash := runnerCrash
  killed := .cancelledError
  prog := SimulationConfig.program

end SmartDialer
