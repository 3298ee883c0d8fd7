import SmartDialer.Conc.RelyGuarantee
import SmartDialer.Simulation.Runner

/-!
# One simulation at a time

`start` asks whether a simulation is running, and then inserts a record that says so. Two
requests can both have asked before either has inserted, and nothing else stands in their way.
Where no request asks while another is between its question and its record, the right to run
a simulation is held by one process at a time, and it is the process whose record is RUNNING.
-/

namespace SmartDialer

open Store Conc

/-! ## The runs -/

/-- What an entry says of process `i`: that it has passed the guard, or is past its insert. -/
def RunnerEntry.tells (i : Nat) : RunnerEntry → Option Bool
  | .answered j .findRunning (.ok none) => if j = i then some true else none
  | .answered j (.create _) _ => if j = i then some false else none
  | .answered _ _ _ => none
  | .crashed j => if j = i then some false else none

/-- Process `i` was told that no simulation is running, and has not inserted its record. -/
def passing (i : Nat) (log : List RunnerEntry) : Bool :=
  (log.findSome? (RunnerEntry.tells i)).getD false

/-- The runs in which no request asks while another is between its question and its record. -/
def oneRequestAtATime : Policy runner where
  task _ := True
  run i o _ s := o = .findRunning → ∀ e ∈ s.log, e.process ≠ i → passing e.process s.log = false

instance : oneRequestAtATime.Checkable where
  task _ := .isTrue trivial
  run _ _ _ _ := inferInstanceAs (Decidable (_ → _))

/-- No two records are RUNNING. -/
def OneRecord (s : RunnerState) : Prop :=
  ∀ run ∈ s.runs.docs, run.status = .running →
    ∀ run' ∈ s.runs.docs, run'.status = .running → run.id = run'.id

instance (s : RunnerState) : Decidable (OneRecord s) :=
  inferInstanceAs (Decidable (∀ run ∈ s.runs.docs, run.status = .running →
    ∀ run' ∈ s.runs.docs, run'.status = .running → run.id = run'.id))

/-- No two engines are running. -/
def OneEngine (w : World runner) : Prop :=
  ∀ i j config config', w.Awaits i (.runEngine config) → w.Awaits j (.runEngine config') → i = j

/-- A server that has just started: its log is empty, and one record at most is RUNNING. -/
structure JustStarted (s : RunnerState) : Prop where
  one : OneRecord s
  log : s.log = []

/-! ## What one operation does -/

/-- No record is RUNNING. -/
def NoneRunning (runs : Collection SimulationRun) : Prop :=
  ∀ k run, runs.get k = some run → run.status ≠ .running

/-- Only the record filed under `id` may be RUNNING. -/
def RunningOnly (id : String) (runs : Collection SimulationRun) : Prop :=
  ∀ k run, runs.get k = some run → run.status = .running → k = id

section

variable {i : Nat} {o : RunnerOp} {c : RunnerChoice} {s : RunnerState}

/-- A faulty operation had its effect, or none. -/
theorem runnerAttempt_state (o : RunnerOp) (c : RunnerChoice) (s : RunnerState) :
    (runnerAttempt o c s).2 = s ∨ (runnerAttempt o c s).2 = (runnerEffect o c s).2 := by
  rw [runnerAttempt]
  cases c.fault with
  | none => exact .inr rfl
  | failed e performed =>
      cases performed with
      | true => exact .inr rfl
      | false => exact .inl rfl

theorem runnerEffect_log (o : RunnerOp) (c : RunnerChoice) (s : RunnerState) :
    (runnerEffect o c s).2.log = s.log := by
  cases o with
  | create config =>
      rw [runnerEffect]
      split
      · rfl
      · rfl
  | _ => rfl

theorem runnerExec_log : (runnerExec i o c s).2.log
    = .answered i o (runnerExec i o c s).1 :: s.log := by
  rcases runnerAttempt_state o c s with h | h
  · simp [runnerExec, h]
  · simp [runnerExec, h, runnerEffect_log]

/-- Asking, and running an engine, leave the records alone. -/
theorem runs_of_idle (h : (runnerEffect o c s).2.runs = s.runs) :
    (runnerExec i o c s).2.runs = s.runs := by
  rcases runnerAttempt_state o c s with heq | heq
  · simp [runnerExec, heq]
  · simp [runnerExec, heq, h]

theorem runs_of_create (config : SimulationConfig) :
    (runnerExec i (.create config) c s).2.runs = s.runs
      ∨ s.runs.insert (config.record c.newId c.now)
        = some (runnerExec i (.create config) c s).2.runs := by
  rcases runnerAttempt_state (.create config) c s with heq | heq
  · exact .inl (by simp [runnerExec, heq])
  · have heff : (runnerExec i (.create config) c s).2.runs
        = (runnerEffect (.create config) c s).2.runs := by
      simp [runnerExec, heq]
    rw [heff, runnerEffect]
    cases hins : s.runs.insert (config.record c.newId c.now) with
    | none => exact .inl rfl
    | some runs => exact .inr rfl

/-- A record that was answered was inserted. -/
theorem create_ok {config : SimulationConfig} {run : SimulationRun}
    (h : (runnerExec i (.create config) c s).1 = .ok run) :
    run = config.record c.newId c.now
      ∧ s.runs.insert run = some (runnerExec i (.create config) c s).2.runs := by
  simp only [runnerExec, runnerAttempt] at h ⊢
  cases hf : c.fault with
  | failed e performed =>
      rw [hf] at h
      cases h
  | none =>
      rw [hf] at h
      simp only [runnerEffect] at h ⊢
      split at h
      · rename_i runs hins
        obtain rfl := Except.ok.inj h
        exact ⟨rfl, by rw [hins]⟩
      · cases h

theorem runs_of_finish (runId : String) (status : SimulationRunStatus) (error : Option String)
    (report : Option SimulationReport) :
    (runnerExec i (.finish runId status error report) c s).2.runs = s.runs
      ∨ (runnerExec i (.finish runId status error report) c s).2.runs
        = SimulationRunRepository.finish c.now runId status error report s.runs := by
  rcases runnerAttempt_state (.finish runId status error report) c s with heq | heq
  · exact .inl (by simp [runnerExec, heq])
  · exact .inr (by simp [runnerExec, heq, runnerEffect])

/-- The answer that nothing is running is the truth. -/
theorem noneRunning_of_findRunning
    (h : (runnerExec i .findRunning c s).1 = .ok none) : NoneRunning s.runs := by
  intro k run hget hrunning
  simp only [runnerExec, runnerAttempt] at h
  cases hf : c.fault with
  | failed e performed =>
      rw [hf] at h
      cases h
  | none =>
      rw [hf] at h
      have hnone : SimulationRunRepository.findRunning s.runs = none := Except.ok.inj h
      have hno := Collection.findOne_none hnone hget
      rw [hrunning] at hno
      cases hno

/-! ### Whom the log says to be passing -/

theorem passing_exec : passing i (runnerExec i o c s).2.log
    = (RunnerEntry.tells i (.answered i o (runnerExec i o c s).1)).getD (passing i s.log) := by
  rw [runnerExec_log, passing, List.findSome?_cons]
  cases RunnerEntry.tells i (.answered i o (runnerExec i o c s).1) <;> rfl

theorem passing_exec_other {j : Nat} (hj : j ≠ i) :
    passing j (runnerExec i o c s).2.log = passing j s.log := by
  have htells : ∀ r : Except RunnerExn (RunnerAns o),
      RunnerEntry.tells j (.answered i o r) = none := by
    intro r
    cases o with
    | findRunning =>
        cases r with
        | error e => rfl
        | ok found =>
            cases found with
            | none => exact if_neg (Ne.symm hj)
            | some run => rfl
    | create config => exact if_neg (Ne.symm hj)
    | _ => rfl
  rw [runnerExec_log, passing, List.findSome?_cons, htells]
  rfl

/-- What tells nothing of the process itself tells nothing of the others either. -/
theorem passing_exec_silent (h : RunnerEntry.tells i (.answered i o (runnerExec i o c s).1) = none)
    (j : Nat) : passing j (runnerExec i o c s).2.log = passing j s.log := by
  by_cases hj : j = i
  · subst hj
    rw [passing_exec, h]
    rfl
  · exact passing_exec_other hj

theorem passing_crash_other {j : Nat} (hj : j ≠ i) :
    passing j (runnerCrash i s).log = passing j s.log := by
  change passing j (.crashed i :: s.log) = _
  rw [passing, List.findSome?_cons, RunnerEntry.tells, if_neg (Ne.symm hj)]
  rfl

theorem passing_crash : passing i (runnerCrash i s).log = false := by
  change passing i (.crashed i :: s.log) = _
  rw [passing, List.findSome?_cons, RunnerEntry.tells, if_pos rfl]
  rfl

/-- Who is passing is in the log. -/
theorem mem_of_passing {j : Nat} {log : List RunnerEntry} (h : passing j log = true) :
    ∃ e ∈ log, e.process = j := by
  rw [passing] at h
  cases hfound : log.findSome? (RunnerEntry.tells j) with
  | none =>
      rw [hfound] at h
      cases h
  | some b =>
      obtain ⟨e, he, htells⟩ := List.exists_of_findSome?_eq_some hfound
      refine ⟨e, he, ?_⟩
      by_contra hne
      cases e with
      | crashed k => cases htells.symm.trans (if_neg hne)
      | answered k o r =>
          cases o with
          | findRunning =>
              cases r with
              | error e => cases htells
              | ok found =>
                  cases found with
                  | none => cases htells.symm.trans (if_neg hne)
                  | some run => cases htells
          | create config => cases htells.symm.trans (if_neg hne)
          | _ => cases htells

end

/-! ## The right to run a simulation -/

/-- Who has the right to run a simulation, and which record says so. -/
inductive Charge where
  | nobody
  /-- Process `i` was told that nothing is running. -/
  | asked (i : Nat)
  /-- Process `i` has inserted a record. -/
  | holding (i : Nat) (id : String)

/-- What the right says of the records, and of who is passing. -/
def Charge.Says (s : RunnerState) : Charge → Prop
  | nobody => NoneRunning s.runs ∧ ∀ j, passing j s.log = false
  | asked i => NoneRunning s.runs ∧ ∀ j, passing j s.log = true → j = i
  | holding _ id => RunningOnly id s.runs ∧ ∀ j, passing j s.log = false

/-- Process `i` has the right, and has not inserted its record. -/
def Asked (i : Nat) (s : RunnerState × Charge) : Prop :=
  s.2 = .asked i ∧ passing i s.1.log = true

/-- Process `i` has the right, and its record is RUNNING. -/
def Executing (i : Nat) (id : String) (s : RunnerState × Charge) : Prop :=
  s.2 = .holding i id ∧ ∃ run, s.1.runs.get id = some run ∧ run.status = .running

/-- Nobody takes the right away from who has it, and engines are run by who has it. -/
def exclusive : Logic oneRequestAtATime Charge where
  Inv s := s.2.Says s.1
  Guar i s s' := (∀ j, j ≠ i → passing j s'.1.log = passing j s.1.log
      ∧ (Asked j s → s'.2 = s.2) ∧ ∀ id, Executing j id s → Executing j id s')
    ∧ ∀ o r, s'.1.log = .answered i o r :: s.1.log → ∀ config, o = .runEngine config →
      ∃ id, Executing i id s

section

variable {i : Nat}

theorem asked_stable : exclusive.Stable i (Asked i) := by
  refine Logic.stable_of_step fun j s s' hj hg _ h => ?_
  obtain ⟨hpassing, hright, -⟩ := hg.1 i hj.symm
  exact ⟨(hright h).trans h.1, hpassing.trans h.2⟩

theorem executing_stable (id : String) : exclusive.Stable i (Executing i id) :=
  Logic.stable_of_step fun _ _ _ hj hg _ h => (hg.1 i hj.symm).2.2 id h

/-- What is logged of an operation that runs no engine. -/
theorem no_engine {o : RunnerOp} {c : RunnerChoice} {s : RunnerState} {p : Prop}
    (ho : ∀ config, o ≠ .runEngine config) (o' : RunnerOp) (r : Except RunnerExn (RunnerAns o'))
    (hlog : (runnerExec i o c s).2.log = .answered i o' r :: s.log) (config : SimulationConfig)
    (h : o' = .runEngine config) : p := by
  rw [runnerExec_log] at hlog
  obtain ⟨⟨-, rfl, -⟩, -⟩ := List.cons.inj hlog |>.imp RunnerEntry.answered.inj id
  exact absurd h (ho config)

/-- An operation that leaves the records alone, and whom the log says to be passing. -/
theorem exclusive_kept {o : RunnerOp} {c : RunnerChoice} {s : RunnerState × Charge}
    (hruns : (runnerExec i o c s.1).2.runs = s.1.runs)
    (hsame : ∀ j, passing j (runnerExec i o c s.1).2.log = passing j s.1.log)
    (hinv : exclusive.Inv s) :
    exclusive.Inv ((runnerExec i o c s.1).2, s.2)
      ∧ ∀ j, passing j (runnerExec i o c s.1).2.log = passing j s.1.log
        ∧ (Asked j s → s.2 = s.2)
        ∧ ∀ id, Executing j id s → Executing j id ((runnerExec i o c s.1).2, s.2) := by
  refine ⟨?_, fun j => ⟨hsame j, fun _ => rfl, ?_⟩⟩
  · change s.2.Says (runnerExec i o c s.1).2
    have hagrees : s.2.Says s.1 := hinv
    unfold Charge.Says at hagrees ⊢
    simp only [hruns, hsame]
    exact hagrees
  · rintro id ⟨hright, run, hget, hrunning⟩
    exact ⟨hright, run, (congrArg (Collection.get · id) hruns).trans hget, hrunning⟩

/-- Asking: who is told that nothing is running gets the right. -/
theorem exclusive_findRunning : exclusive.Atomic i .findRunning (fun _ => True)
    fun r s => r = .ok none → Asked i s := by
  intro s hinv _ c hc
  have hruns : (runnerExec i .findRunning c s.1).2.runs = s.1.runs := runs_of_idle rfl
  have hothers : ∀ j, j ≠ i → passing j (runnerExec i .findRunning c s.1).2.log
      = passing j s.1.log := fun j hj => passing_exec_other hj
  by_cases htold : (runnerExec i .findRunning c s.1).1 = .ok none
  · have hnone := noneRunning_of_findRunning htold
    -- who else is passing would have stopped this process from asking
    have hfree : ∀ j, j ≠ i → passing j s.1.log = false := by
      intro j hj
      cases hpassing : passing j s.1.log with
      | false => rfl
      | true =>
          obtain ⟨e, he, rfl⟩ := mem_of_passing hpassing
          exact hpassing.symm.trans (hc rfl e he hj)
    refine ⟨.asked i, ⟨hruns ▸ hnone, fun j hj => ?_⟩, ⟨fun j hj => ⟨hothers j hj, ?_, ?_⟩, ?_⟩, ?_⟩
    · by_contra hne
      rw [hothers j hne, hfree j hne] at hj
      cases hj
    · rintro ⟨-, hpassing⟩
      rw [hfree j hj] at hpassing
      cases hpassing
    · rintro id ⟨-, run, hget, hrunning⟩
      exact absurd hrunning (hnone _ _ hget)
    · exact no_engine fun _ h => by cases h
    · refine fun _ => ⟨rfl, ?_⟩
      change passing i (runnerExec i .findRunning c s.1).2.log = true
      rw [passing_exec, htold, RunnerEntry.tells, if_pos rfl]
      rfl
  -- told of a simulation, or of a failure: nothing changes hands
  · have hsilent : RunnerEntry.tells i (.answered i .findRunning
        (runnerExec i .findRunning c s.1).1) = none := by
      cases hr : (runnerExec i .findRunning c s.1).1 with
      | error e => rfl
      | ok found =>
          cases found with
          | none => exact absurd hr htold
          | some run => rfl
    obtain ⟨hagrees, hkept⟩ := exclusive_kept hruns (passing_exec_silent hsilent) hinv
    exact ⟨s.2, hagrees, ⟨fun j _ => hkept j, no_engine fun _ h => by cases h⟩,
      fun h => absurd h htold⟩

/-- The insert of a record. -/
theorem exclusive_create (config : SimulationConfig) :
    exclusive.Atomic i (.create config) (Asked i)
      fun r s => ∀ run, r = .ok run → Executing i run.id s := by
  intro s hinv hs c _
  obtain ⟨hright, -⟩ := hs
  have hagrees : s.2.Says s.1 := hinv
  rw [hright] at hagrees
  obtain ⟨hnone, honly⟩ := hagrees
  have hidle : ∀ j, passing j (runnerExec i (.create config) c s.1).2.log = false := by
    intro j
    by_cases hj : j = i
    · subst hj
      rw [passing_exec, RunnerEntry.tells, if_pos rfl]
      rfl
    · rw [passing_exec_other hj]
      by_contra hpassing
      exact hj (honly j (by simpa using hpassing))
  -- nobody else has the right
  have hothers : ∀ γ j, j ≠ i →
      passing j (runnerExec i (.create config) c s.1).2.log = passing j s.1.log
      ∧ (Asked j s → γ = s.2)
      ∧ ∀ id, Executing j id s → Executing j id ((runnerExec i (.create config) c s.1).2, γ) := by
    refine fun γ j hj => ⟨passing_exec_other hj, fun h => ?_, fun id h => ?_⟩
    · have heq := hright.symm.trans h.1
      cases heq
      exact absurd rfl hj
    · have heq := hright.symm.trans h.1
      cases heq
  -- the insertion may fail, with the record written or not
  rcases runs_of_create (i := i) (c := c) (s := s.1) config with hsame | hins
  · refine ⟨.nobody, ⟨?_, hidle⟩, ⟨hothers .nobody, no_engine fun _ h => by cases h⟩, ?_⟩
    · rw [hsame]
      exact hnone
    · intro run hrun
      obtain ⟨rfl, hins⟩ := create_ok hrun
      have hget := (Collection.get_insert hins c.newId).trans (if_pos rfl)
      rw [hsame] at hget
      exact absurd rfl (hnone _ _ hget)
  · refine ⟨.holding i c.newId, ⟨fun k run hget hrunning => ?_, hidle⟩,
      ⟨hothers _, no_engine fun _ h => by cases h⟩, ?_⟩
    · rw [Collection.get_insert hins] at hget
      split at hget
      · rename_i hk
        exact hk
      · exact absurd hrunning (hnone _ _ hget)
    · intro run hrun
      obtain ⟨rfl, -⟩ := create_ok hrun
      exact ⟨rfl, _, (Collection.get_insert hins c.newId).trans (if_pos rfl), rfl⟩

/-- The engine. -/
theorem exclusive_runEngine (id : String) (config : SimulationConfig) :
    exclusive.Atomic i (.runEngine config) (Executing i id) fun _ => Executing i id := by
  intro s hinv hs c _
  have hruns : (runnerExec i (.runEngine config) c s.1).2.runs = s.1.runs := runs_of_idle rfl
  obtain ⟨hagrees, hkept⟩ := exclusive_kept hruns (passing_exec_silent rfl) hinv
  exact ⟨s.2, hagrees, ⟨fun j _ => hkept j, fun _ _ _ _ _ => ⟨id, hs⟩⟩, (hkept i).2.2 id hs⟩

/-- The end of a run, which gives the right back. -/
theorem exclusive_finish {id : String} {status : SimulationRunStatus}
    (hstatus : status ≠ .running) (error : Option String) (report : Option SimulationReport) :
    exclusive.Atomic i (.finish id status error report) (Executing i id) fun _ _ => True := by
  intro s hinv hs c _
  have hsame : ∀ j, passing j (runnerExec i (.finish id status error report) c s.1).2.log
      = passing j s.1.log := passing_exec_silent rfl
  -- if the record stays RUNNING, the right stays with this process for good
  rcases runs_of_finish (i := i) (c := c) (s := s.1) id status error report with hruns | hruns
  · obtain ⟨hagrees, hkept⟩ := exclusive_kept hruns hsame hinv
    exact ⟨s.2, hagrees, ⟨fun j _ => hkept j, no_engine fun _ h => by cases h⟩, trivial⟩
  · obtain ⟨hright, -⟩ := hs
    have hagrees : s.2.Says s.1 := hinv
    rw [hright] at hagrees
    obtain ⟨honly, hidle⟩ := hagrees
    refine ⟨.nobody, ⟨fun k run hget hrunning => ?_, fun j => (hsame j).trans (hidle j)⟩,
      ⟨fun j hj => ⟨hsame j, fun h => ?_, fun id' h => ?_⟩, no_engine fun _ h => by cases h⟩,
      trivial⟩
    · change (runnerExec i (.finish id status error report) c s.1).2.runs.get k = some run at hget
      rw [hruns, SimulationRunRepository.finish, Collection.get_update,
        Option.map_eq_some_iff] at hget
      obtain ⟨old, hold, rfl⟩ := hget
      by_cases hk : k = id
      · rw [if_pos ⟨hk, rfl⟩] at hrunning
        exact hstatus hrunning
      · rw [if_neg fun h => hk h.1] at hrunning
        exact hk (honly k old hold hrunning)
    · have heq := hright.symm.trans h.1
      cases heq
    · have heq := hright.symm.trans h.1
      cases heq
      exact absurd rfl hj

/-! ## Every run -/

theorem exclusive_execute {id : String} (config : SimulationConfig) {s : RunnerState × Charge}
    (hs : Executing i id s) :
    exclusive.wp i (SimulationRunner.execute id config) (fun _ _ => True) s := by
  have hend : ∀ (status : SimulationRunStatus) error report s, status ≠ .running →
      Executing i id s →
      exclusive.wp i (SimulationRunner.finish id status error report) (fun _ _ => True) s :=
    fun status error report s hstatus h =>
      Logic.wp_perform (executing_stable id) (exclusive_finish hstatus error report) h
  refine Logic.wp_bind (Logic.wp_tryCatch (Logic.wp_bind (Logic.wp_mono
    (Logic.wp_perform (executing_stable id) (exclusive_runEngine id config) hs) ?_)))
  intro r s₁ hs₁
  cases r with
  | ok report =>
      refine hend _ _ _ s₁ ?_ hs₁
      split <;> decide
  | error e =>
      cases e with
      | cancelledError =>
          refine Logic.wp_bind (Logic.wp_mono (hend .failed _ _ s₁ (by decide) hs₁) ?_)
          intro r s₂ _
          cases r <;> trivial
      | exception typeName text =>
          refine Logic.wp_bind (Logic.wp_mono (hend .failed _ _ s₁ (by decide) hs₁) ?_)
          intro r s₂ _
          cases r <;> trivial

theorem exclusive_program (config : SimulationConfig) (s : RunnerState × Charge) :
    exclusive.wp i config.program (fun _ _ => True) s := by
  refine Logic.wp_bind (Logic.wp_bind (Logic.wp_mono
    (Logic.wp_perform Logic.stable_true exclusive_findRunning trivial) ?_))
  intro r s₁ hs₁
  cases r with
  | error e => trivial
  | ok found =>
      cases found with
      | some run => trivial
      | none =>
          refine Logic.wp_mono (Logic.wp_perform asked_stable (exclusive_create config)
            (hs₁ rfl)) ?_
          intro r s₂ hs₂
          cases r with
          | error e => trivial
          | ok run => exact exclusive_execute config (hs₂ run rfl)

theorem exclusive_verified : exclusive.Verified JustStarted where
  init s hs := by
    have hidle : ∀ j, passing j s.log = false := by
      intro j
      rw [passing, hs.log]
      rfl
    by_cases hsome : ∃ run ∈ s.runs.docs, run.status = .running
    · -- a record that is left over gives the right to nobody
      obtain ⟨run, hrun, hrunning⟩ := hsome
      refine ⟨.holding 0 run.id, fun k run' hget hrunning' => ?_, hidle⟩
      have hid : run'.id = k := Collection.key_of_get hget
      exact hid ▸ hs.one run' (Collection.mem_of_get hget) hrunning' run hrun hrunning
    · refine ⟨.nobody, fun k run hget hrunning => ?_, hidle⟩
      exact hsome ⟨run, Collection.mem_of_get hget, hrunning⟩
  task config _ i s _ := exclusive_program config s
  crash i s hinv := by
    have hle : ∀ j, passing j (runnerCrash i s.1).log = true → passing j s.1.log = true := by
      intro j hj
      by_cases hji : j = i
      · subst hji
        rw [passing_crash] at hj
        cases hj
      · rwa [passing_crash_other hji] at hj
    refine ⟨s.2, ?_, ⟨fun j hj => ⟨passing_crash_other hj, fun _ => rfl, fun _ h => h⟩, ?_⟩⟩
    · have hagrees : s.2.Says s.1 := hinv
      change s.2.Says (runnerCrash i s.1)
      cases hright : s.2 with
      | nobody =>
          rw [hright] at hagrees
          exact ⟨hagrees.1, fun j => by simpa using mt (hle j) (by simp [hagrees.2 j])⟩
      | asked k =>
          rw [hright] at hagrees
          exact ⟨hagrees.1, fun j hj => hagrees.2 j (hle j hj)⟩
      | holding k id =>
          rw [hright] at hagrees
          exact ⟨hagrees.1, fun j => by simpa using mt (hle j) (by simp [hagrees.2 j])⟩
    · intro o r hlog
      cases (List.cons.inj hlog).1

/--
**One simulation at a time.** In every run of requests and of the tasks they leave behind, in
any interleaving, with failures, cancellations and crashes anywhere, in which no request asks
whether a simulation is running while another is between its question and its record: one
record at most is RUNNING, and one engine at most runs.
-/
theorem one_simulation_at_a_time {w : World runner}
    (h : Reachable oneRequestAtATime JustStarted w) : OneRecord w.st ∧ OneEngine w := by
  obtain ⟨γ, hinv, hprocs⟩ := exclusive_verified.good h
  have hgood : exclusive.Good (fun _ _ _ => True) w γ := ⟨hinv, hprocs⟩
  constructor
  · have hagrees : γ.Says w.st := hinv
    have hget : ∀ run ∈ w.st.runs.docs, w.st.runs.get run.id = some run :=
      fun run hrun => Collection.get_of_mem hrun
    intro run hrun hrunning run' hrun' hrunning'
    cases γ with
    | nobody => exact absurd hrunning (hagrees.1 _ _ (hget run hrun))
    | asked k => exact absurd hrunning (hagrees.1 _ _ (hget run hrun))
    | holding k id =>
        exact (hagrees.1 _ _ (hget run hrun) hrunning).trans
          (hagrees.1 _ _ (hget run' hrun') hrunning').symm
  · have hright : ∀ i config, w.Awaits i (.runEngine config) → ∃ id, γ = .holding i id := by
      rintro i config ⟨k, hk⟩
      have hc : oneRequestAtATime.run i (.runEngine config) {} w.st := fun h => by cases h
      obtain ⟨_, -, hguar, -⟩ := hgood.run hk hc
      obtain ⟨id, hheld, -⟩ := hguar.2 _ _ runnerExec_log config rfl
      exact ⟨id, hheld⟩
    intro i j config config' hi hj
    obtain ⟨id, hγ⟩ := hright i config hi
    obtain ⟨id', hγ'⟩ := hright j config' hj
    cases hγ.symm.trans hγ'
    rfl

end

/-! ## Two requests -/

/-- No simulation has ever been run. -/
def noRuns : RunnerState where
  runs := .empty

theorem noRuns_justStarted : JustStarted noRuns where
  one _ hrun := by cases hrun
  log := rfl

/-- A simulation. -/
def steady : SimulationConfig where
  name := "steady"

/-- Two requests that are told, one after the other, that nothing is running. -/
def twoRequests : List (Label runner) :=
  [.spawn steady, .spawn steady, .run 0 {}, .run 1 {}, .run 0 { newId := "first" },
    .run 1 { newId := "second" }]

/-- Two records are RUNNING, and two engines run. -/
theorem two_simulations_at_a_time :
    ∃ w, Reachable (Policy.any runner) JustStarted w ∧ ¬OneRecord w.st ∧ ¬OneEngine w := by
  obtain ⟨w, hw, htest⟩ := Reachable.of_play (Policy.any runner) noRuns_justStarted twoRequests
    (fun w => decide (¬OneRecord w.st ∧ w.awaited 0 = some (.runEngine steady)
      ∧ w.awaited 1 = some (.runEngine steady)))
    (by decide +kernel)
  obtain ⟨hrecords, hfirst, hsecond⟩ := of_decide_eq_true htest
  refine ⟨w, hw, hrecords, fun hone => ?_⟩
  cases hone 0 1 _ _ (awaits_of_awaited hfirst) (awaits_of_awaited hsecond)

/-- A request that is refused while the first runs, and one that is not when it is over. -/
def threeRequests : List (Label runner) :=
  [.spawn steady, .run 0 {}, .run 0 { newId := "first" }, .spawn steady, .run 1 {}, .run 0 {},
    .run 0 {}, .spawn steady, .run 2 {}, .run 2 { newId := "third" }]

theorem one_simulation_at_a_time_threeRequests :
    ∃ w, Reachable oneRequestAtATime JustStarted w ∧ w.awaited 2 = some (.runEngine steady)
      ∧ w.st.runs.docs.map SimulationRun.id = ["first", "third"]
      ∧ OneRecord w.st ∧ OneEngine w := by
  obtain ⟨w, hw, htest⟩ := Reachable.of_play oneRequestAtATime noRuns_justStarted threeRequests
    (fun w => decide (w.awaited 2 = some (.runEngine steady)
      ∧ w.st.runs.docs.map SimulationRun.id = ["first", "third"]))
    (by decide +kernel)
  obtain ⟨hthird, hids⟩ := of_decide_eq_true htest
  exact ⟨w, hw, hthird, hids, one_simulation_at_a_time hw⟩

end SmartDialer
