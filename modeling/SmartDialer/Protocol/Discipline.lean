import SmartDialer.Protocol.Repertoire

/-!
# What every program keeps to

Some facts about documents need no reasoning about interleavings: they are kept by every
operation the programs ever issue, whoever issues it and whatever happened before. What it
takes is that the programs keep to a discipline in the arguments they pass. No agent is
moved into RESERVED, DIALING or CONNECTED from outside these states, none is released into
them, and every release of a borrower brings the configured number of attempts.
-/

namespace SmartDialer

open Conc

/-- How an operation may be called. -/
def Op.Disciplined (cfg : Settings) : Op → Prop
  | .transitionAgent _ fromState toState _ => toState.held = true → fromState.held = true
  | .releaseAgent _ _ target _ _ => target.held = false
  | .releaseBorrower _ _ _ maxAttempts _ _ => maxAttempts = cfg.maxCallAttempts
  | _ => True

variable {cfg : Settings}

/-- RESERVED apart, the table leads into the held states from held states only. -/
theorem held_of_validateTransition {f t : AgentState} {actor : TransitionActor} {u : Unit}
    (h : validateTransition f t actor = .ok u) (ht : t ≠ .reserved) (hheld : t.held = true) :
    f.held = true := by
  obtain ⟨hedge, -⟩ := validateTransition_ok h
  revert hedge ht hheld
  cases f <;> cases t <;> simp [AgentState.canTransition, agentTransitions, AgentState.held]

theorem Op.Issued.disciplined {o : Op} (h : o.Issued cfg) : o.Disciplined cfg := by
  obtain ⟨actor, past, h⟩ := h
  cases o with
  | transitionAgent _ _ _ _ => exact held_of_validateTransition h.1 h.2.1
  | releaseAgent _ _ _ _ _ => rcases h.2 with rfl | rfl <;> rfl
  | releaseBorrower _ _ _ _ _ _ => exact h.1
  | _ => trivial

/-- **Every task keeps to the discipline.** -/
theorem Task.program_disciplined (t : Task) : (t.program cfg).All (Op.Disciplined cfg) :=
  t.program_issued.mono fun _ => Op.Issued.disciplined

end SmartDialer
