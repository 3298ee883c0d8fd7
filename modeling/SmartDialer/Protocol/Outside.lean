import SmartDialer.Workers.DialerWorker

/-!
# What is done outside a dial

Event processors, recovery sweeps, wrap-up timers, the agent API and the safety
controller issue many operations, but never one that sets a call up: they reserve
nobody, create and attach nothing, and take no call to RESERVED or INITIATED and no
agent to RESERVED or DIALING. `Op.Outside` is that alphabet, with the call states a
program may move calls to as a parameter, and this file checks each of their programs
against it.
-/

namespace SmartDialer

open Conc

/--
An operation that takes nothing from anybody: it moves no call, holds and releases
nobody, and takes an agent out of RESERVED, DIALING or CONNECTED only by a logout.
-/
def Op.Quiet : Op → Prop
  | .tryReserveAgent .. | .tryReserveBorrower .. | .releaseAgent .. | .releaseBorrower ..
  | .releaseExpiredAgentLease .. | .reclaimExpiredBorrowerLease .. | .insertCall ..
  | .bindCall .. | .attachProviderCallId .. | .transitionCall .. | .originateCall .. => False
  | .transitionAgent _ fromState toState _ =>
      toState ≠ .reserved ∧ toState ≠ .dialing ∧ (toState.held = true → fromState.held = true)
        ∧ (fromState.held = true → toState.held = true ∨ toState = .offline)
  | _ => True

/-- Not an operation that sets a call up; calls are moved to states in `T` at most. -/
def Op.Outside (T : CallState → Prop) : Op → Prop
  | .transitionCall _ targetState _ => T targetState
  | .releaseAgent _ _ target _ _ => target.held = false
  | .releaseBorrower .. | .releaseExpiredAgentLease .. | .reclaimExpiredBorrowerLease .. => True
  | o => o.Quiet

variable {T : CallState → Prop}

theorem Op.Quiet.outside {o : Op} (h : o.Quiet) : o.Outside T := by
  cases o with
  | transitionCall _ _ _ => exact h.elim
  | releaseAgent _ _ _ _ _ => exact h.elim
  | releaseBorrower _ _ _ _ _ _ => trivial
  | releaseExpiredAgentLease _ _ => trivial
  | reclaimExpiredBorrowerLease _ _ => trivial
  | _ => exact h

theorem outside_of_quiet {α : Type} {p : Async α} (h : p.All Op.Quiet) :
    p.All (Op.Outside T) :=
  h.mono fun _ => Op.Quiet.outside

/-- Only the allocator takes an agent to RESERVED or DIALING. -/
theorem quiet_transitionAgent {f t : AgentState} {actor : TransitionActor} {u : Unit}
    (hact : actor ≠ .allocator) (h : validateTransition f t actor = .ok u)
    (hheld : f.held = true → t.held = true ∨ t = .offline) (agentId : String) (version : Nat) :
    (Op.transitionAgent agentId f t version).Quiet := by
  obtain ⟨-, hallowed⟩ := validateTransition_ok h
  have hset : t ≠ .reserved ∧ t ≠ .dialing ∧ (t.held = true → f.held = true) := by
    revert hact hallowed
    cases f <;> cases t <;> cases actor <;> simp [isActorAllowed, transitionActors,
      AgentState.held]
  exact ⟨hset.1, hset.2.1, hset.2.2, hheld⟩

/-- What agents do themselves frees them only if they log out. -/
theorem agent_frees_by_logout {f t : AgentState} {u : Unit}
    (h : validateTransition f t .agent = .ok u) (hf : f.held = true) :
    t.held = true ∨ t = .offline := by
  obtain ⟨-, hallowed⟩ := validateTransition_ok h
  revert hf hallowed
  cases f <;> cases t <;> simp [isActorAllowed, transitionActors, AgentState.held]

namespace Agents

theorem releaseAgent_outside {target : AgentState} (h : target.held = false)
    (agentId workerId : String) (actor : TransitionActor) (shielded : Bool) :
    (releaseAgent agentId workerId target actor shielded).All (Op.Outside T) :=
  releaseAgent_all h

theorem transitionAgent_quiet {actor : TransitionActor} (hact : actor ≠ .allocator)
    {f t : AgentState} (agentId : String) (version : Nat)
    (hheld : ∀ u, validateTransition f t actor = .ok u →
      f.held = true → t.held = true ∨ t = .offline) :
    (transitionAgent agentId f t actor version).All Op.Quiet :=
  transitionAgent_all fun u h => quiet_transitionAgent hact h (hheld u h) agentId version

end Agents

/-! ## The event processor -/

namespace EventProcessor

theorem finish_quiet (event : ProviderEvent) (status : EventProcessingStatus)
    (appliedTransition : Option String) :
    (finish event status appliedTransition).All Op.Quiet :=
  Prog.all_bind (Prog.all_perform trivial) fun _ => trivial

theorem finish_outside (event : ProviderEvent) (status : EventProcessingStatus)
    (appliedTransition : Option String) :
    (finish event status appliedTransition).All (Op.Outside T) :=
  outside_of_quiet (finish_quiet ..)

theorem agentStateForCallState_not_held {target : CallState} {s : AgentState}
    (h : agentReleasingCallStates.contains target = true)
    (hs : agentStateForCallState target = some s) : s.held = false := by
  cases target <;> simp_all [agentReleasingCallStates, agentStateForCallState] <;> subst hs <;> rfl

theorem agentStateForCallState_held {target : CallState} {s : AgentState}
    (h : ¬agentReleasingCallStates.contains target = true)
    (hs : agentStateForCallState target = some s) : s.held = true := by
  cases target <;> simp_all [agentReleasingCallStates, agentStateForCallState] <;> subst hs <;> rfl

/-- What a state change that does not end the call does to the agent. -/
theorem advanceAgent_quiet {targetState : CallState} {agentState : AgentState}
    (h : ¬agentReleasingCallStates.contains targetState = true)
    (hs : agentStateForCallState targetState = some agentState) (agent : Agent) :
    (Prog.tryCatch
      (do
        let _ ← Agents.transitionAgent agent.id agent.state agentState .eventProcessor
          agent.stateVersion
        pure ())
      fun
        | .stateMachine _ => pure ()
        | e => throw e : Async Unit).All Op.Quiet := by
  refine Prog.all_tryCatch (Prog.all_bind (Agents.transitionAgent_quiet (by decide) _ _
    fun _ _ _ => .inl (agentStateForCallState_held h hs)) fun _ => trivial) fun e => ?_
  cases e <;> trivial

/-- As long as the call has not ended, its agent is not released. -/
theorem applyAgentTransition_quiet (call : Call) {targetState : CallState}
    (h : ¬agentReleasingCallStates.contains targetState = true) :
    (applyAgentTransition call targetState).All Op.Quiet := by
  rw [applyAgentTransition]
  split
  · trivial
  · rename_i agentState hstate
    refine Prog.all_bind (Prog.all_perform trivial) fun answer => ?_
    cases answer with
    | none => trivial
    | some agent =>
        dsimp only
        rw [if_neg h]
        split
        · trivial
        · exact advanceAgent_quiet h hstate agent

theorem applyAgentTransition_outside (call : Call) (targetState : CallState) :
    (applyAgentTransition call targetState).All (Op.Outside T) := by
  by_cases hrel : agentReleasingCallStates.contains targetState = true
  · rw [applyAgentTransition]
    split
    · trivial
    · rename_i agentState hstate
      refine Prog.all_bind (Prog.all_perform trivial) fun answer => ?_
      cases answer with
      | none => trivial
      | some agent =>
          dsimp only
          rw [if_pos hrel]
          split
          · trivial
          · exact Prog.all_bind (Agents.releaseAgent_outside
              (agentStateForCallState_not_held hrel hstate) ..) fun _ => trivial
  · exact outside_of_quiet (applyAgentTransition_quiet call hrel)

theorem releaseBorrower_outside (cfg : Settings) (call : Call) (targetState : CallState) :
    (releaseBorrower cfg call targetState).All (Op.Outside T) :=
  Prog.all_bind (Prog.all_perform trivial) fun _ => trivial

theorem eventTypeToCallState_rank {eventType : String} {s : CallState}
    (h : eventTypeToCallState eventType = some s) : 3 ≤ rank s := by
  unfold eventTypeToCallState at h
  split at h <;> simp at h <;> subst h <;> decide

theorem applyEvent_outside (hT : ∀ t, 3 ≤ rank t → T t) (cfg : Settings)
    (event : ProviderEvent) :
    (applyEvent cfg event).All (Op.Outside T) := by
  refine Prog.all_bind (Prog.all_perform trivial) fun answer => ?_
  cases answer with
  | none => exact finish_outside ..
  | some call =>
      dsimp only
      split
      · exact finish_outside ..
      · rename_i targetState htype
        split
        · refine Prog.all_bind (Prog.all_perform (hT _ (eventTypeToCallState_rank htype)))
            fun answer => ?_
          cases answer with
          | none => exact finish_outside ..
          | some updated =>
              refine Prog.all_bind (applyAgentTransition_outside ..) fun _ => ?_
              dsimp only
              split
              · exact Prog.all_bind (releaseBorrower_outside ..) fun _ => finish_outside ..
              · exact finish_outside ..
        · exact finish_outside ..

theorem processEvent_outside (hT : ∀ t, 3 ≤ rank t → T t) (cfg : Settings)
    (event : ProviderEvent) :
    (processEvent cfg event).All (Op.Outside T) := by
  refine Prog.all_bind (Prog.all_perform trivial) fun answer => ?_
  cases answer with
  | duplicate => trivial
  | recorded =>
      refine Prog.all_tryCatch (applyEvent_outside hT cfg event) fun e => ?_
      split
      · exact finish_outside ..
      · trivial

end EventProcessor

/-! ## The recovery worker and the wrap-up timer -/

namespace RecoveryWorker

theorem releaseBorrower_outside (cfg : Settings) (call : Call) :
    (releaseBorrower cfg call).All (Op.Outside T) :=
  Prog.all_bind (Prog.all_perform trivial) fun _ => trivial

theorem cancelBoundCall_outside (hT : T .cancelled) (cfg : Settings) (agent : Agent)
    (reason : String) :
    (cancelBoundCall cfg agent reason).All (Op.Outside T) :=
  cancelBoundCall_all (fun _ => trivial) (fun _ => hT) (releaseBorrower_outside cfg) agent

theorem releaseParties_outside (cfg : Settings) (call : Call) :
    (releaseParties cfg call).All (Op.Outside T) :=
  Prog.all_bind (Agents.releaseAgent_outside rfl ..) fun _ => releaseBorrower_outside ..

theorem reconcileCall_outside (hfailed : T .failed) (hcompleted : T .completed) (cfg : Settings)
    (call : Call) : (reconcileCall cfg call).All (Op.Outside T) := by
  refine reconcileCall_all (fun _ _ => trivial) (fun _ targetState _ hstate => ?_)
    (releaseParties_outside cfg) call
  rcases hstate with rfl | rfl
  · exact hfailed
  · exact hcompleted

theorem endWrapUp_quiet {actor : TransitionActor} (hact : actor ≠ .allocator) (agent : Agent) :
    (endWrapUp actor agent).All Op.Quiet :=
  Prog.all_bind (Agents.transitionAgent_quiet hact _ _ fun _ _ h => by cases h) fun _ => trivial

theorem logOut_quiet (agent : Agent) :
    (Agents.transitionAgent agent.id agent.state .offline .recovery agent.stateVersion).All
      Op.Quiet :=
  Agents.transitionAgent_quiet (by decide) _ _ fun _ _ _ => .inr rfl

theorem sweepExpiredAgentLeases_outside (hT : T .cancelled) (cfg : Settings) (now : Time) :
    (sweepExpiredAgentLeases cfg now).All (Op.Outside T) :=
  sweepExpiredAgentLeases_all (fun _ _ => trivial)
    (fun agent => cancelBoundCall_outside hT cfg agent _) (fun _ _ => trivial) now

theorem sweepExpiredBorrowerLeases_outside (cfg : Settings) (now : Time) :
    (sweepExpiredBorrowerLeases cfg now).All (Op.Outside T) :=
  sweepExpiredBorrowerLeases_all (fun _ _ => trivial) (fun _ _ => trivial) now

theorem sweepHeartbeatTimeouts_outside (hT : T .cancelled) (cfg : Settings) (now : Time) :
    (sweepHeartbeatTimeouts cfg now).All (Op.Outside T) :=
  sweepHeartbeatTimeouts_all (fun _ _ => trivial)
    (fun agent => cancelBoundCall_outside hT cfg agent _)
    (fun agent => outside_of_quiet (logOut_quiet agent)) now

theorem sweepStuckWrapUps_outside (cfg : Settings) (now : Time) :
    (sweepStuckWrapUps cfg now).All (Op.Outside T) :=
  sweepStuckWrapUps_all (fun _ _ _ => trivial)
    (fun agent => outside_of_quiet (endWrapUp_quiet (by decide) agent)) now

theorem runSweeps_outside (hT : ∀ t, 3 ≤ rank t → T t) (cfg : Settings) :
    (runSweeps cfg).All (Op.Outside T) := by
  have hcancelled : T .cancelled := hT _ (by decide)
  have hcalls : ∀ now, (sweepOrphanedCalls cfg now).All (Op.Outside T) :=
    sweepOrphanedCalls_all (fun _ _ => trivial)
      (reconcileCall_outside (hT _ (by decide)) (hT _ (by decide)) cfg)
  exact runSweeps_all trivial (sweepExpiredAgentLeases_outside hcancelled cfg)
    (sweepExpiredBorrowerLeases_outside cfg) hcalls
    (sweepHeartbeatTimeouts_outside hcancelled cfg) (sweepStuckWrapUps_outside cfg)

end RecoveryWorker

theorem DialerWorker.releaseFinishedWrapUps_quiet (cfg : Settings) (campaignId : String) :
    (releaseFinishedWrapUps cfg campaignId).All Op.Quiet := by
  refine Prog.all_bind (Prog.all_perform trivial) fun _ => ?_
  refine Prog.all_bind (Prog.all_perform trivial) fun agents => ?_
  exact Prog.all_bind (Prog.all_count (RecoveryWorker.endWrapUp_quiet (by decide)) _)
    fun _ => trivial

/-! ## The agent API and the safety controller -/

theorem RoutesAgents.agentAction_quiet (agentId action : String) :
    (agentAction agentId action).All Op.Quiet := by
  have hbeat : ∀ agent : Agent, Prog.All Op.Quiet (do
      let _ ← await (.heartbeat agent.id)
      let _ ← await (.findAgentById agent.id)
      pure ()) := fun agent =>
    Prog.all_bind (Prog.all_perform trivial) fun _ =>
      Prog.all_bind (Prog.all_perform trivial) fun _ => trivial
  refine Prog.all_bind (Prog.all_perform trivial) fun answer => ?_
  cases answer with
  | none => trivial
  | some agent =>
      dsimp only
      split
      · exact hbeat agent
      · split
        · trivial
        · refine Prog.all_bind (Agents.transitionAgent_quiet (by decide) _ _
            fun _ => agent_frees_by_logout) fun answer => ?_
          cases answer with
          | none => trivial
          | some _ =>
              dsimp only
              split
              · exact hbeat agent
              · trivial

theorem SafetyController.evaluate_quiet (cfg : Settings) (campaign : Campaign)
    (request : PacingRequest) (pacingDecisionId : Option String) (persist : Bool) :
    (evaluate cfg campaign request pacingDecisionId persist).All Op.Quiet := by
  refine (evaluate_all cfg campaign request pacingDecisionId persist).mono fun o ho => ?_
  cases o <;> first | exact ho.elim | trivial

end SmartDialer
