import SmartDialer.Models.Enums

/-!
# The agent state machine

`app/state_machines/agent_sm.py`: which changes of an agent's state are legal, and
which component may make them.
-/

namespace SmartDialer

/-- `TransitionActor`. -/
inductive TransitionActor where
  | allocator | eventProcessor | recovery | agent | workerTimer
  deriving DecidableEq, Repr

/-- `app/state_machines/errors.py`. -/
inductive StateMachineError where
  | invalidStateTransition (current target : AgentState) (actor : TransitionActor)
  | unauthorizedTransitionActor (current target : AgentState) (actor : TransitionActor)
  deriving DecidableEq, Repr

/-- `AGENT_TRANSITIONS`. -/
def agentTransitions : AgentState → List AgentState
  | .offline => [.available]
  | .available => [.reserved, .paused, .offline]
  | .reserved => [.dialing, .available, .offline]
  | .dialing => [.connected, .available, .offline]
  | .connected => [.wrapUp, .available, .offline]
  | .wrapUp => [.available, .paused, .offline]
  | .paused => [.available, .offline]

/-- `TRANSITION_ACTORS`; a pair that is not a key has no actor. -/
def transitionActors : AgentState → AgentState → List TransitionActor
  | .offline, .available => [.agent]
  | .available, .reserved => [.allocator]
  | .available, .paused => [.agent]
  | .available, .offline => [.agent, .recovery]
  | .reserved, .dialing => [.allocator]
  | .reserved, .available => [.allocator, .recovery]
  | .reserved, .offline => [.agent, .recovery]
  | .dialing, .connected => [.eventProcessor]
  | .dialing, .available => [.allocator, .eventProcessor, .recovery]
  | .dialing, .offline => [.agent, .recovery]
  | .connected, .wrapUp => [.eventProcessor]
  | .connected, .available => [.eventProcessor, .recovery]
  | .connected, .offline => [.agent, .recovery]
  | .wrapUp, .available => [.workerTimer, .recovery]
  | .wrapUp, .paused => [.agent]
  | .wrapUp, .offline => [.agent, .recovery]
  | .paused, .available => [.agent]
  | .paused, .offline => [.agent, .recovery]
  | _, _ => []

/-- `can_transition`. -/
def AgentState.canTransition (current target : AgentState) : Bool :=
  (agentTransitions current).contains target

/-- `is_actor_allowed`. -/
def isActorAllowed (current target : AgentState) (actor : TransitionActor) : Bool :=
  (transitionActors current target).contains actor

/-- `validate_transition`. -/
def validateTransition (current target : AgentState) (actor : TransitionActor) :
    Except StateMachineError Unit :=
  if !current.canTransition target then .error (.invalidStateTransition current target actor)
  else if !isActorAllowed current target actor then
    .error (.unauthorizedTransitionActor current target actor)
  else .ok ()

/-- `allowed_sources`. -/
def allowedSources (target : AgentState) (actor : TransitionActor) : List AgentState :=
  AgentState.all.filter (fun s => s.canTransition target && isActorAllowed s target actor)

/-- RESERVED, DIALING or CONNECTED: a reservation is being used. -/
def AgentState.held : AgentState → Bool
  | .reserved | .dialing | .connected => true
  | _ => false

/-! ## What the tables say -/

theorem validateTransition_ok {current target : AgentState} {actor : TransitionActor} {u : Unit}
    (h : validateTransition current target actor = .ok u) :
    current.canTransition target = true ∧ isActorAllowed current target actor = true := by
  unfold validateTransition at h
  split at h
  · simp at h
  · split at h
    · simp at h
    · simp_all

end SmartDialer
