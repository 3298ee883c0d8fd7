import SmartDialer.Models.Enums

/-!
# The call state machine

`app/state_machines/call_sm.py`: which changes of a call's state are legal, how a
provider event is judged against the state a processor read, and which agent
state a call state implies.

The table and the rank are two different orders on call states. The database
guard only ever compares ranks; `canTransition_of_rank` is the half of the table
that the rank does imply, and it needs the call to have been handed out.
-/

namespace SmartDialer

/-- How an event is judged. -/
inductive EventApplicability where
  | apply | ignoreTerminal | ignoreStale | ignoreInvalid
  deriving DecidableEq, Repr

/-- `CALL_TRANSITIONS`. -/
def callTransitions : CallState → List CallState
  | .queued => [.reserved, .initiated, .failed, .cancelled]
  | .reserved => [.initiated, .failed, .cancelled]
  | .initiated => [.ringing, .answered, .connected, .completed, .failed, .cancelled]
  | .ringing => [.answered, .connected, .completed, .failed, .cancelled]
  | .answered => [.connected, .completed, .failed, .cancelled]
  | .connected => [.completed, .failed, .cancelled]
  | .completed => []
  | .failed => []
  | .cancelled => []

/-- `AGENT_STATE_FOR_CALL_STATE`, and `agent_state_for_call_state`. -/
def agentStateForCallState : CallState → Option AgentState
  | .initiated => some .dialing
  | .ringing => some .dialing
  | .answered => some .connected
  | .connected => some .connected
  | .completed => some .wrapUp
  | .failed => some .available
  | .cancelled => some .available
  | .queued | .reserved => none

/-- `rank`. -/
def rank (s : CallState) : Nat := callStateRank s

/-- `is_terminal`. -/
def isTerminal (s : CallState) : Bool := terminalCallStates.contains s

/-- `can_transition`. -/
def CallState.canTransition (current target : CallState) : Bool :=
  (callTransitions current).contains target

/-- `should_apply_event`. -/
def shouldApplyEvent (current target : CallState) : EventApplicability :=
  if isTerminal current then .ignoreTerminal
  else if rank target ≤ rank current then .ignoreStale
  else if !current.canTransition target then .ignoreInvalid
  else .apply

/-! ## Ranks -/

theorem rank_le_six (s : CallState) : rank s ≤ 6 := by
  cases s <;> decide

theorem isTerminal_iff_rank (s : CallState) : isTerminal s = true ↔ rank s = 6 := by
  cases s <;> decide

theorem isTerminal_eq_false_iff_rank (s : CallState) : isTerminal s = false ↔ rank s < 6 := by
  cases s <;> decide

/-- A call is queued exactly when its rank is zero. -/
theorem rank_eq_zero_iff (s : CallState) : rank s = 0 ↔ s = .queued := by
  cases s <;> decide

/-- From INITIATED on, every state of higher rank is a legal target. -/
theorem canTransition_of_rank {s t : CallState} (hs : 2 ≤ rank s) (h : rank s < rank t) :
    s.canTransition t = true := by
  cases s <;> cases t <;> revert hs h <;> decide

/-- Failing or cancelling is legal from every state that is not terminal. -/
theorem canTransition_failed {s t : CallState} (ht : t = .failed ∨ t = .cancelled)
    (hs : rank s < 6) : s.canTransition t = true := by
  rcases ht with rfl | rfl <;> cases s <;> revert hs <;> decide

/-- The two steps of call set-up are legal from everything below them. -/
theorem canTransition_setup {s t : CallState} (ht : t = .reserved ∨ t = .initiated)
    (h : rank s < rank t) : s.canTransition t = true := by
  rcases ht with rfl | rfl <;> cases s <;> revert h <;> decide

theorem shouldApplyEvent_apply {s t : CallState} (h : shouldApplyEvent s t = .apply) :
    isTerminal s = false ∧ rank s < rank t ∧ s.canTransition t = true := by
  cases s <;> cases t <;> revert h <;> decide

end SmartDialer
