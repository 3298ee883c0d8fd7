import SmartDialer.Services.ReservationService

/-!
# The event processor

`app/services/event_processor.py`, with `outcome_for_terminal_call` of
`app/services/retry_service.py`.
-/

namespace SmartDialer

open Conc

/-- `EVENT_TYPE_TO_CALL_STATE`. -/
def eventTypeToCallState : String → Option CallState
  | "RINGING" => some .ringing
  | "ANSWERED" => some .answered
  | "CONNECTED" => some .connected
  | "COMPLETED" => some .completed
  | "FAILED" => some .failed
  | "CANCELLED" => some .cancelled
  | _ => none

/-- `IGNORED_APPLICABILITY_STATUS`; an applicable event is not looked up. -/
def ignoredApplicabilityStatus : EventApplicability → EventProcessingStatus
  | .ignoreTerminal | .ignoreStale => .staleIgnored
  | .ignoreInvalid => .invalidIgnored
  | .apply => .processed

/-- `AGENT_RELEASING_CALL_STATES`. -/
def agentReleasingCallStates : List CallState := [.completed, .failed, .cancelled]

/-- `RetryService.outcome_for_terminal_call`. -/
def outcomeForTerminalCall (answered : Bool) : BorrowerReleaseOutcome :=
  if answered then .contacted else .retry

/-- `EventProcessingResult`. -/
structure EventProcessingResult where
  status : EventProcessingStatus
  appliedTransition : Option String := none
  deriving DecidableEq, Repr

namespace EventProcessor

/-- `_finish`. -/
def finish (event : ProviderEvent) (status : EventProcessingStatus)
    (appliedTransition : Option String) : Async EventProcessingResult := do
  await (.markProcessed event.providerName event.providerEventId status appliedTransition)
  pure ⟨status, appliedTransition⟩

/-- `_failure_reason`. -/
def failureReason (event : ProviderEvent) (targetState : CallState) : Option String :=
  if targetState ≠ .failed then none
  else some (event.reason.getD "provider_reported_failure")

/-- `_apply_agent_transition`. -/
def applyAgentTransition (call : Call) (targetState : CallState) : Async Unit :=
  match agentStateForCallState targetState with
  | none => pure ()
  | some agentState => do
      match ← await (.findAgentById call.agentId) with
      | none => pure ()
      | some agent =>
          if agent.state = agentState then pure ()
          else if agentReleasingCallStates.contains targetState then do
            let _ ← Agents.releaseAgent agent.id call.createdByWorker agentState
              .eventProcessor false
            pure ()
          else
            Prog.tryCatch
              (do
                let _ ← Agents.transitionAgent agent.id agent.state agentState .eventProcessor
                  agent.stateVersion
                pure ())
              fun
                | .stateMachine _ => pure ()
                | e => throw e

/-- `_release_borrower`. -/
def releaseBorrower (cfg : Settings) (call : Call) (targetState : CallState) : Async Unit := do
  let answered := targetState == .completed && call.answeredAt.isSome
  let _ ← await (.releaseBorrower call.borrowerId call.createdByWorker
    (outcomeForTerminalCall answered) cfg.maxCallAttempts cfg.retryBackoffBaseSeconds false)
  pure ()

/-- `_apply_event`, once the call was found in `current`, and the event applies to it. -/
def applyTransition (cfg : Settings) (event : ProviderEvent) (call : Call)
    (targetState : CallState) : Async EventProcessingResult := do
  match ← await (.transitionCall call.id targetState (failureReason event targetState)) with
  | none => finish event .staleIgnored none
  | some updated => do
      applyAgentTransition updated targetState
      if agentReleasingCallStates.contains targetState then
        releaseBorrower cfg updated targetState
      else pure ()
      finish event .processed (some (call.state.value ++ "->" ++ targetState.value))

/-- `_apply_event`. -/
def applyEvent (cfg : Settings) (event : ProviderEvent) : Async EventProcessingResult := do
  match ← await (.findByProviderCallId event.providerName event.providerCallId) with
  | none => finish event .invalidIgnored none
  | some call =>
      match eventTypeToCallState event.eventType with
      | none => finish event .invalidIgnored none
      | some targetState =>
          match shouldApplyEvent call.state targetState with
          | .apply => applyTransition cfg event call targetState
          | applicability => finish event (ignoredApplicabilityStatus applicability) none

/-- `process_event`: the insert is the duplicate gate, and comes first. -/
def processEvent (cfg : Settings) (event : ProviderEvent) : Async EventProcessingResult := do
  match ← await (.recordEvent event) with
  | .duplicate => pure ⟨.duplicateIgnored, none⟩
  | .recorded =>
      Prog.tryCatch (applyEvent cfg event) fun e =>
        if e.isException then finish event .invalidIgnored (some ("error:" ++ e.typeName))
        else throw e

end EventProcessor

end SmartDialer
