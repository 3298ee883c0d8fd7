/-!
# Enumerations

The states, statuses and verdicts of `app/models/enums.py`, with the two tables
on call states that live beside them: the rank and the terminal set.
-/

namespace SmartDialer

inductive AgentState where
  | offline | available | reserved | dialing | connected | wrapUp | paused
  deriving DecidableEq, Repr

/-- All agent states, in declaration order. -/
def AgentState.all : List AgentState :=
  [.offline, .available, .reserved, .dialing, .connected, .wrapUp, .paused]

inductive CallState where
  | queued | reserved | initiated | ringing | answered | connected
  | completed | failed | cancelled
  deriving DecidableEq, Repr

/-- The text stored for a call state. -/
def CallState.value : CallState → String
  | .queued => "QUEUED"
  | .reserved => "RESERVED"
  | .initiated => "INITIATED"
  | .ringing => "RINGING"
  | .answered => "ANSWERED"
  | .connected => "CONNECTED"
  | .completed => "COMPLETED"
  | .failed => "FAILED"
  | .cancelled => "CANCELLED"

inductive BorrowerStatus where
  | pending | reserved | inCall | contacted | failed | exhausted | dnc
  deriving DecidableEq, Repr

inductive DialingMode where
  | progressive | predictive
  deriving DecidableEq, Repr

inductive ProviderHealthStatus where
  | healthy | degraded | unhealthy
  deriving DecidableEq, Repr

inductive SafetyVerdict where
  | approved | reduced | rejected | fallbackProgressive
  deriving DecidableEq, Repr

inductive EventProcessingStatus where
  | processed | duplicateIgnored | staleIgnored | invalidIgnored
  deriving DecidableEq, Repr

/-- What a provider says of a call. -/
inductive ProviderCallStatus where
  | active | completed | failed | unknown
  deriving DecidableEq, Repr

/-- `CALL_STATE_RANK`. -/
def callStateRank : CallState → Nat
  | .queued => 0
  | .reserved => 1
  | .initiated => 2
  | .ringing => 3
  | .answered => 4
  | .connected => 5
  | .completed | .failed | .cancelled => 6

/-- `TERMINAL_CALL_STATES`. -/
def terminalCallStates : List CallState := [.completed, .failed, .cancelled]

end SmartDialer
