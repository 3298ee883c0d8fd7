import SmartDialer.Models.Documents

/-!
# Pacing requests and safety decisions

`app/safety/models.py`.
-/

namespace SmartDialer

/-- What a dialer asks for. -/
structure PacingRequest where
  requested : Int
  mode : DialingMode
  snapshotCapturedAt : Time
  deriving DecidableEq, Repr

/-- One limit, and whether it is the one that decided. -/
structure SafetyConstraintResult where
  name : String
  limit : Int
  value : Option ℚ := none
  binding : Bool := false
  deriving DecidableEq, Repr

/-- What the safety controller answers. -/
structure SafetyDecision where
  campaignId : String
  requested : Int
  approved : Int
  verdict : SafetyVerdict
  constraints : List SafetyConstraintResult
  bindingConstraint : Option String
  snapshotAgeMs : Int
  fallbackReason : Option String := none
  pacingDecisionId : Option String := none
  deriving DecidableEq, Repr

end SmartDialer
