import SmartDialer.Conc.Layer
import SmartDialer.Metrics.CallTimes
import SmartDialer.Repositories.CampaignRepo

/-!
# What the application awaits beyond its tasks

The loops of `app/workers/`, the snapshot builder of `app/pacing/metrics_snapshot.py` and the
campaign API look at things no task of the dialer looks at: the campaigns, a few aggregates, and
whether somebody wants them to stop. These are operations on top of those of `Runtime.lean`, and
fail in the same ways. None of them writes to an agent, a borrower, a call or an event.
-/

namespace SmartDialer

open Store Conc

/-- `count_connected_longer_than` of `app/repositories/agent_repo.py`. -/
def AgentRepository.countConnectedLongerThan (campaignId : String) (olderThan : Time)
    (agents : Collection Agent) : Nat :=
  agents.count fun a =>
    a.campaignId == campaignId && a.state == .connected && decide (a.stateChangedAt ≤ olderThan)

/-! ## Operations and answers -/

/-- What is awaited outside of the tasks. -/
inductive AppOp where
  -- campaigns
  | findRunning
  | findCampaignById (campaignId : String)
  | insertCampaign (dialingMode : DialingMode) (providerName : String) (maxConcurrentCalls : Nat)
      (pacingConfig : PacingConfig)
  | setStatus (campaignId : String) (status : CampaignStatus)
  | setDialingMode (campaignId : String) (mode : DialingMode)
  -- aggregates
  | averageTalkTimeSeconds (campaignId : String)
  | averageSetupTimeMs (campaignId : String)
  | countConnectedLongerThan (campaignId : String) (olderThan : Time)
  -- local to the worker process
  | rememberAvailable (campaignId : String) (availableAgents : Nat)
  | waitForStop
  | sleep
  | logFailure (event : String)

/-- What each of them answers. -/
@[reducible] def AppAns : AppOp → Type
  | .findRunning => List CampaignDocument
  | .findCampaignById _ | .setStatus .. | .setDialingMode .. => Option CampaignDocument
  | .insertCampaign .. | .sleep | .logFailure _ => Unit
  | .averageTalkTimeSeconds _ | .averageSetupTimeMs _ => ℚ
  | .countConnectedLongerThan .. | .rememberAvailable .. => Nat
  | .waitForStop => Bool

/-- The operations of the tasks, and these. -/
@[reducible] def appSig : Sig := sig.more AppOp AppAns

/-- A coroutine of the application. -/
abbrev AppAsync (α : Type) : Type := Prog appSig α

/-- `await` one operation of the application. -/
abbrev awaitApp (o : AppOp) : AppAsync (AppAns o) := Prog.perform (S := appSig) (.inr o)

/-- `await` one operation that tasks await as well. -/
abbrev awaitShared (o : Op) : AppAsync (Ans o) := Prog.perform (S := appSig) (.inl o)

/-- A coroutine of the dialer, awaited by the application. -/
abbrev runTask {α : Type} (p : Async α) : AppAsync α := p.lift

/-! ## State and environment -/

/-- The database: what the tasks work on, and the campaigns. -/
structure AppState where
  st : State
  campaigns : Collection CampaignDocument

/-- What the environment contributes to one operation. -/
structure AppChoice extends Choice where
  /-- Somebody has called `stop`. -/
  stopping : Bool := false

/-- Worked on by the database: may fail with a `PyMongoError`. -/
def AppOp.isDatabase : AppOp → Bool
  | .rememberAvailable .. | .waitForStop | .sleep | .logFailure _ => false
  | _ => true

/-- Awaited in the source: may end in a `CancelledError`. -/
def AppOp.isCancellable : AppOp → Bool
  | .rememberAvailable .. | .logFailure _ => false
  | _ => true

namespace Application

/-- The campaign `create_campaign` inserts. -/
def newCampaign (id : String) (dialingMode : DialingMode) (providerName : String)
    (maxConcurrentCalls : Nat) (pacingConfig : PacingConfig) : CampaignDocument where
  id := id
  dialingMode := dialingMode
  maxConcurrentCalls := maxConcurrentCalls
  providerName := providerName
  pacingConfig := pacingConfig

/-- What an operation does when nothing goes wrong with it. -/
def effect (o : AppOp) (c : AppChoice) (s : AppState) : Except Exn (AppAns o) × AppState :=
  match o with
  | .findRunning => (.ok (CampaignRepository.findRunning s.campaigns), s)
  | .findCampaignById campaignId => (.ok (CampaignRepository.findById campaignId s.campaigns), s)
  | .insertCampaign dialingMode providerName maxConcurrentCalls pacingConfig =>
      match CampaignRepository.insert (newCampaign c.newId dialingMode providerName
        maxConcurrentCalls pacingConfig) s.campaigns with
      | some campaigns => (.ok (), { s with campaigns := campaigns })
      | none => (.error .duplicateKeyError, s)
  | .setStatus campaignId status =>
      let (found, campaigns) := CampaignRepository.setStatus campaignId status s.campaigns
      (.ok found, { s with campaigns := campaigns })
  | .setDialingMode campaignId mode =>
      let (found, campaigns) := CampaignRepository.setDialingMode campaignId mode s.campaigns
      (.ok found, { s with campaigns := campaigns })
  | .averageTalkTimeSeconds campaignId =>
      (.ok (CallRepository.averageTalkTimeSeconds campaignId s.st.calls), s)
  | .averageSetupTimeMs campaignId =>
      (.ok (CallRepository.averageSetupTimeMs campaignId s.st.calls), s)
  | .countConnectedLongerThan campaignId olderThan =>
      (.ok (AgentRepository.countConnectedLongerThan campaignId olderThan s.st.agents), s)
  | .rememberAvailable _ availableAgents => (.ok (c.previousAvailable.getD availableAgents), s)
  | .waitForStop => (.ok c.stopping, s)
  | .sleep => (.ok (), s)
  | .logFailure _ => (.ok (), s)

/-- What an operation does, faults included. -/
def attempt (o : AppOp) (c : AppChoice) (s : AppState) : Except Exn (AppAns o) × AppState :=
  match c.fault with
  | .none => effect o c s
  | .dbError name performed =>
      if o.isDatabase then
        (.error (.pyMongoError name), if performed then (effect o c s).2 else s)
      else effect o c s
  | .cancelled performed =>
      if o.isCancellable then
        (.error .cancelledError, if performed then (effect o c s).2 else s)
      else effect o c s

/-- Process `i` performs an operation: one the tasks have too does what it does there. -/
def exec (i : Nat) (o : Op ⊕ AppOp) (c : AppChoice) (s : AppState) :
    Except Exn (appSig.Ans o) × AppState :=
  match o with
  | .inl o =>
      ((SmartDialer.exec i o c.toChoice s.st).1,
        { s with st := (SmartDialer.exec i o c.toChoice s.st).2 })
  | .inr o => attempt o c s

/-- Process `i` dies. -/
def crash (i : Nat) (s : AppState) : AppState := { s with st := SmartDialer.crash i s.st }

/-- What is on top touches none of what is below. -/
theorem effect_st (o : AppOp) (c : AppChoice) (s : AppState) : (effect o c s).2.st = s.st := by
  cases o with
  | insertCampaign dialingMode providerName maxConcurrentCalls pacingConfig =>
      rw [effect]
      split <;> rfl
  | _ => rfl

theorem attempt_st (o : AppOp) (c : AppChoice) (s : AppState) : (attempt o c s).2.st = s.st := by
  rw [attempt]
  split
  · exact effect_st o c s
  · split
    · dsimp only
      split
      · exact effect_st o c s
      · rfl
    · exact effect_st o c s
  · split
    · dsimp only
      split
      · exact effect_st o c s
      · rfl
    · exact effect_st o c s

/-- What is answered, the operation did. -/
theorem attempt_ok {o : AppOp} {c : AppChoice} {s : AppState} {a : AppAns o}
    (h : (attempt o c s).1 = .ok a) : (effect o c s).1 = .ok a := by
  rw [attempt] at h
  split at h
  · exact h
  · split at h
    · cases h
    · exact h
  · split at h
    · cases h
    · exact h

end Application

end SmartDialer
