import SmartDialer.Services.CallAllocator
import SmartDialer.Services.EventProcessor

/-!
# The recovery worker

`app/workers/recovery_worker.py`: five sweeps in a row, each guarded from the
failures of the others, all with the `now` read at the start.
-/

namespace SmartDialer

open Conc

/-- `PROVIDER_STATUS_TO_CALL_STATE`. -/
def providerStatusToCallState : ProviderCallStatus → Option CallState
  | .completed => some .completed
  | .failed => some .failed
  | .active | .unknown => none

/-- `RecoverySweepCounts`. -/
structure RecoverySweepCounts where
  expiredAgentLeases : Nat := 0
  expiredBorrowerLeases : Nat := 0
  orphanedCalls : Nat := 0
  heartbeatTimeouts : Nat := 0
  stuckWrapUps : Nat := 0
  errors : List String := []
  deriving DecidableEq, Repr

namespace RecoveryWorker

/-- `_release_borrower`. -/
def releaseBorrower (cfg : Settings) (call : Call) : Async Unit := do
  let _ ← await (.releaseBorrower call.borrowerId call.createdByWorker
    (outcomeForTerminalCall false) cfg.maxCallAttempts cfg.retryBackoffBaseSeconds false)
  pure ()

/-- `_release_parties`. -/
def releaseParties (cfg : Settings) (call : Call) : Async Unit := do
  let _ ← Agents.releaseAgent call.agentId call.createdByWorker .available .recovery false
  releaseBorrower cfg call

/-- `_cancel_bound_call`. -/
def cancelBoundCall (cfg : Settings) (agent : Agent) (reason : String) : Async Unit :=
  match agent.currentCallId with
  | none => pure ()
  | some callId => do
      match ← await (.findCallById callId) with
      | none => pure ()
      | some call =>
          if call.deriveStateRankAndTerminal.terminal then pure ()
          else do
            match ← await (.transitionCall call.id .cancelled (some reason)) with
            | none => pure ()
            | some cancelled => releaseBorrower cfg cancelled

/-- `_reconcile_with_provider`: whatever is not COMPLETED has FAILED. -/
def reconcileWithProvider (call : Call) : Async CallState :=
  match call.providerCallId with
  | none => pure .failed
  | some providerCallId =>
      if !providerNames.contains call.providerName then pure .failed
      else
        Prog.tryCatch
          (do
            let status ← await (.getCallStatus call.providerName providerCallId)
            pure ((providerStatusToCallState status).getD .failed))
          fun
            | .provider _ => pure .failed
            | e => throw e

/-- One agent of `_sweep_expired_agent_leases`. -/
def recoverAgentLease (cfg : Settings) (now : Time) (agent : Agent) : Async Bool := do
  cancelBoundCall cfg agent "agent_lease_expired"
  let released ← await (.releaseExpiredAgentLease agent now)
  pure released.isSome

/-- `_sweep_expired_agent_leases`. -/
def sweepExpiredAgentLeases (cfg : Settings) (now : Time) : Async Nat := do
  let agents ← await (.findExpiredAgentLeases now cfg.recoverySweepLimit)
  Prog.count (recoverAgentLease cfg now) agents

/-- One candidate of `reclaim_expired_borrower_leases`. -/
def reclaimBorrower (now : Time) (candidate : Borrower) : Async Bool := do
  let reclaimed ← await (.reclaimExpiredBorrowerLease candidate now)
  pure reclaimed.isSome

/-- `_sweep_expired_borrower_leases`. -/
def sweepExpiredBorrowerLeases (cfg : Settings) (now : Time) : Async Nat := do
  let candidates ← await (.findExpiredBorrowerLeases now cfg.recoverySweepLimit)
  Prog.count (reclaimBorrower now) candidates

/-- One call of `_sweep_orphaned_calls`. -/
def reconcileCall (cfg : Settings) (call : Call) : Async Bool := do
  let targetState ← reconcileWithProvider call
  match ← await (.transitionCall call.id targetState
    (if targetState = .failed then some "orphaned" else none)) with
  | none => pure false
  | some finished => do
      releaseParties cfg finished
      pure true

/-- `_sweep_orphaned_calls`. -/
def sweepOrphanedCalls (cfg : Settings) (now : Time) : Async Nat := do
  let calls ← await (.findStaleCalls (now - seconds cfg.callStaleTimeoutSeconds)
    cfg.recoverySweepLimit)
  Prog.count (reconcileCall cfg) calls

/-- One agent of `_sweep_heartbeat_timeouts`. -/
def logOutAgent (cfg : Settings) (agent : Agent) : Async Bool := do
  cancelBoundCall cfg agent "agent_disappeared"
  let updated ← Agents.transitionAgent agent.id agent.state .offline .recovery
    agent.stateVersion
  pure updated.isSome

/-- `_sweep_heartbeat_timeouts`. -/
def sweepHeartbeatTimeouts (cfg : Settings) (now : Time) : Async Nat := do
  let agents ← await (.findHeartbeatExpired (now - seconds cfg.agentHeartbeatTimeoutSeconds)
    cfg.recoverySweepLimit)
  Prog.count (logOutAgent cfg) agents

/-- One agent of `_sweep_stuck_wrap_ups`. -/
def endWrapUp (actor : TransitionActor) (agent : Agent) : Async Bool := do
  let updated ← Agents.transitionAgent agent.id .wrapUp .available actor agent.stateVersion
  pure updated.isSome

/-- `_sweep_stuck_wrap_ups`: the wrap-up time, and a grace of twice that. -/
def sweepStuckWrapUps (cfg : Settings) (now : Time) : Async Nat := do
  let agents ← await (.findExpiredWrapUps
    (now - seconds (cfg.wrapUpSeconds + cfg.wrapUpSeconds * 2)) cfg.recoverySweepLimit none)
  Prog.count (endWrapUp .recovery) agents

/-- A sweep of `run_sweeps`: its failure is noted, and the next one goes on. -/
def guarded (name : String) (set : Nat → RecoverySweepCounts → RecoverySweepCounts)
    (sweep : Async Nat) (counts : RecoverySweepCounts) : Async RecoverySweepCounts :=
  Prog.tryCatch
    (do
      let n ← sweep
      pure (set n counts))
    fun e =>
      if e.isException then pure { counts with errors := counts.errors ++ [name] } else throw e

/-- `run_sweeps`. -/
def runSweeps (cfg : Settings) : Async RecoverySweepCounts := do
  let now ← await .utcNow
  let counts ← guarded "expired_agent_leases" (fun n c => { c with expiredAgentLeases := n })
    (sweepExpiredAgentLeases cfg now) {}
  let counts ← guarded "expired_borrower_leases"
    (fun n c => { c with expiredBorrowerLeases := n }) (sweepExpiredBorrowerLeases cfg now) counts
  let counts ← guarded "orphaned_calls" (fun n c => { c with orphanedCalls := n })
    (sweepOrphanedCalls cfg now) counts
  let counts ← guarded "heartbeat_timeouts" (fun n c => { c with heartbeatTimeouts := n })
    (sweepHeartbeatTimeouts cfg now) counts
  guarded "stuck_wrap_ups" (fun n c => { c with stuckWrapUps := n })
    (sweepStuckWrapUps cfg now) counts

/-! ## What the sweeps perform -/

/-- A call is reconciled to COMPLETED if it has a provider call id, and to FAILED otherwise. -/
theorem reconcileWithProvider_yields (call : Call) :
    (reconcileWithProvider call).Yields fun targetState =>
      targetState = .failed ∨ targetState = .completed ∧ call.providerCallId.isSome = true := by
  rw [reconcileWithProvider]
  split
  · exact .inl rfl
  · rename_i hattached
    split
    · exact .inl rfl
    · refine Prog.yields_tryCatch (Prog.yields_bind fun status => ?_) fun e => ?_
      · cases status with
        | completed => exact .inr ⟨rfl, by rw [hattached]; rfl⟩
        | _ => exact .inl rfl
      · cases e with
        | provider _ => exact .inl rfl
        | _ => trivial

section

variable {cfg : Settings} {R : Op → Prop}

theorem cancelBoundCall_all {reason : String} (hfind : ∀ callId, R (.findCallById callId))
    (hcancel : ∀ callId, R (.transitionCall callId .cancelled (some reason)))
    (hrelease : ∀ call, (releaseBorrower cfg call).All R) (agent : Agent) :
    (cancelBoundCall cfg agent reason).All R := by
  rw [cancelBoundCall]
  split
  · trivial
  · refine Prog.all_bind (Prog.all_perform (hfind _)) fun found => ?_
    cases found with
    | none => trivial
    | some call =>
        dsimp only
        split
        · trivial
        · refine Prog.all_bind (Prog.all_perform (hcancel _)) fun answer => ?_
          cases answer with
          | none => trivial
          | some cancelled => exact hrelease cancelled

theorem reconcileWithProvider_all (h : ∀ providerName providerCallId,
    R (.getCallStatus providerName providerCallId)) (call : Call) :
    (reconcileWithProvider call).All R := by
  rw [reconcileWithProvider]
  split
  · trivial
  · split
    · trivial
    · refine Prog.all_tryCatch (Prog.all_bind (Prog.all_perform (h ..)) fun _ => trivial)
        fun e => ?_
      cases e <;> trivial

theorem reconcileCall_all (hstatus : ∀ providerName providerCallId,
      R (.getCallStatus providerName providerCallId))
    (hmove : ∀ callId targetState reason, targetState = .failed ∨ targetState = .completed →
      R (.transitionCall callId targetState reason))
    (hrelease : ∀ call, (releaseParties cfg call).All R) (call : Call) :
    (reconcileCall cfg call).All R := by
  refine Prog.all_bind_of_yields (reconcileWithProvider_all hstatus call)
    (reconcileWithProvider_yields call) fun targetState hstate => ?_
  have hended : targetState = .failed ∨ targetState = .completed := hstate.imp id And.left
  refine Prog.all_bind (Prog.all_perform (hmove _ _ _ hended)) fun answer => ?_
  cases answer with
  | none => trivial
  | some finished => exact Prog.all_bind (hrelease finished) fun _ => trivial

theorem sweepExpiredAgentLeases_all (hfind : ∀ now limit, R (.findExpiredAgentLeases now limit))
    (hcancel : ∀ agent, (cancelBoundCall cfg agent "agent_lease_expired").All R)
    (hrelease : ∀ agent now, R (.releaseExpiredAgentLease agent now)) (now : Time) :
    (sweepExpiredAgentLeases cfg now).All R := by
  refine Prog.all_bind (Prog.all_perform (hfind ..)) fun _ => Prog.all_count (fun agent => ?_) _
  exact Prog.all_bind (hcancel agent) fun _ =>
    Prog.all_bind (Prog.all_perform (hrelease ..)) fun _ => trivial

theorem sweepExpiredBorrowerLeases_all
    (hfind : ∀ now limit, R (.findExpiredBorrowerLeases now limit))
    (hreclaim : ∀ candidate now, R (.reclaimExpiredBorrowerLease candidate now)) (now : Time) :
    (sweepExpiredBorrowerLeases cfg now).All R := by
  refine Prog.all_bind (Prog.all_perform (hfind ..)) fun _ => Prog.all_count (fun _ => ?_) _
  exact Prog.all_bind (Prog.all_perform (hreclaim ..)) fun _ => trivial

theorem sweepOrphanedCalls_all (hfind : ∀ olderThan limit, R (.findStaleCalls olderThan limit))
    (hcall : ∀ call, (reconcileCall cfg call).All R) (now : Time) :
    (sweepOrphanedCalls cfg now).All R :=
  Prog.all_bind (Prog.all_perform (hfind ..)) fun _ => Prog.all_count hcall _

theorem sweepHeartbeatTimeouts_all
    (hfind : ∀ olderThan limit, R (.findHeartbeatExpired olderThan limit))
    (hcancel : ∀ agent, (cancelBoundCall cfg agent "agent_disappeared").All R)
    (hout : ∀ agent : Agent, (Agents.transitionAgent agent.id agent.state .offline .recovery
      agent.stateVersion).All R) (now : Time) :
    (sweepHeartbeatTimeouts cfg now).All R := by
  refine Prog.all_bind (Prog.all_perform (hfind ..)) fun _ => Prog.all_count (fun agent => ?_) _
  exact Prog.all_bind (hcancel agent) fun _ => Prog.all_bind (hout agent) fun _ => trivial

theorem sweepStuckWrapUps_all
    (hfind : ∀ olderThan limit campaignId, R (.findExpiredWrapUps olderThan limit campaignId))
    (hend : ∀ agent, (endWrapUp .recovery agent).All R) (now : Time) :
    (sweepStuckWrapUps cfg now).All R :=
  Prog.all_bind (Prog.all_perform (hfind ..)) fun _ => Prog.all_count hend _

theorem guarded_all {name : String} {set : Nat → RecoverySweepCounts → RecoverySweepCounts}
    {sweep : Async Nat} {counts : RecoverySweepCounts} (h : sweep.All R) :
    (guarded name set sweep counts).All R := by
  refine Prog.all_tryCatch (Prog.all_bind h fun _ => trivial) fun e => ?_
  split <;> trivial

/-- A round performs what its sweeps do, and reads the clock. -/
theorem runSweeps_all (hnow : R .utcNow)
    (hagents : ∀ now, (sweepExpiredAgentLeases cfg now).All R)
    (hborrowers : ∀ now, (sweepExpiredBorrowerLeases cfg now).All R)
    (hcalls : ∀ now, (sweepOrphanedCalls cfg now).All R)
    (hsilent : ∀ now, (sweepHeartbeatTimeouts cfg now).All R)
    (hwrapUps : ∀ now, (sweepStuckWrapUps cfg now).All R) : (runSweeps cfg).All R := by
  refine Prog.all_bind (Prog.all_perform hnow) fun now => ?_
  refine Prog.all_bind (guarded_all (hagents now)) fun _ => ?_
  refine Prog.all_bind (guarded_all (hborrowers now)) fun _ => ?_
  refine Prog.all_bind (guarded_all (hcalls now)) fun _ => ?_
  exact Prog.all_bind (guarded_all (hsilent now)) fun _ => guarded_all (hwrapUps now)

end

end RecoveryWorker

end SmartDialer
