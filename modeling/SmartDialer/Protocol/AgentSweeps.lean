import SmartDialer.Protocol.Lifecycle

/-!
# The sweeps that take agents away

Two of the five sweeps take an agent from whoever has it: that of expired leases and that of
silent agents. Both look their candidates up, cancel for each of them the call it was bound to
when it was looked up, and then write to the agent. A `CancelOutline` is the proof outline of
the first half; the other three sweeps take no agent away and cancel no call.
-/

namespace SmartDialer

open Store Conc

/-! ## The other three -/

/-- What the other sweeps do: they take no agent away, and cancel no call. -/
def Op.LeavesAgents : Op → Prop
  | .releaseExpiredAgentLease _ _ => False
  | .transitionAgent _ _ toState _ => toState ≠ .offline
  | .transitionCall _ targetState _ => targetState ≠ .cancelled
  | _ => True

namespace RecoveryWorker

variable (cfg : Settings)

theorem sweepExpiredBorrowerLeases_leavesAgents (now : Time) :
    (sweepExpiredBorrowerLeases cfg now).All Op.LeavesAgents :=
  sweepExpiredBorrowerLeases_all (fun _ _ => trivial) (fun _ _ => trivial) now

theorem sweepOrphanedCalls_leavesAgents (now : Time) :
    (sweepOrphanedCalls cfg now).All Op.LeavesAgents := by
  refine sweepOrphanedCalls_all (fun _ _ => trivial) (fun call => ?_) now
  refine reconcileCall_all (fun _ _ => trivial) (fun _ targetState _ hstate => ?_)
    (fun finished => ?_) call
  · rcases hstate with rfl | rfl
    · exact fun h => by cases h
    · exact fun h => by cases h
  · exact Prog.all_bind (Agents.releaseAgent_all trivial) fun _ =>
      Prog.all_bind (Prog.all_perform trivial) fun _ => trivial

theorem sweepStuckWrapUps_leavesAgents (now : Time) :
    (sweepStuckWrapUps cfg now).All Op.LeavesAgents := by
  refine sweepStuckWrapUps_all (fun _ _ _ => trivial) (fun agent => ?_) now
  exact Prog.all_bind (Agents.transitionAgent_all fun _ _ h => by cases h) fun _ => trivial

end RecoveryWorker

/-! ## The two that take agents away -/

section

variable {cfg : Settings} {P : Policy (dialer cfg)} {Γ : Type} {L : Logic P Γ} {i : Nat}

/-- Where the look-up of the call an agent was bound to leads. -/
def OnBound (before after : Assertion Γ) (callId : String) : Option Call → Assertion Γ
  | none => after
  | some call =>
      if call.deriveStateRankAndTerminal.terminal then after
      else fun s => call.id = callId ∧ before s

/-- An assertion before a bound call is cancelled, one after it, and a triple for each operation. -/
structure CancelOutline (L : Logic P Γ) (i : Nat) (agent : Agent) (reason : String)
    (before after : Assertion Γ) : Prop where
  stable_before : L.Stable i before
  stable_after : L.Stable i after
  unbound : agent.currentCallId = none → ∀ s, before s → after s
  find : ∀ callId, agent.currentCallId = some callId →
    L.Atomic i (.findCallById callId) before (Returns (OnBound before after callId))
  cancel : ∀ callId, agent.currentCallId = some callId →
    L.Atomic i (.transitionCall callId .cancelled (some reason)) before (Returns fun _ => after)
  releaseBorrower : ∀ call : Call, L.Atomic i
    (.releaseBorrower call.borrowerId call.createdByWorker (outcomeForTerminalCall false)
      cfg.maxCallAttempts cfg.retryBackoffBaseSeconds false) after (Returns fun _ => after)

namespace CancelOutline

variable {agent : Agent} {reason : String} {before after : Assertion Γ}
  (C : CancelOutline L i agent reason before after)

include C

/-- **`_cancel_bound_call` follows its outline.** -/
theorem wp_cancelBoundCall {s : State × Γ} (hs : before s) :
    L.wp i (RecoveryWorker.cancelBoundCall cfg agent reason) (Returns fun _ => after) s := by
  rw [RecoveryWorker.cancelBoundCall]
  split
  · rename_i hbound
    exact C.unbound hbound s hs
  · rename_i callId hbound
    refine wp_bind_returns (Logic.wp_perform C.stable_before (C.find callId hbound) hs)
      fun found s₁ hs₁ => ?_
    cases found with
    | none => exact hs₁
    | some call =>
        rw [OnBound] at hs₁
        dsimp only
        split
        · rename_i hterm
          rw [if_pos hterm] at hs₁
          exact hs₁
        · rename_i hterm
          rw [if_neg hterm] at hs₁
          obtain ⟨rfl, hs₁⟩ := hs₁
          refine wp_bind_returns (Logic.wp_perform C.stable_before (C.cancel call.id hbound) hs₁)
            fun answer s₂ hs₂ => ?_
          cases answer with
          | none => exact hs₂
          | some cancelled =>
              refine wp_bind_returns (Logic.wp_perform C.stable_after
                (C.releaseBorrower cancelled) hs₂) fun _ _ h => h

end CancelOutline

/-- A loop that takes its items off a list, as long as none raises. -/
theorem wp_count_list {α : Type} {I : List α → Assertion Γ} {f : α → Async Bool}
    (hf : ∀ x xs s, I (x :: xs) s → L.wp i (f x) (Returns fun _ => I xs) s) {xs : List α}
    {s : State × Γ} (hs : I xs s) : L.wp i (Prog.count f xs) (Returns fun _ => I []) s := by
  induction xs generalizing s with
  | nil => exact hs
  | cons x xs ih =>
      refine wp_bind_returns (hf x xs s hs) fun _ s₁ hs₁ => ?_
      exact wp_bind_returns (ih hs₁) fun _ _ hs₂ => hs₂

/-- A round of recovery, when the other sweeps do nothing that matters. -/
theorem wp_runSweeps
    (ho : ∀ o, Op.LeavesAgents o → L.Atomic i o (fun _ => True) fun _ _ => True)
    (hleases : ∀ now s, L.wp i (RecoveryWorker.sweepExpiredAgentLeases cfg now) Anyhow s)
    (hsilent : ∀ now s, L.wp i (RecoveryWorker.sweepHeartbeatTimeouts cfg now) Anyhow s)
    (s : State × Γ) : L.wp i (Task.program cfg .runSweeps) Anyhow s := by
  have hnow : Prog.All Op.LeavesAgents (await .utcNow) := Prog.all_perform trivial
  refine wp_bind_anyhow ?_ fun _ _ => trivial
  refine wp_bind_anyhow (wp_all_anyhow hnow ho) fun now s₁ => ?_
  refine wp_bind_anyhow (wp_guarded (hleases now s₁)) fun _ s₂ => ?_
  refine wp_bind_anyhow (wp_guarded (wp_all_anyhow
    (RecoveryWorker.sweepExpiredBorrowerLeases_leavesAgents ..) ho)) fun _ s₃ => ?_
  refine wp_bind_anyhow (wp_guarded (wp_all_anyhow
    (RecoveryWorker.sweepOrphanedCalls_leavesAgents ..) ho)) fun _ s₄ => ?_
  refine wp_bind_anyhow (wp_guarded (hsilent now s₄)) fun _ _ => ?_
  exact wp_guarded (wp_all_anyhow (RecoveryWorker.sweepStuckWrapUps_leavesAgents ..) ho)

end

end SmartDialer
