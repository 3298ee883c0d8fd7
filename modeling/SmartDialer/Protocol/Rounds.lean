import SmartDialer.Protocol.AgentCycle
import SmartDialer.Protocol.Conversation

/-!
# What stands behind a step of recovery

A round of recovery reads the clock once, looks its candidates up, and works through them. So
each of its writes has a reason in what the round was answered before: a call is ended because a
look-up has reported it, or an agent bound to it; a pair is released because the round has just
ended the call that names it; and the time a lease is compared with is the one the clock said.

`RecoveryWorker.runSweeps_recovers` walks the five sweeps once. What such a reason is worth when
the write is made is another matter, and for the chapters that use it.
-/

namespace SmartDialer

open Store Conc

/-! ## Reasons -/

/-- A look-up has reported the call, or an agent that is bound to it. -/
def HasReported (past : List (Reply sig)) (callId : String) : Prop :=
  ∃ r ∈ past, Op.reports callId r.op r.answer = some true

/-- A look-up has reported the agent, at this version, as one that is silent. -/
def FoundSilent (past : List (Reply sig)) (agentId : String) (version : Nat) : Prop :=
  ∃ olderThan limit, ∃ agents : List Agent,
    ⟨.findHeartbeatExpired olderThan limit, .ok agents⟩ ∈ past
      ∧ ∃ x ∈ agents, x.id = agentId ∧ x.stateVersion = version

/-- The call that was ended last, as long as its parties are being released. -/
def tidying : List (Reply sig) → Option Call
  | ⟨.transitionCall _ _ _, .ok answer⟩ :: _ => answer
  | ⟨.releaseAgent _ _ _ _ _, _⟩ :: ⟨.transitionCall _ _ _, .ok answer⟩ :: _ => answer
  | _ => none

/-- What a round of recovery does, when `past` is what it has been answered. -/
def Op.Recovers (cfg : Settings) (past : List (Reply sig)) : Op → Prop
  | .findExpiredAgentLeases now _ | .releaseExpiredAgentLease _ now
  | .reclaimExpiredBorrowerLease _ now => ⟨.utcNow, .ok now⟩ ∈ past
  | .findStaleCalls olderThan _ => ∃ now, ⟨.utcNow, .ok now⟩ ∈ past
      ∧ olderThan = now - seconds cfg.callStaleTimeoutSeconds
  | .findHeartbeatExpired olderThan _ => ∃ now, ⟨.utcNow, .ok now⟩ ∈ past
      ∧ olderThan = now - seconds cfg.agentHeartbeatTimeoutSeconds
  | .transitionCall callId targetState _ => isTerminal targetState = true
      ∧ ∃ reported, HasReported past reported ∧ (reported = callId
        ∨ ∃ call, ⟨.findCallById reported, .ok (some call)⟩ ∈ past ∧ call.id = callId)
  | .transitionAgent agentId fromState _ version =>
      fromState = .wrapUp ∨ FoundSilent past agentId version
  | .releaseAgent agentId workerId _ _ _ =>
      ∃ d, tidying past = some d ∧ d.agentId = agentId ∧ d.createdByWorker = workerId
  | .releaseBorrower borrowerId workerId _ _ _ _ =>
      ∃ d, tidying past = some d ∧ d.borrowerId = borrowerId ∧ d.createdByWorker = workerId
  | .tryReserveAgent .. | .bindCall .. | .heartbeat .. | .tryReserveBorrower .. | .insertCall ..
  | .attachProviderCallId .. => False
  | _ => True

section

variable {past past' : List (Reply sig)} {callId : String}

theorem HasReported.mono (h : HasReported past callId) (hpast : past <:+ past') :
    HasReported past' callId := by
  obtain ⟨r, hr, hreports⟩ := h
  exact ⟨r, hpast.subset hr, hreports⟩

/-- A look-up that reports an agent reports the call the agent is bound to. -/
theorem reported_of_expired {now : Time} {limit : Int} {agents : List Agent} {x : Agent}
    (hfind : ⟨.findExpiredAgentLeases now limit, .ok agents⟩ ∈ past) (hx : x ∈ agents)
    (hcall : x.currentCallId = some callId) : HasReported past callId :=
  ⟨_, hfind, congrArg some (List.any_eq_true.mpr ⟨x, hx, beq_iff_eq.mpr hcall⟩)⟩

theorem reported_of_silent {olderThan : Time} {limit : Int} {agents : List Agent} {x : Agent}
    (hfind : ⟨.findHeartbeatExpired olderThan limit, .ok agents⟩ ∈ past) (hx : x ∈ agents)
    (hcall : x.currentCallId = some callId) : HasReported past callId :=
  ⟨_, hfind, congrArg some (List.any_eq_true.mpr ⟨x, hx, beq_iff_eq.mpr hcall⟩)⟩

theorem reported_of_stale {olderThan : Time} {limit : Int} {calls : List Call} {d : Call}
    (hfind : ⟨.findStaleCalls olderThan limit, .ok calls⟩ ∈ past) (hd : d ∈ calls) :
    HasReported past d.id :=
  ⟨_, hfind, congrArg some (List.any_eq_true.mpr ⟨d, hd, beq_iff_eq.mpr rfl⟩)⟩

end

section

variable {i : Nat} {o : Op} {c : Choice} {s : State} {callId : String}

/-- What reports a call has found it stale, or an agent that is bound to it lost or silent. -/
theorem found_of_reports (h : Op.reports callId o (exec i o c s).1 = some true) :
    (∃ now limit x, o = .findExpiredAgentLeases now limit ∧ s.agents.get x.id = some x
        ∧ x.currentCallId = some callId ∧ AgentRepository.leaseReclaimable now x = true)
      ∨ (∃ olderThan limit x, o = .findHeartbeatExpired olderThan limit
        ∧ s.agents.get x.id = some x ∧ x.currentCallId = some callId
        ∧ x.lastHeartbeatAt.any (· < olderThan) = true)
      ∨ ∃ olderThan limit d, o = .findStaleCalls olderThan limit
        ∧ s.calls.get callId = some d ∧ d.updatedAt < olderThan := by
  cases hr : (exec i o c s).1 with
  | error e =>
      -- a failure reports nothing
      rw [hr] at h
      cases o with
      | getCallStatus _ _ => cases e <;> cases h
      | _ => cases h
  | ok answer =>
      rw [hr] at h
      cases o with
      | findExpiredAgentLeases now limit =>
          obtain ⟨x, hx, hbound⟩ := List.any_eq_true.mp (Option.some.inj h)
          obtain rfl := Except.ok.inj (exec_ok hr).1
          obtain ⟨hget, hp⟩ := stored_of_search hx
          exact .inl ⟨now, limit, x, rfl, hget, beq_iff_eq.mp hbound, hp⟩
      | findHeartbeatExpired olderThan limit =>
          obtain ⟨x, hx, hbound⟩ := List.any_eq_true.mp (Option.some.inj h)
          obtain rfl := Except.ok.inj (exec_ok hr).1
          obtain ⟨hget, hp⟩ := stored_of_search hx
          rw [Bool.and_eq_true] at hp
          exact .inr (.inl ⟨olderThan, limit, x, rfl, hget, beq_iff_eq.mp hbound, hp.2⟩)
      | findStaleCalls olderThan limit =>
          obtain ⟨d, hd, hid⟩ := List.any_eq_true.mp (Option.some.inj h)
          obtain rfl : d.id = callId := beq_iff_eq.mp hid
          obtain ⟨hget, hp⟩ := findStaleCalls_mem hr hd
          obtain ⟨-, hold⟩ := CallRepository.stale_iff.mp hp
          exact .inr (.inr ⟨olderThan, limit, d, rfl, hget, hold⟩)
      | _ => cases h

end

/-! ## The walk -/

namespace RecoveryWorker

variable {cfg : Settings} {past : List (Reply sig)}

theorem releaseBorrower_recovers {call : Call} (h : tidying past = some call) :
    (releaseBorrower cfg call).Follows (Op.Recovers cfg) (fun _ _ => True) past := by
  refine Prog.follows_bind (Prog.follows_perform ⟨call, h, rfl, rfl⟩ fun r => ?_)
  cases r <;> trivial

/-- The borrower of a call is released after the agent. -/
theorem releaseParties_recovers {callId : String} {targetState : CallState}
    {reason : Option String} {call : Call} :
    (releaseParties cfg call).Follows (Op.Recovers cfg) (fun _ _ => True)
      (⟨.transitionCall callId targetState reason, .ok (some call)⟩ :: past) := by
  refine Prog.follows_bind ?_
  rw [Agents.releaseAgent]
  split
  · exact releaseBorrower_recovers rfl
  · refine Prog.follows_perform ⟨call, rfl, rfl, rfl⟩ fun r => ?_
    cases r with
    | ok _ => exact releaseBorrower_recovers rfl
    | error _ => trivial

/-- The call of an agent is cancelled because the agent was reported. -/
theorem cancelBoundCall_recovers {agent : Agent} {reason : String}
    (h : ∀ callId, agent.currentCallId = some callId → HasReported past callId) :
    (cancelBoundCall cfg agent reason).Follows (Op.Recovers cfg) (fun _ _ => True) past := by
  rw [cancelBoundCall]
  split
  · trivial
  · rename_i callId hcall
    refine Prog.follows_bind (Prog.follows_perform trivial fun r => ?_)
    rcases r with e | _ | call
    · trivial
    · trivial
    · dsimp only
      split
      · trivial
      · have hreported : HasReported (⟨.findCallById callId, .ok (some call)⟩ :: past) callId :=
          (h callId hcall).mono (List.suffix_cons ..)
        refine Prog.follows_bind (Prog.follows_perform
          ⟨rfl, callId, hreported, .inr ⟨call, List.mem_cons_self, rfl⟩⟩ fun r => ?_)
        rcases r with e | _ | cancelled
        · trivial
        · trivial
        · exact releaseBorrower_recovers rfl

/-- Whatever the provider says, the call is to be over. -/
theorem reconcileWithProvider_recovers (call : Call) :
    (reconcileWithProvider call).Follows (Op.Recovers cfg)
      (fun r _ => ∀ t, r = .ok t → isTerminal t = true) past := by
  have hfailed : ∀ t, (.ok .failed : Except Exn CallState) = .ok t → isTerminal t = true := by
    rintro t ⟨⟩
    rfl
  rw [reconcileWithProvider]
  split
  · exact hfailed
  · split
    · exact hfailed
    · refine Prog.follows_tryCatch (Prog.follows_bind (Prog.follows_perform trivial fun r => ?_))
      cases r with
      | ok status =>
          rintro t ⟨⟩
          cases status <;> rfl
      | error e =>
          dsimp only
          split
          · exact hfailed
          · exact fun _ h => by cases h

theorem reconcileCall_recovers {call : Call} (h : HasReported past call.id) :
    (reconcileCall cfg call).Follows (Op.Recovers cfg) (fun _ _ => True) past := by
  refine Prog.follows_bind ((reconcileWithProvider_recovers call).mono
    fun r past₁ hpast hterminal => ?_)
  cases r with
  | error e => trivial
  | ok targetState =>
      refine Prog.follows_bind (Prog.follows_perform
        ⟨hterminal targetState rfl, call.id, h.mono hpast, .inl rfl⟩ fun r => ?_)
      rcases r with e | _ | finished
      · trivial
      · trivial
      · refine Prog.follows_bind (releaseParties_recovers.mono fun r _ _ _ => ?_)
        cases r <;> trivial

theorem sweepExpiredAgentLeases_recovers {now : Time} (hnow : ⟨.utcNow, .ok now⟩ ∈ past) :
    (sweepExpiredAgentLeases cfg now).Follows (Op.Recovers cfg) (fun _ _ => True) past := by
  refine Prog.follows_bind (Prog.follows_perform hnow fun r => ?_)
  cases r with
  | error e => trivial
  | ok agents =>
      refine Prog.follows_count fun agent hagent past₁ hpast => ?_
      have hfind := hpast.subset List.mem_cons_self
      refine Prog.follows_bind ((cancelBoundCall_recovers fun callId hcall =>
        reported_of_expired hfind hagent hcall).mono fun r past₂ hpast₂ _ => ?_)
      cases r with
      | error e => trivial
      | ok _ =>
          have hnow₂ := (hpast.trans hpast₂).subset (List.mem_cons_of_mem _ hnow)
          refine Prog.follows_bind (Prog.follows_perform hnow₂ fun r => ?_)
          cases r <;> trivial

theorem sweepExpiredBorrowerLeases_recovers {now : Time} (hnow : ⟨.utcNow, .ok now⟩ ∈ past) :
    (sweepExpiredBorrowerLeases cfg now).Follows (Op.Recovers cfg) (fun _ _ => True) past := by
  refine Prog.follows_bind (Prog.follows_perform trivial fun r => ?_)
  cases r with
  | error e => trivial
  | ok candidates =>
      refine Prog.follows_count fun candidate _ past₁ hpast => ?_
      have hnow₁ := hpast.subset (List.mem_cons_of_mem _ hnow)
      refine Prog.follows_bind (Prog.follows_perform hnow₁ fun r => ?_)
      cases r <;> trivial

theorem sweepOrphanedCalls_recovers {now : Time} (hnow : ⟨.utcNow, .ok now⟩ ∈ past) :
    (sweepOrphanedCalls cfg now).Follows (Op.Recovers cfg) (fun _ _ => True) past := by
  refine Prog.follows_bind (Prog.follows_perform ⟨now, hnow, rfl⟩ fun r => ?_)
  cases r with
  | error e => trivial
  | ok calls =>
      refine Prog.follows_count fun call hcall past₁ hpast => ?_
      exact reconcileCall_recovers (reported_of_stale (hpast.subset List.mem_cons_self) hcall)

theorem sweepHeartbeatTimeouts_recovers {now : Time} (hnow : ⟨.utcNow, .ok now⟩ ∈ past) :
    (sweepHeartbeatTimeouts cfg now).Follows (Op.Recovers cfg) (fun _ _ => True) past := by
  refine Prog.follows_bind (Prog.follows_perform ⟨now, hnow, rfl⟩ fun r => ?_)
  cases r with
  | error e => trivial
  | ok agents =>
      refine Prog.follows_count fun agent hagent past₁ hpast => ?_
      have hfind := hpast.subset List.mem_cons_self
      refine Prog.follows_bind ((cancelBoundCall_recovers fun callId hcall =>
        reported_of_silent hfind hagent hcall).mono fun r past₂ hpast₂ _ => ?_)
      cases r with
      | error e => trivial
      | ok _ =>
          have hsilent : FoundSilent past₂ agent.id agent.stateVersion :=
            ⟨_, _, agents, hpast₂.subset hfind, agent, hagent, rfl, rfl⟩
          refine Prog.follows_bind (Q := fun _ _ => True) ?_
          rw [Agents.transitionAgent]
          split
          · trivial
          · refine Prog.follows_perform (.inr hsilent) fun r => ?_
            cases r <;> trivial

theorem sweepStuckWrapUps_recovers (now : Time) :
    (sweepStuckWrapUps cfg now).Follows (Op.Recovers cfg) (fun _ _ => True) past := by
  refine Prog.follows_bind (Prog.follows_perform trivial fun r => ?_)
  cases r with
  | error e => trivial
  | ok agents =>
      refine Prog.follows_count fun agent _ past₁ _ => Prog.follows_bind ?_
      rw [Agents.transitionAgent]
      split
      · trivial
      · refine Prog.follows_perform (.inl rfl) fun r => ?_
        cases r <;> trivial

/-- **Whatever a round of recovery does, it has a reason for.** -/
theorem runSweeps_recovers :
    (runSweeps cfg).Follows (Op.Recovers cfg) (fun _ _ => True) past := by
  refine Prog.follows_bind (Prog.follows_perform trivial fun r => ?_)
  cases r with
  | error e => trivial
  | ok now =>
      have hnow : (⟨.utcNow, .ok now⟩ : Reply sig) ∈ ⟨.utcNow, .ok now⟩ :: past :=
        List.mem_cons_self
      refine follows_guarded (sweepExpiredAgentLeases_recovers hnow) fun _ past₁ h₁ => ?_
      have hnow₁ := h₁.subset hnow
      refine follows_guarded (sweepExpiredBorrowerLeases_recovers hnow₁) fun _ past₂ h₂ => ?_
      have hnow₂ := h₂.subset hnow₁
      refine follows_guarded (sweepOrphanedCalls_recovers hnow₂) fun _ past₃ h₃ => ?_
      have hnow₃ := h₃.subset hnow₂
      refine follows_guarded (sweepHeartbeatTimeouts_recovers hnow₃) fun _ past₄ _ => ?_
      refine Prog.follows_tryCatch (Prog.follows_bind ((sweepStuckWrapUps_recovers now).mono
        fun r _ _ _ => ?_))
      cases r with
      | ok n => trivial
      | error e =>
          dsimp only
          split <;> trivial

end RecoveryWorker

/-- Everything the task does, too. -/
theorem Task.runSweeps_recovers (cfg : Settings) :
    (Task.runSweeps.program cfg).Follows (Op.Recovers cfg) (fun _ _ => True) [] := by
  refine Prog.follows_bind (RecoveryWorker.runSweeps_recovers.mono fun r _ _ _ => ?_)
  cases r <;> trivial

end SmartDialer
