import SmartDialer.Conc.History
import SmartDialer.Protocol.Outside

/-!
# What each component may do

The transition table names five actors, and a component acts as one of them at a time.
`Op.IssuedBy` is what a component may issue when it acts as a given actor, arguments included:
whom it may release, between which states it may move an agent, with which settings it reserves
and releases a borrower. A lease is taken away from an agent, and a wrap-up ended, only if a
search has reported the agent before.

This file walks all programs once (`Task.program_follows`). What any of them keeps to in all
its operations, or what stands behind one operation of a run, is read off here.
-/

namespace SmartDialer

open Conc

/-- A search for expired leases has reported the agent. -/
def FoundExpired (past : List (Reply sig)) (agent : Agent) (now : Time) : Prop :=
  ∃ limit agents, ⟨.findExpiredAgentLeases now limit, .ok agents⟩ ∈ past ∧ agent ∈ agents

/--
A search for finished wrap-ups has reported the agent with this version. It went back from what
the clock read by the wrap-up time at least.
-/
def FoundFinished (cfg : Settings) (past : List (Reply sig)) (agentId : String)
    (version : Nat) : Prop :=
  ∃ now olderThan limit campaignId, ∃ agents : List Agent,
    ⟨.utcNow, .ok now⟩ ∈ past
      ∧ ⟨.findExpiredWrapUps olderThan limit campaignId, .ok agents⟩ ∈ past
      ∧ (0 ≤ cfg.wrapUpSeconds → olderThan ≤ now - seconds cfg.wrapUpSeconds)
      ∧ ∃ agent ∈ agents, agent.id = agentId ∧ agent.stateVersion = version

/-- What a component may do as `actor`, when `past` is what it has been answered. -/
def Op.IssuedBy (cfg : Settings) (actor : TransitionActor) (past : List (Reply sig)) :
    Op → Prop
  | .tryReserveAgent _ _ _ ttlSeconds | .tryReserveBorrower _ _ _ ttlSeconds =>
      actor = .allocator ∧ ttlSeconds = cfg.reservationTtlSeconds
  | .bindCall .. | .insertCall .. | .attachProviderCallId .. | .originateCall .. =>
      actor = .allocator
  | .releaseAgent _ _ target releaser _ =>
      releaser = actor ∧ (target = .available ∨ target = .wrapUp)
  | .transitionAgent agentId fromState toState version =>
      validateTransition fromState toState actor = .ok () ∧ toState ≠ .reserved
        ∧ toState ≠ .wrapUp ∧ (toState = .available → fromState.held = false)
        ∧ (fromState = .wrapUp → toState = .available → FoundFinished cfg past agentId version)
  | .releaseExpiredAgentLease agent now => actor = .recovery ∧ FoundExpired past agent now
  | .reclaimExpiredBorrowerLease .. => actor = .recovery
  | .releaseBorrower _ _ _ maxAttempts backoffBaseSeconds _ =>
      maxAttempts = cfg.maxCallAttempts ∧ backoffBaseSeconds = cfg.retryBackoffBaseSeconds
  | .logEvent event _ => event = "dialer_tick" → actor = .workerTimer
  | _ => True

/-- The log line at the end of a tick. -/
def Op.endsTick : Op → Bool
  | .logEvent event _ => event == "dialer_tick"
  | _ => false

/--
Whom a task acts as, given what it issues now and has issued before. A tick acts as the allocator
until it logs that it is over, and from there as the wrap-up timer.
-/
def Task.actor (t : Task) (issued : List Op) : TransitionActor :=
  match t with
  | .tick .. => if issued.any Op.endsTick then .workerTimer else .allocator
  | .allocate .. => .allocator
  | .processEvent _ => .eventProcessor
  | .runSweeps => .recovery
  | .releaseFinishedWrapUps _ => .workerTimer
  | .agentAction .. => .agent

/-- What a task may issue, when `past` is what it has been answered. -/
def Task.MayIssue (cfg : Settings) (t : Task) (past : List (Reply sig)) (o : Op) : Prop :=
  o.IssuedBy cfg (t.actor (o :: past.map Reply.op)) past

/-- What a component may do as `actor`, whatever it has been answered. -/
def Op.FreelyIssuedBy (cfg : Settings) (actor : TransitionActor) (o : Op) : Prop :=
  ∀ past, o.IssuedBy cfg actor past

/-- What some component may do. -/
def Op.Issued (cfg : Settings) (o : Op) : Prop := ∃ actor past, o.IssuedBy cfg actor past

variable {cfg : Settings} {actor : TransitionActor}

/-- Reading, and what nobody else reads. -/
theorem Op.Evaluation.freelyIssuedBy {o : Op} (h : o.Evaluation) : o.FreelyIssuedBy cfg actor := by
  intro past
  cases o <;> first | exact h.elim | trivial

namespace Agents

theorem releaseAgent_issued {target : AgentState} (h : target = .available ∨ target = .wrapUp)
    (agentId workerId : String) (shielded : Bool) :
    (releaseAgent agentId workerId target actor shielded).All (Op.FreelyIssuedBy cfg actor) :=
  releaseAgent_all fun _ => ⟨rfl, h⟩

/-- A transition the component needs no search for. -/
theorem transitionAgent_issued {fromState toState : AgentState} (hreserved : toState ≠ .reserved)
    (hwrapUp : toState ≠ .wrapUp)
    (hfree : validateTransition fromState toState actor = .ok () → toState = .available →
      fromState.held = false ∧ fromState ≠ .wrapUp) (agentId : String) (version : Nat) :
    (transitionAgent agentId fromState toState actor version).All
      (Op.FreelyIssuedBy cfg actor) :=
  transitionAgent_all fun _ hvalid _ => ⟨hvalid, hreserved, hwrapUp,
    fun hto => (hfree hvalid hto).1, fun hfrom hto => absurd hfrom (hfree hvalid hto).2⟩

end Agents

/-! ## The allocator -/

namespace ReservationService

theorem releaseAgent_issued (agentId workerId : String) (shielded : Bool) :
    (releaseAgent agentId workerId shielded).All (Op.FreelyIssuedBy cfg .allocator) :=
  Prog.all_bind (Agents.releaseAgent_issued (.inl rfl) ..) fun _ => trivial

theorem releasePair_issued (pair : ReservationPair) (outcome : BorrowerReleaseOutcome)
    (shielded : Bool) :
    (releasePair cfg pair outcome shielded).All (Op.FreelyIssuedBy cfg .allocator) :=
  Prog.all_bind (releaseAgent_issued ..) fun _ =>
    Prog.all_bind (Prog.all_perform fun _ => ⟨rfl, rfl⟩) fun _ => trivial

theorem claimFirstAgent_issued (campaignId workerId : String) (candidates : List Agent) :
    (claimFirstAgent cfg campaignId workerId candidates).All
      (Op.FreelyIssuedBy cfg .allocator) := by
  induction candidates with
  | nil => trivial
  | cons candidate rest ih =>
      refine Prog.all_bind (Prog.all_perform fun _ => ⟨rfl, rfl⟩) fun answer => ?_
      cases answer with
      | none => exact ih
      | some _ => trivial

theorem claimFirstBorrower_issued (campaignId workerId : String) (candidates : List Borrower) :
    (claimFirstBorrower cfg campaignId workerId candidates).All
      (Op.FreelyIssuedBy cfg .allocator) := by
  induction candidates with
  | nil => trivial
  | cons candidate rest ih =>
      refine Prog.all_bind (Prog.all_perform fun _ => ⟨rfl, rfl⟩) fun answer => ?_
      cases answer with
      | none => exact ih
      | some _ => trivial

theorem reservePair_issued (campaignId workerId : String) :
    (reservePair cfg campaignId workerId).All (Op.FreelyIssuedBy cfg .allocator) := by
  refine Prog.all_bind (Prog.all_bind (Prog.all_perform fun _ => trivial) fun _ =>
    claimFirstAgent_issued ..) fun answer => ?_
  cases answer with
  | none => trivial
  | some agent =>
      refine Prog.all_bind (Prog.all_tryCatch (Prog.all_bind (Prog.all_perform fun _ => trivial)
        fun _ => claimFirstBorrower_issued ..) fun e => ?_) fun borrower => ?_
      · split
        · exact Prog.all_bind (releaseAgent_issued ..) fun _ => trivial
        · trivial
      · cases borrower with
        | none => exact Prog.all_bind (releaseAgent_issued ..) fun _ => trivial
        | some _ => trivial

end ReservationService

namespace CallAllocator

theorem failDial_issued (pair : ReservationPair) (callId : String) (reason : Option String) :
    (failDial cfg pair callId reason).All (Op.FreelyIssuedBy cfg .allocator) :=
  Prog.all_bind (Prog.all_perform fun _ => trivial) fun _ =>
    Prog.all_bind (ReservationService.releasePair_issued ..) fun _ => trivial

theorem launch_issued (campaign : Campaign) (pair : ReservationPair) (callId : String) :
    (launch cfg campaign pair callId).All (Op.FreelyIssuedBy cfg .allocator) := by
  have hdialing : (Agents.transitionAgent pair.agent.id .reserved .dialing .allocator
      pair.agent.stateVersion).All (Op.FreelyIssuedBy cfg .allocator) :=
    Agents.transitionAgent_issued (by decide) (by decide) (fun _ h => by cases h) ..
  have horiginate : (originate cfg campaign pair callId).All
      (Op.FreelyIssuedBy cfg .allocator) := by
    rw [originate]
    split
    · trivial
    · refine Prog.all_tryCatch (Prog.all_bind (Prog.all_perform fun _ => rfl) fun _ => trivial)
        fun e => ?_
      split <;> trivial
  have hhangup : ∀ providerCallId, (hangup campaign.providerName providerCallId).All
      (Op.FreelyIssuedBy cfg .allocator) := by
    intro providerCallId
    rw [hangup]
    split
    · trivial
    · refine Prog.all_tryCatch (Prog.all_perform fun _ => trivial) fun e => ?_
      split <;> trivial
  refine Prog.all_bind hdialing fun _ => Prog.all_bind (Prog.all_perform fun _ => rfl) fun _ =>
    Prog.all_bind horiginate fun result => ?_
  rw [concludeDial.eq_def]
  split
  · exact failDial_issued ..
  · split
    · exact failDial_issued ..
    · refine Prog.all_bind (Prog.all_perform fun _ => rfl) fun answer => ?_
      cases answer with
      | none => exact Prog.all_bind (hhangup _) fun _ => failDial_issued ..
      | some _ => trivial

theorem dial_issued (campaign : Campaign) (pair : ReservationPair) :
    (dial cfg campaign pair).All (Op.FreelyIssuedBy cfg .allocator) := by
  have hrelease : (do
      ReservationService.releasePair cfg pair .released false
      pure false : Async Bool).All (Op.FreelyIssuedBy cfg .allocator) :=
    Prog.all_bind (ReservationService.releasePair_issued ..) fun _ => trivial
  -- the gate, the creation and the way back are programs of their own
  have hgate : (retrySuppressed cfg campaign pair).All (Op.FreelyIssuedBy cfg .allocator) := by
    rw [retrySuppressed]
    split
    · refine Prog.all_bind ?_ fun _ => trivial
      rw [shouldRetry]
      split
      · trivial
      · refine Prog.all_bind (Prog.all_perform fun _ => trivial) fun now => ?_
        split
        · trivial
        · exact Prog.all_perform fun _ => trivial
    · trivial
  have hcreate : (Calls.createCall campaign.id pair.agent.id pair.borrower.id
      campaign.providerName pair.workerId
      (pair.borrower.attemptCount + 1)).All (Op.FreelyIssuedBy cfg .allocator) := by
    refine Prog.all_tryCatch (Prog.all_perform fun _ => rfl) fun e => ?_
    split
    · refine Prog.all_bind (Prog.all_perform fun _ => trivial) fun existing => ?_
      cases existing <;> trivial
    · trivial
  refine Prog.all_bind hgate fun suppressed => ?_
  cases suppressed with
  | true => exact hrelease
  | false =>
      refine Prog.all_bind hcreate fun call => ?_
      split
      · exact hrelease
      · refine Prog.all_bind (Prog.all_perform fun _ => trivial) fun _ =>
          Prog.all_bind (Prog.all_perform fun _ => trivial) fun initiated => ?_
        split
        · exact hrelease
        · exact launch_issued ..

theorem allocate_issued (campaign : Campaign) (approved : Int) (workerId : String) :
    (allocate cfg campaign approved workerId).All (Op.FreelyIssuedBy cfg .allocator) := by
  have hreserve : (reservePair cfg campaign.id workerId).All
      (Op.FreelyIssuedBy cfg .allocator) := by
    refine Prog.all_tryCatch (ReservationService.reservePair_issued ..) fun e => ?_
    split <;> trivial
  have hdial : ∀ pair, (dialOrCompensate cfg campaign pair).All
      (Op.FreelyIssuedBy cfg .allocator) := by
    intro pair
    refine Prog.all_tryCatch (dial_issued ..) fun e => ?_
    split
    · refine Prog.all_bind (Prog.all_tryCatch (ReservationService.releasePair_issued ..)
        fun e => ?_) fun _ => trivial
      split <;> trivial
    · trivial
  rw [allocate]
  generalize approved.toNat = n, (0 : Nat) = consecutive, ({} : AllocationResult) = result
  induction n generalizing consecutive result with
  | zero => trivial
  | succ n ih =>
      refine Prog.all_bind hreserve fun answer => ?_
      cases answer with
      | none =>
          dsimp only
          split
          · trivial
          · exact ih _ _
      | some pair =>
          refine Prog.all_bind (hdial pair) fun dialled => ?_
          split
          · exact ih _ _
          · exact ih _ _

end CallAllocator

/-! ## The event processor -/

namespace EventProcessor

theorem finish_issued (event : ProviderEvent) (status : EventProcessingStatus)
    (applied : Option String) :
    (finish event status applied).All (Op.FreelyIssuedBy cfg .eventProcessor) :=
  Prog.all_bind (Prog.all_perform fun _ => trivial) fun _ => trivial

/-- The state of the agent of an ended call. -/
theorem agentStateForCallState_released {target : CallState} {s : AgentState}
    (h : agentReleasingCallStates.contains target = true)
    (hs : agentStateForCallState target = some s) : s = .available ∨ s = .wrapUp := by
  cases target <;> simp_all [agentReleasingCallStates, agentStateForCallState]

theorem applyAgentTransition_issued (call : Call) (targetState : CallState) :
    (applyAgentTransition call targetState).All (Op.FreelyIssuedBy cfg .eventProcessor) := by
  rw [applyAgentTransition]
  split
  · trivial
  · rename_i agentState hstate
    refine Prog.all_bind (Prog.all_perform fun _ => trivial) fun answer => ?_
    cases answer with
    | none => trivial
    | some agent =>
        dsimp only
        split
        · trivial
        · split
          · rename_i hterm
            exact Prog.all_bind (Agents.releaseAgent_issued
              (agentStateForCallState_released hterm hstate) ..) fun _ => trivial
          · rename_i hterm
            -- a call that goes on has its agent in DIALING or CONNECTED
            have hheld := agentStateForCallState_held hterm hstate
            refine Prog.all_tryCatch (Prog.all_bind (Agents.transitionAgent_issued ?_ ?_ ?_ ..)
              fun _ => trivial) fun e => ?_
            · rintro rfl
              cases targetState <;> cases hstate
            · rintro rfl
              cases hheld
            · rintro - rfl
              cases hheld
            · cases e <;> trivial

theorem processEvent_issued (event : ProviderEvent) :
    (processEvent cfg event).All (Op.FreelyIssuedBy cfg .eventProcessor) := by
  have happly : ∀ call targetState, (applyTransition cfg event call targetState).All
      (Op.FreelyIssuedBy cfg .eventProcessor) := by
    intro call targetState
    refine Prog.all_bind (Prog.all_perform fun _ => trivial) fun answer => ?_
    cases answer with
    | none => exact finish_issued ..
    | some updated =>
        refine Prog.all_bind (applyAgentTransition_issued ..) fun _ => ?_
        dsimp only
        split
        · exact Prog.all_bind (Prog.all_bind (Prog.all_perform fun _ => ⟨rfl, rfl⟩)
            fun _ => trivial) fun _ => finish_issued ..
        · exact finish_issued ..
  refine Prog.all_bind (Prog.all_perform fun _ => trivial) fun answer => ?_
  cases answer with
  | duplicate => trivial
  | recorded =>
      refine Prog.all_tryCatch (Prog.all_bind (Prog.all_perform fun _ => trivial)
        fun found => ?_) fun e => ?_
      · cases found with
        | none => exact finish_issued ..
        | some call =>
            dsimp only
            split
            · exact finish_issued ..
            · split
              · exact happly ..
              · exact finish_issued ..
      · split
        · exact finish_issued ..
        · trivial

end EventProcessor

/-! ## Recovery, and the wrap-up timer -/

namespace RecoveryWorker

theorem cancelBoundCall_issued (agent : Agent) (reason : String) :
    (cancelBoundCall cfg agent reason).All (Op.FreelyIssuedBy cfg actor) :=
  cancelBoundCall_all (fun _ _ => trivial) (fun _ _ => trivial)
    (fun _ => Prog.all_bind (Prog.all_perform fun _ => ⟨rfl, rfl⟩) fun _ => trivial) agent

theorem reconcileCall_issued (call : Call) :
    (reconcileCall cfg call).All (Op.FreelyIssuedBy cfg .recovery) := by
  refine reconcileCall_all (fun _ _ _ => trivial) (fun _ _ _ _ _ => trivial) (fun finished => ?_)
    call
  refine Prog.all_bind (Agents.releaseAgent_issued (.inl rfl) ..) fun _ => ?_
  exact Prog.all_bind (Prog.all_perform fun _ => ⟨rfl, rfl⟩) fun _ => trivial

variable {past : List (Reply sig)}

theorem sweepExpiredAgentLeases_follows (now : Time) :
    (sweepExpiredAgentLeases cfg now).Follows (Op.IssuedBy cfg .recovery) (fun _ _ => True)
      past := by
  refine Prog.follows_bind (Prog.follows_perform trivial fun r => ?_)
  cases r with
  | error e => trivial
  | ok agents =>
      refine Prog.follows_count fun agent hagent past' hpast => ?_
      refine Prog.follows_bind ((Prog.follows_free (cancelBoundCall_issued agent _)).mono
        fun r past'' hpast' _ => ?_)
      cases r with
      | error e => trivial
      | ok _ =>
          have hfound : FoundExpired past'' agent now :=
            ⟨_, agents, (hpast.trans hpast').subset List.mem_cons_self, hagent⟩
          refine Prog.follows_bind (Prog.follows_perform ⟨rfl, hfound⟩ fun r => ?_)
          cases r <;> trivial

/-- Ending the wrap-ups a search has reported. -/
theorem endWrapUps_follows (hactor : actor = .workerTimer ∨ actor = .recovery)
    {now olderThan : Time} {limit : Int} {campaignId : Option String} {agents : List Agent}
    (hnow : ⟨.utcNow, .ok now⟩ ∈ past)
    (hfind : ⟨.findExpiredWrapUps olderThan limit campaignId, .ok agents⟩ ∈ past)
    (hage : 0 ≤ cfg.wrapUpSeconds → olderThan ≤ now - seconds cfg.wrapUpSeconds) :
    (Prog.count (endWrapUp actor) agents).Follows (Op.IssuedBy cfg actor) (fun _ _ => True)
      past := by
  have hvalid : validateTransition .wrapUp .available actor = .ok () := by
    rcases hactor with rfl | rfl <;> rfl
  refine Prog.follows_count fun agent hagent past' hpast => ?_
  have hfound : FoundFinished cfg past' agent.id agent.stateVersion :=
    ⟨now, olderThan, limit, campaignId, agents, hpast.subset hnow, hpast.subset hfind, hage,
      agent, hagent, rfl, rfl⟩
  rw [endWrapUp, Agents.transitionAgent, hvalid]
  refine Prog.follows_bind (Prog.follows_perform
    ⟨hvalid, by decide, by decide, fun _ => rfl, fun _ _ => hfound⟩ fun r => ?_)
  cases r <;> trivial

theorem sweepStuckWrapUps_follows {now : Time} (hnow : ⟨.utcNow, .ok now⟩ ∈ past) :
    (sweepStuckWrapUps cfg now).Follows (Op.IssuedBy cfg .recovery) (fun _ _ => True) past := by
  refine Prog.follows_bind (Prog.follows_perform trivial fun r => ?_)
  cases r with
  | error e => trivial
  | ok agents =>
      refine endWrapUps_follows (.inr rfl) (List.mem_cons_of_mem _ hnow) List.mem_cons_self
        fun hpos => Int.sub_le_sub_left ?_ now
      -- the grace is on top of the wrap-up time
      have hgrace : cfg.wrapUpSeconds ≤ cfg.wrapUpSeconds + cfg.wrapUpSeconds * 2 := by omega
      exact Int.mul_le_mul_of_nonneg_left hgrace (Int.natCast_nonneg 1000)

/-- A sweep under the guard of `run_sweeps`, and what follows it. -/
theorem follows_guarded {name : String}
    {set : Nat → RecoverySweepCounts → RecoverySweepCounts} {sweep : Async Nat}
    {counts : RecoverySweepCounts} {J : List (Reply sig) → Op → Prop} {β : Type}
    {f : RecoverySweepCounts → Async β} (hsweep : sweep.Follows J (fun _ _ => True) past)
    (hf : ∀ counts past', past <:+ past' → (f counts).Follows J (fun _ _ => True) past') :
    ((guarded name set sweep counts).bind f).Follows J (fun _ _ => True) past := by
  refine Prog.follows_bind (Prog.follows_tryCatch (Prog.follows_bind (hsweep.mono
    fun r past' hpast _ => ?_)))
  cases r with
  | ok n => exact hf _ past' hpast
  | error e =>
      dsimp only
      split
      · exact hf _ past' hpast
      · trivial

theorem runSweeps_follows :
    (runSweeps cfg).Follows (Op.IssuedBy cfg .recovery) (fun _ _ => True) past := by
  refine Prog.follows_bind (Prog.follows_perform trivial fun r => ?_)
  cases r with
  | error e => trivial
  | ok now =>
      refine follows_guarded (sweepExpiredAgentLeases_follows now) fun _ past₁ h₁ => ?_
      refine follows_guarded (Prog.follows_free (sweepExpiredBorrowerLeases_all
        (fun _ _ _ => trivial) (fun _ _ _ => rfl) now)) fun _ past₂ h₂ => ?_
      refine follows_guarded (Prog.follows_free (sweepOrphanedCalls_all (fun _ _ _ => trivial)
        reconcileCall_issued now)) fun _ past₃ h₃ => ?_
      refine follows_guarded (Prog.follows_free (sweepHeartbeatTimeouts_all
        (fun _ _ _ => trivial) (fun agent => cancelBoundCall_issued agent _)
        (fun agent => Agents.transitionAgent_issued (by decide) (by decide)
          (fun _ h => by cases h) ..) now)) fun _ past₄ h₄ => ?_
      have hnow : ⟨.utcNow, .ok now⟩ ∈ past₄ :=
        (h₁.trans (h₂.trans (h₃.trans h₄))).subset List.mem_cons_self
      refine Prog.follows_tryCatch (Prog.follows_bind ((sweepStuckWrapUps_follows hnow).mono
        fun r _ _ _ => ?_))
      cases r with
      | ok n => trivial
      | error e =>
          dsimp only
          split <;> trivial

end RecoveryWorker

theorem DialerWorker.releaseFinishedWrapUps_follows {past : List (Reply sig)}
    (campaignId : String) :
    (releaseFinishedWrapUps cfg campaignId).Follows (Op.IssuedBy cfg .workerTimer)
      (fun _ _ => True) past := by
  refine Prog.follows_bind (Prog.follows_perform trivial fun r => ?_)
  cases r with
  | error e => trivial
  | ok now =>
      refine Prog.follows_bind (Prog.follows_perform trivial fun r => ?_)
      cases r with
      | error e => trivial
      | ok agents =>
          refine Prog.follows_bind ((RecoveryWorker.endWrapUps_follows (.inl rfl)
            (List.mem_cons_of_mem _ List.mem_cons_self) List.mem_cons_self
            fun _ => Int.le_refl _).mono fun r _ _ _ => ?_)
          cases r <;> trivial

/-! ## The agent API, and all tasks -/

theorem RoutesAgents.agentAction_issued (agentId action : String) :
    (agentAction agentId action).All (Op.FreelyIssuedBy cfg .agent) := by
  have hbeat : ∀ agent : Agent, Prog.All (Op.FreelyIssuedBy cfg .agent) (do
      let _ ← await (.heartbeat agent.id)
      let _ ← await (.findAgentById agent.id)
      pure ()) := fun agent =>
    Prog.all_bind (Prog.all_perform fun _ => trivial) fun _ =>
      Prog.all_bind (Prog.all_perform fun _ => trivial) fun _ => trivial
  refine Prog.all_bind (Prog.all_perform fun _ => trivial) fun answer => ?_
  cases answer with
  | none => trivial
  | some agent =>
      dsimp only
      split
      · exact hbeat agent
      · split
        · trivial
        · rename_i target htarget
          have hto : target = .available ∨ target = .offline ∨ target = .paused := by
            unfold agentActions at htarget
            split at htarget <;> simp_all
          refine Prog.all_bind (Agents.transitionAgent_issued ?_ ?_ ?_ ..) fun answer => ?_
          · rintro rfl
            simp at hto
          · rintro rfl
            simp at hto
          · -- an agent becomes AVAILABLE from OFFLINE or PAUSED
            rintro hvalid rfl
            obtain ⟨-, hallowed⟩ := validateTransition_ok hvalid
            revert hallowed
            cases agent.state <;> simp [isActorAllowed, transitionActors, AgentState.held]
          · cases answer with
            | none => trivial
            | some _ =>
                dsimp only
                split
                · exact hbeat agent
                · trivial

namespace DialerWorker

variable {campaign : Campaign} {request : PacingRequest} {workerId : String}
  {past : List (Reply sig)}

theorem not_endsTick {o : Op} (ho : o.FreelyIssuedBy cfg .allocator)
    (h : (past.map Reply.op).any Op.endsTick = false) :
    (o :: past.map Reply.op).any Op.endsTick = false := by
  have hends : o.endsTick = false := by
    cases o with
    | logEvent event campaignId =>
        have hne : event ≠ "dialer_tick" := fun heq => by cases ho past heq
        simpa [Op.endsTick] using hne
    | _ => rfl
  rw [List.any_cons, hends, h]
  rfl

/-- Until its log line, a tick is the allocator. -/
theorem mayIssue_tick {o : Op} (ho : o.FreelyIssuedBy cfg .allocator)
    (h : (past.map Reply.op).any Op.endsTick = false) :
    (Task.tick campaign request workerId).MayIssue cfg past o := by
  rw [Task.MayIssue, Task.actor, not_endsTick ho h]
  exact ho past

/-- From its log line on, a tick is the wrap-up timer. -/
theorem mayIssue_tick_of_ended {o : Op} (ho : o.IssuedBy cfg .workerTimer past)
    (h : (past.map Reply.op).any Op.endsTick = true) :
    (Task.tick campaign request workerId).MayIssue cfg past o := by
  rw [Task.MayIssue, Task.actor, List.any_cons, h, Bool.or_true]
  exact ho

theorem tick_follows :
    (DialerBase.tick cfg campaign request workerId).Follows
      ((Task.tick campaign request workerId).MayIssue cfg)
      (fun r past => r.toOption.isSome = true → (past.map Reply.op).any Op.endsTick = true) [] := by
  have hphase : ∀ {α : Type} {p : Async α} {past : List (Reply sig)},
      p.All (Op.FreelyIssuedBy cfg .allocator) →
      (past.map Reply.op).any Op.endsTick = false →
      p.Follows ((Task.tick campaign request workerId).MayIssue cfg)
        (fun _ past => (past.map Reply.op).any Op.endsTick = false) past := by
    intro α p past hp h
    exact Prog.follows_all hp (fun o past ho h => mayIssue_tick ho h)
      (fun o r past ho h => not_endsTick ho h) h
  have hrecord : (DialerBase.recordRequest campaign request).All
      (Op.FreelyIssuedBy cfg .allocator) := by
    rw [DialerBase.recordRequest]
    split
    · trivial
    · exact Prog.all_bind (Prog.all_perform fun _ => trivial) fun _ => trivial
  have hevaluate : ∀ pacingDecisionId persist,
      (SafetyController.evaluate cfg campaign request pacingDecisionId persist).All
        (Op.FreelyIssuedBy cfg .allocator) := fun _ _ =>
    (SafetyController.evaluate_all ..).mono fun _ => Op.Evaluation.freelyIssuedBy
  refine Prog.follows_bind ((hphase hrecord rfl).mono fun r past₁ _ h₁ => ?_)
  cases r with
  | error e => exact fun h => by cases h
  | ok pacingDecisionId =>
      refine Prog.follows_bind ((hphase (hevaluate ..) h₁).mono fun r past₂ _ h₂ => ?_)
      cases r with
      | error e => exact fun h => by cases h
      | ok decision =>
          refine Prog.follows_bind ((hphase (CallAllocator.allocate_issued ..) h₂).mono
            fun r past₃ _ h₃ => ?_)
          cases r with
          | error e => exact fun h => by cases h
          | ok allocation =>
              refine Prog.follows_bind (Prog.follows_perform ?_ fun r => ?_)
              · exact fun _ => rfl
              · cases r with
                | error e => exact fun h => by cases h
                | ok _ => exact fun _ => rfl

end DialerWorker

/-- **Every operation of a task** is one it may issue, as whom it acts then. -/
theorem Task.program_follows (t : Task) :
    (t.program cfg).Follows (t.MayIssue cfg) (fun _ _ => True) [] := by
  have hplain : ∀ {α : Type} {p : Async α},
      p.Follows (t.MayIssue cfg) (fun _ _ => True) [] →
      (p.bind fun _ => Prog.ret ()).Follows (t.MayIssue cfg) (fun _ _ => True) [] := by
    intro α p h
    refine Prog.follows_bind (h.mono fun r _ _ _ => ?_)
    cases r <;> trivial
  cases t with
  | tick campaign request workerId =>
      refine Prog.follows_tryCatch (Prog.follows_bind (DialerWorker.tick_follows.mono
        fun r past _ hended => ?_))
      cases r with
      | error e =>
          dsimp only
          split
          · refine Prog.follows_perform (fun h => ?_) fun _ => trivial
            exact absurd h (by decide)
          · trivial
      | ok allocation =>
          have hends := hended rfl
          refine ((DialerWorker.releaseFinishedWrapUps_follows campaign.id).imp
            fun past' o hpast ho => DialerWorker.mayIssue_tick_of_ended ho ?_).mono
            fun r past' _ _ => ?_
          · obtain ⟨o, ho, hend⟩ := List.any_eq_true.mp hends
            exact List.any_eq_true.mpr ⟨o, (hpast.map _).subset ho, hend⟩
          · cases r with
            | ok _ => trivial
            | error e =>
                dsimp only
                split
                · refine Prog.follows_perform (fun h => ?_) fun _ => trivial
                  exact absurd h (by decide)
                · trivial
  | allocate campaign approved workerId =>
      exact hplain (Prog.follows_free (CallAllocator.allocate_issued ..))
  | processEvent event =>
      exact hplain (Prog.follows_free (EventProcessor.processEvent_issued event))
  | runSweeps => exact hplain RecoveryWorker.runSweeps_follows
  | releaseFinishedWrapUps campaignId =>
      exact DialerWorker.releaseFinishedWrapUps_follows campaignId
  | agentAction agentId action =>
      exact Prog.follows_free (RoutesAgents.agentAction_issued agentId action)

/-- Whatever a task is answered, it issues only what some component may. -/
theorem Task.program_issued (t : Task) : (t.program cfg).All (Op.Issued cfg) :=
  t.program_follows.all fun past _ ho => ⟨_, past, ho⟩

end SmartDialer
