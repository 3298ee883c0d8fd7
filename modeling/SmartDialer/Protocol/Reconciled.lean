import SmartDialer.Protocol.Outcome
import SmartDialer.Protocol.ProviderErrors
import SmartDialer.Protocol.Redelivery
import SmartDialer.Protocol.Sweeping

/-!
# A completed call, by recovery and by event

Two pieces of code end a call as COMPLETED: the event processor, when the provider says so,
and the sweep of stale calls, when the provider is asked and says so. Both then release the
borrower. The event processor counts a call that was answered as a contact; the sweep counts
none, so a borrower who was spoken to is to be dialled again. They agree about the calls that
were never answered.
-/

namespace SmartDialer

open Store Conc

/-! ## Statement -/

/-- What the end of a call decides about a borrower. -/
def Borrower.standing (b : Borrower) : BorrowerStatus × Nat := (b.status, b.attemptCount)

/-- How a borrower stands after an attempt that did not reach it. -/
def Borrower.missed (cfg : Settings) (b : Borrower) : BorrowerStatus × Nat :=
  (if cfg.maxCallAttempts ≤ ((b.attemptCount + 1 : Nat) : Int) then .exhausted else .pending,
    b.attemptCount + 1)

/-- How a borrower stands after one that did. -/
def Borrower.met (b : Borrower) : BorrowerStatus × Nat := (.contacted, b.attemptCount + 1)

/-- A live call whose agent is CONNECTED and whose borrower is RESERVED, both by its worker. -/
structure Talking (s : State) (d : Call) (b : Borrower) : Prop where
  call : s.calls.get d.id = some d
  /-- The stored rank and the terminal flag are those of the state. -/
  derived : d.deriveStateRankAndTerminal = d
  live : isTerminal d.state = false
  agent : ∃ a, s.agents.get d.agentId = some a ∧ a.state = .connected
    ∧ a.reservedBy = some d.createdByWorker
  borrower : s.borrowers.get d.borrowerId = some b
  reserved : b.status = .reserved
  worker : b.reservedBy = some d.createdByWorker

/-- The provider's event that the call is COMPLETED, which it has not sent before. -/
structure CompletedEvent (s : State) (d : Call) (event : ProviderEvent) : Prop where
  type : event.eventType = "COMPLETED"
  new : (event.providerName, event.providerEventId) ∉ recorded s
  found : CallRepository.findByProviderCallId event.providerName event.providerCallId s.calls
    = some d

/-- What the sweep of stale calls makes of the database, by itself. -/
def afterSweep (cfg : Settings) (now : Time) (i : Nat) (env : Nat → Choice) (s : State) : State :=
  ((RecoveryWorker.sweepOrphanedCalls cfg now).eval (solo i env) (s, 0)).2.1

/-- How a borrower stands. -/
def State.standing (s : State) (borrowerId : String) : Option (BorrowerStatus × Nat) :=
  (s.borrowers.get borrowerId).map Borrower.standing

variable {cfg : Settings} {i : Nat} {s : State} {d : Call} {b : Borrower}

theorem Talking.rank_eq (h : Talking s d b) : d.stateRank = rank d.state :=
  (congrArg Call.stateRank h.derived).symm

theorem Talking.terminal_eq (h : Talking s d b) : d.terminal = isTerminal d.state :=
  (congrArg Call.terminal h.derived).symm

/-- A call that is live may be ended. -/
theorem Talking.advanceable (h : Talking s d b) {t : CallState} (ht : isTerminal t = true) :
    CallRepository.advanceable t d = true := by
  have hrank := (isTerminal_eq_false_iff_rank d.state).mp h.live
  have htop := (isTerminal_iff_rank t).mp ht
  rw [CallRepository.advanceable_iff, h.rank_eq, htop]
  exact ⟨h.terminal_eq.trans h.live, hrank⟩

theorem Talking.releasable (h : Talking s d b) :
    BorrowerRepository.releasable d.createdByWorker b = true :=
  BorrowerRepository.releasable_of_reserved h.reserved h.worker

/-- A release by outcome, as far as the standing goes. -/
theorem release_standing (cfg : Settings) (now : Time) (answered : Bool) (b : Borrower) :
    ((BorrowerRepository.release now (outcomeForTerminalCall answered) cfg.maxCallAttempts
      cfg.retryBackoffBaseSeconds).apply b).standing
        = if answered then b.met else b.missed cfg := by
  cases answered <;> rfl

/-- Who was met does not stand as one who was missed. -/
theorem met_ne_missed (cfg : Settings) (b : Borrower) : b.met ≠ b.missed cfg := by
  intro h
  have hstatus := congrArg Prod.fst h
  simp only [Borrower.met, Borrower.missed] at hstatus
  split at hstatus <;> cases hstatus

/-! ## By event -/

/-- What the COMPLETED event makes of the borrower. -/
theorem wp_completedEvent {event : ProviderEvent} (h : Talking s d b)
    (he : CompletedEvent s d event) :
    (secluded cfg i).wp i (EventProcessor.processEvent cfg event)
      (Finishes fun _ s' => s'.1.standing d.borrowerId
        = some (if shouldApplyEvent d.state .completed = .apply then
            if d.answeredAt.isSome then b.met else b.missed cfg
          else b.standing)) (s, ()) := by
  have htype : eventTypeToCallState event.eventType = some .completed := by
    rw [he.type]
    rfl
  have habout : event.About event.providerName event.providerCallId := ⟨rfl, rfl⟩
  refine wp_processEvent (fun hseen => absurd hseen he.new) (fun _ s₁ hs₁ => ?_) ⟨rfl, rfl, rfl⟩
  by_cases happly : shouldApplyEvent d.state .completed = .apply
  · rw [if_pos happly]
    refine wp_applyEvent_applied habout he.found htype happly hs₁ fun s₂ hs₂ => ?_
    refine finishes_mono (wp_applyTransition event h.call (h.advanceable rfl) hs₂)
      fun _ s₃ hs₃ => ?_
    obtain ⟨now, now', -, hborrowers, -⟩ := hs₃
    rw [if_pos (show isTerminal .completed = true from rfl)] at hborrowers
    have hget := Collection.get_write_of_filter
      (w := releaseAfter cfg now' ((stepTo now event d .completed).update.apply d) .completed)
      h.borrower h.releasable
    rw [State.standing, hborrowers]
    exact (congrArg (Option.map Borrower.standing) hget).trans
      (congrArg some (release_standing cfg now' d.answeredAt.isSome b))
  -- the event does not apply, and the borrower stays RESERVED
  · rw [if_neg happly]
    refine finishes_mono (wp_applyEvent_ignored habout he.found (fun t ht => ?_) hs₁)
      fun _ s₂ hs₂ => ?_
    · obtain rfl : CallState.completed = t := Option.some.inj (htype.symm.trans ht)
      exact happly
    · rw [State.standing, hs₂.2.1, h.borrower]
      rfl

/-! ## By recovery -/

/-- The borrower has been released without a contact. -/
def Missed (cfg : Settings) (d : Call) (b : Borrower) (s : State) : Prop :=
  ∃ x, s.borrowers.get d.borrowerId = some x ∧ x.standing = b.missed cfg

/-- It has been released so, or it is as it was. -/
def Unmet (cfg : Settings) (d : Call) (b : Borrower) (s : State) : Prop :=
  s.borrowers.get d.borrowerId = some b ∨ Missed cfg d b s

/-- The call is over. -/
def Over (d : Call) (s : State) : Prop := ∃ d', s.calls.get d.id = some d' ∧ d'.terminal = true

/-- The call is as it was; or it is over, and the borrower has been released without a contact. -/
def Reconciled (cfg : Settings) (d : Call) (b : Borrower) (s : State) : Prop :=
  s.calls.get d.id = some d ∧ Unmet cfg d b s ∨ Over d s ∧ Missed cfg d b s

/-- When the sweep has ended `finished`, or found that it need not. -/
def OnFinished (cfg : Settings) (d : Call) (b : Borrower) : Option Call → State → Prop
  | none, s => Reconciled cfg d b s
  | some finished, s => Reconciled cfg d b s
      ∨ (Over d s ∧ Unmet cfg d b s) ∧ finished.borrowerId = d.borrowerId
        ∧ finished.createdByWorker = d.createdByWorker

theorem Reconciled.unmet (h : Reconciled cfg d b s) : Unmet cfg d b s :=
  h.elim And.right fun h => .inr h.2

theorem Reconciled.onFinished (h : Reconciled cfg d b s) (answer : Option Call) :
    OnFinished cfg d b answer s := by
  cases answer with
  | none => exact h
  | some finished => exact .inl h

/-- The release of a call that recovery has ended. -/
def missedRelease (cfg : Settings) (call : Call) : Op :=
  .releaseBorrower call.borrowerId call.createdByWorker (outcomeForTerminalCall false)
    cfg.maxCallAttempts cfg.retryBackoffBaseSeconds false

/-- Who was missed is not to be released again. -/
theorem not_releasable_of_missed {x : Borrower} (hx : x.standing = b.missed cfg)
    (workerId : String) : BorrowerRepository.releasable workerId x = false := by
  have hstatus : x.status = _ := congrArg Prod.fst hx
  rw [BorrowerRepository.releasable, hstatus, Borrower.missed]
  split <;> simp [BorrowerRepository.releasableStatuses]

theorem missed_missedRelease (h : Missed cfg d b s) (call : Call) (c : Choice) :
    Missed cfg d b (exec i (missedRelease cfg call) c s).2 := by
  obtain ⟨x, hx, hmissed⟩ := h
  obtain ⟨x', hx', hre⟩ := borrower_exec (i := i) (o := missedRelease cfg call) (c := c) hx
  refine ⟨x', hx', ?_⟩
  cases hre with
  | same => exact hmissed
  | written w hw hk hp =>
      cases hw
      cases (not_releasable_of_missed hmissed _).symm.trans hp

/-- Whoever recovery releases is released without a contact. -/
theorem unmet_missedRelease (h : Unmet cfg d b s) (call : Call) (c : Choice) :
    Unmet cfg d b (exec i (missedRelease cfg call) c s).2 := by
  rcases h with hx | hmissed
  · obtain ⟨x', hx', hre⟩ := borrower_exec (i := i) (o := missedRelease cfg call) (c := c) hx
    cases hre with
    | same => exact .inl hx'
    | written w hw hk hp =>
        cases hw
        exact .inr ⟨_, hx', release_standing cfg c.now false b⟩
  · exact .inr (missed_missedRelease hmissed call c)

/-- The borrower of the call itself is released by then, if not before. -/
theorem missed_of_missedRelease (h : Talking s d b) {s' : State} (hs : Unmet cfg d b s')
    {call : Call} (hid : call.borrowerId = d.borrowerId)
    (hworker : call.createdByWorker = d.createdByWorker) {c : Choice} (hc : c.fault = .none) :
    Missed cfg d b (exec i (missedRelease cfg call) c s').2 := by
  rcases hs with hx | hmissed
  · obtain ⟨answer, hans⟩ := exec_plain (o := missedRelease cfg call) trivial hc i s'
    refine ⟨_, ?_, release_standing cfg c.now false b⟩
    rw [borrowers_of_ok hans, ← hid]
    exact Collection.get_write_of_filter (w := ⟨call.borrowerId,
      BorrowerRepository.releasable call.createdByWorker, BorrowerRepository.release c.now
        (outcomeForTerminalCall false) cfg.maxCallAttempts cfg.retryBackoffBaseSeconds⟩)
      (hid ▸ hx) (hworker ▸ h.releasable)
  · exact missed_missedRelease hmissed call c

/-- A call that the sweep does not end now: it is another one, or it is over already. -/
theorem call_after_transitionCall {callId : String} {t : CallState} {reason : Option String}
    {d' : Call} (hd : s.calls.get d.id = some d') (hout : d'.terminal = true ∨ d.id ≠ callId)
    (c : Choice) : (exec i (.transitionCall callId t reason) c s).2.calls.get d.id = some d' := by
  obtain ⟨d'', hd'', hre⟩ := call_exec (i := i) (c := c)
    (o := .transitionCall callId t reason) hd
  cases hre with
  | same => exact hd''
  | written w hw hk hp =>
      cases hw
      rcases hout with hterm | hne
      · cases hterm.symm.trans (CallRepository.advanceable_iff.mp hp).1
      · exact absurd ((Collection.key_of_get hd).symm.trans hk) hne

/-- The sweep ends a call: this one, or another. -/
theorem onFinished_transitionCall (h : Talking s d b) {s' : State} (hs : Reconciled cfg d b s')
    (callId : String) {t : CallState} (ht : isTerminal t = true) (reason : Option String)
    {c : Choice} {answer : Option Call}
    (hans : (exec i (.transitionCall callId t reason) c s').1 = .ok answer) :
    OnFinished cfg d b answer (exec i (.transitionCall callId t reason) c s').2 := by
  have hborrowers : (exec i (.transitionCall callId t reason) c s').2.borrowers = s'.borrowers :=
    borrowers_of_ok hans
  have hunmet : Unmet cfg d b (exec i (.transitionCall callId t reason) c s').2 := by
    rw [Unmet, Missed, hborrowers]
    exact hs.unmet
  rcases hs with ⟨hget, -⟩ | ⟨⟨d', hget, hterm⟩, hmissed⟩
  · by_cases hid : d.id = callId
    -- this one: the rank guard lets it through
    · subst hid
      have hp := h.advanceable ht
      obtain ⟨hans', -⟩ := exec_ok hans
      obtain rfl : answer = some ((CallRepository.advance c.now t reason).apply d) := by
        refine (Except.ok.inj hans').symm.trans ?_
        change (CallRepository.transitionCall c.now d.id t reason s'.calls).1 = _
        rw [CallRepository.transitionCall, Collection.findOneAndUpdate, hget, Option.filter_some,
          if_pos hp]
        rfl
      exact .inr ⟨⟨⟨_, transitionCall_get hans hget hp, ht⟩, hunmet⟩, rfl, rfl⟩
    · exact Reconciled.onFinished (.inl ⟨call_after_transitionCall hget (.inr hid) c, hunmet⟩) _
  · refine Reconciled.onFinished (.inr ⟨⟨d', call_after_transitionCall hget (.inl hterm) c,
      hterm⟩, ?_⟩) _
    rw [Missed, hborrowers]
    exact hmissed

/-- `_release_parties`, for a call that the sweep has ended. -/
theorem wp_releaseParties (h : Talking s d b) {finished : Call} {s' : State × Unit}
    (hs : OnFinished cfg d b (some finished) s'.1) :
    (secluded cfg i).wp i (RecoveryWorker.releaseParties cfg finished)
      (Finishes fun _ s'' => Reconciled cfg d b s''.1) s' := by
  have hagent : (secluded cfg i).wp i (Agents.releaseAgent finished.agentId
      finished.createdByWorker .available .recovery false)
      (Finishes fun _ s'' => OnFinished cfg d b (some finished) s''.1) s' := by
    rw [Agents.releaseAgent]
    split
    · exact hs
    · exact wp_effect fun c => ⟨_, rfl, hs⟩
  refine wp_bind_finishes hagent fun _ s₁ hs₁ => ?_
  have hborrower : (secluded cfg i).wp i (await (missedRelease cfg finished))
      (Finishes fun _ s'' => Reconciled cfg d b s''.1) s₁ := by
    refine Logic.wp_perform_alone fun c hc => ?_
    obtain ⟨answer, hans⟩ := exec_plain (o := missedRelease cfg finished) trivial hc i s₁.1
    have hcalls : (exec i (missedRelease cfg finished) c s₁.1).2.calls = s₁.1.calls := by
      rw [exec_faultless hc]
      rfl
    change Finishes _ (exec i (missedRelease cfg finished) c s₁.1).1 _
    rw [hans]
    change Reconciled cfg d b (exec i (missedRelease cfg finished) c s₁.1).2
    rw [Reconciled, Over, hcalls]
    rcases hs₁ with (⟨hget, hunmet⟩ | ⟨hover, hmissed⟩) | ⟨⟨hover, hunmet⟩, hid, hworker⟩
    · exact .inl ⟨hget, unmet_missedRelease hunmet finished c⟩
    · exact .inr ⟨hover, missed_missedRelease hmissed finished c⟩
    · exact .inr ⟨hover, missed_of_missedRelease h hunmet hid hworker hc⟩
  exact wp_bind_finishes hborrower fun _ _ hs₂ => hs₂

theorem wp_reconcileCall_reconciled (h : Talking s d b) (x : Call) {s' : State × Unit}
    (hs : Reconciled cfg d b s'.1) :
    (secluded cfg i).wp i (RecoveryWorker.reconcileCall cfg x)
      (Finishes fun _ s'' => Reconciled cfg d b s''.1) s' := by
  have hask : ∀ providerName providerCallId c s', Reconciled cfg d b s' →
      Reconciled cfg d b (exec i (.getCallStatus providerName providerCallId) c s').2 := by
    intro providerName providerCallId c s' hs
    have hborrowers : (exec i (.getCallStatus providerName providerCallId) c s').2.borrowers
        = s'.borrowers := by
      rcases exec_borrowers i (.getCallStatus providerName providerCallId) c s' with
        heq | ⟨w, hw, -⟩
      · exact heq
      · cases hw
    rw [Reconciled, Unmet, Over, Missed, hborrowers, calls_of_spares (o := .getCallStatus
      providerName providerCallId) trivial (fun _ => rfl) c s']
    exact hs
  refine wp_bind_finishes (wp_reconcileWithProvider x hask hs) fun t s₁ hs₁ => ?_
  have hmove : ∀ reason, (secluded cfg i).wp i (await (.transitionCall x.id t reason))
      (Finishes fun answer s'' => OnFinished cfg d b answer s''.1) s₁ := by
    intro reason
    refine Logic.wp_perform_alone fun c hc => ?_
    obtain ⟨answer, hans⟩ := exec_plain (o := .transitionCall x.id t reason) trivial hc i s₁.1
    change Finishes _ (exec i (.transitionCall x.id t reason) c s₁.1).1 _
    rw [hans]
    exact onFinished_transitionCall h hs₁.2 x.id hs₁.1 reason hans
  refine wp_bind_finishes (hmove _) fun answer s₂ hs₂ => ?_
  cases answer with
  | none => exact hs₂
  | some finished => exact wp_bind_finishes (wp_releaseParties h hs₂) fun _ _ hs₃ => hs₃

/-- **The sweep**, whatever it finds and whatever the provider answers. -/
theorem wp_sweepOrphanedCalls_reconciled (h : Talking s d b) (now : Time) :
    (secluded cfg i).wp i (RecoveryWorker.sweepOrphanedCalls cfg now)
      (Finishes fun _ s' => Reconciled cfg d b s'.1) (s, ()) := by
  have hs : Reconciled cfg d b s := .inl ⟨h.call, .inl h.borrower⟩
  have hfind : (secluded cfg i).wp i (await (.findStaleCalls
      (now - seconds cfg.callStaleTimeoutSeconds) cfg.recoverySweepLimit))
      (Finishes fun _ s' => Reconciled cfg d b s'.1) (s, ()) :=
    wp_effect fun c => ⟨_, rfl, hs⟩
  refine wp_bind_finishes hfind fun calls s₁ hs₁ => ?_
  exact wp_count_finishes (s := s₁) (I := fun _ s' => Reconciled cfg d b s'.1)
    (fun x _ s₂ hs₂ => wp_reconcileCall_reconciled h x hs₂) hs₁

/-! ## Both -/

/--
**When recovery and the event agree.** For every live call whose agent is CONNECTED and whose
borrower is RESERVED, both by its worker: if the sweep of stale calls ends the call as COMPLETED,
it leaves the borrower with the status and the attempts with which the COMPLETED event would
have left it, exactly if the call was never answered and the event applies to it.
-/
theorem completion_agrees_iff (h : Talking s d b) {δ : Delivery} (he : CompletedEvent s d δ.event)
    (hδ : δ.Faultless) {now : Time} {env : Nat → Choice} (henv : ∀ n, (env n).fault = .none)
    (hfinished : ∃ d' ∈ (afterSweep cfg now i env s).calls.get d.id, d'.state = .completed) :
    (afterSweep cfg now i env s).standing d.borrowerId = (δ.run cfg s).standing d.borrowerId
      ↔ d.answeredAt = none ∧ shouldApplyEvent d.state .completed = .apply := by
  have hwpEvent : (secluded cfg δ.process).wp δ.process
      (EventProcessor.processEvent cfg δ.event) _ (s, ()) := wp_completedEvent h he
  have hwpSweep : (secluded cfg i).wp i (RecoveryWorker.sweepOrphanedCalls cfg now) _ (s, ()) :=
    wp_sweepOrphanedCalls_reconciled h now
  obtain ⟨-, -, hevent⟩ := eval_solo_of_wp (n := 0) (fun n _ => hδ n) hwpEvent
  obtain ⟨-, -, hsweep⟩ := eval_solo_of_wp (n := 0) (fun n _ => henv n) hwpSweep
  have hswept : (afterSweep cfg now i env s).standing d.borrowerId = some (b.missed cfg) := by
    rcases hsweep with ⟨hget, -⟩ | ⟨-, x, hx, hmissed⟩
    · obtain ⟨d', hd', hcompleted⟩ := hfinished
      obtain rfl : d = d' := Option.some.inj (hget.symm.trans hd')
      have hlive := h.live
      rw [hcompleted] at hlive
      cases hlive
    · exact (congrArg (Option.map Borrower.standing) hx).trans (congrArg some hmissed)
  have hheard : (δ.run cfg s).standing d.borrowerId = _ := hevent
  rw [hswept, hheard, Option.some_inj]
  by_cases happly : shouldApplyEvent d.state .completed = .apply
  · rw [if_pos happly]
    cases d.answeredAt with
    | none => exact iff_of_true rfl ⟨rfl, happly⟩
    | some t => exact iff_of_false (met_ne_missed cfg b).symm fun hn => by cases hn.1
  · rw [if_neg happly]
    refine iff_of_false (fun heq => ?_) fun hn => happly hn.2
    have hstatus : (b.missed cfg).1 = .reserved := (congrArg Prod.fst heq).trans h.reserved
    simp only [Borrower.missed] at hstatus
    split at hstatus <;> cases hstatus

/-! ## A call that has been connected -/

/-- A call whose agent is on the line; it has been answered at this time, or its ANSWERED event
is still on the way. -/
def connectedCall (answeredAt : Option Time) : Call where
  id := "call"
  campaignId := "campaign"
  agentId := "agent"
  borrowerId := "borrower"
  state := .connected
  stateRank := 5
  providerName := "mock_a"
  providerCallId := some "provider-call"
  idempotencyKey := "campaign:agent:borrower:1"
  createdByWorker := "worker"
  answeredAt := answeredAt
  connectedAt := some 0
  updatedAt := 0

def connectedAgent : Agent :=
  { pairInHand.agent with state := .connected, currentCallId := some "call" }

/-- The call, its agent and its borrower. -/
def onTheCall (answeredAt : Option Time) : State :=
  { seed ⟨[connectedAgent], List.nodup_singleton _⟩ ⟨[pairInHand.borrower],
      nodup_borrowerInHand⟩ with
    calls := ⟨[connectedCall answeredAt], List.nodup_singleton _⟩ }

theorem onTheCall_talking (answeredAt : Option Time) :
    Talking (onTheCall answeredAt) (connectedCall answeredAt) pairInHand.borrower :=
  ⟨rfl, rfl, rfl, ⟨connectedAgent, rfl, rfl, rfl⟩, rfl, rfl, rfl⟩

/-- The COMPLETED event, which arrives while nothing goes wrong. -/
def hangsUp : Delivery := ⟨0, eventOf "COMPLETED", fun _ => {}⟩

theorem hangsUp_completed (answeredAt : Option Time) :
    CompletedEvent (onTheCall answeredAt) (connectedCall answeredAt) hangsUp.event :=
  ⟨rfl, List.not_mem_nil, rfl⟩

/-- The provider, when asked, says that the call is over. -/
def reportsCompleted (_ : Nat) : Choice where
  callStatus := .ok .completed

theorem onTheCall_finished (answeredAt : Option Time)
    (h : answeredAt = none ∨ answeredAt = some 0) :
    ∃ d' ∈ (afterSweep {} (seconds 200) 1 reportsCompleted (onTheCall answeredAt)).calls.get
      (connectedCall answeredAt).id, d'.state = .completed := by
  have hfinished : ((afterSweep {} (seconds 200) 1 reportsCompleted
      (onTheCall answeredAt)).calls.get "call").any (fun d' => d'.state == .completed) = true := by
    rcases h with rfl | rfl <;> decide +kernel
  obtain ⟨d', hd', hstate⟩ := Option.any_eq_true _ _ |>.mp hfinished
  exact ⟨d', hd', by simpa using hstate⟩

/-- As long as nothing says that it was answered, both count a miss. -/
theorem completion_agrees_unanswered :
    (afterSweep {} (seconds 200) 1 reportsCompleted (onTheCall none)).standing "borrower"
      = (hangsUp.run {} (onTheCall none)).standing "borrower" :=
  (completion_agrees_iff (onTheCall_talking none) (hangsUp_completed none) (fun _ => rfl)
    (fun _ => rfl) (onTheCall_finished none (.inl rfl))).mpr ⟨rfl, rfl⟩

/-- The borrower has answered: by event it is CONTACTED, by recovery it is to be dialled again. -/
theorem completion_disagrees :
    ¬∀ (cfg : Settings) (i : Nat) (s : State) (d : Call) (b : Borrower) (δ : Delivery) (now : Time)
      (env : Nat → Choice), Talking s d b → CompletedEvent s d δ.event → δ.Faultless →
      (∀ n, (env n).fault = .none) →
      (∃ d' ∈ (afterSweep cfg now i env s).calls.get d.id, d'.state = .completed) →
      (afterSweep cfg now i env s).standing d.borrowerId
        = (δ.run cfg s).standing d.borrowerId := by
  intro hall
  have heq := hall {} 1 _ _ _ hangsUp (seconds 200) reportsCompleted (onTheCall_talking (some 0))
    (hangsUp_completed (some 0)) (fun _ => rfl) (fun _ => rfl)
    (onTheCall_finished (some 0) (.inr rfl))
  have hswept : (afterSweep {} (seconds 200) 1 reportsCompleted (onTheCall (some 0))).standing
      "borrower" = some (.pending, 1) := by
    decide +kernel
  have hheard : (hangsUp.run {} (onTheCall (some 0))).standing "borrower"
      = some (.contacted, 1) := by
    decide +kernel
  cases hswept.symm.trans (heq.trans hheard)

end SmartDialer
