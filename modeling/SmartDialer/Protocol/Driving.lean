import SmartDialer.Protocol.DialAlone

/-!
# The dial, operation by operation

One lemma for each thing a dial awaits, and one for each part of it, from the pair it is given
to the answer it gives. Cancelled, it leaves what `CutPost` tells; and otherwise it has given
back what it held, unless the provider raised something it has no answer to.
-/

namespace SmartDialer

open Store Conc

variable {cfg : Settings} {s₀ : State} {Cut : Bool → Prop} {Answers : OriginateAnswer → Prop}
  {campaign : Campaign} {pair : ReservationPair} {i : Nat} {own : Bool} {A A' : Agent → Prop}
  {d : Call} {s s' : State} {c : Choice}

/-! ## The operations of a dial -/

theorem Driving.of_agents (h : Driving campaign pair s₀ own A d s)
    (hagent : ∃ a, s'.agents.get pair.agent.id = some a ∧ A' a)
    (hborrowers : s'.borrowers = s.borrowers) (hcalls : s'.calls = s.calls) :
    Driving campaign pair s₀ own A' d s' where
  agent := hagent
  borrowers := hborrowers.trans h.borrowers
  call := hcalls ▸ h.call
  wellFormed := h.wellFormed
  others k hk := hcalls ▸ h.others k hk
  origin := h.origin

theorem Driving.of_sameDocuments (h : Driving campaign pair s₀ own A d s)
    (hs : SameDocuments s' s) : Driving campaign pair s₀ own A d s' :=
  h.of_agents (hs.agents ▸ h.agent) hs.borrowers hs.calls

/-- A step of the call that the rank guard lets through. -/
theorem Driving.transition (h : Driving campaign pair s₀ own A d s) (hc : c.fault = .none)
    {t : CallState} (hp : CallRepository.advanceable t d = true) (reason : Option String) :
    (exec i (.transitionCall d.id t reason) c s).1
        = .ok (some ((CallRepository.advance c.now t reason).apply d))
      ∧ Driving campaign pair s₀ own A ((CallRepository.advance c.now t reason).apply d)
        (exec i (.transitionCall d.id t reason) c s).2 := by
  have hans : (exec i (.transitionCall d.id t reason) c s).1
      = .ok (some ((CallRepository.advance c.now t reason).apply d)) := by
    rw [exec_faultless hc, effect, State.onCalls, CallRepository.transitionCall,
      Collection.findOneAndUpdate, h.call, Option.filter_some, if_pos hp]
    rfl
  refine ⟨hans, ?_, ?_, ?_, advance_wellFormed h.wellFormed _ _ _ hp, fun k hk => ?_, ?_⟩
  · rw [agents_of_ok hans]
    exact h.agent
  · rw [borrowers_of_ok hans]
    exact h.borrowers
  · exact transitionCall_get hans h.call hp
  · rw [(exec_ok hans).2]
    exact (Collection.get_update_ne hk _ _).trans (h.others k hk)
  · exact h.origin.of_eq rfl rfl rfl

/-- The id of the provider is recorded, or not, and the call is as it was otherwise. -/
theorem Driving.attach (h : Driving campaign pair s₀ own A d s) (hrank : 2 ≤ rank d.state)
    (hc : c.fault = .none) (providerCallId : Option String) :
    ∃ d', d'.id = d.id ∧ d'.state = d.state ∧ Driving campaign pair s₀ own A d'
      (exec i (.attachProviderCallId d.id providerCallId) c s).2 := by
  obtain ⟨answer, hans⟩ := exec_plain (o := .attachProviderCallId d.id providerCallId) trivial
    hc i s
  obtain ⟨d', hd', hre⟩ := call_exec (i := i) (c := c)
    (o := .attachProviderCallId d.id providerCallId) h.call
  have hothers : ∀ k, k ≠ d.id →
      (exec i (.attachProviderCallId d.id providerCallId) c s).2.calls.get k
        = s₀.calls.get k := by
    intro k hk
    rw [← h.others k hk]
    rcases exec_calls i (.attachProviderCallId d.id providerCallId) c s with heq | ⟨w, hw, heq⟩
      | ⟨_, hnew, -⟩
    · rw [heq]
    · cases hw
      rw [heq]
      exact Collection.get_update_ne hk _ _
    · cases hnew
  have hagent : ∃ a, (exec i (.attachProviderCallId d.id providerCallId) c
      s).2.agents.get pair.agent.id = some a ∧ A a := by
    rw [agents_of_ok hans]
    exact h.agent
  have hborrowers : (exec i (.attachProviderCallId d.id providerCallId) c s).2.borrowers
      = s₀.borrowers := by
    rw [borrowers_of_ok hans]
    exact h.borrowers
  -- another call may have the id already: then the write is not made
  cases hre with
  | same => exact ⟨d, rfl, rfl, hagent, hborrowers, hd', h.wellFormed, hothers, h.origin⟩
  | written w hw hk hp =>
      cases hw
      refine ⟨(CallRepository.attach c.now providerCallId).apply d, rfl, rfl, hagent, hborrowers,
        hd', ?_, hothers, h.origin.of_eq rfl rfl rfl⟩
      exact ⟨h.wellFormed.rank_eq, h.wellFormed.terminal_eq, h.wellFormed.ended_eq,
        fun _ => hrank, h.wellFormed.key_eq⟩

/-- The agent is moved to DIALING: it is as it was reserved. -/
theorem Driving.startDialing (hheld : PairHeld pair s₀)
    (h : Driving campaign pair s₀ own (· = pair.agent) d s) (hc : c.fault = .none) :
    Driving campaign pair s₀ own (Agent.DialingFor pair.workerId) d
      (exec i (.transitionAgent pair.agent.id .reserved .dialing pair.agent.stateVersion) c
        s).2 := by
  obtain ⟨answer, hans⟩ := exec_plain (o := .transitionAgent pair.agent.id .reserved .dialing
    pair.agent.stateVersion) trivial hc i s
  obtain ⟨a, ha, rfl⟩ := h.agent
  have hp : AgentRepository.movable .reserved pair.agent.stateVersion pair.agent = true :=
    AgentRepository.movable_iff.mpr ⟨hheld.agentState, rfl⟩
  refine h.of_agents ⟨_, agent_of_ok hans rfl ha hp, ?_, rfl⟩ ?_ ?_
  · exact (AgentRepository.timeAccountingUpdates_reservedBy ..).trans hheld.agentWorker
  · exact borrowers_of_ok hans
  · rw [exec_faultless hc]
    rfl

/-- The agent is bound to the call. -/
theorem Driving.bind (h : Driving campaign pair s₀ own (Agent.DialingFor pair.workerId) d s)
    (hc : c.fault = .none) (callId : String) :
    Driving campaign pair s₀ own (Agent.DialingFor pair.workerId) d
      (exec i (.bindCall pair.agent.id pair.workerId callId) c s).2 := by
  obtain ⟨answer, hans⟩ := exec_plain (o := .bindCall pair.agent.id pair.workerId callId) trivial
    hc i s
  obtain ⟨a, ha, hA⟩ := h.agent
  have hp : AgentRepository.bindable pair.workerId a = true :=
    AgentRepository.bindable_iff.mpr hA.1
  refine h.of_agents ⟨_, agent_of_ok hans rfl ha hp, hA⟩ (borrowers_of_ok hans) ?_
  rw [exec_faultless hc]
  rfl

/-! ## Giving the pair back -/

/-- What a release by the allocator leaves of an agent it holds, or has let go already. -/
theorem releaseAgent_exec {a : Agent} (ha : s.agents.get pair.agent.id = some a)
    (hA : a.HeldBy pair.workerId ∨ a.Free) (hc : c.fault = .none) (shielded : Bool) :
    ∃ a', (exec i (.releaseAgent pair.agent.id pair.workerId .available .allocator shielded) c
      s).2.agents.get pair.agent.id = some a' ∧ a'.Free := by
  obtain ⟨answer, hans⟩ := exec_plain (o := .releaseAgent pair.agent.id pair.workerId .available
    .allocator shielded) trivial hc i s
  rcases hA with hheldBy | hfree
  · exact ⟨_, agent_of_ok hans rfl ha hheldBy.releasable, rfl, rfl, rfl, rfl⟩
  · refine ⟨a, ?_, hfree⟩
    rw [agents_of_ok hans]
    refine (Collection.update_of_get_filter ?_ _).trans ha
    rw [ha]
    simp [AgentRepository.releasable, hfree.2.1]

variable (cfg) in
/-- What a release of the borrower comes to when the dial still has it. -/
theorem releaseBorrower_exec (hheld : PairHeld pair s₀)
    (hb : s.borrowers.get pair.borrower.id = some pair.borrower) (hc : c.fault = .none)
    {outcome : BorrowerReleaseOutcome} (hout : outcome = .released ∨ outcome = .retry)
    (shielded : Bool) :
    ∃ x, (exec i (.releaseBorrower pair.borrower.id pair.workerId outcome cfg.maxCallAttempts
        cfg.retryBackoffBaseSeconds shielded) c s).2.borrowers.get pair.borrower.id = some x
      ∧ (Exhausting cfg pair (outcome == .retry) ∧ x.status = .exhausted
        ∨ ¬Exhausting cfg pair (outcome == .retry) ∧ x.Free) := by
  obtain ⟨answer, hans⟩ := exec_plain (o := .releaseBorrower pair.borrower.id pair.workerId
    outcome cfg.maxCallAttempts cfg.retryBackoffBaseSeconds shielded) trivial hc i s
  have hp : BorrowerRepository.releasable pair.workerId pair.borrower = true :=
    BorrowerRepository.releasable_of_reserved hheld.borrowerStatus hheld.borrowerWorker
  refine ⟨(BorrowerRepository.release c.now outcome cfg.maxCallAttempts
    cfg.retryBackoffBaseSeconds).apply pair.borrower, ?_, ?_⟩
  · rw [borrowers_of_ok hans]
    exact Collection.get_write_of_filter (w := ⟨pair.borrower.id,
      BorrowerRepository.releasable pair.workerId, BorrowerRepository.release c.now outcome
        cfg.maxCallAttempts cfg.retryBackoffBaseSeconds⟩) hb hp
  · rcases hout with rfl | rfl
    · exact .inr ⟨fun h => (by cases h.1), rfl, rfl, rfl, rfl⟩
    -- a release for another attempt counts it, and may find that it was the last
    · by_cases hmax : cfg.maxCallAttempts ≤ pair.borrower.attemptCount + 1
      · refine .inl ⟨⟨rfl, hmax⟩, ?_⟩
        change (if cfg.maxCallAttempts ≤ ((pair.borrower.attemptCount + 1 : Nat) : Int) then
          BorrowerStatus.exhausted else .pending) = .exhausted
        rw [if_pos (by simpa using hmax)]
      · refine .inr ⟨fun h => hmax h.2, ?_, rfl, rfl, rfl⟩
        change (if cfg.maxCallAttempts ≤ ((pair.borrower.attemptCount + 1 : Nat) : Int) then
          BorrowerStatus.exhausted else .pending) = .pending
        rw [if_neg (by simpa using hmax)]

/-- A borrower the dial has let go of is not released again. -/
theorem releaseBorrower_exec_released {x : Borrower}
    (hb : s.borrowers.get pair.borrower.id = some x) (hx : x.Free ∨ x.status = .exhausted)
    (hc : c.fault = .none) (outcome : BorrowerReleaseOutcome) (shielded : Bool) :
    (exec i (.releaseBorrower pair.borrower.id pair.workerId outcome cfg.maxCallAttempts
      cfg.retryBackoffBaseSeconds shielded) c s).2.borrowers.get pair.borrower.id = some x := by
  obtain ⟨answer, hans⟩ := exec_plain (o := .releaseBorrower pair.borrower.id pair.workerId
    outcome cfg.maxCallAttempts cfg.retryBackoffBaseSeconds shielded) trivial hc i s
  rw [borrowers_of_ok hans]
  refine (Collection.update_of_get_filter ?_ _).trans hb
  rw [hb, Option.filter_some, if_neg]
  intro hp
  obtain ⟨hworker, hstatus⟩ := BorrowerRepository.releasable_iff.mp hp
  rcases hx with hfree | hexhausted
  · cases hfree.2.1.symm.trans hworker
  · rw [hexhausted] at hstatus
    exact absurd hstatus (by decide)

/-- What the dial is left with once it has given its pair back. -/
structure GivenBack (pair : ReservationPair) (s s' : State) : Prop where
  calls : s'.calls = s.calls
  agent : ∃ a, s'.agents.get pair.agent.id = some a ∧ a.Free
  borrower : ∃ x, s'.borrowers.get pair.borrower.id = some x ∧ x.status ≠ .reserved

/-- How a step of the dial may end: with what it is for, or cancelled. -/
def OrCut (cfg : Settings) (campaign : Campaign) (pair : ReservationPair) (s₀ : State)
    (Cut : Bool → Prop) {α : Type} (f : α → State → Prop) : Except Exn α → Assertion Unit
  | .ok a, s => f a s.1
  | .error e, s => e = .cancelledError ∧ ∃ b, Cut b ∧ CutPost cfg campaign pair s₀ b s.1

/-- What a dial may do once it is cancelled does not depend on what it was about to do. -/
theorem wp_bind_orCut {α β : Type} {p : Async α} {k : α → Async β} {f : α → State → Prop}
    {Q : Except Exn β → Assertion Unit}
    (hp : (dialLogic cfg s₀ Cut Answers i).wp i p (OrCut cfg campaign pair s₀ Cut f) (s, ()))
    (hk : ∀ a s', f a s' → (dialLogic cfg s₀ Cut Answers i).wp i (k a) Q (s', ()))
    (hcut : ∀ b s', Cut b → CutPost cfg campaign pair s₀ b s' →
      Q (.error .cancelledError) (s', ())) :
    (dialLogic cfg s₀ Cut Answers i).wp i (p.bind k) Q (s, ()) := by
  refine Logic.wp_bind (Logic.wp_mono hp ?_)
  rintro r ⟨s', ⟨⟩⟩ hr
  cases r with
  | ok a => exact hk a s' hr
  | error e =>
      obtain ⟨rfl, b, hb, hpost⟩ := hr
      exact hcut b s' hb hpost

/-- An operation the database answers by itself, at which the dial may be cancelled. -/
theorem wp_plain {o : Op} (ho : o.Plain) {opened failed counted : Bool}
    (hstage : Stage s.log opened failed counted)
    (hbefore : CutFrom cfg campaign pair s₀ opened failed counted s) {f : Ans o → State → Prop}
    (hgo : ∀ c, Calm s₀ Answers c → ∀ a, (exec i o c s).1 = .ok a →
      CutFrom cfg campaign pair s₀ (o.opensCall || opened) (o.failsCall || failed)
        (o.countsAttempt || counted) (exec i o c s).2
      ∧ (Stage (exec i o c s).2.log (o.opensCall || opened) (o.failsCall || failed)
        (o.countsAttempt || counted) → f a (exec i o c s).2)) :
    (dialLogic cfg s₀ Cut Answers i).wp i (await o) (OrCut cfg campaign pair s₀ Cut f)
      (s, ()) := by
  refine wp_await (fun c hc => ?_) fun _ b s' hb hcut => ?_
  · obtain ⟨a, ha⟩ := exec_plain ho hc.fault i s
    rw [ha]
    refine (hgo c hc a ha).2 ?_
    rw [exec_log, ha]
    exact hstage.answered a
  · refine ⟨rfl, b, hb, cutPost_of_cutOff hcut hstage hbefore fun c hc => ?_⟩
    obtain ⟨a, ha⟩ := exec_plain ho hc.fault i s
    exact (hgo c hc a ha).1

/-- `release_pair`, when the dial still has both. -/
theorem wp_releasePair (hheld : PairHeld pair s₀) {outcome : BorrowerReleaseOutcome}
    (hout : outcome = .released ∨ outcome = .retry) {opened failed : Bool}
    (hstage : Stage s.log opened failed false)
    (hagent : ∃ a, s.agents.get pair.agent.id = some a ∧ a.HeldBy pair.workerId)
    (hborrower : s.borrowers.get pair.borrower.id = some pair.borrower)
    (hcalls : Uncalled pair s ↔ Unnamed campaign pair s₀ opened failed) :
    (dialLogic cfg s₀ Cut Answers i).wp i (ReservationService.releasePair cfg pair outcome false)
      (OrCut cfg campaign pair s₀ Cut fun _ => GivenBack pair s) (s, ()) := by
  obtain ⟨a, ha, hA⟩ := hagent
  -- a release never spends the last attempt, so a cut-off one needs no compensation of its own
  have hspared : ¬Exhausting cfg pair false := fun h => by cases h.1
  have hstart : CutFrom cfg campaign pair s₀ opened failed false s :=
    ⟨⟨a, ha, .inl hA⟩, ⟨_, hborrower, .inr ⟨hspared, .inl rfl⟩⟩, hcalls⟩
  refine wp_bind_orCut (f := fun _ s₁ => s₁.calls = s.calls ∧ s₁.borrowers = s.borrowers
    ∧ (∃ a, s₁.agents.get pair.agent.id = some a ∧ a.Free)
    ∧ Stage s₁.log opened failed false) ?_ ?_ fun b s' hb hpost => ⟨rfl, b, hb, hpost⟩
  · change (dialLogic cfg s₀ Cut Answers i).wp i ((await (.releaseAgent pair.agent.id
      pair.workerId .available .allocator false)).bind fun _ => .ret ()) _ _
    refine wp_bind_orCut (wp_plain (o := .releaseAgent _ _ _ _ _) trivial hstage hstart
      fun c hc answer hans => ?_)
      (fun _ _ h => h) fun b s' hb hpost => ⟨rfl, b, hb, hpost⟩
    -- the agent goes first: from then on it is free, and the borrower still reserved
    obtain ⟨a', ha', hfree⟩ := releaseAgent_exec (i := i) ha (.inl hA) hc.fault false
    have hcalls' : (exec i (.releaseAgent pair.agent.id pair.workerId .available .allocator false)
        c s).2.calls = s.calls := by
      rw [exec_faultless hc.fault]
      rfl
    have hborrowers' := borrowers_of_ok hans
    refine ⟨⟨⟨a', ha', .inr hfree⟩, ⟨pair.borrower, ?_, .inr ⟨hspared, .inl rfl⟩⟩, ?_⟩,
      fun hstage' => ⟨hcalls', hborrowers', ⟨a', ha', hfree⟩, hstage'⟩⟩
    · rw [hborrowers']
      exact hborrower
    · rw [Uncalled, hcalls']
      exact hcalls
  · rintro - s₁ ⟨hcalls₁, hborrowers₁, hfree₁, hstage₁⟩
    have hmiddle : CutFrom cfg campaign pair s₀ opened failed false s₁ := by
      obtain ⟨a', ha', hfree⟩ := hfree₁
      refine ⟨⟨a', ha', .inr hfree⟩, ⟨pair.borrower, ?_, .inr ⟨hspared, .inl rfl⟩⟩, ?_⟩
      · rw [hborrowers₁]
        exact hborrower
      · rw [Uncalled, hcalls₁]
        exact hcalls
    refine wp_bind_orCut (f := fun _ s₂ => GivenBack pair s s₂)
      (wp_plain (o := .releaseBorrower _ _ _ _ _ _) trivial hstage₁ hmiddle
        fun c hc answer hans => ?_)
      (fun _ _ h => h) fun b s' hb hpost => ⟨rfl, b, hb, hpost⟩
    -- the borrower: whether the attempt counts depends on the outcome alone
    obtain ⟨x, hx, hstatus⟩ := releaseBorrower_exec cfg (i := i) (s := s₁) hheld
      (hborrowers₁ ▸ hborrower) hc.fault hout false
    have hcalls' : (exec i (.releaseBorrower pair.borrower.id pair.workerId outcome
        cfg.maxCallAttempts cfg.retryBackoffBaseSeconds false) c s₁).2.calls = s.calls := by
      rw [exec_faultless hc.fault]
      exact hcalls₁
    have hagents' := agents_of_ok hans
    have hcounted : (Op.countsAttempt (.releaseBorrower pair.borrower.id pair.workerId outcome
        cfg.maxCallAttempts cfg.retryBackoffBaseSeconds false) || false) = (outcome == .retry) := by
      rcases hout with rfl | rfl
      · rfl
      · rfl
    refine ⟨⟨?_, ⟨x, hx, ?_⟩, ?_⟩, fun _ => ⟨hcalls', ?_, x, hx, ?_⟩⟩
    · rw [hagents']
      exact hmiddle.agent
    · rw [hcounted]
      exact hstatus.imp id fun h => ⟨h.1, .inr h.2⟩
    · rw [Uncalled, hcalls']
      exact hcalls
    · rw [hagents']
      exact hfree₁
    · rcases hstatus with ⟨-, h⟩ | ⟨-, h⟩
      · rw [h]
        decide
      · rw [h.1]
        decide

/-! ## The drive -/

/-- While its call is live, a cancelled dial leaves an agent that can be released. -/
theorem Driving.cutFrom_live (hheld : PairHeld pair s₀) (h : Driving campaign pair s₀ own A d s)
    (hA : ∀ a, A a → a.HeldBy pair.workerId) (hlive : isTerminal d.state = false) :
    CutFrom cfg campaign pair s₀ own false false s := by
  obtain ⟨a, ha, hAa⟩ := h.agent
  refine ⟨⟨a, ha, .inl (hA a hAa)⟩, ⟨pair.borrower, ?_, .inr ⟨fun he => ?_, .inl rfl⟩⟩,
    h.uncalled_live hlive⟩
  · rw [h.borrowers]
    exact hheld.borrower
  · cases he.1

/-- The same once the call is FAILED. -/
theorem Driving.cutFrom_failed (hheld : PairHeld pair s₀)
    (h : Driving campaign pair s₀ own A d s) (hA : ∀ a, A a → a.HeldBy pair.workerId)
    (hterm : isTerminal d.state = true) :
    CutFrom cfg campaign pair s₀ own true false s := by
  obtain ⟨a, ha, hAa⟩ := h.agent
  refine ⟨⟨a, ha, .inl (hA a hAa)⟩, ⟨pair.borrower, ?_, .inr ⟨fun he => ?_, .inl rfl⟩⟩,
    h.uncalled_failed hterm⟩
  · rw [h.borrowers]
    exact hheld.borrower
  · cases he.1

/-- The dial moves its call on. -/
theorem wp_advance (hheld : PairHeld pair s₀) (h : Driving campaign pair s₀ own A d s)
    (hA : ∀ a, A a → a.HeldBy pair.workerId) (hstage : Stage s.log own false false)
    {t : CallState} (hrank : rank d.state < rank t) (ht : t = .failed ∨ isTerminal t = false)
    (reason : Option String) :
    (dialLogic cfg s₀ Cut Answers i).wp i (await (.transitionCall d.id t reason))
      (OrCut cfg campaign pair s₀ Cut fun answer s' => ∃ d', answer = some d' ∧ d'.id = d.id
        ∧ d'.state = t ∧ Driving campaign pair s₀ own A d' s'
        ∧ Stage s'.log own (t == .failed) false) (s, ()) := by
  have hlive : isTerminal d.state = false := by
    have := rank_le_six t
    exact (isTerminal_eq_false_iff_rank d.state).mpr (by omega)
  have hp : CallRepository.advanceable t d = true := h.wellFormed.advanceable_iff.mpr hrank
  have hfails : (Op.failsCall (.transitionCall d.id t reason) || false) = (t == .failed) := by
    cases t <;> rfl
  refine wp_plain (o := .transitionCall _ _ _) trivial hstage
    (h.cutFrom_live hheld hA hlive) fun c hc answer hans => ?_
  obtain ⟨hans', hdriving⟩ := h.transition (i := i) hc.fault hp reason
  obtain rfl := Except.ok.inj (hans.symm.trans hans')
  rw [hfails]
  refine ⟨?_, fun hstage' => ⟨_, rfl, rfl, rfl, hdriving, hstage'⟩⟩
  rcases ht with rfl | ht
  · exact hdriving.cutFrom_failed hheld hA rfl
  · have hfalse : (t == CallState.failed) = false := by
      cases t <;> first | rfl | cases ht
    rw [hfalse]
    exact hdriving.cutFrom_live hheld hA ht

/--
Nothing is left of a dial: each call it has filed or moved is over, and neither the agent
nor the borrower is held for it.
-/
structure NothingLeaked (pair : ReservationPair) (s s' : State) : Prop where
  calls : ∀ k d, s'.calls.get k = some d → s.calls.get k = some d ∨ isTerminal d.state = true
  agent : ∀ a, s'.agents.get pair.agent.id = some a → a.state ≠ .reserved ∧ a.state ≠ .dialing
  borrower : ∀ x, s'.borrowers.get pair.borrower.id = some x → x.status ≠ .reserved

theorem GivenBack.nothingLeaked {s' : State} (h : GivenBack pair s s')
    (hcalls : ∀ k d, s.calls.get k = some d → s₀.calls.get k = some d ∨ isTerminal d.state = true) :
    NothingLeaked pair s₀ s' where
  calls := h.calls ▸ hcalls
  agent a ha := by
    obtain ⟨a', ha', hfree⟩ := h.agent
    obtain rfl : a' = a := Option.some.inj (ha'.symm.trans ha)
    rw [hfree.1]
    exact ⟨by decide, by decide⟩
  borrower x hx := by
    obtain ⟨x', hx', hstatus⟩ := h.borrower
    obtain rfl : x' = x := Option.some.inj (hx'.symm.trans hx)
    exact hstatus

/-- A dial that has come to nothing: the call fails, and the pair is given back. -/
theorem wp_failDial (hheld : PairHeld pair s₀)
    (h : Driving campaign pair s₀ own (Agent.DialingFor pair.workerId) d s)
    (hstage : Stage s.log own false false) (hlive : isTerminal d.state = false)
    (reason : Option String) :
    (dialLogic cfg s₀ Cut Answers i).wp i (CallAllocator.failDial cfg pair d.id reason)
      (OrCut cfg campaign pair s₀ Cut fun b s' => b = false ∧ NothingLeaked pair s₀ s')
      (s, ()) := by
  have hrank : rank d.state < rank .failed := (isTerminal_eq_false_iff_rank d.state).mp hlive
  refine wp_bind_orCut (wp_advance hheld h (fun _ => Agent.DialingFor.heldBy) hstage hrank
    (.inl rfl) reason) ?_ fun b s' hb hpost => ⟨rfl, b, hb, hpost⟩
  rintro - s₁ ⟨d', -, -, hstate, hdriving, hstage₁⟩
  have hterm : isTerminal d'.state = true := by
    rw [hstate]
    rfl
  obtain ⟨a, ha, hA⟩ := hdriving.agent
  refine wp_bind_orCut (wp_releasePair hheld (.inr rfl) hstage₁ ⟨a, ha, hA.heldBy⟩
    (hdriving.borrowers ▸ hheld.borrower) (hdriving.uncalled_failed hterm)) ?_
    fun b s' hb hpost => ⟨rfl, b, hb, hpost⟩
  rintro - s₂ hback
  refine ⟨rfl, hback.nothingLeaked fun k x hx => ?_⟩
  by_cases hk : k = d'.id
  · obtain rfl : d' = x := Option.some.inj (hdriving.call.symm.trans (hk ▸ hx))
    exact .inr hterm
  · exact .inl ((hdriving.others k hk).symm.trans hx)

/-- What `_originate` makes an answer of. -/
def OriginateAnswer.handled : OriginateAnswer → Bool
  | .result _ | .timeoutError | .providerError .timeout | .providerError (.rejected _) => true
  | _ => false

/-- The dial gets an answer it can use. -/
def Met (campaign : Campaign) (Answers : OriginateAnswer → Prop) : Prop :=
  providerNames.contains campaign.providerName = true
    ∧ ∃ answer, Answers answer ∧ answer.handled = true

/-- The exception that leaves the dial is none it has a compensation for. -/
structure Stuck (campaign : Campaign) (pair : ReservationPair)
    (Answers : OriginateAnswer → Prop) (s : State) : Prop where
  unmet : providerNames.contains campaign.providerName = true →
    ∃ answer, Answers answer ∧ answer.handled = false
  agent : ∃ a, s.agents.get pair.agent.id = some a ∧ a.state = .dialing

/-- How the dial ends, from the moment it has its call. -/
def Ended (cfg : Settings) (campaign : Campaign) (pair : ReservationPair) (s₀ : State)
    (Cut : Bool → Prop) (Answers : OriginateAnswer → Prop) {α : Type} (f : α → State → Prop) :
    Except Exn α → Assertion Unit
  | .ok a, s => f a s.1
  | .error e, s => (e = .cancelledError ∧ ∃ b, Cut b ∧ CutPost cfg campaign pair s₀ b s.1)
      ∨ e ≠ .cancelledError ∧ Stuck campaign pair Answers s.1

theorem OrCut.ended {α : Type} {f g : α → State → Prop} {r : Except Exn α} {x : State × Unit}
    (h : OrCut cfg campaign pair s₀ Cut f r x) (hfg : ∀ a s, f a s → g a s) :
    Ended cfg campaign pair s₀ Cut Answers g r x := by
  cases r with
  | ok a => exact hfg a x.1 h
  | error e => exact .inl h

/-- A dial that is cancelled at a request to the provider. -/
theorem Driving.cutPost (hheld : PairHeld pair s₀)
    (h : Driving campaign pair s₀ own (Agent.DialingFor pair.workerId) d s)
    (hstage : Stage s.log own false false) (hlive : isTerminal d.state = false) {o : Op}
    {b : Bool} {s' : State} (hcut : CutOff s₀ Answers i o b s s') (hopens : o.opensCall = false)
    (hfails : o.failsCall = false) (hcounts : o.countsAttempt = false)
    (hsame : ∀ c, SameDocuments (effect o c s).2 s) : CutPost cfg campaign pair s₀ b s' := by
  have hcutFrom : ∀ s', SameDocuments s' s →
      CutFrom cfg campaign pair s₀ own false false s' := fun s' hs =>
    (h.of_sameDocuments hs).cutFrom_live hheld (fun _ => Agent.DialingFor.heldBy) hlive
  refine cutPost_of_cutOff hcut hstage (hcutFrom s (SameDocuments.refl s)) fun c hc => ?_
  rw [hopens, hfails, hcounts, exec_faultless hc.fault]
  exact hcutFrom _ ((SameDocuments.record ..).trans (hsame c))

/-- `_originate`, when the agent is DIALING. -/
theorem wp_originate (hheld : PairHeld pair s₀)
    (h : Driving campaign pair s₀ own (Agent.DialingFor pair.workerId) d s)
    (hstage : Stage s.log own false false) (hlive : isTerminal d.state = false) :
    (dialLogic cfg s₀ Cut Answers i).wp i (CallAllocator.originate cfg campaign pair d.id)
      (Ended cfg campaign pair s₀ Cut Answers fun _ s' => Met campaign Answers
        ∧ Driving campaign pair s₀ own (Agent.DialingFor pair.workerId) d s'
        ∧ Stage s'.log own false false) (s, ()) := by
  have hstuck : ∀ s', SameDocuments s' s → (providerNames.contains campaign.providerName = true →
      ∃ answer, Answers answer ∧ answer.handled = false) → Stuck campaign pair Answers s' := by
    intro s' hs hunmet
    obtain ⟨a, ha, hA⟩ := h.agent
    exact ⟨hunmet, a, hs.agents ▸ ha, hA.2⟩
  rw [CallAllocator.originate]
  split
  -- no such provider: the error leaves `_dial` with the agent still DIALING
  · rename_i hnone
    refine .inr ⟨by simp, hstuck s (SameDocuments.refl s) fun hregistered => ?_⟩
    rw [hregistered] at hnone
    cases hnone
  · rename_i hregistered
    rw [Bool.not_eq_true, Bool.not_eq_false'] at hregistered
    have hmet : ∀ c, Calm s₀ Answers c → c.originate.handled = true → Met campaign Answers :=
      fun c hc hhandled => ⟨hregistered, _, hc.answers, hhandled⟩
    have hunmet : ∀ c, Calm s₀ Answers c → c.originate.handled = false → ∀ e,
        Stuck campaign pair Answers (s.record e) :=
      fun c hc hunhandled e => hstuck _ (SameDocuments.record ..) fun _ =>
        ⟨_, hc.answers, hunhandled⟩
    refine Logic.wp_tryCatch (Logic.wp_bind (wp_await (fun c hc => ?_) fun _ b s' hb hcut => ?_))
    · have hans := hmet c hc
      have hraise := hunmet c hc
      cases ho : c.originate with
      | result r =>
          rw [exec_of_effect (r := .ok r) hc.fault (by rw [effect, ho])]
          exact ⟨hans (by rw [ho]; rfl), h.of_sameDocuments (SameDocuments.record ..),
            hstage.answered (o := .originateCall _ _ _) r⟩
      -- the two timeouts and a rejection are caught, and count as no answer
      | timeoutError =>
          rw [exec_of_effect (r := .error .timeoutError) hc.fault (by rw [effect, ho])]
          exact ⟨hans (by rw [ho]; rfl), h.of_sameDocuments (SameDocuments.record ..),
            hstage.raised (by simp)⟩
      | providerError e =>
          rw [exec_of_effect (r := .error (.provider e)) hc.fault (by rw [effect, ho])]
          cases e with
          | timeout =>
              exact ⟨hans (by rw [ho]; rfl), h.of_sameDocuments (SameDocuments.record ..),
                hstage.raised (by simp)⟩
          | rejected reason =>
              exact ⟨hans (by rw [ho]; rfl), h.of_sameDocuments (SameDocuments.record ..),
                hstage.raised (by simp)⟩
          -- what the handler does not name escapes
          | unavailable name => exact .inr ⟨by simp, hraise (by rw [ho]; rfl) _⟩
          | other name => exact .inr ⟨by simp, hraise (by rw [ho]; rfl) _⟩
    · refine .inl ⟨rfl, b, hb, h.cutPost hheld hstage hlive hcut rfl rfl rfl fun c => ?_⟩
      rw [effect]
      split <;> exact SameDocuments.refl s

theorem wp_bind_ended {α β : Type} {p : Async α} {k : α → Async β} {f : α → State → Prop}
    {g : β → State → Prop}
    (hp : (dialLogic cfg s₀ Cut Answers i).wp i p (Ended cfg campaign pair s₀ Cut Answers f)
      (s, ()))
    (hk : ∀ a s', f a s' → (dialLogic cfg s₀ Cut Answers i).wp i (k a)
      (Ended cfg campaign pair s₀ Cut Answers g) (s', ())) :
    (dialLogic cfg s₀ Cut Answers i).wp i (p.bind k) (Ended cfg campaign pair s₀ Cut Answers g)
      (s, ()) := by
  refine Logic.wp_bind (Logic.wp_mono hp ?_)
  rintro r ⟨s', ⟨⟩⟩ hr
  cases r with
  | ok a => exact hk a s' hr
  | error e => exact hr

/-- What a dial that has returned has come to. -/
def Concluded (campaign : Campaign) (pair : ReservationPair) (s₀ : State)
    (Answers : OriginateAnswer → Prop) (b : Bool) (s : State) : Prop :=
  Met campaign Answers ∧ (b = false → NothingLeaked pair s₀ s)

/-- `_hangup`: whatever the provider answers, the database is as it was. -/
theorem wp_hangup (hheld : PairHeld pair s₀)
    (h : Driving campaign pair s₀ own (Agent.DialingFor pair.workerId) d s)
    (hstage : Stage s.log own false false) (hlive : isTerminal d.state = false)
    (providerCallId : Option String) :
    (dialLogic cfg s₀ Cut Answers i).wp i
      (CallAllocator.hangup campaign.providerName providerCallId)
      (OrCut cfg campaign pair s₀ Cut fun _ s' =>
        Driving campaign pair s₀ own (Agent.DialingFor pair.workerId) d s'
        ∧ Stage s'.log own false false) (s, ()) := by
  rw [CallAllocator.hangup]
  split
  · exact ⟨h, hstage⟩
  · refine Logic.wp_tryCatch (wp_await (fun c hc => ?_) fun _ b s' hb hcut => ?_)
    · cases ho : c.hangup with
      | none =>
          rw [exec_of_effect (r := .ok ()) hc.fault (by rw [effect, ho])]
          exact ⟨h.of_sameDocuments (SameDocuments.record ..),
            hstage.answered (o := .hangupCall _ _) ()⟩
      | some e =>
          rw [exec_of_effect (r := .error (.provider e)) hc.fault (by rw [effect, ho])]
          exact ⟨h.of_sameDocuments (SameDocuments.record ..), hstage.raised (by simp)⟩
    · refine ⟨rfl, b, hb, h.cutPost hheld hstage hlive hcut rfl rfl rfl fun c => ?_⟩
      rw [effect]
      split <;> exact SameDocuments.refl s

/-- `_dial`, from the provider's answer on. -/
theorem wp_concludeDial (hheld : PairHeld pair s₀)
    (h : Driving campaign pair s₀ own (Agent.DialingFor pair.workerId) d s)
    (hstage : Stage s.log own false false) (hstate : d.state = .initiated)
    (hmet : Met campaign Answers) (result : Option OriginateResult) :
    (dialLogic cfg s₀ Cut Answers i).wp i
      (CallAllocator.concludeDial cfg campaign pair d.id result)
      (Ended cfg campaign pair s₀ Cut Answers (Concluded campaign pair s₀ Answers)) (s, ()) := by
  -- `failDial` is reached from three places: no answer, a refusal, and a call that was lost
  have hfail : ∀ {d' : Call} {s' : State}, d'.id = d.id → d'.state = .initiated →
      Driving campaign pair s₀ own (Agent.DialingFor pair.workerId) d' s' →
      Stage s'.log own false false → ∀ reason, (dialLogic cfg s₀ Cut Answers i).wp i
        (CallAllocator.failDial cfg pair d.id reason)
        (Ended cfg campaign pair s₀ Cut Answers (Concluded campaign pair s₀ Answers)) (s', ()) := by
    intro d' s' hid hinitiated hdriving hstage' reason
    have hlive : isTerminal d'.state = false := by
      rw [hinitiated]
      rfl
    have hend : (dialLogic cfg s₀ Cut Answers i).wp i (CallAllocator.failDial cfg pair d'.id reason)
        (OrCut cfg campaign pair s₀ Cut fun b s'' => b = false ∧ NothingLeaked pair s₀ s'')
        (s', ()) := wp_failDial hheld hdriving hstage' hlive reason
    rw [hid] at hend
    exact Logic.wp_mono hend fun r x hr => hr.ended fun b s'' hb => ⟨hmet, fun _ => hb.2⟩
  cases result with
  -- the call has ended in the meantime: hang up, then fail
  | none => exact hfail rfl hstate h hstage _
  | some result =>
      rw [CallAllocator.concludeDial]
      split
      · exact hfail rfl hstate h hstage _
      · have hlive : isTerminal d.state = false := by
          rw [hstate]
          rfl
        have hattach : ∀ c, Calm s₀ Answers c → ∃ d', d'.id = d.id ∧ d'.state = .initiated
            ∧ Driving campaign pair s₀ own (Agent.DialingFor pair.workerId) d'
              (exec i (.attachProviderCallId d.id result.providerCallId) c s).2 := by
          intro c hc
          obtain ⟨d', hid, hstate', hdriving⟩ := h.attach (i := i) (by rw [hstate]; decide)
            hc.fault result.providerCallId
          exact ⟨d', hid, hstate'.trans hstate, hdriving⟩
        refine Logic.wp_bind (Logic.wp_mono (wp_plain (o := .attachProviderCallId _ _)
          (f := fun _ s' => ∃ d', d'.id = d.id ∧ d'.state = .initiated
            ∧ Driving campaign pair s₀ own (Agent.DialingFor pair.workerId) d' s'
            ∧ Stage s'.log own false false) trivial hstage
          (h.cutFrom_live hheld (fun _ => Agent.DialingFor.heldBy) hlive)
          fun c hc answer hans => ?_) ?_)
        · obtain ⟨d', hid, hinitiated, hdriving⟩ := hattach c hc
          refine ⟨hdriving.cutFrom_live hheld (fun _ => Agent.DialingFor.heldBy) ?_,
            fun hstage' => ⟨d', hid, hinitiated, hdriving, hstage'⟩⟩
          rw [hinitiated]
          rfl
        · rintro r ⟨s₁, ⟨⟩⟩ hr
          cases r with
          | error e => exact .inl hr
          | ok answer =>
              obtain ⟨d', hid, hinitiated, hdriving, hstage₁⟩ := hr
              cases answer with
              -- the call went through, and the dial reports success
              | some _ => exact ⟨hmet, fun h => by cases h⟩
              | none =>
                  have hlive' : isTerminal d'.state = false := by
                    rw [hinitiated]
                    rfl
                  refine wp_bind_orCut (wp_hangup hheld hdriving hstage₁ hlive'
                    result.providerCallId) ?_ fun b s' hb hpost => .inl ⟨rfl, b, hb, hpost⟩
                  rintro - s₂ ⟨hdriving₂, hstage₂⟩
                  exact hfail hid hinitiated hdriving₂ hstage₂ _

/-- `_dial`, from the moment the call is INITIATED on. -/
theorem wp_launch (hheld : PairHeld pair s₀)
    (h : Driving campaign pair s₀ own (· = pair.agent) d s)
    (hstage : Stage s.log own false false) (hstate : d.state = .initiated) :
    (dialLogic cfg s₀ Cut Answers i).wp i (CallAllocator.launch cfg campaign pair d.id)
      (Ended cfg campaign pair s₀ Cut Answers (Concluded campaign pair s₀ Answers)) (s, ()) := by
  have hlive : isTerminal d.state = false := by
    rw [hstate]
    rfl
  have hA : ∀ a, a = pair.agent → a.HeldBy pair.workerId := by
    rintro a rfl
    exact ⟨hheld.agentWorker, .inl hheld.agentState⟩
  -- the agent starts dialing
  refine wp_bind_orCut (f := fun _ s' => Driving campaign pair s₀ own
    (Agent.DialingFor pair.workerId) d s' ∧ Stage s'.log own false false)
    (wp_plain (o := .transitionAgent _ _ _ _) trivial hstage (h.cutFrom_live hheld hA hlive)
      fun c hc answer _ => ?_) ?_ fun b s' hb hpost => .inl ⟨rfl, b, hb, hpost⟩
  · have hdriving := h.startDialing (i := i) hheld hc.fault
    exact ⟨hdriving.cutFrom_live hheld (fun _ => Agent.DialingFor.heldBy) hlive,
      fun hstage' => ⟨hdriving, hstage'⟩⟩
  rintro - s₁ ⟨h₁, hstage₁⟩
  -- it is bound to the call
  refine wp_bind_orCut (f := fun _ s' => Driving campaign pair s₀ own
    (Agent.DialingFor pair.workerId) d s' ∧ Stage s'.log own false false)
    (wp_plain (o := .bindCall _ _ _) trivial hstage₁
      (h₁.cutFrom_live hheld (fun _ => Agent.DialingFor.heldBy) hlive) fun c hc answer _ => ?_) ?_
    fun b s' hb hpost => .inl ⟨rfl, b, hb, hpost⟩
  · have hdriving := h₁.bind (i := i) hc.fault d.id
    exact ⟨hdriving.cutFrom_live hheld (fun _ => Agent.DialingFor.heldBy) hlive,
      fun hstage' => ⟨hdriving, hstage'⟩⟩
  rintro - s₂ ⟨h₂, hstage₂⟩
  -- the provider is asked
  refine wp_bind_ended (wp_originate hheld h₂ hstage₂ hlive) ?_
  rintro result s₃ ⟨hmet, h₃, hstage₃⟩
  exact wp_concludeDial hheld h₃ hstage₃ hstate hmet result

/-- `_dial`, once it has its call. -/
def CallAllocator.drive (cfg : Settings) (campaign : Campaign) (pair : ReservationPair)
    (call : Call) : Async Bool :=
  if call.state ≠ .queued then do
    ReservationService.releasePair cfg pair .released false
    pure false
  else do
    let _ ← await (.transitionCall call.id .reserved none)
    let initiated ← await (.transitionCall call.id .initiated none)
    if initiated.isNone then
      ReservationService.releasePair cfg pair .released false
      pure false
    else CallAllocator.launch cfg campaign pair call.id

/-- A call that is QUEUED is driven to the provider. -/
theorem wp_drive_queued (hheld : PairHeld pair s₀)
    (h : Driving campaign pair s₀ own (· = pair.agent) d s)
    (hstage : Stage s.log own false false) (hstate : d.state = .queued) :
    (dialLogic cfg s₀ Cut Answers i).wp i (CallAllocator.drive cfg campaign pair d)
      (Ended cfg campaign pair s₀ Cut Answers (Concluded campaign pair s₀ Answers)) (s, ()) := by
  have hA : ∀ a, a = pair.agent → a.HeldBy pair.workerId := by
    rintro a rfl
    exact ⟨hheld.agentWorker, .inl hheld.agentState⟩
  rw [CallAllocator.drive, if_neg (not_not.mpr hstate)]
  refine wp_bind_orCut (wp_advance hheld h hA hstage (t := .reserved) (by rw [hstate]; decide)
    (.inr rfl) none) ?_ fun b s' hb hpost => .inl ⟨rfl, b, hb, hpost⟩
  rintro - s₁ ⟨d₁, -, hid₁, hstate₁, h₁, hstage₁⟩
  rw [← hid₁]
  refine wp_bind_orCut (wp_advance hheld h₁ hA hstage₁ (t := .initiated)
    (by rw [hstate₁]; decide) (.inr rfl) none) ?_ fun b s' hb hpost => .inl ⟨rfl, b, hb, hpost⟩
  rintro - s₂ ⟨d₂, rfl, hid₂, hstate₂, h₂, hstage₂⟩
  rw [← hid₂]
  exact wp_launch hheld h₂ hstage₂ hstate₂

/-- A pair that has not been touched is given back. -/
theorem wp_giveBack (hheld : PairHeld pair s₀) (hs : SameDocuments s s₀)
    {opened : Bool} (hstage : Stage s.log opened false false)
    (hopened : KeyFree s₀ (dialKey campaign pair) → opened = false) :
    (dialLogic cfg s₀ Cut Answers i).wp i
      ((ReservationService.releasePair cfg pair .released false).bind fun _ => .ret false)
      (OrCut cfg campaign pair s₀ Cut fun b s' => b = false ∧ NothingLeaked pair s₀ s')
      (s, ()) := by
  refine wp_bind_orCut (wp_releasePair hheld (.inl rfl) hstage ⟨pair.agent, ?_, hheld.agentWorker,
    .inl hheld.agentState⟩ ?_ (uncalled_untouched hs.calls hopened)) ?_
    fun b s' hb hpost => ⟨rfl, b, hb, hpost⟩
  · rw [hs.agents]
    exact hheld.agent
  · rw [hs.borrowers]
    exact hheld.borrower
  · rintro - s' hback
    exact ⟨rfl, hback.nothingLeaked fun k d hd => .inl (hs.calls ▸ hd)⟩

/-! ## Where the call comes from -/

/-- A document that has not been touched leaves nothing to compensate. -/
theorem cutFrom_untouched (hheld : PairHeld pair s₀) (hs : SameDocuments s s₀) {opened : Bool}
    (hopened : KeyFree s₀ (dialKey campaign pair) → opened = false) :
    CutFrom cfg campaign pair s₀ opened false false s := by
  refine ⟨⟨pair.agent, ?_, .inl ⟨hheld.agentWorker, .inl hheld.agentState⟩⟩,
    ⟨pair.borrower, ?_, .inr ⟨fun he => ?_, .inl rfl⟩⟩, uncalled_untouched hs.calls hopened⟩
  · rw [hs.agents]
    exact hheld.agent
  · rw [hs.borrowers]
    exact hheld.borrower
  · cases he.1

/-- The insertion of a call under the key of the dial. -/
def createOp (campaign : Campaign) (pair : ReservationPair) : Op :=
  .insertCall campaign.id pair.agent.id pair.borrower.id campaign.providerName pair.workerId
    (pair.borrower.attemptCount + 1)

/-- A dial whose key is free files a call of its own. -/
theorem createOp_exec (hheld : PairHeld pair s₀) (hs : SameDocuments s s₀)
    (hfree : CallRepository.findByIdempotencyKey (dialKey campaign pair) s₀.calls = none)
    (hc : Calm s₀ Answers c) :
    ∃ d : Call, (exec i (createOp campaign pair) c s).1 = .ok d ∧ d.state = .queued
      ∧ Driving campaign pair s₀ true (· = pair.agent) d
        (exec i (createOp campaign pair) c s).2 := by
  have hnew : s.calls.get c.newId = none := hs.calls ▸ hc.fresh
  obtain ⟨calls, hins⟩ : ∃ calls, s.calls.insert (c.newCall campaign.id pair.agent.id
      pair.borrower.id campaign.providerName pair.workerId (pair.borrower.attemptCount + 1))
        = some calls :=
    Option.isSome_iff_exists.mp (Collection.insert_isSome_iff.mpr hnew)
  -- the unique index lets the insertion through because the key is free
  have hinsert : CallRepository.insertCall (c.newCall campaign.id pair.agent.id pair.borrower.id
      campaign.providerName pair.workerId (pair.borrower.attemptCount + 1)) s.calls
        = some calls := by
    rw [CallRepository.insertCall, if_neg, hins]
    rw [hs.calls]
    change ¬(CallRepository.findByIdempotencyKey (dialKey campaign pair) s₀.calls).isSome = true
    rw [hfree]
    decide
  have heff : effect (createOp campaign pair) c s
      = (.ok (c.newCall campaign.id pair.agent.id pair.borrower.id campaign.providerName
        pair.workerId (pair.borrower.attemptCount + 1)), { s with calls := calls }) := by
    simp only [createOp, effect, hinsert]
  rw [exec_faultless hc.fault, heff]
  have hget := Collection.get_insert hins
  refine ⟨_, rfl, rfl, ⟨pair.agent, ?_, rfl⟩, hs.borrowers, ?_, ?_, fun k hk => ?_, .own ?_ ?_ rfl
    rfl⟩
  · change s.agents.get pair.agent.id = some pair.agent
    rw [hs.agents]
    exact hheld.agent
  · exact (hget _).trans (if_pos rfl)
  · exact (@callInsert_some (createOp campaign pair) c _ rfl).1
  · rw [← hs.calls]
    exact (hget k).trans (if_neg hk)
  · intro k d hd hkey
    have hp := Collection.findOne_none hfree hd
    rw [hkey, beq_self_eq_true] at hp
    cases hp
  · exact hc.fresh

/-- `create_call`, when the key is free. -/
theorem wp_createCall_own (hheld : PairHeld pair s₀) (hs : SameDocuments s s₀)
    (hstage : Stage s.log false false false)
    (hfree : CallRepository.findByIdempotencyKey (dialKey campaign pair) s₀.calls = none) :
    (dialLogic cfg s₀ Cut Answers i).wp i
      (Calls.createCall campaign.id pair.agent.id pair.borrower.id campaign.providerName
        pair.workerId (pair.borrower.attemptCount + 1))
      (OrCut cfg campaign pair s₀ Cut fun d s' => d.state = .queued
        ∧ Driving campaign pair s₀ true (· = pair.agent) d s'
        ∧ Stage s'.log true false false) (s, ()) := by
  have hA : ∀ a, a = pair.agent → a.HeldBy pair.workerId := by
    rintro a rfl
    exact ⟨hheld.agentWorker, .inl hheld.agentState⟩
  refine Logic.wp_tryCatch ?_
  change (dialLogic cfg s₀ Cut Answers i).wp i (await (createOp campaign pair)) _ _
  refine wp_await (fun c hc => ?_) fun _ b s' hb hcut => ?_
  · obtain ⟨d, hans, hstate, hdriving⟩ := createOp_exec (i := i) hheld hs hfree hc
    rw [hans]
    refine ⟨hstate, hdriving, ?_⟩
    rw [exec_log, hans]
    exact hstage.answered (o := createOp campaign pair) d
  · refine ⟨rfl, b, hb, cutPost_of_cutOff hcut hstage
      (cutFrom_untouched hheld hs fun _ => rfl) fun c hc => ?_⟩
    obtain ⟨d, -, hstate, hdriving⟩ := createOp_exec (i := i) hheld hs hfree hc
    exact hdriving.cutFrom_live hheld hA (by rw [hstate]; rfl)

/-- `create_call`, when there is a call under the key already. -/
theorem wp_createCall_found (hheld : PairHeld pair s₀) (hs : SameDocuments s s₀)
    (hstage : Stage s.log false false false) {d : Call}
    (hfound : CallRepository.findByIdempotencyKey (dialKey campaign pair) s₀.calls = some d) :
    (dialLogic cfg s₀ Cut Answers i).wp i
      (Calls.createCall campaign.id pair.agent.id pair.borrower.id campaign.providerName
        pair.workerId (pair.borrower.attemptCount + 1))
      (OrCut cfg campaign pair s₀ Cut fun d' s' => d' = d ∧ SameDocuments s' s₀
        ∧ Stage s'.log false false false) (s, ()) := by
  have hnotFree : KeyFree s₀ (dialKey campaign pair) → ∀ b : Bool, b = false :=
    fun hfree => absurd hfree (not_keyFree_of_found hfound)
  -- the unique index refuses the insertion, and the handler looks the call up
  have heff : ∀ c, effect (createOp campaign pair) c s = (.error .duplicateKeyError, s) := by
    intro c
    have hinsert : CallRepository.insertCall (c.newCall campaign.id pair.agent.id
        pair.borrower.id campaign.providerName pair.workerId (pair.borrower.attemptCount + 1))
          s.calls = none := by
      rw [CallRepository.insertCall, if_pos]
      rw [hs.calls]
      change (CallRepository.findByIdempotencyKey (dialKey campaign pair) s₀.calls).isSome = true
      rw [hfound]
      rfl
    simp only [createOp, effect, hinsert]
  refine Logic.wp_tryCatch ?_
  change (dialLogic cfg s₀ Cut Answers i).wp i (await (createOp campaign pair)) _ _
  refine wp_await (fun c hc => ?_) fun _ b s' hb hcut => ?_
  · rw [exec_faultless hc.fault, heff]
    have hs₁ : SameDocuments (s.record (.answered i (createOp campaign pair)
        (.error .duplicateKeyError))) s₀ := (SameDocuments.record ..).trans hs
    refine wp_bind_orCut (wp_plain (o := .findByIdempotencyKey _)
      (f := fun answer s' => answer = some d ∧ SameDocuments s' s₀
        ∧ Stage s'.log false false false) trivial (hstage.raised (by simp))
      (cutFrom_untouched hheld hs₁ fun _ => rfl) fun c' hc' answer hans => ?_) ?_
      fun b s' hb hpost => ⟨rfl, b, hb, hpost⟩
    · obtain ⟨heff', hstate'⟩ := exec_ok hans
      have hs₂ : SameDocuments (exec i (.findByIdempotencyKey (dialKey campaign pair)) c'
          (s.record (.answered i (createOp campaign pair) (.error .duplicateKeyError)))).2 s₀ := by
        rw [exec_faultless hc'.fault]
        exact (SameDocuments.record ..).trans hs₁
      refine ⟨cutFrom_untouched hheld hs₂ fun _ => rfl, fun hstage' => ⟨?_, hs₂, hstage'⟩⟩
      rw [← hfound, ← hs₁.calls]
      exact (Except.ok.inj heff').symm
    · rintro answer s₂ ⟨rfl, hs₂, hstage₂⟩
      exact ⟨rfl, hs₂, hstage₂⟩
  · refine ⟨rfl, b, hb, cutPost_of_cutOff hcut hstage
      (cutFrom_untouched hheld hs fun _ => rfl) fun c hc => ?_⟩
    refine cutFrom_untouched hheld ?_ fun hfree => hnotFree hfree _
    rw [exec_faultless hc.fault, heff]
    exact (SameDocuments.record ..).trans hs

/-- `_dial`, past the retry gate. -/
def CallAllocator.createAndDrive (cfg : Settings) (campaign : Campaign)
    (pair : ReservationPair) : Async Bool := do
  let call ← Calls.createCall campaign.id pair.agent.id pair.borrower.id campaign.providerName
    pair.workerId (pair.borrower.attemptCount + 1)
  CallAllocator.drive cfg campaign pair call

theorem dial_eq (cfg : Settings) (campaign : Campaign) (pair : ReservationPair) :
    CallAllocator.dial cfg campaign pair
      = (CallAllocator.retrySuppressed cfg campaign pair).bind fun suppressed =>
        if suppressed = true then
          (ReservationService.releasePair cfg pair .released false).bind fun _ => .ret false
        else CallAllocator.createAndDrive cfg campaign pair := rfl

/-- There is a call under the key of the dial, and it has been driven already. -/
def PastQueued (campaign : Campaign) (pair : ReservationPair) (s : State) : Prop :=
  ∃ d ∈ CallRepository.findByIdempotencyKey (dialKey campaign pair) s.calls, d.state ≠ .queued

instance (campaign : Campaign) (pair : ReservationPair) (s : State) :
    Decidable (PastQueued campaign pair s) :=
  inferInstanceAs (Decidable (∃ d ∈ _, _))

theorem wp_createAndDrive_past (hheld : PairHeld pair s₀) (hs : SameDocuments s s₀)
    (hstage : Stage s.log false false false) (hpast : PastQueued campaign pair s₀) :
    (dialLogic cfg s₀ Cut Answers i).wp i (CallAllocator.createAndDrive cfg campaign pair)
      (OrCut cfg campaign pair s₀ Cut fun b s' => b = false ∧ NothingLeaked pair s₀ s')
      (s, ()) := by
  obtain ⟨d, hfound, hstate⟩ := hpast
  refine wp_bind_orCut (wp_createCall_found hheld hs hstage hfound) ?_
    fun b s' hb hpost => ⟨rfl, b, hb, hpost⟩
  rintro _ s₁ ⟨rfl, hs₁, hstage₁⟩
  rw [CallAllocator.drive, if_pos hstate]
  exact wp_giveBack hheld hs₁ hstage₁ fun _ => rfl

theorem wp_createAndDrive (hheld : PairHeld pair s₀) (hwell : CallsWellFormed s₀)
    (hs : SameDocuments s s₀) (hstage : Stage s.log false false false)
    (hpast : ¬PastQueued campaign pair s₀) :
    (dialLogic cfg s₀ Cut Answers i).wp i (CallAllocator.createAndDrive cfg campaign pair)
      (Ended cfg campaign pair s₀ Cut Answers (Concluded campaign pair s₀ Answers)) (s, ()) := by
  cases hfound : CallRepository.findByIdempotencyKey (dialKey campaign pair) s₀.calls with
  | none =>
      refine wp_bind_orCut (wp_createCall_own hheld hs hstage hfound) ?_
        fun b s' hb hpost => .inl ⟨rfl, b, hb, hpost⟩
      rintro d s₁ ⟨hstate, hdriving, hstage₁⟩
      exact wp_drive_queued hheld hdriving hstage₁ hstate
  | some d =>
      -- a call that was left QUEUED is adopted
      have hstate : d.state = .queued := by
        by_contra hne
        exact hpast ⟨d, hfound, hne⟩
      have hget : s₀.calls.get d.id = some d := (Collection.findOne_some hfound).1
      refine wp_bind_orCut (wp_createCall_found hheld hs hstage hfound) ?_
        fun b s' hb hpost => .inl ⟨rfl, b, hb, hpost⟩
      rintro d' s₁ ⟨rfl, hs₁, hstage₁⟩
      have hdriving : Driving campaign pair s₀ false (· = pair.agent) d' s₁ := by
        refine ⟨⟨pair.agent, ?_, rfl⟩, hs₁.borrowers, ?_, hwell _ _ hget, fun k _ => ?_,
          .adopted _ hfound hstate rfl rfl rfl⟩
        · rw [hs₁.agents]
          exact hheld.agent
        · rw [hs₁.calls]
          exact hget
        · rw [hs₁.calls]
      exact wp_drive_queued hheld hdriving hstage₁ hstate

/-! ## The retry gate -/

/-- The retry gate turns the pair away: what it reads is the first the dial does. -/
def GateClosed (cfg : Settings) (pair : ReservationPair) (env : Nat → Choice) : Prop :=
  0 < pair.borrower.attemptCount ∧ (cfg.maxCallAttempts ≤ pair.borrower.attemptCount
    ∨ (env 0).now < pair.borrower.nextEligibleAt ∨ (env 1).health = .unhealthy)

instance (cfg : Settings) (pair : ReservationPair) (env : Nat → Choice) :
    Decidable (GateClosed cfg pair env) :=
  inferInstanceAs (Decidable (_ ∧ _))

/-- What is read of the worker process itself neither fails nor is cancelled. -/
theorem exec_local {o : Op} (hdb : o.isDatabase = false) (hcancel : o.isCancellable = false)
    (i : Nat) (c : Choice) (s : State) :
    exec i o c s
      = ((effect o c s).1, (effect o c s).2.record (.answered i o (effect o c s).1)) := by
  have hattempt : attempt o c s = effect o c s := by
    rw [attempt, hdb, hcancel]
    cases c.fault <;> rfl
  rw [exec, hattempt]

/-- The gate leaves the database as it is, and tells what `GateClosed` does. -/
theorem eval_retrySuppressed {env : Nat → Choice} (hstage : Stage s.log false false false) :
    ∃ x, (CallAllocator.retrySuppressed cfg campaign pair).eval (solo i env) (s, 0)
        = (.ok (decide (GateClosed cfg pair env)), x)
      ∧ SameDocuments x.1 s ∧ Stage x.1.log false false false := by
  unfold CallAllocator.retrySuppressed shouldRetry
  -- the tests in the order of the source: attempts at all, attempts left, backoff, health
  by_cases hcount : 0 < pair.borrower.attemptCount
  · rw [if_pos hcount]
    by_cases hmax : cfg.maxCallAttempts ≤ pair.borrower.attemptCount
    · refine ⟨(s, 0), ?_, SameDocuments.refl s, hstage⟩
      rw [if_pos hmax, decide_eq_true (show GateClosed cfg pair env from ⟨hcount, .inl hmax⟩)]
      rfl
    · rw [if_neg hmax]
      have hnow : solo i env .utcNow (s, 0) = (.ok (env 0).now, s.record (.answered i .utcNow
          (.ok (env 0).now)), 1) := by
        rw [solo, exec_local rfl rfl]
        rfl
      have hstage₁ := hstage.answered (i := i) (o := .utcNow) (env 0).now
      change ∃ x, ((((await .utcNow).bind fun now => if now < pair.borrower.nextEligibleAt then
        .ret false else await (.shouldAllowRetry campaign.providerName)).bind fun open_ =>
          .ret !open_).eval (solo i env) (s, 0)) = _ ∧ _
      by_cases hearly : (env 0).now < pair.borrower.nextEligibleAt
      · refine ⟨(s.record (.answered i .utcNow (.ok (env 0).now)), 1), ?_,
          SameDocuments.record .., hstage₁⟩
        rw [decide_eq_true (show GateClosed cfg pair env from ⟨hcount, .inr (.inl hearly)⟩),
          Prog.eval_bind, Prog.eval_perform_bind (S := sig) (by rw [hnow]), hnow, if_pos hearly]
        rfl
      -- only here is the second thing read
      · have hhealth : solo i env (.shouldAllowRetry campaign.providerName) (s.record
            (.answered i .utcNow (.ok (env 0).now)), 1) = (.ok ((env 1).health != .unhealthy),
              (s.record (.answered i .utcNow (.ok (env 0).now))).record
                (.answered i (.shouldAllowRetry campaign.providerName)
                  (.ok ((env 1).health != .unhealthy))), 2) := by
          rw [solo, exec_local rfl rfl]
          rfl
        have hclosed : GateClosed cfg pair env ↔ (env 1).health = .unhealthy := by
          simp [GateClosed, hcount, hmax, hearly]
        have hdecide : decide (GateClosed cfg pair env) = !((env 1).health != .unhealthy) := by
          rw [bne, Bool.not_not, decide_eq_decide.mpr hclosed]
          rfl
        refine ⟨((s.record (.answered i .utcNow (.ok (env 0).now))).record (.answered i
          (.shouldAllowRetry campaign.providerName) (.ok ((env 1).health != .unhealthy))), 2), ?_,
          (SameDocuments.record ..).trans (SameDocuments.record ..),
          hstage₁.answered (o := .shouldAllowRetry _) ((env 1).health != .unhealthy)⟩
        rw [hdecide, Prog.eval_bind, Prog.eval_perform_bind (S := sig) (by rw [hnow]), hnow,
          if_neg hearly, Prog.eval_perform, hhealth]
        rfl
  · refine ⟨(s, 0), ?_, SameDocuments.refl s, hstage⟩
    rw [if_neg hcount, decide_eq_false fun h => hcount h.1]
    rfl

end SmartDialer
