import SmartDialer.Protocol.Exclusion

/-!
# The agent and the borrower of a call

The two instances of a `Party`. An agent is held in RESERVED, DIALING and CONNECTED, a
borrower in RESERVED and IN_CALL, and the filters of the repositories say who may change
that.

Neither exclusion holds of every run. An agent that logs out is taken out of its call,
which goes on without it; when it logs in again, it is AVAILABLE for the next. The
borrower of such a call is given back when its lease runs out, since the sweep that does
so looks at no call.
-/

namespace SmartDialer

open Store Conc

/-! ## Agents -/

/-- What an agent's document says of its reservation. -/
def Agent.hold (a : Agent) : Hold := ⟨a.stateVersion, a.state.held, a.state == .reserved⟩

/-- The operation takes the agent out of RESERVED, DIALING and CONNECTED. -/
def Op.freesAgent (ch : Choice) (s : State) (agentId : String) (o : Op) : Bool :=
  (o.agentWrite ch).any fun w => w.target == agentId && (s.agents.get agentId).any fun a =>
    w.filter a && a.state.held && !(w.update.apply a).state.held

/-- The reservation of an agent that an entry reports. -/
def agentReservation : Entry → Option (Nat × String × Nat)
  | .answered i (.tryReserveAgent ..) (.ok (some a)) => some (i, a.id, a.stateVersion)
  | _ => none

/-- What a write does to an agent's reservation. -/
theorem agent_hold_step {o : Op} {ch : Choice} {a a' : Agent} (hsteady : o.Steady)
    (h : Rewritten (o.agentWrite ch) a a') : a.hold.Step a'.hold := by
  cases h with
  | same => exact .same
  | written v hv hk hp =>
      cases o, v, hv using Op.agentWrite_cases with
      | tryReserveAgent campaignId agentId workerId ttlSeconds =>
          refine .reserve ?_
          rw [Agent.hold, (AgentRepository.reservable_iff.mp hp).2]
          rfl
      | releaseAgent agentId workerId target actor shielded =>
          have hfree : target.held = false := hsteady
          cases target <;>
            first | exact absurd hfree (by decide) | exact .move false fun h => by cases h
      | transitionAgent agentId fromState toState expectedVersion =>
          obtain ⟨rfl, -⟩ := AgentRepository.movable_iff.mp hp
          obtain ⟨hreserved, hheld⟩ := hsteady
          cases toState <;> first | exact absurd rfl hreserved | exact .move _ hheld
      | bindCall agentId workerId callId =>
          exact .same
      | releaseExpiredAgentLease agent now =>
          exact .move false fun h => by cases h
      | heartbeat agentId =>
          exact .same

/-- The agent of a call. -/
def agentParty : Party where
  named d := d.agentId
  hold s k := (s.agents.get k).map Agent.hold
  frees := Op.freesAgent
  reservation := agentReservation
  part pair := (pair.agent.id, pair.agent.stateVersion)
  Inert o := ∀ ch, o.agentWrite ch = none
  named_evolves hev := hev.agentId
  hold_exec := by
    intro i o ch s k h hsteady hk
    obtain ⟨a, ha, rfl⟩ := Option.map_eq_some_iff.mp hk
    obtain ⟨a', ha', hre⟩ := agent_exec (i := i) (o := o) (c := ch) ha
    refine ⟨a'.hold, by rw [ha']; rfl, agent_hold_step hsteady hre, ?_⟩
    intro hheld hfree
    cases hre with
    | same => cases hheld.symm.trans hfree
    | written w hw hkey hp =>
        have hid : a.id = k := Collection.key_of_get ha
        have hfree' : (w.update.apply a).state.held = false := hfree
        have hheld' : a.state.held = true := hheld
        simp only [Op.freesAgent, hw, Option.any_some, ha, hp, hheld', hfree', Bool.not_false,
          Bool.and_self, Bool.and_true, beq_iff_eq]
        exact hkey.symm.trans hid
  hold_record := rfl
  hold_inert := by
    intro i o ch s k ho
    rcases exec_agents i o ch s with he | ⟨w, hw, -⟩
    · rw [he]
    · rw [ho ch] at hw
      cases hw
  reservation_inert := by
    intro i o r ho
    cases o with
    | tryReserveAgent _ _ _ _ => cases ho {}
    | _ => rfl
  reservation_crashed _ := rfl
  reservation_exec := by
    intro i o ch s j k v hr
    cases o with
    | tryReserveAgent campaignId agentId workerId ttlSeconds =>
        generalize hans : (exec i (.tryReserveAgent campaignId agentId workerId ttlSeconds) ch
          s).1 = r at hr
        match r, hr with
        | .ok (some a'), hr =>
            obtain ⟨a, ha, hp, rfl, hget⟩ := tryReserveAgent_some hans
            obtain ⟨rfl, rfl, rfl⟩ := Prod.mk.inj (Option.some.inj hr) |>.imp id Prod.mk.inj
            refine ⟨rfl, congrArg (Option.map Agent.hold) hget, a.hold,
              congrArg (Option.map Agent.hold) ha, ?_, rfl⟩
            rw [Agent.hold, (AgentRepository.reservable_iff.mp hp).2]
            rfl
    | _ => cases hr
  inert_onCalls := by
    intro o ho ch
    cases o with
    | _ => first | rfl | exact ho.elim

/-! ## Borrowers -/

/-- What a borrower's document says of its reservation. -/
def Borrower.hold (b : Borrower) : Hold :=
  ⟨b.stateVersion, BorrowerRepository.releasableStatuses.contains b.status, b.status == .reserved⟩

/-- The operation takes the borrower out of RESERVED and IN_CALL. -/
def Op.freesBorrower (ch : Choice) (s : State) (borrowerId : String) (o : Op) : Bool :=
  (o.borrowerWrite ch).any fun w => w.target == borrowerId &&
    (s.borrowers.get borrowerId).any fun b => w.filter b && b.hold.held
      && !(w.update.apply b).hold.held

/-- The reservation of a borrower that an entry reports. -/
def borrowerReservation : Entry → Option (Nat × String × Nat)
  | .answered i (.tryReserveBorrower ..) (.ok (some b)) => some (i, b.id, b.stateVersion)
  | _ => none

/-- What a write does to a borrower's reservation. -/
theorem borrower_hold_step {o : Op} {ch : Choice} {b b' : Borrower}
    (h : Rewritten (o.borrowerWrite ch) b b') : b.hold.Step b'.hold := by
  cases h with
  | same => exact .same
  | written v hv hk hp =>
      cases o, v, hv using Op.borrowerWrite_cases with
      | tryReserveBorrower campaignId borrowerId workerId ttlSeconds =>
          refine .reserve ?_
          rw [Borrower.hold, (BorrowerRepository.claimable_iff.mp hp).2.1]
          rfl
      | releaseBorrower borrowerId workerId outcome maxAttempts backoffBaseSeconds shielded =>
          cases outcome with
          | released => exact .move false fun h => by cases h
          | contacted => exact .move false fun h => by cases h
          | retry =>
              have hout : ((BorrowerRepository.release ch.now .retry maxAttempts
                  backoffBaseSeconds).apply b).hold = ⟨b.hold.version + 1, false, false⟩ := by
                simp only [BorrowerRepository.release, BorrowerRepository.buildRetryUpdate,
                  Borrower.hold]
                split <;> rfl
              rw [hout]
              exact .move false fun h => by cases h
      | reclaimExpiredBorrowerLease candidate now =>
          exact .move false fun h => by cases h

/-- The borrower of a call. -/
def borrowerParty : Party where
  named d := d.borrowerId
  hold s k := (s.borrowers.get k).map Borrower.hold
  frees := Op.freesBorrower
  reservation := borrowerReservation
  part pair := (pair.borrower.id, pair.borrower.stateVersion)
  Inert o := ∀ ch, o.borrowerWrite ch = none
  named_evolves hev := hev.borrowerId
  hold_exec := by
    intro i o ch s k h _ hk
    obtain ⟨b, hb, rfl⟩ := Option.map_eq_some_iff.mp hk
    obtain ⟨b', hb', hre⟩ := borrower_exec (i := i) (o := o) (c := ch) hb
    refine ⟨b'.hold, by rw [hb']; rfl, borrower_hold_step hre, ?_⟩
    intro hheld hfree
    cases hre with
    | same => cases hheld.symm.trans hfree
    | written w hw hkey hp =>
        have hid : b.id = k := Collection.key_of_get hb
        simp only [Op.freesBorrower, hw, Option.any_some, hb, hp, hheld, hfree, Bool.not_false,
          Bool.and_self, Bool.and_true, beq_iff_eq]
        exact hkey.symm.trans hid
  hold_record := rfl
  hold_inert := by
    intro i o ch s k ho
    rcases exec_borrowers i o ch s with he | ⟨w, hw, -⟩
    · rw [he]
    · rw [ho ch] at hw
      cases hw
  reservation_inert := by
    intro i o r ho
    cases o with
    | tryReserveBorrower _ _ _ _ => cases ho {}
    | _ => rfl
  reservation_crashed _ := rfl
  reservation_exec := by
    intro i o ch s j k v hr
    cases o with
    | tryReserveBorrower campaignId borrowerId workerId ttlSeconds =>
        generalize hans : (exec i (.tryReserveBorrower campaignId borrowerId workerId ttlSeconds)
          ch s).1 = r at hr
        match r, hr with
        | .ok (some b'), hr =>
            obtain ⟨b, hb, hp, rfl, hget⟩ := tryReserveBorrower_some hans
            obtain ⟨rfl, rfl, rfl⟩ := Prod.mk.inj (Option.some.inj hr) |>.imp id Prod.mk.inj
            refine ⟨rfl, congrArg (Option.map Borrower.hold) hget, b.hold,
              congrArg (Option.map Borrower.hold) hb, ?_, rfl⟩
            rw [Borrower.hold, (BorrowerRepository.claimable_iff.mp hp).2.1]
            rfl
    | _ => cases hr
  inert_onCalls := by
    intro o ho ch
    cases o with
    | _ => first | rfl | exact ho.elim

/-! ## Exclusion -/

section

variable {cfg : Settings} {i : Nat}

/-- An operation of the reservation that does not write to parties of this kind. -/
theorem mine_keep {V : Party} {o : Op} (hsteady : o.Steady) (hstill : ∀ s d, ¬o.Activates s d)
    (ho : V.Inert o) {k : String} {v : Nat}
    {B : Except Exn (Ans o) → Assertion Tokens} (hB : ∀ r s, Mine V i k v none s → B r s) :
    (exclusion V cfg).Atomic i o (Mine V i k v none) B :=
  steady_atomic hsteady (fun s d _ => hstill s d)
    fun ch _ hs => hB _ _ (mine_inert ho ch hs)

theorem agent_allocate (campaign : Campaign) (workerId : String) :
    AllocateOutline (exclusion agentParty cfg) i campaign workerId (fun _ _ => True)
      (fun _ agent => Mine agentParty i agent.id agent.stateVersion none)
      fun _ pair => exclusionPoints agentParty i pair where
  skip _ _ _ := trivial
  reserve _ :=
    { stable_idle := Logic.stable_true
      stable_claimed := fun _ => mine_stable _ _ _
      findAgents := Logic.Atomic.mono (plain_atomic trivial fun _ _ h => h) (fun _ h => h)
        fun _ _ h => unless_of fun _ => h
      claimAgent := fun _ => steady_atomic trivial (fun _ _ _ h => h) fun _ _ _ =>
        onClaim_of (fun _ heq => mine_reserve (by rw [heq]; rfl)) fun _ => trivial
      findBorrowers := fun _ => mine_keep (o := .findClaimableBorrowers _ _) trivial
        (fun _ _ h => h) (fun _ => rfl) fun _ _ h => unless_of fun _ => h
      claimBorrower := fun _ _ => mine_keep (o := .tryReserveBorrower _ _ _ _) trivial
        (fun _ _ h => h) (fun _ => rfl) fun _ _ h => onClaim_of (fun _ _ => h) fun _ => h
      giveBack := fun _ => Logic.Atomic.mono (plain_atomic rfl fun _ _ h => h) (fun _ h => h)
        fun _ _ h => unless_of fun _ => h }
  dial _ := exclusion_dial campaign
  done _ _ _ _ := trivial

theorem borrower_allocate (campaign : Campaign) (workerId : String) :
    AllocateOutline (exclusion borrowerParty cfg) i campaign workerId (fun _ _ => True)
      (fun _ _ _ => True) fun _ pair => exclusionPoints borrowerParty i pair where
  skip _ _ _ := trivial
  reserve _ :=
    { stable_idle := Logic.stable_true
      stable_claimed := fun _ => Logic.stable_true
      findAgents := Logic.Atomic.mono (plain_atomic trivial fun _ _ h => h) (fun _ h => h)
        fun _ _ h => unless_of fun _ => h
      claimAgent := fun _ => Logic.Atomic.mono (plain_atomic trivial fun _ _ h => h)
        (fun _ h => h) fun _ _ h => onClaim_of (fun _ _ => trivial) fun _ => h
      findBorrowers := fun _ => Logic.Atomic.mono (plain_atomic trivial fun _ _ h => h)
        (fun _ h => h) fun _ _ h => unless_of fun _ => h
      claimBorrower := fun _ _ => steady_atomic trivial (fun _ _ _ h => h) fun _ _ _ =>
        onClaim_of (fun _ heq => mine_reserve (by rw [heq]; rfl)) fun _ => trivial
      giveBack := fun _ => Logic.Atomic.mono (plain_atomic rfl fun _ _ h => h) (fun _ h => h)
        fun _ _ h => unless_of fun _ => h }
  dial _ := exclusion_dial campaign
  done _ _ _ _ := trivial

/-- No two calls under way name one party. -/
def Exclusive (named : Call → String) (s : State) : Prop :=
  ∀ k k' d d', s.calls.get k = some d → s.calls.get k' = some d' → d.Active → d'.Active →
    named d = named d' → k = k'

/-- Two calls under way name one party. -/
def shared (named : Call → String) (k k' : String) (s : State) : Bool :=
  (s.calls.get k).any fun d => (s.calls.get k').any fun d' =>
    decide (d.Active ∧ d'.Active ∧ named d = named d')

theorem not_exclusive {named : Call → String} {k k' : String} {s : State} (hne : k ≠ k')
    (h : shared named k k' s = true) : ¬Exclusive named s := by
  obtain ⟨d, hd, h⟩ := Option.any_eq_true _ _ |>.mp h
  obtain ⟨d', hd', h⟩ := Option.any_eq_true _ _ |>.mp h
  obtain ⟨hact, hact', heq⟩ := of_decide_eq_true h
  exact fun hex => hne (hex k k' d d' hd hd' hact hact' heq)

/--
**One call at a time for an agent**, in every run in which no agent is taken out of
RESERVED, DIALING and CONNECTED while a call that names it is under way, and calls are put
on their way only by a dial whose agent is still as it reserved it.
-/
theorem agents_exclusive {w : World (dialer cfg)}
    (h : Reachable (agentParty.undisturbed cfg) NoCalls w) : Exclusive Call.agentId w.st :=
  fun _ _ _ _ hd hd' hact hact' heq => exclusive_of_verified
    (exclusion_verified fun _ campaign workerId => ⟨_, _, agent_allocate campaign workerId⟩)
    h hd hd' hact hact' heq

/--
**One call at a time for a borrower**, in every run in which no borrower is given back while
a call that names it is under way, and calls are put on their way only by a dial whose
borrower is still as it reserved it.
-/
theorem borrowers_exclusive {w : World (dialer cfg)}
    (h : Reachable (borrowerParty.undisturbed cfg) NoCalls w) :
    Exclusive Call.borrowerId w.st :=
  fun _ _ _ _ hd hd' hact hact' heq => exclusive_of_verified
    (exclusion_verified fun _ campaign workerId => ⟨_, _, borrower_allocate campaign workerId⟩)
    h hd hd' hact hact' heq

end

/-- An agent logs out in the middle of its call, logs in again, and gets another one. -/
theorem agents_not_exclusive :
    ¬∀ w, Reachable (Policy.any (dialer {})) Fresh w → Exclusive Call.agentId w.st := by
  intro hall
  obtain ⟨w, hw, hshared⟩ := Reachable.of_play (Policy.any (dialer {})) oneAgent_fresh
    (oneDial
      ++ .spawn (.agentAction "agent" "logout") :: List.replicate 2 (.run 1 {})
      ++ .spawn (.agentAction "agent" "login") :: List.replicate 4 (.run 2 {})
      ++ dialOnce :: dialSchedule 0 3 "second-call" "second-provider-call")
    (fun w => shared Call.agentId "call" "second-call" w.st) (by decide +kernel)
  exact not_exclusive (by decide) hshared (hall w hw)

theorem agents_exclusive_twoDials :
    ∃ w, Reachable (agentParty.undisturbed {}) NoCalls w
      ∧ (w.st.calls.docs.map fun d => (d.agentId, d.state))
        = [("agent", .failed), ("agent", .initiated)]
      ∧ Exclusive Call.agentId w.st := by
  obtain ⟨w, hw, hcalls⟩ := Reachable.of_play (agentParty.undisturbed {}) oneAgent_fresh.noCalls
    twoDials (fun w => (w.st.calls.docs.map fun d => (d.agentId, d.state))
      == [("agent", .failed), ("agent", .initiated)]) (by decide +kernel)
  exact ⟨w, hw, by simpa using hcalls, agents_exclusive hw⟩

/--
An agent logs out in the middle of its call; the lease of the borrower runs out, and the
borrower is dialled again with another agent.
-/
theorem borrowers_not_exclusive :
    ¬∀ w, Reachable (Policy.any (dialer {})) Fresh w → Exclusive Call.borrowerId w.st := by
  intro hall
  obtain ⟨w, hw, hshared⟩ := Reachable.of_play (Policy.any (dialer {}))
    (seed_fresh ⟨[idleAgent "agent", idleAgent "substitute"], by decide⟩
      ⟨[pendingBorrower "borrower"], by decide⟩)
    (oneDial
      ++ .spawn (.agentAction "agent" "logout") :: List.replicate 2 (.run 1 {})
      ++ .spawn .runSweeps :: List.replicate 7 (.run 2 { now := 31000 })
      ++ dialOnce :: dialSchedule 31000 3 "second-call" "second-provider-call")
    (fun w => shared Call.borrowerId "call" "second-call" w.st) (by decide +kernel)
  exact not_exclusive (by decide) hshared (hall w hw)

theorem borrowers_exclusive_twoDials :
    ∃ w, Reachable (borrowerParty.undisturbed {}) NoCalls w
      ∧ (w.st.calls.docs.map fun d => (d.borrowerId, d.state))
        = [("borrower", .failed), ("other", .initiated)]
      ∧ Exclusive Call.borrowerId w.st := by
  obtain ⟨w, hw, hcalls⟩ := Reachable.of_play (borrowerParty.undisturbed {})
    oneAgent_fresh.noCalls twoDials
    (fun w => (w.st.calls.docs.map fun d => (d.borrowerId, d.state))
      == [("borrower", .failed), ("other", .initiated)]) (by decide +kernel)
  exact ⟨w, hw, by simpa using hcalls, borrowers_exclusive hw⟩

end SmartDialer
