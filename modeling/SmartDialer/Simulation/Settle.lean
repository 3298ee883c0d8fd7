import SmartDialer.Protocol.Sweeping
import SmartDialer.Simulation.InvariantChecker
import SmartDialer.Store.UpdateMany

/-!
# The end of a simulation

When a simulation is over, `_settle` of `app/simulation/engine.py` makes every lease of its
campaign look expired and runs one round of recovery; then the oracle has its last look, and only
now does it ask for agents that are still RESERVED and for calls that went stale. By then the
workers, the recovery loop, the agents and the providers have been stopped, so nobody interferes.

A verdict on stuck agents would be worthless if the round could leave any behind by itself. It
cannot, whatever the run before it did: an agent is held under a lease. About calls the oracle
is less certain, since it looks at a clock of its own. What it calls stale has become so after
the round looked, and no later than it did itself.
-/

namespace SmartDialer

open Store Conc

/-! ## `_settle` -/

namespace SimulationEngine

/-- What `_settle` does to the lease of an agent. -/
def expireAgentLease (expiry : Time) : Update Agent where
  apply a := { a with leaseExpiresAt := some expiry }
  key_apply _ := rfl

/-- What `_settle` does to the lease of a borrower. -/
def expireBorrowerLease (expiry : Time) : Update Borrower where
  apply b := { b with leaseExpiresAt := some expiry }
  key_apply _ := rfl

/-- The two `update_many` of `_settle`. -/
def expireLeases (campaignId : String) (expiry : Time) (s : State) : State :=
  { s with
    agents := s.agents.updateMany
      (fun a => a.campaignId == campaignId && a.reservedBy.isSome) (expireAgentLease expiry)
    borrowers := s.borrowers.updateMany
      (fun b => b.campaignId == campaignId && b.reservedBy.isSome) (expireBorrowerLease expiry) }

/-- `_settle`, by itself; `now` is its own reading of the clock. -/
def settle (cfg : Settings) (campaignId : String) (now : Time) (i : Nat) (env : Nat → Choice)
    (s : State) : Except Exn RecoverySweepCounts × State × Nat :=
  (RecoveryWorker.runSweeps cfg).eval (solo i env)
    (expireLeases campaignId (now - seconds 1) s, 0)

/-! ## What the round comes upon -/

/-- Whoever of the campaign is held has a lease that has expired, and a round can sweep. -/
structure Expired (cfg : Settings) (campaignId : String) (now : Time) (s : State) : Prop where
  agents : ∀ k a, s.agents.get k = some a → a.campaignId = campaignId → a.state.held = true →
    a.reservedBy.isSome = true ∧ AgentRepository.leaseExpired now a.leaseExpiresAt = true
  borrowers : ∀ k b, s.borrowers.get k = some b → b.campaignId = campaignId →
    b.status = .reserved →
    b.reservedBy.isSome = true ∧ AgentRepository.leaseExpired now b.leaseExpiresAt = true
  sweepable : Sweepable cfg now s

variable {cfg : Settings} {campaignId : String} {now expiry : Time} {i : Nat} {s : State}

/-- The two updates expire the lease of everybody who is held. -/
theorem expired_expireLeases (hkept : WellKept s)
    (hsight : WithinSight cfg now (expireLeases campaignId expiry s)) (hpast : expiry < now) :
    Expired cfg campaignId now (expireLeases campaignId expiry s) where
  agents k a' ha' hcampaign hheld := by
    obtain ⟨a, ha, ⟨-, rfl⟩ | ⟨hp, rfl⟩⟩ := Collection.get_updateMany_some ha'
    · exact ⟨(hkept.agents k a ha hheld).1, AgentRepository.leaseExpired_iff.mpr
        ⟨expiry, rfl, hpast⟩⟩
    · -- who is held has a worker on record, so the update cannot have passed it by
      have hworker := (hkept.agents k a' ha hheld).1
      rw [hcampaign, beq_self_eq_true, hworker] at hp
      cases hp
  borrowers k b' hb' hcampaign hres := by
    obtain ⟨b, hb, ⟨-, rfl⟩ | ⟨hp, rfl⟩⟩ := Collection.get_updateMany_some hb'
    · exact ⟨(hkept.borrowers k b hb hres).1, AgentRepository.leaseExpired_iff.mpr
        ⟨expiry, rfl, hpast⟩⟩
    · have hworker := (hkept.borrowers k b' hb hres).1
      rw [hcampaign, beq_self_eq_true, hworker] at hp
      cases hp
  sweepable := ⟨hkept.calls, hsight⟩

/-- No agent changes campaigns. -/
theorem campaignId_of_rewritten {o : Op} {ch : Choice} {a a' : Agent}
    (h : Rewritten (o.agentWrite ch) a a') :
    a'.campaignId = a.campaignId := by
  cases h with
  | same => rfl
  | written w hw hk hp =>
      cases o, w, hw using Op.agentWrite_cases with
      | transitionAgent _ _ _ _ => simp [AgentRepository.move]
      | releaseAgent _ _ _ _ _ =>
          change (AgentRepository.conditionalAccounting ..).campaignId = _
          unfold AgentRepository.conditionalAccounting
          split
          · simp
          · rfl
      | _ => rfl

/-- No sweep gives anybody a new lease. -/
theorem expired_kept : SweepKept (Expired cfg campaignId now) := by
  intro i o c s ho hs
  refine ⟨?_, ?_, sweepable_kept i o c s ho hs.sweepable⟩
  · intro k a' ha' hcampaign hheld
    obtain ⟨a, ha, hre⟩ := agent_of_exec ha'
    rcases agent_of_sweeping ho hre with ⟨hfree, -⟩ | ⟨hstate, hworker, hlease, -⟩
    · cases hfree.symm.trans hheld
    · rw [hworker, hlease]
      exact hs.agents k a ha ((campaignId_of_rewritten hre).symm.trans hcampaign) (hstate ▸ hheld)
  · intro k b' hb' hcampaign hres
    obtain ⟨b, hb, hre⟩ := borrower_of_exec hb'
    rcases borrower_of_sweeping ho hre with hfree | rfl
    · rw [hres] at hfree
      cases hfree
    · exact hs.borrowers k b' hb hcampaign hres

/-- What is left of an expired lease after a sweep: nothing. -/
theorem Expired.released (h : Expired cfg campaignId now s) (hswept : Swept cfg now s) :
    (∀ k a, s.agents.get k = some a → a.campaignId = campaignId → a.state.held = false)
      ∧ ∀ k b, s.borrowers.get k = some b → b.campaignId = campaignId → b.status ≠ .reserved := by
  constructor
  · intro k a ha hcampaign
    cases hheld : a.state.held with
    | false => rfl
    | true =>
        obtain ⟨hworker, hexpired⟩ := h.agents k a ha hcampaign hheld
        have hleft := hswept.agentLeases k a ha
        rw [AgentRepository.leaseReclaimable, held_leaseSources hheld, hworker, hexpired] at hleft
        cases hleft
  · intro k b hb hcampaign hres
    obtain ⟨hworker, hexpired⟩ := h.borrowers k b hb hcampaign hres
    have hleft := hswept.borrowerLeases k b hb
    rw [BorrowerRepository.leaseReclaimable, hres, hworker, hexpired] at hleft
    cases hleft

/-! ## The last look of the oracle -/

open InvariantChecker

variable {activeCalls found : List Call} {agentCounts : AgentState → Nat}

/-- Of all a last check finds, only the count of the agents says that any is stuck. -/
theorem stuck_reported_iff :
    (∃ v ∈ checkDuplicateBindings activeCalls ++ checkCapacity activeCalls agentCounts
        ++ finalViolations campaignId agentCounts found, v.name = invariantStuckReservation)
      ↔ agentCounts .reserved ≠ 0 := by
  have hname : invariantStuckReservation ≠ invariantAgentDoubleBooked
      ∧ invariantStuckReservation ≠ invariantBorrowerDoubleBooked
      ∧ invariantStuckReservation ≠ invariantCallsExceedAgents
      ∧ invariantStuckReservation ≠ invariantStaleCall := by decide
  constructor
  · rintro ⟨v, hv, heq⟩ hzero
    rcases List.mem_append.mp hv with hv | hv
    · rcases List.mem_append.mp hv with hv | hv
      · rcases name_of_mem_checkDuplicateBindings hv with h | h
        · exact hname.1 (heq.symm.trans h)
        · exact hname.2.1 (heq.symm.trans h)
      · exact hname.2.2.1 (heq.symm.trans (name_of_mem_checkCapacity hv))
    · rw [finalViolations, if_pos hzero, List.append_nil] at hv
      split at hv
      · cases hv
      · obtain rfl := List.mem_singleton.mp hv
        exact hname.2.2.2 heq.symm
  · intro hne
    refine ⟨⟨invariantStuckReservation,
      (agentCounts .reserved).repr ++ " agents left RESERVED", []⟩,
      List.mem_append_right _ (List.mem_append_right _ ?_), rfl⟩
    rw [if_neg hne]
    exact List.mem_singleton_self _

/-- And only the list of stale calls, that one is stale. -/
theorem stale_of_reported
    (h : ∃ v ∈ checkDuplicateBindings activeCalls ++ checkCapacity activeCalls agentCounts
        ++ finalViolations campaignId agentCounts found, v.name = invariantStaleCall) :
    ∃ d ∈ found, d.campaignId = campaignId := by
  have hname : invariantStaleCall ≠ invariantAgentDoubleBooked
      ∧ invariantStaleCall ≠ invariantBorrowerDoubleBooked
      ∧ invariantStaleCall ≠ invariantCallsExceedAgents
      ∧ invariantStaleCall ≠ invariantStuckReservation := by decide
  obtain ⟨v, hv, heq⟩ := h
  rcases List.mem_append.mp hv with hv | hv
  · rcases List.mem_append.mp hv with hv | hv
    · rcases name_of_mem_checkDuplicateBindings hv with h | h
      · exact absurd (heq.symm.trans h) hname.1
      · exact absurd (heq.symm.trans h) hname.2.1
    · exact absurd (heq.symm.trans (name_of_mem_checkCapacity hv)) hname.2.2.1
  · rcases List.mem_append.mp hv with hv | hv
    · split at hv
      · cases hv
      · rename_i hne
        obtain ⟨d, hd⟩ := List.exists_mem_of_ne_nil _ fun hnil => hne (List.isEmpty_iff.mpr hnil)
        obtain ⟨hd, hcampaign⟩ := List.mem_filter.mp hd
        exact ⟨d, hd, eq_of_beq hcampaign⟩
    · split at hv
      · cases hv
      · obtain rfl := List.mem_singleton.mp hv
        exact absurd heq.symm hname.2.2.2

/--
**A settled simulation is judged fairly.** Whatever a run left behind, of any tasks in any
interleaving, with failures, cancellations and crashes anywhere: if `_settle` is not disturbed, and
the limit cuts none of the five queries of its round short, then no agent of the campaign is held
afterwards and no borrower RESERVED. The oracle's last check reports nobody as stuck; and if it
reports a stale call, there is a call of the campaign that was not stale yet when the round read
the clock. How many agents, borrowers and calls there are besides does not matter.
-/
theorem settle_final_check (campaignId : String) (i : Nat) {w : World (dialer cfg)}
    (h : Reachable (Policy.any (dialer cfg)) WellKept w)
    {env : Nat → Choice} (henv : ∀ n, (env n).fault = .none) (hnow : now ≤ (env 0).now)
    (hsight : WithinSight cfg (env 0).now (expireLeases campaignId (now - seconds 1) w.st))
    (clock : Nat → Time) :
    ∃ counts s', (settle cfg campaignId now i env w.st).1 = .ok counts
      ∧ (settle cfg campaignId now i env w.st).2.1 = s'
      ∧ (∀ k a, s'.agents.get k = some a → a.campaignId = campaignId → a.state.held = false)
      ∧ (∀ k b, s'.borrowers.get k = some b → b.campaignId = campaignId → b.status ≠ .reserved)
      ∧ ∃ violations,
        ((check cfg campaignId true).eval (watching (fun _ => s') clock) 0).1 = .ok violations
          ∧ (¬∃ v ∈ violations, v.name = invariantStuckReservation)
          ∧ ((∃ v ∈ violations, v.name = invariantStaleCall) → ∃ d, s'.calls.get d.id = some d
            ∧ d.campaignId = campaignId ∧ isTerminal d.state = false
            ∧ (env 0).now ≤ d.updatedAt + seconds cfg.callStaleTimeoutSeconds
            ∧ d.updatedAt + seconds cfg.callStaleTimeoutSeconds < clock 2) := by
  have hexpired : Expired cfg campaignId (env 0).now
      (expireLeases campaignId (now - seconds 1) w.st) := by
    have hpast : now - seconds 1 < (env 0).now :=
      lt_of_lt_of_le (Int.sub_lt_self now (by decide)) hnow
    exact expired_expireLeases (wellKept_reachable h) hsight hpast
  obtain ⟨counts, hcounts, hexpired', hswept⟩ :=
    runSweeps_swept (i := i) expired_kept (fun _ hs => hs.sweepable) hexpired henv
  obtain ⟨hagents, hborrowers⟩ := hexpired'.released hswept
  refine ⟨counts, _, hcounts, rfl, hagents, hborrowers, _, eval_check .., ?_, ?_⟩
  · rw [if_pos rfl, stuck_reported_iff, not_not]
    refine List.length_eq_zero_iff.mpr (List.filter_eq_nil_iff.mpr fun a ha => ?_)
    intro hp
    simp only [Bool.and_eq_true, beq_iff_eq] at hp
    have hfree := hagents a.id a (Collection.get_of_mem ha) hp.1
    rw [hp.2] at hfree
    cases hfree
  · intro hreported
    obtain ⟨d, hd, hcampaign⟩ := stale_of_reported hreported
    obtain ⟨hget, hstale⟩ := Collection.mem_find.mp
      (Collection.mem_sortOn.mp (Collection.mem_of_mem_limit hd))
    have hold := hswept.calls d.id d hget
    have hterminal := (hexpired'.sweepable.calls d.id d hget).terminal_eq
    obtain ⟨hlive, hlate⟩ := CallRepository.stale_iff.mp hstale
    rw [CallRepository.stale, hlive, Bool.not_false, Bool.true_and, decide_eq_false_iff_not]
      at hold
    exact ⟨d, hget, hcampaign, hterminal.symm.trans hlive,
      sub_le_iff_le_add.mp (not_lt.mp hold), lt_sub_iff_add_lt.mp hlate⟩

instance (cfg : Settings) (now : Time) (s : State) : Decidable (WithinSight cfg now s) :=
  decidable_of_iff (_ ∧ _ ∧ _ ∧ _ ∧ _)
    ⟨fun h => ⟨h.1, h.2.1, h.2.2.1, h.2.2.2.1, h.2.2.2.2⟩, fun h => ⟨h.1, h.2, h.3, h.4, h.5⟩⟩

/-- A worker that dies when its call is INITIATED, in a simulation that ends at once. -/
theorem settle_final_check_crash : ∃ w, Reachable (Policy.any (dialer {})) WellKept w
    ∧ (∃ a ∈ w.st.agents.get "agent", a.state.held = true ∧ a.campaignId = "campaign")
    ∧ ∀ k a, (settle {} "campaign" 0 1 (fun _ => {}) w.st).2.1.agents.get k = some a →
      a.campaignId = "campaign" → a.state.held = false := by
  obtain ⟨w, hw, htest⟩ := Reachable.of_play (Policy.any (dialer {})) oneAgent_wellKept
    (oneDial.dropLast ++ [.crash 0])
    (fun w => decide ((∃ a ∈ w.st.agents.get "agent", a.state.held = true
      ∧ a.campaignId = "campaign")
      ∧ WithinSight {} 0 (expireLeases "campaign" (0 - seconds 1) w.st)))
    (by decide +kernel)
  obtain ⟨hheld, hsight⟩ := of_decide_eq_true htest
  have henv : ∀ n : Nat, ((fun _ => {} : Nat → Choice) n).fault = .none := fun _ => rfl
  obtain ⟨_, s', -, rfl, hfree, -⟩ :=
    settle_final_check "campaign" 1 hw henv (le_refl (0 : Time)) hsight (fun _ => 0)
  exact ⟨w, hw, hheld, hfree⟩

end SimulationEngine

end SmartDialer
