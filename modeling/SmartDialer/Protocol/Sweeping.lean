import SmartDialer.Protocol.Discipline
import SmartDialer.Protocol.Lifecycle
import SmartDialer.Protocol.Undisturbed

/-!
# One round of recovery

Whatever the components left behind, one run of the five sweeps clears it, if it comes late
enough and nobody else moves. It takes an invariant of all runs to say so: who is held has a
worker and a lease, since the sweeps find nobody by the state alone. The sweeps themselves
work off a list each, found at the start of the sweep. A sweep shares the database with the
others only, and what each of them does undoes the work of none: `Op.Vacating` is what they
do, and everything that is to hold at the end is kept by it.
-/

namespace SmartDialer

open Store Conc

/-! ## What every run keeps -/

/-- An agent that is RESERVED, DIALING or CONNECTED has a worker and a lease. -/
def AgentsLeased (s : State) : Prop :=
  ∀ k a, s.agents.get k = some a → a.state.held = true →
    a.reservedBy.isSome = true ∧ a.leaseExpiresAt.isSome = true

/-- A borrower that is RESERVED has a worker and a lease. -/
def BorrowersLeased (s : State) : Prop :=
  ∀ k b, s.borrowers.get k = some b → b.status = .reserved →
    b.reservedBy.isSome = true ∧ b.leaseExpiresAt.isSome = true

/-- Who is held has a worker and a lease, and calls are well formed. -/
structure WellKept (s : State) : Prop where
  agents : AgentsLeased s
  borrowers : BorrowersLeased s
  calls : CallsWellFormed s

/-- An agent that is held after a write has its lease from there, or had it before. -/
theorem agent_held_of_rewritten {cfg : Settings} {o : Op} {ch : Choice} {a a' : Agent}
    (hd : o.Disciplined cfg) (hre : Rewritten (o.agentWrite ch) a a')
    (hheld : a'.state.held = true) :
    a'.reservedBy.isSome = true ∧ a'.leaseExpiresAt.isSome = true
      ∨ a.state.held = true ∧ a'.reservedBy = a.reservedBy
        ∧ a'.leaseExpiresAt = a.leaseExpiresAt := by
  cases hre with
  | same => exact .inr ⟨hheld, rfl, rfl⟩
  | written w hw hk hp =>
      cases o, w, hw using Op.agentWrite_cases with
      | tryReserveAgent _ _ _ _ =>
          exact .inl ⟨rfl, rfl⟩
      | releaseAgent _ _ target _ _ =>
          cases hheld.symm.trans hd
      | transitionAgent _ fromState toState _ =>
          have hfrom : a.state = fromState := (AgentRepository.movable_iff.mp hp).1
          exact .inr ⟨hfrom ▸ hd hheld, AgentRepository.timeAccountingUpdates_reservedBy ..,
            AgentRepository.timeAccountingUpdates_leaseExpiresAt ..⟩
      | bindCall _ _ _ =>
          exact .inr ⟨hheld, rfl, rfl⟩
      | releaseExpiredAgentLease _ _ =>
          cases hheld
      | heartbeat _ =>
          exact .inr ⟨hheld, rfl, rfl⟩

/-- A borrower that is RESERVED after a write has its lease from there, or is as before. -/
theorem borrower_reserved_of_rewritten {o : Op} {ch : Choice} {b b' : Borrower}
    (hre : Rewritten (o.borrowerWrite ch) b b') (hres : b'.status = .reserved) :
    (∃ campaignId borrowerId workerId ttlSeconds,
        o = .tryReserveBorrower campaignId borrowerId workerId ttlSeconds)
        ∧ b'.reservedBy.isSome = true ∧ b'.leaseExpiresAt.isSome = true
      ∨ b' = b := by
  cases hre with
  | same => exact .inr rfl
  | written w hw hk hp =>
      cases o, w, hw using Op.borrowerWrite_cases with
      | tryReserveBorrower _ _ _ _ =>
          exact .inl ⟨⟨_, _, _, _, rfl⟩, rfl, rfl⟩
      | releaseBorrower _ _ outcome _ _ _ =>
          cases outcome with
          | released => cases hres
          | contacted => cases hres
          | retry =>
              simp only [BorrowerRepository.release, BorrowerRepository.buildRetryUpdate] at hres
              split at hres <;> cases hres
      | reclaimExpiredBorrowerLease _ _ =>
          cases hres

variable {cfg : Settings}

/-- In every run, who is held has a worker and a lease. -/
theorem wellKept_reachable {w : World (dialer cfg)}
    (h : Reachable (Policy.any (dialer cfg)) WellKept w) : WellKept w.st := by
  have hagents : AgentsLeased w.st := by
    refine h.invariant (I := AgentsLeased) (R := Op.Disciplined cfg)
      (fun t _ => Task.program_disciplined t) (fun s hs => hs.agents) ?_ fun _ _ hs => hs
    intro i o c s hd _ hs k a' ha' hheld
    obtain ⟨a, ha, hre⟩ := agent_of_exec ha'
    rcases agent_held_of_rewritten hd hre hheld with hnew | ⟨hold, hworker, hlease⟩
    · exact hnew
    · rw [hworker, hlease]
      exact hs k a ha hold
  have hborrowers : BorrowersLeased w.st := by
    refine h.invariant (I := BorrowersLeased) (R := fun _ => True)
      (fun t _ => Prog.all_of_forall (fun _ => trivial) _) (fun s hs => hs.borrowers) ?_
      fun _ _ hs => hs
    intro i o c s _ _ hs k b' hb' hres
    obtain ⟨b, hb, hre⟩ := borrower_of_exec hb'
    rcases borrower_reserved_of_rewritten hre hres with ⟨-, hnew⟩ | rfl
    · exact hnew
    · exact hs k b' hb hres
  exact ⟨hagents, hborrowers, (lifecycle_reachable (h.unrestricted fun _ hs => hs.calls)).1⟩

/-! ## What a round does, and what it comes upon -/

/-- What the sweeps do: they hold nobody, log nobody in, and take calls to terminal states only. -/
def Op.Vacating : Op → Prop
  | .transitionCall _ targetState _ => isTerminal targetState = true
  | .releaseAgent _ _ target actor _ => target = .available ∧ actor = .recovery
  | .transitionAgent _ fromState toState _ =>
      fromState ≠ .offline ∧ toState = .available ∨ toState = .offline
  | .releaseExpiredAgentLease agent _ => agent.state ≠ .offline
  | .tryReserveAgent .. | .bindCall .. | .heartbeat .. | .tryReserveBorrower .. | .insertCall ..
  | .attachProviderCallId .. => False
  | _ => True

/-- Every operation of a sweep keeps it. -/
def SweepKept (A : State → Prop) : Prop :=
  ∀ i (o : Op) c s, o.Vacating → A s → A (exec i o c s).2

theorem SweepKept.and {A B : State → Prop} (hA : SweepKept A) (hB : SweepKept B) :
    SweepKept fun s => A s ∧ B s :=
  fun i o c s ho hs => ⟨hA i o c s ho hs.1, hB i o c s ho hs.2⟩

/-- The limit of a sweep is at least the size of each collection. -/
structure WithinLimit (cfg : Settings) (s : State) : Prop where
  agents : (s.agents.docs.length : Int) ≤ cfg.recoverySweepLimit
  borrowers : (s.borrowers.docs.length : Int) ≤ cfg.recoverySweepLimit
  calls : (s.calls.docs.length : Int) ≤ cfg.recoverySweepLimit

/-- Whom `find_heartbeat_expired` finds. -/
def AgentRepository.silent (olderThan : Time) (a : Agent) : Bool :=
  a.state != .offline && a.lastHeartbeatAt.any (· < olderThan)

theorem AgentRepository.silent_iff {olderThan : Time} {a : Agent} :
    silent olderThan a = true
      ↔ a.state ≠ .offline ∧ a.lastHeartbeatAt.any (· < olderThan) = true := by
  rw [silent, Bool.and_eq_true, bne_iff_ne]

/-- Whom `find_expired_wrap_ups` finds in all campaigns. -/
def AgentRepository.wrapUpOver (olderThan : Time) (a : Agent) : Bool :=
  a.state == .wrapUp && decide (a.stateChangedAt ≤ olderThan)

theorem AgentRepository.wrapUpOver_iff {olderThan : Time} {a : Agent} :
    wrapUpOver olderThan a = true ↔ a.state = .wrapUp ∧ a.stateChangedAt ≤ olderThan := by
  rw [wrapUpOver, Bool.and_eq_true, beq_iff_eq, decide_eq_true_iff]

/-- The limit cuts none of the five queries of a round at `now` short. -/
structure WithinSight (cfg : Settings) (now : Time) (s : State) : Prop where
  agentLeases : ((s.agents.find (AgentRepository.leaseReclaimable now)).length : Int)
    ≤ cfg.recoverySweepLimit
  borrowerLeases : ((s.borrowers.find (BorrowerRepository.leaseReclaimable now)).length : Int)
    ≤ cfg.recoverySweepLimit
  calls : ((s.calls.find (CallRepository.stale
    (now - seconds cfg.callStaleTimeoutSeconds))).length : Int) ≤ cfg.recoverySweepLimit
  heartbeats : ((s.agents.find (AgentRepository.silent
    (now - seconds cfg.agentHeartbeatTimeoutSeconds))).length : Int) ≤ cfg.recoverySweepLimit
  wrapUps : ((s.agents.find (AgentRepository.wrapUpOver
    (now - seconds (cfg.wrapUpSeconds + cfg.wrapUpSeconds * 2)))).length : Int)
    ≤ cfg.recoverySweepLimit

/-- What a round at `now` relies on: calls are well formed, and it sees all that is overdue. -/
structure Sweepable (cfg : Settings) (now : Time) (s : State) : Prop where
  calls : CallsWellFormed s
  sight : WithinSight cfg now s

theorem length_find_le_of_docs {α κ : Type} [Document α κ] [DecidableEq κ] {c : Collection α}
    {n : Int} (h : (c.docs.length : Int) ≤ n) (p : α → Bool) : ((c.find p).length : Int) ≤ n :=
  le_trans (Int.ofNat_le.mpr (List.length_filter_le ..)) h

/-- A limit above all there is cuts nothing short. -/
theorem WithinLimit.withinSight {cfg : Settings} {s : State} (h : WithinLimit cfg s)
    (now : Time) : WithinSight cfg now s where
  agentLeases := length_find_le_of_docs h.agents _
  borrowerLeases := length_find_le_of_docs h.borrowers _
  calls := length_find_le_of_docs h.calls _
  heartbeats := length_find_le_of_docs h.agents _
  wrapUps := length_find_le_of_docs h.agents _

/-- No agent has a lease to reclaim. -/
def NoAgentLease (now : Time) (s : State) : Prop :=
  s.agents.Lacks (AgentRepository.leaseReclaimable now)

/-- No borrower has a lease to reclaim. -/
def NoBorrowerLease (now : Time) (s : State) : Prop :=
  s.borrowers.Lacks (BorrowerRepository.leaseReclaimable now)

/-- No call is stale. -/
def NoStaleCall (olderThan : Time) (s : State) : Prop :=
  s.calls.Lacks (CallRepository.stale olderThan)

/-- No agent is silent. -/
def NoneSilent (olderThan : Time) (s : State) : Prop :=
  s.agents.Lacks (AgentRepository.silent olderThan)

/-- No wrap-up is over. -/
def NoWrapUpOver (olderThan : Time) (s : State) : Prop :=
  s.agents.Lacks (AgentRepository.wrapUpOver olderThan)

/-- None of the five sweeps finds anything at `now`. -/
structure Swept (cfg : Settings) (now : Time) (s : State) : Prop where
  agentLeases : NoAgentLease now s
  borrowerLeases : NoBorrowerLease now s
  calls : NoStaleCall (now - seconds cfg.callStaleTimeoutSeconds) s
  heartbeats : NoneSilent (now - seconds cfg.agentHeartbeatTimeoutSeconds) s
  wrapUps : NoWrapUpOver (now - seconds (cfg.wrapUpSeconds + cfg.wrapUpSeconds * 2)) s

/-- The lease of everybody who is held has expired at `now`, and so has every other time limit. -/
structure Overdue (cfg : Settings) (now : Time) (s : State) : Prop where
  agents : ∀ k a, s.agents.get k = some a → a.state.held = true →
    a.reservedBy.isSome = true ∧ AgentRepository.leaseExpired now a.leaseExpiresAt = true
  borrowers : ∀ k b, s.borrowers.get k = some b → b.status = .reserved →
    b.reservedBy.isSome = true ∧ AgentRepository.leaseExpired now b.leaseExpiresAt = true
  calls : ∀ k d, s.calls.get k = some d → isTerminal d.state = false →
    d.updatedAt < now - seconds cfg.callStaleTimeoutSeconds
  wrapUps : ∀ k a, s.agents.get k = some a → a.state = .wrapUp →
    a.stateChangedAt ≤ now - seconds (cfg.wrapUpSeconds + cfg.wrapUpSeconds * 2)
  sweepable : Sweepable cfg now s

/-- Nobody is RESERVED, DIALING or CONNECTED. -/
def NoAgentHeld (s : State) : Prop := ∀ k a, s.agents.get k = some a → a.state.held = false

/-- No borrower is RESERVED. -/
def NoBorrowerReserved (s : State) : Prop :=
  ∀ k b, s.borrowers.get k = some b → b.status ≠ .reserved

/-- All calls are over. -/
def NoCallLive (s : State) : Prop := ∀ k d, s.calls.get k = some d → isTerminal d.state = true

/-- No agent is in WRAP_UP. -/
def NoWrapUp (s : State) : Prop := ∀ k a, s.agents.get k = some a → a.state ≠ .wrapUp

/-- What a sweep makes of an agent: it frees it, or leaves all that matters as it was. -/
theorem agent_of_sweeping {o : Op} {ch : Choice} {a a' : Agent} (ho : o.Vacating)
    (hre : Rewritten (o.agentWrite ch) a a') :
    a'.state.held = false ∧ a'.state ≠ .wrapUp
      ∨ a'.state = a.state ∧ a'.reservedBy = a.reservedBy
        ∧ a'.leaseExpiresAt = a.leaseExpiresAt ∧ a'.stateChangedAt = a.stateChangedAt := by
  cases hre with
  | same => exact .inr ⟨rfl, rfl, rfl, rfl⟩
  | written w hw hk hp =>
      cases o, w, hw using Op.agentWrite_cases with
      | tryReserveAgent _ _ _ _ => exact ho.elim
      | releaseAgent _ _ target _ _ =>
          obtain ⟨rfl, -⟩ := ho
          exact .inl ⟨rfl, (fun h => by cases h)⟩
      | transitionAgent _ _ toState _ =>
          rcases ho with ⟨-, rfl⟩ | rfl
          · exact .inl ⟨rfl, (fun h => by cases h)⟩
          · exact .inl ⟨rfl, (fun h => by cases h)⟩
      | bindCall _ _ _ => exact ho.elim
      | releaseExpiredAgentLease _ _ =>
          exact .inl ⟨rfl, (fun h => by cases h)⟩
      | heartbeat _ => exact ho.elim

/-- A sweep logs nobody in, and nothing it does is a heartbeat. -/
theorem heartbeat_of_sweeping {o : Op} {ch : Choice} {a a' : Agent} (ho : o.Vacating)
    (hre : Rewritten (o.agentWrite ch) a a') :
    a'.state = .offline
      ∨ (a'.state ≠ .offline → a.state ≠ .offline) ∧ a'.lastHeartbeatAt = a.lastHeartbeatAt := by
  cases hre with
  | same => exact .inr ⟨id, rfl⟩
  | written w hw hk hp =>
      cases o, w, hw using Op.agentWrite_cases with
      | tryReserveAgent _ _ _ _ => exact ho.elim
      | releaseAgent _ _ target _ _ =>
          obtain ⟨rfl, rfl⟩ := ho
          obtain ⟨-, hsource⟩ := AgentRepository.releasable_iff.mp hp
          refine .inr ⟨fun _ hstate => ?_, ?_⟩
          · rw [hstate] at hsource
            revert hsource
            decide
          · exact AgentRepository.conditionalAccounting_lastHeartbeatAt ..
      | transitionAgent _ _ toState _ =>
          rcases ho with ⟨hfrom, rfl⟩ | rfl
          · obtain ⟨hstate, -⟩ := AgentRepository.movable_iff.mp hp
            exact .inr ⟨fun _ => hstate ▸ hfrom,
              AgentRepository.timeAccountingUpdates_lastHeartbeatAt ..⟩
          · exact .inl rfl
      | bindCall _ _ _ => exact ho.elim
      | releaseExpiredAgentLease _ _ =>
          obtain ⟨hstate, -⟩ := AgentRepository.leaseUnchanged_iff.mp hp
          exact .inr ⟨fun _ => hstate ▸ ho, rfl⟩
      | heartbeat _ => exact ho.elim

/-- What a sweep makes of a borrower: it frees it, or leaves it as it was. -/
theorem borrower_of_sweeping {o : Op} {ch : Choice} {b b' : Borrower} (ho : o.Vacating)
    (hre : Rewritten (o.borrowerWrite ch) b b') :
    BorrowerRepository.releasableStatuses.contains b'.status = false ∨ b' = b := by
  cases hre with
  | same => exact .inr rfl
  | written w hw hk hp =>
      cases o, w, hw using Op.borrowerWrite_cases with
      | tryReserveBorrower _ _ _ _ => exact ho.elim
      | releaseBorrower _ _ outcome _ _ _ =>
          cases outcome with
          | released => exact .inl rfl
          | contacted => exact .inl rfl
          | retry =>
              refine .inl ?_
              simp only [BorrowerRepository.release, BorrowerRepository.buildRetryUpdate]
              split <;> rfl
      | reclaimExpiredBorrowerLease _ _ => exact .inl rfl

/-- What a sweep makes of a call: it ends it, or leaves it as it was. -/
theorem call_of_sweeping {o : Op} {ch : Choice} {d d' : Call} (ho : o.Vacating)
    (hre : Rewritten (o.callWrite ch) d d') :
    isTerminal d'.state = true ∧ (d.WellFormed → d'.WellFormed) ∨ d' = d := by
  cases hre with
  | same => exact .inr rfl
  | written v hv hk hp =>
      cases o, v, hv using Op.callWrite_cases with
      | transitionCall _ targetState _ =>
          exact .inl ⟨ho, fun hw => advance_wellFormed hw _ _ _ hp⟩
      | attachProviderCallId _ _ => exact ho.elim

/-- A sweep opens no call. -/
theorem not_callInsert_of_vacating {o : Op} {c : Choice} {d : Call} (ho : o.Vacating) :
    o.callInsert c ≠ some d := by
  intro hnew
  cases o, d, hnew using Op.callInsert_cases with
  | insertCall _ _ _ _ _ _ => exact ho

/-- A call found after an operation of a sweep was there before it. -/
theorem call_before_sweeping {i : Nat} {o : Op} {c : Choice} {s : State} (ho : o.Vacating)
    {k : String} {d' : Call} (hd' : (exec i o c s).2.calls.get k = some d') :
    ∃ d, s.calls.get k = some d ∧ Rewritten (o.callWrite c) d d' := by
  rcases call_of_exec hd' with ⟨hnew, -⟩ | hold
  · exact absurd hnew (not_callInsert_of_vacating ho)
  · exact hold

theorem held_leaseSources {a : AgentState} (h : a.held = true) :
    leaseSources.contains a = true := by
  revert h
  cases a <;> decide

/-- Who is free has no lease that a sweep would reclaim. -/
theorem leaseReclaimable_of_free {now : Time} {a : Agent} (hheld : a.state.held = false)
    (hwrap : a.state ≠ .wrapUp) : AgentRepository.leaseReclaimable now a = false := by
  have hsource : leaseSources.contains a.state = false := by
    revert hheld hwrap
    cases a.state <;> decide
  rw [AgentRepository.leaseReclaimable, hsource]
  rfl

/-! ### No sweep makes work for another -/

theorem noMore_agentLeases {i : Nat} {o : Op} {c : Choice} {s : State} (ho : o.Vacating)
    (now : Time) :
    Collection.NoMore (AgentRepository.leaseReclaimable now) s.agents (exec i o c s).2.agents := by
  intro k a' ha' hp
  obtain ⟨a, ha, hre⟩ := agent_of_exec ha'
  refine ⟨a, ha, ?_⟩
  rcases agent_of_sweeping ho hre with ⟨hfree, hwrap⟩ | ⟨hstate, hworker, hlease, -⟩
  · rw [leaseReclaimable_of_free hfree hwrap] at hp
    cases hp
  · rw [AgentRepository.leaseReclaimable, hstate, hworker, hlease] at hp
    exact hp

theorem noMore_borrowerLeases {i : Nat} {o : Op} {c : Choice} {s : State} (ho : o.Vacating)
    (now : Time) :
    Collection.NoMore (BorrowerRepository.leaseReclaimable now) s.borrowers
      (exec i o c s).2.borrowers := by
  intro k b' hb' hp
  obtain ⟨b, hb, hre⟩ := borrower_of_exec hb'
  refine ⟨b, hb, ?_⟩
  rcases borrower_of_sweeping ho hre with hfree | rfl
  · rw [BorrowerRepository.leaseReclaimable, hfree] at hp
    cases hp
  · exact hp

theorem noMore_staleCalls {i : Nat} {o : Op} {c : Choice} {s : State} (ho : o.Vacating)
    (hcalls : CallsWellFormed s) (olderThan : Time) :
    Collection.NoMore (CallRepository.stale olderThan) s.calls (exec i o c s).2.calls := by
  intro k d' hd' hp
  obtain ⟨d, hd, hre⟩ := call_before_sweeping ho hd'
  refine ⟨d, hd, ?_⟩
  rcases call_of_sweeping ho hre with ⟨hterm, hwf⟩ | rfl
  · rw [CallRepository.stale, (hwf (hcalls k d hd)).terminal_eq, hterm] at hp
    cases hp
  · exact hp

theorem noMore_silent {i : Nat} {o : Op} {c : Choice} {s : State} (ho : o.Vacating)
    (olderThan : Time) :
    Collection.NoMore (AgentRepository.silent olderThan) s.agents (exec i o c s).2.agents := by
  intro k a' ha' hp
  obtain ⟨a, ha, hre⟩ := agent_of_exec ha'
  refine ⟨a, ha, ?_⟩
  obtain ⟨hthere, hbeat⟩ := AgentRepository.silent_iff.mp hp
  rcases heartbeat_of_sweeping ho hre with hoff | ⟨hbefore, heq⟩
  · exact absurd hoff hthere
  · exact AgentRepository.silent_iff.mpr ⟨hbefore hthere, heq ▸ hbeat⟩

theorem noMore_wrapUps {i : Nat} {o : Op} {c : Choice} {s : State} (ho : o.Vacating)
    (olderThan : Time) :
    Collection.NoMore (AgentRepository.wrapUpOver olderThan) s.agents (exec i o c s).2.agents := by
  intro k a' ha' hp
  obtain ⟨a, ha, hre⟩ := agent_of_exec ha'
  refine ⟨a, ha, ?_⟩
  obtain ⟨hwrap, hsince⟩ := AgentRepository.wrapUpOver_iff.mp hp
  rcases agent_of_sweeping ho hre with ⟨-, hfree⟩ | ⟨hstate, -, -, hchanged⟩
  · exact absurd hwrap hfree
  · exact AgentRepository.wrapUpOver_iff.mpr ⟨hstate ▸ hwrap, hchanged ▸ hsince⟩

theorem noAgentLease_kept {now : Time} : SweepKept (NoAgentLease now) :=
  fun _ _ _ _ ho hs => (noMore_agentLeases ho now).lacks hs

theorem noBorrowerLease_kept {now : Time} : SweepKept (NoBorrowerLease now) :=
  fun _ _ _ _ ho hs => (noMore_borrowerLeases ho now).lacks hs

theorem noneSilent_kept {olderThan : Time} : SweepKept (NoneSilent olderThan) :=
  fun _ _ _ _ ho hs => (noMore_silent ho olderThan).lacks hs

/-- A sweep leaves calls well formed, and leaves no more for the queries to find. -/
theorem sweepable_kept {now : Time} : SweepKept (Sweepable cfg now) := by
  intro i o c s ho hs
  refine ⟨fun k d' hd' => ?_, ?_, ?_, ?_, ?_, ?_⟩
  · obtain ⟨d, hd, hre⟩ := call_before_sweeping ho hd'
    rcases call_of_sweeping ho hre with ⟨-, hwf⟩ | rfl
    · exact hwf (hs.calls k d hd)
    · exact hs.calls k d' hd
  · exact le_trans (Int.ofNat_le.mpr (noMore_agentLeases ho now).length_find_le)
      hs.sight.agentLeases
  · exact le_trans (Int.ofNat_le.mpr (noMore_borrowerLeases ho now).length_find_le)
      hs.sight.borrowerLeases
  · exact le_trans (Int.ofNat_le.mpr (noMore_staleCalls ho hs.calls _).length_find_le)
      hs.sight.calls
  · exact le_trans (Int.ofNat_le.mpr (noMore_silent ho _).length_find_le) hs.sight.heartbeats
  · exact le_trans (Int.ofNat_le.mpr (noMore_wrapUps ho _).length_find_le) hs.sight.wrapUps

theorem noStaleCall_kept {now olderThan : Time} :
    SweepKept fun s => Sweepable cfg now s ∧ NoStaleCall olderThan s :=
  fun i o c s ho hs => ⟨sweepable_kept i o c s ho hs.1,
    (noMore_staleCalls ho hs.1.calls olderThan).lacks hs.2⟩

/-- Nothing a sweep does starts the clock again. -/
theorem overdue_kept {now : Time} : SweepKept (Overdue cfg now) := by
  intro i o c s ho hs
  refine ⟨?_, ?_, ?_, ?_, sweepable_kept i o c s ho hs.sweepable⟩
  · intro k a' ha' hheld
    obtain ⟨a, ha, hre⟩ := agent_of_exec ha'
    rcases agent_of_sweeping ho hre with ⟨hfree, -⟩ | ⟨hstate, hworker, hlease, -⟩
    · rw [hfree] at hheld
      cases hheld
    · rw [hworker, hlease]
      exact hs.agents k a ha (hstate ▸ hheld)
  · intro k b' hb' hres
    obtain ⟨b, hb, hre⟩ := borrower_of_exec hb'
    rcases borrower_of_sweeping ho hre with hfree | rfl
    · rw [hres] at hfree
      cases hfree
    · exact hs.borrowers k b' hb hres
  · intro k d' hd' hlive
    obtain ⟨d, hd, hre⟩ := call_before_sweeping ho hd'
    rcases call_of_sweeping ho hre with ⟨hterm, -⟩ | rfl
    · cases hterm.symm.trans hlive
    · exact hs.calls k d' hd hlive
  · intro k a' ha' hwrap
    obtain ⟨a, ha, hre⟩ := agent_of_exec ha'
    rcases agent_of_sweeping ho hre with ⟨-, hfree⟩ | ⟨hstate, -, -, hchanged⟩
    · exact absurd hwrap hfree
    · rw [hchanged]
      exact hs.wrapUps k a ha (hstate ▸ hwrap)

/-! ## The programs of the sweeps -/

section

variable {i : Nat} {A : State → Prop} {now : Time}

/-- An operation of a sweep that the database answers, and that satisfies `R`. -/
def Op.SweepingAnd (R : Op → Prop) (o : Op) : Prop := o.Vacating ∧ o.Plain ∧ R o

/-- The operation does not write to the agents. -/
def Op.SparesAgents (o : Op) : Prop := ∀ c, o.agentWrite c = none

/-- The operation does not write to the calls. -/
def Op.SparesCalls (o : Op) : Prop := ∀ c, o.callWrite c = none

theorem agents_of_spares {o : Op} (h : o.SparesAgents) (c : Choice) (s : State) :
    (exec i o c s).2.agents = s.agents := by
  rcases exec_agents i o c s with heq | ⟨w, hw, -⟩
  · exact heq
  · cases (h c).symm.trans hw

theorem calls_of_spares {o : Op} (ho : o.Vacating) (h : o.SparesCalls) (c : Choice) (s : State) :
    (exec i o c s).2.calls = s.calls := by
  rcases exec_calls i o c s with heq | ⟨w, hw, -⟩ | ⟨d, hnew, -⟩
  · exact heq
  · cases (h c).symm.trans hw
  · exact absurd hnew (not_callInsert_of_vacating ho)

/-- Cancelling a call, and releasing its borrower, says nothing about agents. -/
theorem cancelBoundCall_total (agent : Agent) (reason : String) :
    (RecoveryWorker.cancelBoundCall cfg agent reason).Total (Op.SweepingAnd Op.SparesAgents) := by
  rw [RecoveryWorker.cancelBoundCall]
  split
  · trivial
  · refine Prog.total_bind (Prog.total_perform ⟨trivial, trivial, fun _ => rfl⟩) fun found => ?_
    cases found with
    | none => trivial
    | some call =>
        dsimp only
        split
        · trivial
        · refine Prog.total_bind (Prog.total_perform ⟨rfl, trivial, fun _ => rfl⟩) fun answer => ?_
          cases answer with
          | none => trivial
          | some cancelled =>
              exact Prog.total_bind (Prog.total_perform ⟨trivial, trivial, fun _ => rfl⟩)
                fun _ => trivial

/-- Releasing the parties of a call says nothing about calls. -/
theorem releaseParties_total (call : Call) :
    (RecoveryWorker.releaseParties cfg call).Total (Op.SweepingAnd Op.SparesCalls) := by
  refine Prog.total_bind (Prog.total_perform ⟨⟨rfl, rfl⟩, trivial, fun _ => rfl⟩) fun _ => ?_
  exact Prog.total_bind (Prog.total_perform ⟨trivial, trivial, fun _ => rfl⟩) fun _ => trivial

/-- Whoever is not OFFLINE can be logged out. -/
theorem validateTransition_offline {a : AgentState} (h : a ≠ .offline) :
    validateTransition a .offline .recovery = .ok () := by
  revert h
  cases a <;> decide

/-- One operation of a sweep, and what it leads to. -/
theorem wp_kept {o : Op} {B : Ans o → State → Prop} {s : State × Unit}
    (hA : SweepKept A) (ho : o.Vacating) (hplain : o.Plain)
    (h : ∀ c a, (exec i o c s.1).1 = .ok a → B a (exec i o c s.1).2) (hs : A s.1) :
    (secluded cfg i).wp i (await o) (Finishes fun a s' => A s'.1 ∧ B a s'.1) s := by
  refine Logic.wp_perform_alone fun c hc => ?_
  obtain ⟨a, hans⟩ := exec_plain hplain hc i s.1
  change Finishes _ (exec i o c s.1).1 ((exec i o c s.1).2, ())
  rw [hans]
  exact ⟨hA i o c s.1 ho hs, h c a hans⟩

/-- Operations of a sweep that leave a part of the database alone. -/
theorem wp_sweeping_total {α : Type} {R : Op → Prop} {p : Async α} {B : State → Prop}
    {s : State × Unit} (hA : SweepKept A) (hp : p.Total (Op.SweepingAnd R))
    (hB : ∀ o, Op.SweepingAnd R o → ∀ c s, B s → B (exec i o c s).2) (hs : A s.1) (hsB : B s.1) :
    (secluded cfg i).wp i p (Finishes fun _ s' => A s'.1 ∧ B s'.1) s :=
  wp_total (A := fun s => A s ∧ B s) hp (fun _ ho => ho.2.1)
    (fun o ho c s hs => ⟨hA i o c s ho.1 hs.1, hB o ho c s hs.2⟩) ⟨hs, hsB⟩

/-- A sorted query that is not cut short. -/
theorem mem_limit_sortOn {α β : Type} [LinearOrder β] {f : α → β} {n : Int} {docs : List α}
    (h : (docs.length : Int) ≤ n) {d : α} :
    d ∈ Collection.limit n (Collection.sortOn f docs) ↔ d ∈ docs := by
  have hlen : ((Collection.sortOn f docs).length : Int) ≤ n := by
    rw [Collection.sortOn, List.length_insertionSort]
    exact h
  rw [Collection.limit_of_length_le hlen, Collection.mem_sortOn]

/-- All with work to do are on the list. -/
def OnList {α κ : Type} [Document α κ] [DecidableEq κ] (c : Collection α) (todo : α → Prop)
    (rest : List α) : Prop :=
  ∀ k d, c.get k = some d → todo d → d ∈ rest

/-- With nothing left on the list, none has work to do. -/
theorem lacks_of_onList {α κ : Type} [Document α κ] [DecidableEq κ] {c : Collection α}
    {p : α → Bool} (h : OnList c (fun d => p d = true) []) : c.Lacks p := by
  intro k d hd
  cases hp : p d with
  | false => rfl
  | true => exact absurd (h k d hd hp) List.not_mem_nil

/-- A query that sees all there is reports all with work to do. -/
theorem onList_find {α κ : Type} [Document α κ] [DecidableEq κ] (c : Collection α)
    (p : α → Bool) : OnList c (fun d => p d = true) (c.find p) :=
  fun _ _ hd hp => Collection.mem_find.mpr ⟨Collection.get_of_mem (Collection.mem_of_get hd), hp⟩

/-- The agents whose lease is to be reclaimed. -/
def AgentLeasesToGo (now : Time) (rest : List Agent) (s : State) : Prop :=
  (∀ x ∈ rest, x.state ≠ .offline
      ∧ AgentRepository.leaseExpired now x.leaseExpiresAt = true)
    ∧ OnList s.agents (fun a => AgentRepository.leaseReclaimable now a = true) rest

theorem wp_sweepExpiredAgentLeases (hA : SweepKept A) (hsees : ∀ s, A s → Sweepable cfg now s)
    {s : State × Unit} (hs : A s.1) :
    (secluded cfg i).wp i (RecoveryWorker.sweepExpiredAgentLeases cfg now)
      (Finishes fun _ s' => A s'.1 ∧ NoAgentLease now s'.1) s := by
  have hfind : (secluded cfg i).wp i
      (await (.findExpiredAgentLeases now cfg.recoverySweepLimit))
      (Finishes fun agents s' => A s'.1 ∧ AgentLeasesToGo now agents s'.1) s := by
    refine wp_kept hA trivial trivial (fun c agents hans => ?_) hs
    obtain ⟨heff, hstate⟩ := exec_ok hans
    obtain rfl : AgentRepository.findExpiredAgentLeases now cfg.recoverySweepLimit s.1.agents
      = agents := Except.ok.inj heff
    rw [AgentRepository.findExpiredAgentLeases,
      Collection.limit_of_length_le (hsees s.1 hs).sight.agentLeases, hstate]
    refine ⟨fun x hx => ?_, onList_find _ _⟩
    obtain ⟨hsource, -, hlease⟩ :=
      AgentRepository.leaseReclaimable_iff.mp (Collection.mem_find.mp hx).2
    refine ⟨fun hstate => ?_, hlease⟩
    rw [hstate] at hsource
    revert hsource
    decide
  refine wp_bind_finishes hfind fun agents s₁ hs₁ => ?_
  -- the loop: at each turn, all that is still reclaimable is on the rest of the list
  refine finishes_mono (wp_count_finishes
    (I := fun rest s' => A s'.1 ∧ AgentLeasesToGo now rest s'.1) (fun x rest s₂ hs₂ => ?_) hs₁)
    fun _ s₃ hs₃ => ⟨hs₃.1, lacks_of_onList hs₃.2.2⟩
  obtain ⟨hA₂, hexpired, hlist⟩ := hs₂
  refine wp_bind_finishes (wp_sweeping_total (B := fun s => s.agents = s₂.1.agents) hA
    (cancelBoundCall_total x _) (fun o ho c s heq => (agents_of_spares ho.2.2 c s).trans heq)
    hA₂ rfl) fun _ s₃ hs₃ => ?_
  obtain ⟨hthere, hlease⟩ := hexpired x List.mem_cons_self
  refine wp_bind_finishes (wp_kept (o := .releaseExpiredAgentLease x now) hA hthere trivial
    (fun c a hans => ?_) hs₃.1) fun _ s₄ hs₄ => hs₄
  -- the document is still as the query saw it, so the conditional write goes through
  have hx : AgentRepository.leaseUnchanged x now x = true :=
    AgentRepository.leaseUnchanged_iff.mpr ⟨rfl, rfl, hlease⟩
  refine ⟨fun y hy => hexpired y (List.mem_cons_of_mem x hy), ?_⟩
  rw [OnList, agents_of_ok hans, hs₃.2]
  exact Collection.worklist_write (w := ⟨x.id, AgentRepository.leaseUnchanged x now,
    AgentRepository.reclaim now⟩) rfl hx (fun _ _ h => by cases h) hlist

/-- The borrowers whose lease is to be reclaimed. -/
def BorrowerLeasesToGo (now : Time) (rest : List Borrower) (s : State) : Prop :=
  (∀ x ∈ rest, AgentRepository.leaseExpired now x.leaseExpiresAt = true)
    ∧ OnList s.borrowers (fun b => BorrowerRepository.leaseReclaimable now b = true) rest

theorem wp_sweepExpiredBorrowerLeases (hA : SweepKept A) (hsees : ∀ s, A s → Sweepable cfg now s)
    {s : State × Unit} (hs : A s.1) :
    (secluded cfg i).wp i (RecoveryWorker.sweepExpiredBorrowerLeases cfg now)
      (Finishes fun _ s' => A s'.1 ∧ NoBorrowerLease now s'.1) s := by
  have hfind : (secluded cfg i).wp i
      (await (.findExpiredBorrowerLeases now cfg.recoverySweepLimit))
      (Finishes fun candidates s' => A s'.1 ∧ BorrowerLeasesToGo now candidates s'.1) s := by
    refine wp_kept hA trivial trivial (fun c candidates hans => ?_) hs
    obtain ⟨heff, hstate⟩ := exec_ok hans
    obtain rfl : BorrowerRepository.findExpiredBorrowerLeases now cfg.recoverySweepLimit
      s.1.borrowers = candidates := Except.ok.inj heff
    rw [BorrowerRepository.findExpiredBorrowerLeases,
      Collection.limit_of_length_le (hsees s.1 hs).sight.borrowerLeases, hstate]
    refine ⟨fun x hx => ?_, onList_find _ _⟩
    exact (BorrowerRepository.leaseReclaimable_iff.mp (Collection.mem_find.mp hx).2).2.2
  refine wp_bind_finishes hfind fun candidates s₁ hs₁ => ?_
  refine finishes_mono (wp_count_finishes
    (I := fun rest s' => A s'.1 ∧ BorrowerLeasesToGo now rest s'.1) (fun x rest s₂ hs₂ => ?_) hs₁)
    fun _ s₃ hs₃ => ⟨hs₃.1, lacks_of_onList hs₃.2.2⟩
  obtain ⟨hA₂, hexpired, hlist⟩ := hs₂
  refine wp_bind_finishes (wp_kept hA trivial trivial (fun c a hans => ?_) hA₂)
    fun _ s₃ hs₃ => hs₃
  have hx : BorrowerRepository.leaseUnchanged x now x = true :=
    BorrowerRepository.leaseUnchanged_iff.mpr ⟨rfl, rfl, hexpired x List.mem_cons_self⟩
  refine ⟨fun y hy => hexpired y (List.mem_cons_of_mem x hy), ?_⟩
  rw [OnList, borrowers_of_ok hans]
  exact Collection.worklist_write (w := ⟨x.id, BorrowerRepository.leaseUnchanged x now,
    BorrowerRepository.reclaim now⟩) rfl hx (fun _ _ h => by cases h) hlist

/-- The calls that are to be ended. -/
def StaleCallsToGo (olderThan : Time) (rest : List Call) (s : State) : Prop :=
  (∀ x ∈ rest, x.WellFormed ∧ isTerminal x.state = false)
    ∧ OnList s.calls (fun d => CallRepository.stale olderThan d = true) rest

/-- Asking the provider changes nothing, and a provider that fails is an answer. -/
theorem wp_reconcileWithProvider (call : Call) {B : State → Prop}
    (hB : ∀ providerName providerCallId c s, B s →
      B (exec i (.getCallStatus providerName providerCallId) c s).2) {s : State × Unit}
    (hs : B s.1) :
    (secluded cfg i).wp i (RecoveryWorker.reconcileWithProvider call)
      (Finishes fun t s' => isTerminal t = true ∧ B s'.1) s := by
  rw [RecoveryWorker.reconcileWithProvider]
  split
  · exact ⟨rfl, hs⟩
  · rename_i providerCallId _
    split
    · exact ⟨rfl, hs⟩
    -- undisturbed, nothing can be raised but an error of the provider, which is caught
    · have hask : (secluded cfg i).wp i (await (.getCallStatus call.providerName providerCallId))
          (fun r s' => B s'.1 ∧ ∀ e, r = .error e → ∃ p, e = .provider p) s := by
        refine Logic.wp_perform_alone fun c hc => ⟨hB _ _ c s.1 hs, fun e he => ?_⟩
        change (exec i (.getCallStatus call.providerName providerCallId) c s.1).1 = _ at he
        rw [exec_faultless hc] at he
        simp only [effect] at he
        split at he
        · cases he
        · exact ⟨_, (Except.error.inj he).symm⟩
      refine Logic.wp_tryCatch (Logic.wp_bind (Logic.wp_mono hask fun r s' hr => ?_))
      cases r with
      | ok status => exact ⟨by cases status <;> rfl, hr.1⟩
      | error e =>
          obtain ⟨p, rfl⟩ := hr.2 e rfl
          exact ⟨rfl, hr.1⟩

theorem wp_reconcileCall {x : Call} {rest : List Call} {olderThan : Time} (hA : SweepKept A)
    {s : State × Unit} (hs : A s.1) (hgo : StaleCallsToGo olderThan (x :: rest) s.1) :
    (secluded cfg i).wp i (RecoveryWorker.reconcileCall cfg x)
      (Finishes fun _ s' => A s'.1 ∧ StaleCallsToGo olderThan rest s'.1) s := by
  obtain ⟨hlive, hlist⟩ := hgo
  have hrest : ∀ y ∈ rest, y.WellFormed ∧ isTerminal y.state = false :=
    fun y hy => hlive y (List.mem_cons_of_mem x hy)
  refine wp_bind_finishes (wp_reconcileWithProvider x
    (B := fun s' => A s' ∧ s'.calls = s.1.calls) (fun providerName providerCallId c s' hs' =>
      ⟨hA i (.getCallStatus providerName providerCallId) c s' trivial hs'.1,
        (calls_of_spares (o := .getCallStatus providerName providerCallId) trivial
          (fun _ => rfl) c s').trans hs'.2⟩) ⟨hs, rfl⟩) fun t s₁ hs₁ => ?_
  obtain ⟨hterm, hA₁, hcalls⟩ := hs₁
  have hmove : ∀ reason, (secluded cfg i).wp i (await (.transitionCall x.id t reason))
      (Finishes fun _ s' => A s'.1 ∧ StaleCallsToGo olderThan rest s'.1) s₁ := by
    intro reason
    refine wp_kept hA hterm trivial (fun c answer hans => ⟨hrest, ?_⟩) hA₁
    obtain ⟨hwf, hx⟩ := hlive x List.mem_cons_self
    -- a live call ranks below every terminal state, so the move is never refused
    have hp : CallRepository.advanceable t x = true := by
      have hrank := (isTerminal_eq_false_iff_rank x.state).mp hx
      have htop := (isTerminal_iff_rank t).mp hterm
      rw [hwf.advanceable_iff, htop]
      exact hrank
    rw [OnList, (exec_ok hans).2]
    rw [← hcalls] at hlist
    refine Collection.worklist_write (c := s₁.1.calls) (w := ⟨x.id,
      CallRepository.advanceable t, CallRepository.advance c.now t reason⟩) rfl hp
      (fun d _ hstale => ?_) hlist
    cases hterm.symm.trans (CallRepository.stale_iff.mp hstale).1
  refine wp_bind_finishes (hmove _) fun answer s₂ hs₂ => ?_
  cases answer with
  | none => exact hs₂
  -- releasing the parties does not touch the calls
  | some finished =>
      refine wp_bind_finishes (wp_sweeping_total (B := StaleCallsToGo olderThan rest) hA
        (releaseParties_total finished) (fun o ho c s' hgo => ⟨hgo.1, ?_⟩) hs₂.1 hs₂.2)
        fun _ _ hs₃ => hs₃
      rw [OnList, calls_of_spares ho.1 ho.2.2]
      exact hgo.2

theorem wp_sweepOrphanedCalls (hA : SweepKept A) (hsees : ∀ s, A s → Sweepable cfg now s)
    {s : State × Unit} (hs : A s.1) :
    (secluded cfg i).wp i (RecoveryWorker.sweepOrphanedCalls cfg now)
      (Finishes fun _ s' => A s'.1
        ∧ NoStaleCall (now - seconds cfg.callStaleTimeoutSeconds) s'.1) s := by
  have hfind : (secluded cfg i).wp i
      (await (.findStaleCalls (now - seconds cfg.callStaleTimeoutSeconds) cfg.recoverySweepLimit))
      (Finishes fun calls s' => A s'.1
        ∧ StaleCallsToGo (now - seconds cfg.callStaleTimeoutSeconds) calls s'.1) s := by
    refine wp_kept hA trivial trivial (fun c calls hans => ?_) hs
    obtain ⟨heff, hstate⟩ := exec_ok hans
    obtain rfl : CallRepository.findStaleCalls (now - seconds cfg.callStaleTimeoutSeconds)
      cfg.recoverySweepLimit s.1.calls = calls := Except.ok.inj heff
    -- the query is sorted and limited, but the limit is above the number of stale calls
    have hmem : ∀ d, d ∈ CallRepository.findStaleCalls
        (now - seconds cfg.callStaleTimeoutSeconds) cfg.recoverySweepLimit s.1.calls
        ↔ d ∈ s.1.calls.find
          (CallRepository.stale (now - seconds cfg.callStaleTimeoutSeconds)) :=
      fun d => mem_limit_sortOn (hsees s.1 hs).sight.calls
    rw [hstate]
    refine ⟨fun x hx => ?_, fun k d hd hp => (hmem d).mpr (onList_find _ _ k d hd hp)⟩
    obtain ⟨hget, hp⟩ := Collection.mem_find.mp ((hmem x).mp hx)
    have hwf : x.WellFormed := (hsees s.1 hs).calls _ x hget
    exact ⟨hwf, hwf.terminal_eq ▸ (CallRepository.stale_iff.mp hp).1⟩
  refine wp_bind_finishes hfind fun calls s₁ hs₁ => ?_
  exact finishes_mono (wp_count_finishes (I := fun rest s' => A s'.1
      ∧ StaleCallsToGo (now - seconds cfg.callStaleTimeoutSeconds) rest s'.1)
    (fun x rest s₂ hs₂ => wp_reconcileCall hA hs₂.1 hs₂.2) hs₁)
    fun _ s₃ hs₃ => ⟨hs₃.1, lacks_of_onList hs₃.2.2⟩

/-- The agents that are to be logged out. -/
def SilentToGo (olderThan : Time) (rest : List Agent) (s : State) : Prop :=
  (∀ x ∈ rest, x.state ≠ .offline)
    ∧ OnList s.agents (fun a => AgentRepository.silent olderThan a = true) rest

theorem wp_sweepHeartbeatTimeouts (hA : SweepKept A) (hsees : ∀ s, A s → Sweepable cfg now s)
    {s : State × Unit} (hs : A s.1) :
    (secluded cfg i).wp i (RecoveryWorker.sweepHeartbeatTimeouts cfg now)
      (Finishes fun _ s' => A s'.1
        ∧ NoneSilent (now - seconds cfg.agentHeartbeatTimeoutSeconds) s'.1) s := by
  have hfind : (secluded cfg i).wp i (await (.findHeartbeatExpired
      (now - seconds cfg.agentHeartbeatTimeoutSeconds) cfg.recoverySweepLimit))
      (Finishes fun agents s' => A s'.1
        ∧ SilentToGo (now - seconds cfg.agentHeartbeatTimeoutSeconds) agents s'.1) s := by
    refine wp_kept hA trivial trivial (fun c agents hans => ?_) hs
    obtain ⟨heff, hstate⟩ := exec_ok hans
    obtain rfl : Collection.limit cfg.recoverySweepLimit (s.1.agents.find
      (AgentRepository.silent (now - seconds cfg.agentHeartbeatTimeoutSeconds))) = agents :=
      Except.ok.inj heff
    rw [Collection.limit_of_length_le (hsees s.1 hs).sight.heartbeats, hstate]
    refine ⟨fun x hx => ?_, onList_find _ _⟩
    exact (AgentRepository.silent_iff.mp (Collection.mem_find.mp hx).2).1
  refine wp_bind_finishes hfind fun agents s₁ hs₁ => ?_
  refine finishes_mono (wp_count_finishes (I := fun rest s' => A s'.1
      ∧ SilentToGo (now - seconds cfg.agentHeartbeatTimeoutSeconds) rest s'.1)
    (fun x rest s₂ hs₂ => ?_) hs₁) fun _ s₃ hs₃ => ⟨hs₃.1, lacks_of_onList hs₃.2.2⟩
  obtain ⟨hA₂, hthere, hlist⟩ := hs₂
  refine wp_bind_finishes (wp_sweeping_total (B := fun s => s.agents = s₂.1.agents) hA
    (cancelBoundCall_total x _) (fun o ho c s heq => (agents_of_spares ho.2.2 c s).trans heq)
    hA₂ rfl) fun _ s₃ hs₃ => ?_
  -- whoever is on the list was not OFFLINE, so the state machine has no objection
  rw [Agents.transitionAgent, validateTransition_offline (hthere x List.mem_cons_self)]
  refine wp_bind_finishes (wp_kept (o := .transitionAgent x.id x.state .offline x.stateVersion) hA
    (.inr rfl) trivial (fun c a hans => ?_) hs₃.1) fun _ s₄ hs₄ => hs₄
  have hx : AgentRepository.movable x.state x.stateVersion x = true :=
    AgentRepository.movable_iff.mpr ⟨rfl, rfl⟩
  refine ⟨fun y hy => hthere y (List.mem_cons_of_mem x hy), ?_⟩
  rw [OnList, agents_of_ok hans, hs₃.2]
  exact Collection.worklist_write (w := ⟨x.id, AgentRepository.movable x.state x.stateVersion,
    AgentRepository.move c.now x.state .offline⟩) rfl hx (fun _ _ h => by cases h) hlist

/-- The agents whose wrap-up is to be ended. -/
def WrapUpsOverToGo (olderThan : Time) (rest : List Agent) (s : State) : Prop :=
  (∀ x ∈ rest, x.state = .wrapUp)
    ∧ OnList s.agents (fun a => AgentRepository.wrapUpOver olderThan a = true) rest

theorem wp_sweepStuckWrapUps (hA : SweepKept A) (hsees : ∀ s, A s → Sweepable cfg now s)
    {s : State × Unit} (hs : A s.1) :
    (secluded cfg i).wp i (RecoveryWorker.sweepStuckWrapUps cfg now)
      (Finishes fun _ s' => A s'.1
        ∧ NoWrapUpOver (now - seconds (cfg.wrapUpSeconds + cfg.wrapUpSeconds * 2)) s'.1) s := by
  -- the grace period is written out in the source, and only its length matters here
  generalize holder : now - seconds (cfg.wrapUpSeconds + cfg.wrapUpSeconds * 2) = olderThan
  have hfind : (secluded cfg i).wp i
      (await (.findExpiredWrapUps olderThan cfg.recoverySweepLimit none))
      (Finishes fun agents s' => A s'.1 ∧ WrapUpsOverToGo olderThan agents s'.1) s := by
    refine wp_kept hA trivial trivial (fun c agents hans => ?_) hs
    obtain ⟨heff, hstate⟩ := exec_ok hans
    obtain rfl : AgentRepository.findExpiredWrapUps olderThan cfg.recoverySweepLimit none
      s.1.agents = agents := Except.ok.inj heff
    have hmem : ∀ a, a ∈ AgentRepository.findExpiredWrapUps olderThan cfg.recoverySweepLimit none
        s.1.agents ↔ a ∈ s.1.agents.find (AgentRepository.wrapUpOver olderThan) := by
      intro a
      -- the query of all campaigns filters no agent out
      have hover : (fun a : Agent => a.state == .wrapUp && decide (a.stateChangedAt ≤ olderThan)
          && (none : Option String).all (a.campaignId == ·))
          = AgentRepository.wrapUpOver olderThan := by
        funext a
        exact Bool.and_true _
      have hsight := (hsees s.1 hs).sight.wrapUps
      rw [holder] at hsight
      rw [AgentRepository.findExpiredWrapUps, hover]
      exact mem_limit_sortOn hsight
    rw [hstate]
    refine ⟨fun x hx => ?_, fun k a ha hp => (hmem a).mpr (onList_find _ _ k a ha hp)⟩
    exact (AgentRepository.wrapUpOver_iff.mp (Collection.mem_find.mp ((hmem x).mp hx)).2).1
  rw [RecoveryWorker.sweepStuckWrapUps, holder]
  refine wp_bind_finishes hfind fun agents s₁ hs₁ => ?_
  refine finishes_mono (wp_count_finishes
    (I := fun rest s' => A s'.1 ∧ WrapUpsOverToGo olderThan rest s'.1)
    (fun x rest s₂ hs₂ => ?_) hs₁) fun _ s₃ hs₃ => ⟨hs₃.1, lacks_of_onList hs₃.2.2⟩
  obtain ⟨hA₂, hwraps, hlist⟩ := hs₂
  have hout : (Op.transitionAgent x.id .wrapUp .available x.stateVersion).Vacating :=
    .inl ⟨by decide, rfl⟩
  refine wp_bind_finishes (wp_kept (o := .transitionAgent x.id .wrapUp .available
    x.stateVersion) hA hout trivial (fun c a hans => ?_) hA₂) fun _ s₃ hs₃ => hs₃
  have hx : AgentRepository.movable .wrapUp x.stateVersion x = true :=
    AgentRepository.movable_iff.mpr ⟨hwraps x List.mem_cons_self, rfl⟩
  refine ⟨fun y hy => hwraps y (List.mem_cons_of_mem x hy), ?_⟩
  rw [OnList, agents_of_ok hans]
  exact Collection.worklist_write (w := ⟨x.id, AgentRepository.movable .wrapUp x.stateVersion,
    AgentRepository.move c.now .wrapUp .available⟩) rfl hx (fun _ _ h => by cases h) hlist

/-! ## The round -/

theorem wp_guarded_finishes {name : String} {set : Nat → RecoverySweepCounts → RecoverySweepCounts}
    {sweep : Async Nat} {f : Assertion Unit} {s : State × Unit}
    (h : (secluded cfg i).wp i sweep (Finishes fun _ => f) s) (counts : RecoverySweepCounts) :
    (secluded cfg i).wp i (RecoveryWorker.guarded name set sweep counts)
      (Finishes fun _ => f) s :=
  wp_tryCatch_finishes (wp_bind_finishes h fun _ _ hs => hs)

/-- Nobody is held up by anything. -/
structure NothingStuck (s : State) : Prop where
  agents : NoAgentHeld s
  wrapUps : NoWrapUp s
  borrowers : NoBorrowerReserved s
  calls : NoCallLive s

/-- Everything a time limit is on is older than that, by the clock that says `now`. -/
structure Past (cfg : Settings) (now : Time) (s : State) : Prop where
  agentLeases : ∀ a ∈ s.agents.docs, ∀ t ∈ a.leaseExpiresAt, t < now
  borrowerLeases : ∀ b ∈ s.borrowers.docs, ∀ t ∈ b.leaseExpiresAt, t < now
  calls : ∀ d ∈ s.calls.docs, d.updatedAt + seconds cfg.callStaleTimeoutSeconds < now
  wrapUps : ∀ a ∈ s.agents.docs, a.state = .wrapUp →
    a.stateChangedAt + 3 * seconds cfg.wrapUpSeconds ≤ now

theorem leaseExpired_of_past {leaseExpiresAt : Option Time} (hsome : leaseExpiresAt.isSome = true)
    (hpast : ∀ t ∈ leaseExpiresAt, t < now) :
    AgentRepository.leaseExpired now leaseExpiresAt = true := by
  obtain ⟨t, ht⟩ := Option.isSome_iff_exists.mp hsome
  exact AgentRepository.leaseExpired_iff.mpr ⟨t, ht, hpast t ht⟩

/-- Late enough, who is held is found by the sweeps. -/
theorem overdue_of_past {s : State} (hkept : WellKept s) (hpast : Past cfg now s)
    (hsight : WithinSight cfg now s) : Overdue cfg now s where
  agents k a ha hheld := by
    obtain ⟨hworker, hlease⟩ := hkept.agents k a ha hheld
    exact ⟨hworker,
      leaseExpired_of_past hlease (hpast.agentLeases a (Collection.mem_of_get ha))⟩
  borrowers k b hb hres := by
    obtain ⟨hworker, hlease⟩ := hkept.borrowers k b hb hres
    exact ⟨hworker,
      leaseExpired_of_past hlease (hpast.borrowerLeases b (Collection.mem_of_get hb))⟩
  calls k d hd _ := by
    have hlate := hpast.calls d (Collection.mem_of_get hd)
    exact lt_sub_iff_add_lt.mpr hlate
  wrapUps k a ha hwrap := by
    have hlate := hpast.wrapUps a (Collection.mem_of_get ha) hwrap
    have hgrace : seconds (cfg.wrapUpSeconds + cfg.wrapUpSeconds * 2)
        = 3 * seconds cfg.wrapUpSeconds := by
      simp only [seconds]
      ring
    rw [hgrace]
    exact le_sub_iff_add_le.mpr hlate
  sweepable := ⟨hkept.calls, hsight⟩

/-- The five sweeps of a round, at the time read at its start. -/
def RecoveryWorker.sweepAll (cfg : Settings) (now : Time) : Async RecoverySweepCounts := do
  let counts ← guarded "expired_agent_leases" (fun n c => { c with expiredAgentLeases := n })
    (sweepExpiredAgentLeases cfg now) {}
  let counts ← guarded "expired_borrower_leases"
    (fun n c => { c with expiredBorrowerLeases := n }) (sweepExpiredBorrowerLeases cfg now) counts
  let counts ← guarded "orphaned_calls" (fun n c => { c with orphanedCalls := n })
    (sweepOrphanedCalls cfg now) counts
  let counts ← guarded "heartbeat_timeouts" (fun n c => { c with heartbeatTimeouts := n })
    (sweepHeartbeatTimeouts cfg now) counts
  guarded "stuck_wrap_ups" (fun n c => { c with stuckWrapUps := n })
    (sweepStuckWrapUps cfg now) counts

/-- A round of recovery by itself, from the moment it has read the clock. -/
theorem eval_runSweeps {env : Nat → Choice} (henv : (env 0).fault = .none) (s : State) :
    (RecoveryWorker.runSweeps cfg).eval (solo i env) (s, 0)
      = (RecoveryWorker.sweepAll cfg (env 0).now).eval (solo i env)
        ((exec i .utcNow (env 0) s).2, 1) := by
  have hclock : (solo i env .utcNow (s, 0)).1 = .ok (env 0).now := by
    rw [solo, exec_faultless henv]
    rfl
  exact Prog.eval_perform_bind (S := sig) (o := .utcNow) hclock (RecoveryWorker.sweepAll cfg)

/--
Each sweep keeps what those before it have done, and whatever else an operation of a sweep
keeps.
-/
theorem wp_sweepAll (hA : SweepKept A) (hsees : ∀ s, A s → Sweepable cfg now s) {s : State × Unit}
    (hs : A s.1) :
    (secluded cfg i).wp i (RecoveryWorker.sweepAll cfg now)
      (Finishes fun _ s' => A s'.1 ∧ Swept cfg now s'.1) s := by
  -- what the earlier sweeps have done joins the invariant of the later ones
  have hk₁ : SweepKept fun s => A s ∧ NoAgentLease now s := hA.and noAgentLease_kept
  have hk₂ : SweepKept fun s => (A s ∧ NoAgentLease now s) ∧ NoBorrowerLease now s :=
    hk₁.and noBorrowerLease_kept
  have hk₃ : SweepKept fun s => ((A s ∧ NoAgentLease now s) ∧ NoBorrowerLease now s)
      ∧ NoStaleCall (now - seconds cfg.callStaleTimeoutSeconds) s := by
    intro j o c s' ho hs'
    exact ⟨hk₂ j o c s' ho hs'.1,
      (noStaleCall_kept j o c s' ho ⟨hsees s' hs'.1.1.1, hs'.2⟩).2⟩
  have hsilent : SweepKept (NoneSilent (now - seconds cfg.agentHeartbeatTimeoutSeconds)) :=
    noneSilent_kept
  have hk₄ := hk₃.and hsilent
  refine wp_bind_finishes (wp_guarded_finishes
    (wp_sweepExpiredAgentLeases hA hsees hs) _) fun _ s₁ hs₁ => ?_
  refine wp_bind_finishes (wp_guarded_finishes
    (wp_sweepExpiredBorrowerLeases hk₁ (fun s h => hsees s h.1) hs₁) _) fun _ s₂ hs₂ => ?_
  refine wp_bind_finishes (wp_guarded_finishes
    (wp_sweepOrphanedCalls hk₂ (fun s h => hsees s h.1.1) hs₂) _) fun _ s₃ hs₃ => ?_
  refine wp_bind_finishes (wp_guarded_finishes
    (wp_sweepHeartbeatTimeouts hk₃ (fun s h => hsees s h.1.1.1) hs₃) _) fun _ s₄ hs₄ => ?_
  refine finishes_mono (wp_guarded_finishes
    (wp_sweepStuckWrapUps hk₄ (fun s h => hsees s h.1.1.1.1) hs₄) _) fun _ s₅ hs₅ => ?_
  obtain ⟨⟨⟨⟨⟨hA₅, hagents⟩, hborrowers⟩, hcalls⟩, hsilent⟩, hwrapUps⟩ := hs₅
  exact ⟨hA₅, hagents, hborrowers, hcalls, hsilent, hwrapUps⟩

/-- A round of recovery by itself, whatever the providers answer. -/
theorem runSweeps_swept (hA : SweepKept A) {env : Nat → Choice}
    (hsees : ∀ s, A s → Sweepable cfg (env 0).now s) {s : State} (hs : A s)
    (henv : ∀ n, (env n).fault = .none) :
    ∃ counts, ((RecoveryWorker.runSweeps cfg).eval (solo i env) (s, 0)).1 = .ok counts
      ∧ A ((RecoveryWorker.runSweeps cfg).eval (solo i env) (s, 0)).2.1
      ∧ Swept cfg (env 0).now ((RecoveryWorker.runSweeps cfg).eval (solo i env) (s, 0)).2.1 := by
  rw [eval_runSweeps (henv 0)]
  have hs' : A (exec i .utcNow (env 0) s).2 := hA i .utcNow (env 0) s trivial hs
  exact eval_solo_of_wp (n := 1) (fun n _ => henv n)
    (wp_sweepAll hA hsees (s := ((exec i .utcNow (env 0) s).2, ())) hs')

/-- Of what is overdue, a round of recovery leaves nothing. -/
theorem Overdue.nothingStuck {s : State} (h : Overdue cfg now s) (hswept : Swept cfg now s) :
    NothingStuck s where
  agents k a ha := by
    cases hheld : a.state.held with
    | false => rfl
    | true =>
        obtain ⟨hworker, hexpired⟩ := h.agents k a ha hheld
        have hleft := hswept.agentLeases k a ha
        rw [AgentRepository.leaseReclaimable, held_leaseSources hheld, hworker, hexpired] at hleft
        cases hleft
  wrapUps k a ha hwrap := by
    have hpast := h.wrapUps k a ha hwrap
    have hleft := hswept.wrapUps k a ha
    simp only [AgentRepository.wrapUpOver, hwrap, beq_self_eq_true, Bool.true_and,
      decide_eq_false_iff_not] at hleft
    exact hleft hpast
  borrowers k b hb hres := by
    obtain ⟨hworker, hexpired⟩ := h.borrowers k b hb hres
    have hleft := hswept.borrowerLeases k b hb
    rw [BorrowerRepository.leaseReclaimable, hres, hworker, hexpired] at hleft
    cases hleft
  calls k d hd := by
    cases hlive : isTerminal d.state with
    | true => rfl
    | false =>
        have hleft := hswept.calls k d hd
        rw [CallRepository.stale, (h.sweepable.calls k d hd).terminal_eq, hlive] at hleft
        simp [h.calls k d hd hlive] at hleft

/--
**Nothing stays stuck.** Whatever a run left behind, of any tasks in any interleaving, with
failures, cancellations and crashes anywhere: a round of recovery that starts when the clock
has passed every time limit, sees everything and is not disturbed, ends with no agent held or
in WRAP_UP, no borrower RESERVED and no call live.
-/
theorem nothing_stays_stuck {w : World (dialer cfg)}
    (h : Reachable (Policy.any (dialer cfg)) WellKept w) {env : Nat → Choice}
    (henv : ∀ n, (env n).fault = .none) (hpast : Past cfg (env 0).now w.st)
    (hlimit : WithinLimit cfg w.st) :
    ∃ counts, ((RecoveryWorker.runSweeps cfg).eval (solo i env) (w.st, 0)).1 = .ok counts
      ∧ NothingStuck ((RecoveryWorker.runSweeps cfg).eval (solo i env) (w.st, 0)).2.1 := by
  have hover := overdue_of_past (wellKept_reachable h) hpast (hlimit.withinSight _)
  obtain ⟨counts, hcounts, hover', hswept⟩ :=
    runSweeps_swept (i := i) overdue_kept (fun _ hs => hs.sweepable) hover henv
  exact ⟨counts, hcounts, hover'.nothingStuck hswept⟩

end

theorem oneAgent_wellKept : WellKept oneAgent where
  agents k a ha hheld := by
    obtain rfl := List.mem_singleton.mp (Collection.mem_of_get ha)
    cases hheld
  borrowers k b hb hres := by
    rcases List.mem_pair.mp (Collection.mem_of_get hb) with rfl | rfl <;> cases hres
  calls := oneAgent_fresh.noCalls.wellFormed

instance (cfg : Settings) (now : Time) (s : State) : Decidable (Past cfg now s) :=
  decidable_of_iff (_ ∧ _ ∧ _ ∧ _)
    ⟨fun h => ⟨h.1, h.2.1, h.2.2.1, h.2.2.2⟩, fun h => ⟨h.1, h.2, h.3, h.4⟩⟩

instance (cfg : Settings) (s : State) : Decidable (WithinLimit cfg s) :=
  decidable_of_iff (_ ∧ _ ∧ _) ⟨fun h => ⟨h.1, h.2.1, h.2.2⟩, fun h => ⟨h.1, h.2, h.3⟩⟩

/-- A worker that dies when its call is INITIATED, and a round of recovery an hour later. -/
theorem nothing_stays_stuck_crash :
    ∃ w, Reachable (Policy.any (dialer {})) WellKept w
      ∧ (∃ d ∈ w.st.calls.get "call", d.state = .initiated)
      ∧ NothingStuck ((RecoveryWorker.runSweeps {}).eval
        (solo 1 fun _ => { now := seconds 3600 }) (w.st, 0)).2.1 := by
  obtain ⟨w, hw, htest⟩ := Reachable.of_play (Policy.any (dialer {})) oneAgent_wellKept
    (oneDial.dropLast ++ [.crash 0])
    (fun w => decide ((∃ d ∈ w.st.calls.get "call", d.state = .initiated)
      ∧ Past {} (seconds 3600) w.st ∧ WithinLimit {} w.st))
    (by decide +kernel)
  obtain ⟨hcall, hpast, hlimit⟩ := of_decide_eq_true htest
  obtain ⟨_, -, hclear⟩ : ∃ counts, ((RecoveryWorker.runSweeps {}).eval
        (solo 1 fun _ => { now := seconds 3600 }) (w.st, 0)).1 = .ok counts
      ∧ NothingStuck ((RecoveryWorker.runSweeps {}).eval
        (solo 1 fun _ => { now := seconds 3600 }) (w.st, 0)).2.1 :=
    nothing_stays_stuck hw (fun _ => rfl) hpast hlimit
  exact ⟨w, hw, hcall, hclear⟩

end SmartDialer
