import SmartDialer.Protocol.AgentCycle

/-!
# A wrap-up takes its time, and ends once

Four updates could take an agent from WRAP_UP to AVAILABLE, and two of them look at no clock:
a release, and the end of an expired lease, for both of which the table lists WRAP_UP among
recovery's sources. What keeps them away is that both are for an agent that is reserved. An
agent gets into WRAP_UP by a release alone, which clears the reservation, and while it is there
nobody reserves it.

The other two look at the clock, but only when they search. Their candidates carry the version
they were found with, and the update insists on it; as long as an agent has the version, it has
not moved, and `state_changed_at` says when this stay began.
-/

namespace SmartDialer

open Store Conc

/-! ## Statement -/

section

variable {cfg : Settings}

/-- The agent is in WRAP_UP, in the stay that has this version. -/
def InWrapUp (agentId : String) (version : Nat) (s : State) : Prop :=
  ∃ a ∈ s.agents.get agentId, a.state = .wrapUp ∧ a.stateVersion = version

instance (agentId : String) (version : Nat) : DecidablePred (InWrapUp agentId version) :=
  fun s => inferInstanceAs (Decidable (∃ a ∈ s.agents.get agentId, _ ∧ _))

/-- The operation took the agent into WRAP_UP, and left it as `a`. -/
def EntersWrapUp (m : Moment (dialer cfg)) (agentId : String) (a : Agent) : Prop :=
  m.after.agents.get agentId = some a ∧ a.state = .wrapUp
    ∧ ∃ b, m.before.agents.get agentId = some b ∧ b.state ≠ .wrapUp

/-- The operation took the agent `a` from WRAP_UP to AVAILABLE. -/
def LeavesWrapUp (m : Moment (dialer cfg)) (agentId : String) (a : Agent) : Prop :=
  m.before.agents.get agentId = some a ∧ a.state = .wrapUp
    ∧ ∃ a', m.after.agents.get agentId = some a' ∧ a'.state = .available

/-- Who is in WRAP_UP is not reserved. -/
def WrapUpsUnreserved (s : State) : Prop :=
  ∀ k a, s.agents.get k = some a → a.state = .wrapUp →
    a.reservedBy = none ∧ a.leaseExpiresAt = none

/-! ## Nobody in WRAP_UP is reserved -/

theorem wrapUpsUnreserved_exec {i : Nat} {o : Op} {c : Choice} {s : State} (ho : o.Issued cfg)
    (h : WrapUpsUnreserved s) : WrapUpsUnreserved (exec i o c s).2 := by
  intro k a' ha' hstate
  obtain ⟨actor, past, ho⟩ := ho
  obtain ⟨a, ha, hre⟩ := agent_of_exec ha'
  cases hre with
  | same => exact h k _ ha hstate
  | written w hw _ hp =>
      cases o, w, hw using Op.agentWrite_cases with
      | tryReserveAgent campaignId agentId workerId ttlSeconds => cases hstate
      | releaseAgent agentId workerId target releaser shielded => exact ⟨rfl, rfl⟩
      | transitionAgent agentId fromState toState expectedVersion =>
          -- a release is the only way in
          exact absurd hstate ho.2.2.1
      | bindCall agentId workerId callId => exact h k a ha hstate
      | releaseExpiredAgentLease agent now => cases hstate
      | heartbeat agentId => exact h k a ha hstate

variable {P : Policy (dialer cfg).recorded} {w : World (dialer cfg).recorded}

theorem wrapUpsUnreserved_reachable (h : Reachable P (Blank WrapUpsUnreserved) w) :
    WrapUpsUnreserved w.st.1 :=
  h.invariant (I := fun s : (dialer cfg).recorded.St => WrapUpsUnreserved s.1) (R := Op.Issued cfg)
    (fun t _ => Task.program_issued t) (fun _ hs => hs.1)
    (fun _ _ _ _ ho _ hs => wrapUpsUnreserved_exec ho hs) fun _ _ hs => hs

/-! ## When it ends, and how it begins -/

/-- Who leaves WRAP_UP for AVAILABLE does so by a transition, with the version it had. -/
theorem transition_of_leaves {m : Moment (dialer cfg)} {agentId : String} {a : Agent}
    (hfree : WrapUpsUnreserved m.before) (h : LeavesWrapUp m agentId a) :
    m.op = .transitionAgent agentId .wrapUp .available a.stateVersion := by
  obtain ⟨ha, hstate, a', ha', havailable⟩ := h
  obtain ⟨hreserved, hlease⟩ := hfree agentId a ha hstate
  obtain ⟨i, o, c, s⟩ := m
  obtain ⟨a₁, ha₁, hre⟩ := agent_of_exec ha'
  obtain rfl : a = a₁ := Option.some.inj (ha.symm.trans ha₁)
  rcases turns_of_rewritten hre with ⟨hsame, -, -⟩ | ⟨-, hturns⟩
  · rw [havailable, hstate] at hsame
    cases hsame
  · change o = _
    cases o with
    | tryReserveAgent _ _ _ _ =>
        obtain ⟨h, -⟩ := hturns
        rw [hstate] at h
        cases h
    | releaseAgent _ _ _ _ _ =>
        obtain ⟨h, -⟩ := hturns
        rw [hreserved] at h
        cases h
    | transitionAgent k fromState t version =>
        obtain ⟨rfl, rfl, rfl, rfl⟩ := hturns
        obtain rfl : a.id = agentId := Collection.key_of_get ha
        rw [hstate, havailable]
    | releaseExpiredAgentLease _ _ =>
        obtain ⟨-, -, -, h, -⟩ := hturns
        rw [hlease] at h
        cases h
    | _ => exact hturns.elim

/-- Who enters WRAP_UP has the clock's reading on record. -/
theorem changedAt_of_enters {m : Moment (dialer cfg)} {agentId : String} {a : Agent}
    (h : EntersWrapUp m agentId a) : a.stateChangedAt = m.choice.now := by
  obtain ⟨ha, hstate, b, hb, hne⟩ := h
  obtain ⟨i, o, c, s⟩ := m
  obtain ⟨b₁, hb₁, hre⟩ := agent_of_exec ha
  obtain rfl : b = b₁ := Option.some.inj (hb.symm.trans hb₁)
  cases hre with
  | same => exact absurd hstate hne
  | written w hw _ _ =>
      cases o, w, hw using Op.agentWrite_cases with
      | tryReserveAgent campaignId agentId workerId ttlSeconds => cases hstate
      | releaseAgent agentId workerId target releaser shielded => rfl
      | transitionAgent agentId fromState toState expectedVersion => rfl
      | bindCall agentId workerId callId => exact absurd hstate hne
      | releaseExpiredAgentLease agent now => cases hstate
      | heartbeat agentId => exact absurd hstate hne

/-! ## What a search for finished wrap-ups says -/

theorem changedAt_of_findExpiredWrapUps {i : Nat} {c : Choice} {s : State} {olderThan : Time}
    {limit : Int} {campaignId : Option String} {agents : List Agent} {x : Agent}
    (h : (exec i (.findExpiredWrapUps olderThan limit campaignId) c s).1 = .ok agents)
    (hx : x ∈ agents) : x.stateChangedAt ≤ olderThan := by
  obtain ⟨heff, -⟩ := exec_ok h
  obtain rfl := Except.ok.inj heff
  have hfound := (stored_of_sorted_search hx).2
  simp only [Bool.and_eq_true, decide_eq_true_eq] at hfound
  exact hfound.1.2

/-- Who is taken from WRAP_UP to AVAILABLE has been there for the wrap-up time. -/
theorem waited_of_leaves (hW : 0 ≤ cfg.wrapUpSeconds)
    (h : Reachable ((Policy.any (dialer cfg)).clocked Choice.now) (Blank WrapUpsUnreserved) w)
    {m : Moment (dialer cfg)} (hm : m ∈ w.st.2) {agentId : String} {a : Agent}
    (hleaves : LeavesWrapUp m agentId a) :
    a.stateChangedAt + seconds cfg.wrapUpSeconds ≤ m.choice.now := by
  obtain ⟨past, hsuffix, -⟩ := exists_suffix_of_sublist (List.singleton_sublist.mpr hm)
  obtain ⟨w', hw', hst, -, -⟩ := h.rewind hsuffix
  have hfree : WrapUpsUnreserved m.before := by
    have hfree := wrapUpsUnreserved_reachable hw'
    rwa [hst] at hfree
  -- the transition was told of the agent by a search
  have hop := transition_of_leaves hfree hleaves
  obtain ⟨t, -, hstarted⟩ := h.started (h.process_lt m hm)
  have hissued := hstarted.justified t.program_follows hsuffix rfl
  rw [Task.MayIssue, hop] at hissued
  obtain ⟨now, olderThan, limit, campaignId, agents, hnow, hfind, hage, x, hx, rfl, hversion⟩ :=
    hissued.2.2.2.2 rfl rfl
  obtain ⟨c₁, s₁, hm₁, hnow⟩ := exists_of_mem_replies hnow
  obtain ⟨c₂, s₂, hm₂, hfind⟩ := exists_of_mem_replies hfind
  have hread : x ∈ agentsIn (.findExpiredWrapUps olderThan limit campaignId)
      (exec m.process (.findExpiredWrapUps olderThan limit campaignId) c₂ s₂).1 := by
    rw [hfind]
    exact hx
  -- it is still in the state in which it was found
  have hpast := List.pairwise_cons.mp ((agents_along h).2.sublist hsuffix.sublist)
  obtain ⟨a₁, ha₁, hprecedes⟩ := hpast.1 _ hm₂ x.id x (stored_of_mem_agentsIn hread)
  obtain rfl : a = a₁ := Option.some.inj (hleaves.1.symm.trans ha₁)
  have hclock := (List.pairwise_cons.mp (h.clock.sublist hsuffix.sublist)).1 _ hm₁
  calc a.stateChangedAt + seconds cfg.wrapUpSeconds
      = x.stateChangedAt + seconds cfg.wrapUpSeconds := by
        rw [hprecedes.changedAt_eq hversion.symm]
    _ ≤ olderThan + seconds cfg.wrapUpSeconds :=
        Int.add_le_add_right (changedAt_of_findExpiredWrapUps hfind hx) _
    _ ≤ now := Int.add_le_of_le_sub_right (hage hW)
    _ = c₁.now := (now_of_utcNow hnow).symm
    _ ≤ m.choice.now := hclock

/-! ## It ends once -/

/-- The agent has left the stay that has this version, for good. -/
def PastWrapUp (agentId : String) (version : Nat) (s : State) : Prop :=
  ∃ a, s.agents.get agentId = some a ∧ version < a.stateVersion

theorem inWrapUp_exec {agentId : String} {version : Nat} (i : Nat) (o : Op) (c : Choice)
    (s : State) (h : InWrapUp agentId version s) :
    InWrapUp agentId version (exec i o c s).2 ∨ PastWrapUp agentId version (exec i o c s).2 := by
  obtain ⟨a, ha, hstate, rfl⟩ := h
  obtain ⟨a', ha', hre⟩ := agent_exec (i := i) (o := o) (c := c) ha
  rcases turns_of_rewritten hre with ⟨hsame, hversion, -⟩ | ⟨hversion, -⟩
  · exact .inl ⟨a', ha', hsame.trans hstate, hversion⟩
  · exact .inr ⟨a', ha', by omega⟩

theorem wrapUp_ends_once (h : Reachable P (Blank WrapUpsUnreserved) w) {agentId : String}
    {version : Nat}
    (hseen : ∃ m ∈ w.st.2, InWrapUp agentId version m.before ∨ InWrapUp agentId version m.after) :
    w.st.2.countP (fun m => decide (m.Ends (InWrapUp agentId version)))
      = if InWrapUp agentId version w.st.1 then 0 else 1 := by
  have hgone : ∀ s, PastWrapUp agentId version s → ¬InWrapUp agentId version s := by
    rintro s ⟨a, ha, hlt⟩ ⟨a', ha', -, rfl⟩
    obtain rfl : a = a' := Option.some.inj (ha.symm.trans ha')
    exact Nat.lt_irrefl _ hlt
  refine h.ends_once hgone inWrapUp_exec ?_ (fun _ _ => ⟨id, id⟩) hseen
  · rintro i o c s ⟨a, ha, hlt⟩
    obtain ⟨a', ha', hprecedes⟩ := agentsPrecede_exec i o c s agentId a ha
    exact ⟨a', ha', Nat.lt_of_lt_of_le hlt hprecedes.version_le⟩

/--
**A wrap-up takes its time, and ends once.** In every run of any tasks, in any interleaving, with
failures, cancellations and crashes anywhere and a clock that does not go back: who goes from
WRAP_UP to AVAILABLE does so the wrap-up time after the `state_changed_at` with which they entered
it, at the earliest, whether they entered it in the run or were there before; and every stay that
has been seen is either not over, and then nothing has ended it, or exactly one operation has.
-/
theorem wrapUp_respected
    (h : Reachable ((Policy.any (dialer cfg)).clocked Choice.now) (Blank WrapUpsUnreserved) w) :
    (w.st.2.Pairwise fun later earlier => ∀ agentId a b, EntersWrapUp earlier agentId a →
        LeavesWrapUp later agentId b → b.stateVersion = a.stateVersion →
        a.stateChangedAt + seconds cfg.wrapUpSeconds ≤ later.choice.now)
      ∧ (0 ≤ cfg.wrapUpSeconds → ∀ m ∈ w.st.2, ∀ agentId a, LeavesWrapUp m agentId a →
          a.stateChangedAt + seconds cfg.wrapUpSeconds ≤ m.choice.now)
      ∧ ∀ agentId version, (∃ m ∈ w.st.2, InWrapUp agentId version m.before
            ∨ InWrapUp agentId version m.after) →
          w.st.2.countP (fun m => decide (m.Ends (InWrapUp agentId version)))
            = if InWrapUp agentId version w.st.1 then 0 else 1 := by
  refine ⟨?_, fun hW m hm _ _ => waited_of_leaves hW h hm, fun _ _ => wrapUp_ends_once h⟩
  refine List.pairwise_iff_forall_sublist.mpr fun {later earlier} hsub agentId a b henters
    hleaves hversion => ?_
  have hpairs := List.pairwise_pair.mp ((agents_along h).2.sublist hsub)
  have hclock := List.pairwise_pair.mp (h.clock.sublist hsub)
  by_cases hW : 0 ≤ cfg.wrapUpSeconds
  · obtain ⟨b₁, hb₁, hprecedes⟩ := hpairs agentId a henters.1
    obtain rfl : b = b₁ := Option.some.inj (hleaves.1.symm.trans hb₁)
    rw [← hprecedes.changedAt_eq hversion]
    exact waited_of_leaves hW h (hsub.subset List.mem_cons_self) hleaves
  · -- no time to wait for
    have hneg : seconds cfg.wrapUpSeconds ≤ 0 := Int.mul_nonpos_of_nonneg_of_nonpos (by decide)
      (Int.le_of_lt (Int.not_le.mp hW))
    calc a.stateChangedAt + seconds cfg.wrapUpSeconds
        ≤ a.stateChangedAt := Int.add_le_of_le_sub_left (by rwa [Int.sub_self])
      _ = earlier.choice.now := changedAt_of_enters henters
      _ ≤ later.choice.now := hclock

end

/-- A call that is answered and ends at 2 s, and the wrap-up timer of its campaign 10 s later. -/
def wrappedUp : List (Label (dialer {})) :=
  oneDial
    ++ .spawn (.processEvent (eventOf "ANSWERED")) :: List.replicate 6 (.run 1 { now := 1000 })
    ++ .spawn (.processEvent (eventOf "COMPLETED")) :: List.replicate 7 (.run 2 { now := 2000 })
    ++ .spawn (.releaseFinishedWrapUps "campaign") :: List.replicate 3 (.run 3 { now := 12000 })

/-- Such a run, in which an agent is in WRAP_UP for exactly the wrap-up time. -/
theorem wrapUp_respected_tenSeconds :
    ∃ w, Reachable ((Policy.any (dialer {})).clocked Choice.now) (Blank WrapUpsUnreserved) w
      ∧ (w.st.1.agents.get "agent").any (fun a => a.state == .available && a.wrapUpTimeMs == 10000)
      ∧ 0 ≤ ({} : Settings).wrapUpSeconds
      ∧ ∀ m ∈ w.st.2, ∀ agentId a, LeavesWrapUp m agentId a →
          a.stateChangedAt + seconds 10 ≤ m.choice.now := by
  have hfree : WrapUpsUnreserved oneAgent := by
    intro k a ha hstate
    obtain rfl := List.mem_singleton.mp (Collection.mem_of_get ha)
    cases hstate
  obtain ⟨w, hw, hend⟩ := Reachable.of_play ((Policy.any (dialer {})).clocked Choice.now)
    (show Blank (M := dialer {}) WrapUpsUnreserved (oneAgent, []) from ⟨hfree, rfl⟩)
    (wrappedUp.map Label.recorded)
    (fun w => (w.st.1.agents.get "agent").any fun a => a.state == .available
      && a.wrapUpTimeMs == 10000)
    (by decide +kernel)
  exact ⟨w, hw, hend, by decide, (wrapUp_respected hw).2.1 (by decide)⟩

end SmartDialer
