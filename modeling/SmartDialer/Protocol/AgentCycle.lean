import SmartDialer.Protocol.Lifecycle
import SmartDialer.Protocol.Repertoire

/-!
# The life of an agent

Four operations change an agent's state, and each is guarded in a way of its own: by the state,
by the worker and the sources the table allows, by state and version, by version and lease. Two
of them never ask the table. That every change is one the table has, for the actor that makes
it, follows from what the filters leave of an agent and from what the programs pass: the
candidate of a lease that is taken away was found in a state recovery may release.

Whatever changes the state also raises the version, by one, and nothing else does. So an update
that insists on the version somebody has read finds the agent in the state that was read, and
nothing has happened to it in between.
-/

namespace SmartDialer

open Store Conc

/-! ## What an operation makes of an agent -/

/-- The operation takes the agent to the state. -/
def Op.Turns (a : Agent) (target : AgentState) : Op → Prop
  | .tryReserveAgent .. => a.state = .available ∧ target = .reserved
  | .releaseAgent _ workerId t actor _ =>
      a.reservedBy = some workerId ∧ a.state ∈ allowedSources t actor ∧ target = t
  | .transitionAgent agentId fromState t version =>
      a.id = agentId ∧ a.state = fromState ∧ a.stateVersion = version ∧ target = t
  | .releaseExpiredAgentLease agent now =>
      a.id = agent.id ∧ a.state = agent.state ∧ a.stateVersion = agent.stateVersion
        ∧ AgentRepository.leaseExpired now a.leaseExpiresAt = true ∧ target = .available
  | _ => False

/-- The version an operation insists on, and whose it is. -/
def Op.expects : Op → Option (String × Nat)
  | .transitionAgent agentId _ _ version => some (agentId, version)
  | .releaseExpiredAgentLease agent _ => some (agent.id, agent.stateVersion)
  | _ => none

/-- What becomes of an agent over time. -/
structure Agent.Precedes (a a' : Agent) : Prop where
  version_le : a.stateVersion ≤ a'.stateVersion
  state_eq : a'.stateVersion = a.stateVersion → a'.state = a.state
  changedAt_eq : a'.stateVersion = a.stateVersion → a'.stateChangedAt = a.stateChangedAt

theorem Agent.Precedes.refl (a : Agent) : a.Precedes a := ⟨le_rfl, fun _ => rfl, fun _ => rfl⟩

theorem Agent.Precedes.trans {a a' a'' : Agent} (h : a.Precedes a') (h' : a'.Precedes a'') :
    a.Precedes a'' where
  version_le := h.version_le.trans h'.version_le
  state_eq hv := by
    have hle := h.version_le
    have hle' := h'.version_le
    exact (h'.state_eq (by omega)).trans (h.state_eq (by omega))
  changedAt_eq hv := by
    have hle := h.version_le
    have hle' := h'.version_le
    exact (h'.changedAt_eq (by omega)).trans (h.changedAt_eq (by omega))

section

variable {i : Nat} {o : Op} {c : Choice} {s : State} {a a' : Agent}

/-- **One write** leaves state and version as they are, or turns the agent, with a new version. -/
theorem turns_of_rewritten (h : Rewritten (o.agentWrite c) a a') :
    (a'.state = a.state ∧ a'.stateVersion = a.stateVersion
        ∧ a'.stateChangedAt = a.stateChangedAt)
      ∨ a'.stateVersion = a.stateVersion + 1 ∧ o.Turns a a'.state := by
  cases h with
  | same => exact .inl ⟨rfl, rfl, rfl⟩
  | written w hw hk hp =>
      cases o, w, hw using Op.agentWrite_cases with
      | tryReserveAgent campaignId agentId workerId ttlSeconds =>
          exact .inr ⟨rfl, (AgentRepository.reservable_iff.mp hp).2, rfl⟩
      | releaseAgent agentId workerId target actor shielded =>
          obtain ⟨hworker, hsource⟩ := AgentRepository.releasable_iff.mp hp
          exact .inr ⟨rfl, hworker, hsource, rfl⟩
      | transitionAgent agentId fromState toState expectedVersion =>
          obtain ⟨hstate, hversion⟩ := AgentRepository.movable_iff.mp hp
          exact .inr ⟨rfl, hk, hstate, hversion, rfl⟩
      | bindCall agentId workerId callId => exact .inl ⟨rfl, rfl, rfl⟩
      | releaseExpiredAgentLease agent now =>
          obtain ⟨hstate, hversion, hexpired⟩ := AgentRepository.leaseUnchanged_iff.mp hp
          exact .inr ⟨rfl, hk, hstate, hversion, hexpired, rfl⟩
      | heartbeat agentId => exact .inl ⟨rfl, rfl, rfl⟩

theorem precedes_of_rewritten (h : Rewritten (o.agentWrite c) a a') : a.Precedes a' := by
  rcases turns_of_rewritten h with ⟨hstate, hversion, hchanged⟩ | ⟨hversion, -⟩
  · exact ⟨hversion.ge, fun _ => hstate, fun _ => hchanged⟩
  · exact ⟨by omega, fun hv => by omega, fun hv => by omega⟩

/-! ## Who turns whom -/

theorem mem_allowedSources {s t : AgentState} {actor : TransitionActor} :
    s ∈ allowedSources t actor ↔ s.canTransition t = true ∧ isActorAllowed s t actor = true := by
  rw [allowedSources, List.mem_filter, Bool.and_eq_true]
  refine and_iff_right ?_
  cases s <;> decide

/-- **Every turn is in the table**, for the actor, if what it was told of leases was true. -/
theorem Op.IssuedBy.edge {cfg : Settings} {actor : TransitionActor} {past : List (Reply sig)}
    {target : AgentState} (ho : o.IssuedBy cfg actor past)
    (hfound : ∀ agent now, FoundExpired past agent now → agent.state ∈ leaseSources)
    (h : o.Turns a target) :
    target ∈ agentTransitions a.state ∧ actor ∈ transitionActors a.state target := by
  rw [← List.contains_iff_mem, ← List.contains_iff_mem]
  change a.state.canTransition target = true ∧ isActorAllowed a.state target actor = true
  cases o with
  | tryReserveAgent _ _ _ _ =>
      obtain ⟨hstate, rfl⟩ := h
      obtain ⟨rfl, -⟩ := ho
      rw [hstate]
      exact ⟨rfl, rfl⟩
  | releaseAgent _ _ t releaser _ =>
      obtain ⟨-, hsource, rfl⟩ := h
      obtain ⟨rfl, -⟩ := ho
      exact mem_allowedSources.mp hsource
  | transitionAgent _ fromState t _ =>
      obtain ⟨-, rfl, -, rfl⟩ := h
      exact validateTransition_ok ho.1
  | releaseExpiredAgentLease agent now =>
      obtain ⟨-, hstate, -, -, rfl⟩ := h
      obtain ⟨rfl, hpast⟩ := ho
      rw [hstate]
      exact mem_allowedSources.mp (hfound agent now hpast)
  | _ => exact h.elim

/-! ## What an answer shows of the agents -/

/-- The agents in an answer. -/
def agentsIn (o : Op) (r : Except Exn (Ans o)) : List Agent :=
  match o, r with
  | .tryReserveAgent .., .ok answer => answer.toList
  | .releaseAgent .., .ok answer => answer.toList
  | .transitionAgent .., .ok answer => answer.toList
  | .bindCall .., .ok answer => answer.toList
  | .releaseExpiredAgentLease .., .ok answer => answer.toList
  | .findAgentById .., .ok answer => answer.toList
  | .findClaimableAgents .., .ok agents => agents
  | .findExpiredAgentLeases .., .ok agents => agents
  | .findHeartbeatExpired .., .ok agents => agents
  | .findExpiredWrapUps .., .ok agents => agents
  | _, _ => []

theorem stored_of_update {agents : Collection Agent} {k : String} {p : Agent → Bool}
    {u : Update Agent} {x : Agent} (h : x ∈ (agents.findOneAndUpdate k p u).1.toList) :
    (agents.findOneAndUpdate k p u).2.get x.id = some x := by
  obtain ⟨a, -, -, -, hget⟩ := Collection.get_of_findOneAndUpdate_some (Option.mem_toList.mp h)
  obtain rfl : x.id = k := Collection.key_of_get hget
  exact hget

theorem stored_of_search {agents : Collection Agent} {p : Agent → Bool} {n : Int} {x : Agent}
    (h : x ∈ Collection.limit n (agents.find p)) : agents.get x.id = some x ∧ p x = true :=
  Collection.mem_find.mp (Collection.mem_of_mem_limit h)

theorem stored_of_sorted_search {agents : Collection Agent} {p : Agent → Bool} {n : Int}
    {x : Agent}
    (h : x ∈ Collection.limit n (Collection.sortOn Agent.stateChangedAt (agents.find p))) :
    agents.get x.id = some x ∧ p x = true :=
  Collection.mem_find.mp (Collection.mem_sortOn.mp (Collection.mem_of_mem_limit h))

/-- Who is in an answer is on file just so. -/
theorem stored_of_mem_agentsIn {x : Agent} (h : x ∈ agentsIn o (exec i o c s).1) :
    (exec i o c s).2.agents.get x.id = some x := by
  cases hr : (exec i o c s).1 with
  | error e =>
      rw [hr] at h
      cases o <;> cases h
  | ok answer =>
      rw [hr] at h
      obtain ⟨heff, hstate⟩ := exec_ok hr
      rw [hstate]
      cases o with
      | tryReserveAgent _ _ _ _ | releaseAgent _ _ _ _ _ | transitionAgent _ _ _ _
      | bindCall _ _ _ | releaseExpiredAgentLease _ _ =>
          obtain rfl := Except.ok.inj heff
          exact stored_of_update h
      | findAgentById agentId =>
          obtain rfl := Except.ok.inj heff
          have hget : s.agents.get agentId = some x := Option.mem_toList.mp h
          obtain rfl : x.id = agentId := Collection.key_of_get hget
          exact hget
      | findClaimableAgents campaignId needed =>
          obtain rfl := Except.ok.inj heff
          change x ∈ AgentRepository.findClaimableAgents campaignId needed s.agents at h
          rw [AgentRepository.findClaimableAgents] at h
          split at h
          · cases h
          · exact (stored_of_sorted_search h).1
      | findExpiredAgentLeases _ _ | findHeartbeatExpired _ _ =>
          obtain rfl := Except.ok.inj heff
          exact (stored_of_search h).1
      | findExpiredWrapUps _ _ _ =>
          obtain rfl := Except.ok.inj heff
          exact (stored_of_sorted_search h).1
      | _ => cases h

/-- Whose lease was found expired was in a state recovery may release. -/
theorem state_of_findExpiredAgentLeases {now : Time} {limit : Int} {agents : List Agent}
    {x : Agent} (h : (exec i (.findExpiredAgentLeases now limit) c s).1 = .ok agents)
    (hx : x ∈ agents) : x.state ∈ leaseSources := by
  obtain ⟨heff, -⟩ := exec_ok h
  obtain rfl := Except.ok.inj heff
  exact (AgentRepository.leaseReclaimable_iff.mp (stored_of_search hx).2).1

end

/-! ## Every run -/

section

variable {cfg : Settings} {P : Policy (dialer cfg).recorded} {Init : State → Prop}
  {w : World (dialer cfg).recorded} {i : Nat} {t : Task}

/-- Between two states of a run, every agent has gone on. -/
def AgentsPrecede (s s' : State) : Prop :=
  ∀ k a, s.agents.get k = some a → ∃ a', s'.agents.get k = some a' ∧ a.Precedes a'

theorem agentsPrecede_exec (i : Nat) (o : Op) (c : Choice) (s : State) :
    AgentsPrecede s (exec i o c s).2 := by
  intro k a ha
  obtain ⟨a', ha', hre⟩ := agent_exec (i := i) (o := o) (c := c) ha
  exact ⟨a', ha', precedes_of_rewritten hre⟩

theorem agentsPrecede_refl (s : State) : AgentsPrecede s s := fun _ a ha => ⟨a, ha, .refl a⟩

theorem agentsPrecede_trans (s s' s'' : State) (h : AgentsPrecede s s')
    (h' : AgentsPrecede s' s'') : AgentsPrecede s s'' := by
  intro k a ha
  obtain ⟨a', ha', hle⟩ := h k a ha
  obtain ⟨a'', ha'', hle'⟩ := h' k a' ha'
  exact ⟨a'', ha'', hle.trans hle'⟩

theorem agents_along (h : Reachable P (Blank Init) w) :
    (∀ m ∈ w.st.2, AgentsPrecede m.after w.st.1)
      ∧ w.st.2.Pairwise fun later earlier => AgentsPrecede earlier.after later.before :=
  h.along agentsPrecede_refl agentsPrecede_trans agentsPrecede_exec
    fun _ s => agentsPrecede_refl s

/-- A change by a task is a turn, and in the table for whom the task acts as. -/
theorem turn_of_task (h : Started P (Blank Init) i t w) {m : Moment (dialer cfg)}
    {past : List (Moment (dialer cfg))} (hm : m :: past <:+ w.st.2) (hi : m.process = i)
    {k : String} {a a' : Agent} (ha : m.before.agents.get k = some a)
    (ha' : m.after.agents.get k = some a') (hne : a'.state ≠ a.state) :
    m.op.Turns a a'.state ∧ a'.stateVersion = a.stateVersion + 1
      ∧ a'.state ∈ agentTransitions a.state
      ∧ t.actor (m.op :: (replies i past).map Reply.op) ∈ transitionActors a.state a'.state := by
  have hissued := h.justified t.program_follows hm hi
  obtain ⟨a₁, ha₁, hre⟩ := agent_of_exec ha'
  obtain rfl : a = a₁ := Option.some.inj (ha.symm.trans ha₁)
  rcases turns_of_rewritten hre with ⟨hstate, -, -⟩ | ⟨hversion, hturns⟩
  · exact absurd hstate hne
  · refine ⟨hturns, hversion, Op.IssuedBy.edge hissued (fun agent now hfound => ?_) hturns⟩
    obtain ⟨limit, agents, hreply, hagent⟩ := hfound
    obtain ⟨c, s, -, hanswer⟩ := exists_of_mem_replies hreply
    exact state_of_findExpiredAgentLeases hanswer hagent

/-- A write that insists on a version has found it. -/
theorem version_of_expects {o : Op} {c : Choice} {s : State} {k : String} {v : Nat} {a : Agent}
    (hexpects : o.expects = some (k, v)) (ha : s.agents.get k = some a)
    (hwrote : (exec i o c s).2.agents.get k ≠ s.agents.get k) : a.stateVersion = v := by
  obtain ⟨a', ha', hre⟩ := agent_exec (i := i) (o := o) (c := c) ha
  cases hre with
  | same => exact absurd (ha'.trans ha.symm) hwrote
  | written w hw hk hp =>
      cases o, w, hw using Op.agentWrite_cases with
      | transitionAgent agentId fromState toState expectedVersion =>
          obtain ⟨-, rfl⟩ := Prod.mk.inj (Option.some.inj hexpects)
          exact (AgentRepository.movable_iff.mp hp).2
      | releaseExpiredAgentLease agent now =>
          obtain ⟨-, rfl⟩ := Prod.mk.inj (Option.some.inj hexpects)
          exact (AgentRepository.leaseUnchanged_iff.mp hp).2.1
      | tryReserveAgent _ _ _ _ => cases hexpects
      | releaseAgent _ _ _ _ _ => cases hexpects
      | bindCall _ _ _ => cases hexpects
      | heartbeat _ => cases hexpects

/-- Between a read and a write that insists on what was read, the agent has not moved. -/
theorem unmoved_between (h : Reachable P (Blank Init) w) {later m earlier : Moment (dialer cfg)}
    (hsub : [later, m, earlier].Sublist w.st.2) {x : Agent}
    (hread : x ∈ agentsIn earlier.op earlier.answer)
    (hexpects : later.op.expects = some (x.id, x.stateVersion))
    (hwrote : later.after.agents.get x.id ≠ later.before.agents.get x.id) :
    ∃ a a', m.before.agents.get x.id = some a ∧ m.after.agents.get x.id = some a'
      ∧ a.state = x.state ∧ a'.state = x.state := by
  have hpairs := (agents_along h).2.sublist hsub
  rw [List.pairwise_cons, List.pairwise_cons] at hpairs
  obtain ⟨hlater, hm, -⟩ := hpairs
  have hx : earlier.after.agents.get x.id = some x := stored_of_mem_agentsIn hread
  obtain ⟨a, ha, hxa⟩ := hm earlier (List.mem_singleton_self _) x.id x hx
  obtain ⟨a', ha', haa'⟩ := agentsPrecede_exec m.process m.op m.choice m.before x.id a ha
  obtain ⟨b, hb, ha'b⟩ := hlater m List.mem_cons_self x.id a' ha'
  -- versions only go up, and the write has found the one that was read
  have hv : b.stateVersion = x.stateVersion := version_of_expects hexpects hb hwrote
  have h₁ := hxa.version_le
  have h₂ := haa'.version_le
  have h₃ := ha'b.version_le
  have hstate : a.state = x.state := hxa.state_eq (by omega)
  exact ⟨a, a', ha, ha', hstate, (haa'.state_eq (by omega)).trans hstate⟩

/--
**The life cycle of agents.** In every run of any tasks, in any interleaving, with failures,
cancellations and crashes anywhere: whenever a task changes an agent's state, the change is made
by one of the four operations, raises the version by one, and is an edge of the transition table
that names whom the task acts as; and whenever an update that insists on a version some answer
has shown finds the agent, the agent's state has not changed since that answer.
-/
theorem agent_life_cycle (h : Started P (Blank Init) i t w) :
    (∀ m past, m :: past <:+ w.st.2 → m.process = i → ∀ k a a',
        m.before.agents.get k = some a → m.after.agents.get k = some a' → a'.state ≠ a.state →
        m.op.Turns a a'.state ∧ a'.stateVersion = a.stateVersion + 1
          ∧ a'.state ∈ agentTransitions a.state
          ∧ t.actor (m.op :: (replies i past).map Reply.op)
            ∈ transitionActors a.state a'.state)
      ∧ ∀ later m earlier, [later, m, earlier].Sublist w.st.2 →
          ∀ x ∈ agentsIn earlier.op earlier.answer,
          later.op.expects = some (x.id, x.stateVersion) →
          later.after.agents.get x.id ≠ later.before.agents.get x.id →
          ∃ a a', m.before.agents.get x.id = some a ∧ m.after.agents.get x.id = some a'
            ∧ a.state = x.state ∧ a'.state = x.state :=
  ⟨fun _ _ hm hi _ _ _ ha ha' hne => turn_of_task h hm hi ha ha' hne,
    fun _ _ _ hsub _ hread hexpects hwrote =>
      unmoved_between h.reachable hsub hread hexpects hwrote⟩

end

/-- A worker that has reserved an agent, and dies. -/
def abandonedAgent : List (Label (dialer {})) := [dialOnce, .run 0 {}, .run 0 {}, .crash 0]

/-- Such a run, in which recovery releases an agent whose worker has died. -/
theorem agent_life_cycle_recovered :
    ∃ w, Started (Policy.any (dialer {})).recorded (Blank (· = oneAgent)) 1 .runSweeps w
      ∧ (w.st.1.agents.get "agent").any (fun a => a.state == .available && a.stateVersion == 2)
      ∧ ∀ m past, m :: past <:+ w.st.2 → m.process = 1 → ∀ k a a',
          m.before.agents.get k = some a → m.after.agents.get k = some a' →
          a'.state ≠ a.state → a'.stateVersion = a.stateVersion + 1
            ∧ .recovery ∈ transitionActors a.state a'.state := by
  obtain ⟨w, hw, hend⟩ := Started.of_play (Policy.any (dialer {})).recorded
    (show Blank (M := dialer {}) (· = oneAgent) (oneAgent, []) from ⟨rfl, rfl⟩)
    (abandonedAgent.map Label.recorded) (List.replicate 3 (.run 1 { now := 60000 })) 1 .runSweeps
    trivial
    (fun w => (w.st.1.agents.get "agent").any fun a => a.state == .available && a.stateVersion == 2)
    (by decide +kernel)
  refine ⟨w, hw, hend, fun m past hm hi k a a' ha ha' hne => ?_⟩
  obtain ⟨-, hversion, -, hactor⟩ := (agent_life_cycle hw).1 m past hm hi k a a' ha ha' hne
  exact ⟨hversion, hactor⟩

end SmartDialer
