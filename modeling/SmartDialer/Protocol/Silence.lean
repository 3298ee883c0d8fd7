import SmartDialer.Protocol.AgentSweeps

/-!
# Logging silent agents out

The sweep of silent agents works off a list of agents that had not been heard of for some
time when it was drawn up. Its writes do not ask again. The one that takes an agent OFFLINE
asks for the version the agent had, but a heartbeat leaves the version alone; the one that
cancels the agent's call does not ask for anything of the agent.

In the runs in which no agent is heard of while it is on such a list, with its turn to come,
both find it silent.
-/

namespace SmartDialer

open Store Conc

/-! ## What the sweep does to whom -/

/-- The agent has not been heard of since that time. -/
def Unheard (olderThan : Time) (agentId : String) (s : State) : Prop :=
  ∃ a ∈ s.agents.get agentId, a.lastHeartbeatAt.any (· < olderThan) = true

instance (olderThan : Time) (agentId : String) (s : State) :
    Decidable (Unheard olderThan agentId s) :=
  inferInstanceAs (Decidable (∃ a ∈ _, _))

/-- The sweep's writes: it takes an agent OFFLINE, or cancels a call because one disappeared. -/
def Op.LogsOut : Op → Prop
  | .transitionAgent _ _ toState _ => toState = .offline
  | .transitionCall _ targetState failureReason =>
      targetState = .cancelled ∧ failureReason = some "agent_disappeared"
  | _ => False

/-- The agent that is taken OFFLINE, or whose call is cancelled. -/
def Op.LogsOutOf (x : Agent) : Op → Prop
  | .transitionAgent agentId _ _ _ => x.id = agentId
  | .transitionCall callId _ _ => x.currentCallId = some callId
  | _ => False

instance (o : Op) : Decidable o.LogsOut := by
  unfold Op.LogsOut
  rcases o <;> infer_instance

instance (x : Agent) (o : Op) : Decidable (o.LogsOutOf x) := by
  unfold Op.LogsOutOf
  rcases o <;> infer_instance

/-- The cutoff of a look-up of silent agents by process `i`, and whom it reported. -/
def Entry.silentAgents (i : Nat) : Entry → Option (Time × List Agent)
  | .answered j (.findHeartbeatExpired olderThan _) (.ok agents) =>
      if j = i then some (olderThan, agents) else none
  | _ => none

/-- The last such look-up. -/
def silentAgents (i : Nat) (log : List Entry) : Option (Time × List Agent) :=
  log.findSome? (Entry.silentAgents i)

/-- The sweep of process `i` does `o` to an agent it reported, which has not been heard of. -/
def Heeds (i : Nat) (o : Op) (s : State) : Prop :=
  ∃ found ∈ silentAgents i s.log, ∃ x ∈ found.2, o.LogsOutOf x ∧ Unheard found.1 x.id s

instance (i : Nat) (o : Op) (s : State) : Decidable (Heeds i o s) :=
  inferInstanceAs (Decidable (∃ found ∈ silentAgents i s.log, ∃ x ∈ found.2, _ ∧ _))

/-! ## The runs -/

/-- An agent is on the list of silent agents, for a heartbeat at `t` to take it off, and its
turn is to come. -/
def Op.awaitsTurn (agentId : String) (t : Time) : (o : Op) → Except Exn (Ans o) → Option Bool
  | .findHeartbeatExpired olderThan _, .ok agents =>
      some (agents.any (fun x => x.id == agentId) && decide (olderThan ≤ t))
  | .transitionAgent agentId' _ _ _, .ok _ => if agentId' = agentId then some false else none
  | .findExpiredAgentLeases _ _, .ok _ => some false
  | .findExpiredBorrowerLeases _ _, .ok _ => some false
  | .findStaleCalls _ _, .ok _ => some false
  | .findExpiredWrapUps _ _ _, .ok _ => some false
  | _, .error _ => some false
  | _, _ => none

/-- No sweep that would log the agent out for want of a heartbeat at `t` has it on its list. -/
def OffLists (agentId : String) (t : Time) (s : State) : Prop :=
  ∀ e ∈ s.log, engaged (Op.awaitsTurn agentId t) e.process s.log = false

instance (agentId : String) (t : Time) (s : State) : Decidable (OffLists agentId t s) :=
  inferInstanceAs (Decidable (∀ e ∈ s.log, _))

/-- No agent is heard of while it is on a list of silent agents. -/
def Op.BeatsInTime (ch : Choice) (s : State) : Op → Prop
  | .heartbeat agentId => ch.performs (.heartbeat agentId) = true → OffLists agentId ch.now s
  | _ => True

instance (ch : Choice) (s : State) (o : Op) : Decidable (o.BeatsInTime ch s) := by
  unfold Op.BeatsInTime
  rcases o <;> infer_instance

/--
The runs in which no heartbeat of an agent takes effect, with a time that is not before the
cutoff, between the look-up of a sweep that reports the agent and the sweep's last write to it.
-/
def beatingInTime (cfg : Settings) : Policy (dialer cfg) where
  task _ := True
  run _ o ch s := o.BeatsInTime ch s

instance (cfg : Settings) : (beatingInTime cfg).Checkable where
  task _ := .isTrue trivial
  run _ o ch s := inferInstanceAs (Decidable (o.BeatsInTime ch s))

/-! ## What one operation does -/

section

variable {i : Nat} {o : Op} {ch : Choice} {s : State}

theorem silentAgents_exec_other {j : Nat} (hj : j ≠ i) :
    silentAgents j (exec i o ch s).2.log = silentAgents j s.log := by
  refine findSome?_exec ?_
  cases o with
  | findHeartbeatExpired olderThan limit =>
      cases (exec i (.findHeartbeatExpired olderThan limit) ch s).1 with
      | ok agents => exact if_neg (Ne.symm hj)
      | error e => rfl
  | _ => rfl

/-- No agent is lost, and one that was heard of was on no list. -/
def AgentsHeard (s s' : State) : Prop :=
  ∀ k a, s.agents.get k = some a → ∃ a', s'.agents.get k = some a'
    ∧ (a'.lastHeartbeatAt = a.lastHeartbeatAt
      ∨ ∃ t, a'.lastHeartbeatAt = some t ∧ OffLists k t s)

theorem agentsHeard_of_eq {s s' : State} (h : s'.agents = s.agents) : AgentsHeard s s' :=
  fun _ a ha => ⟨a, h ▸ ha, .inl rfl⟩

/-- A release does not count as being heard of. -/
theorem release_lastHeartbeatAt (now : Time) (sources : List AgentState) (target : AgentState)
    (a : Agent) :
    ((AgentRepository.release now sources target).apply a).lastHeartbeatAt
      = a.lastHeartbeatAt := by
  simp only [AgentRepository.release, AgentRepository.conditionalAccounting]
  split
  · exact AgentRepository.timeAccountingUpdates_lastHeartbeatAt ..
  · rfl

/-- An agent is heard of by its heartbeats. -/
theorem agentsHeard_exec (hc : o.BeatsInTime ch s) : AgentsHeard s (exec i o ch s).2 := by
  by_cases hperf : ch.performs o = true
  · intro k a ha
    obtain ⟨a', ha', hre⟩ := agent_exec (i := i) (o := o) (c := ch) ha
    refine ⟨a', ha', ?_⟩
    have hk : a.id = k := Collection.key_of_get ha
    cases hre with
    | same => exact .inl rfl
    | written w hw hk' hp =>
        cases o, w, hw using Op.agentWrite_cases with
        | tryReserveAgent _ _ _ _ => exact .inl rfl
        | releaseAgent _ _ target actor _ => exact .inl (release_lastHeartbeatAt ..)
        | transitionAgent _ _ _ _ =>
            exact .inl (AgentRepository.timeAccountingUpdates_lastHeartbeatAt ..)
        | bindCall _ _ _ => exact .inl rfl
        | releaseExpiredAgentLease _ _ => exact .inl rfl
        | heartbeat agentId =>
            have hid : a.id = agentId := hk'
            exact .inr ⟨ch.now, rfl, hk ▸ hid ▸ hc hperf⟩
  · rw [exec_of_not_performs (by simpa using hperf)]
    exact agentsHeard_of_eq rfl

end

/-! ## The logic -/

section

variable {cfg : Settings} {i : Nat}

/-- Agents are heard of when no list has them, and lists are their owners' business. -/
def listening (cfg : Settings) : Logic (beatingInTime cfg) Unit where
  Inv _ := True
  Guar i s s' := AgentsHeard s.1 s'.1 ∧ ∀ j, j ≠ i →
    silentAgents j s'.1.log = silentAgents j s.1.log
      ∧ ∀ k t, engaged (Op.awaitsTurn k t) j s'.1.log = engaged (Op.awaitsTurn k t) j s.1.log

theorem listening_guar {o : Op} {ch : Choice} {s : State × Unit}
    (hc : (beatingInTime cfg).run i o ch s.1) :
    (listening cfg).Guar i s ((exec i o ch s.1).2, ()) :=
  ⟨agentsHeard_exec hc, fun _ hj =>
    ⟨silentAgents_exec_other hj, fun _ _ => engaged_exec_other hj o ch s.1⟩⟩

theorem listening_verified : (listening cfg).Verified fun _ => True where
  init _ _ := ⟨(), trivial⟩
  task t _ i s _ := by
    refine wp_all_anyhow (R := fun _ => True) (Prog.all_of_forall (fun _ => trivial) _) ?_
    intro o _ s _ _ ch hc
    exact ⟨(), trivial, listening_guar hc, trivial⟩
  crash i s _ := ⟨(), trivial, agentsHeard_of_eq rfl,
    fun _ hj => ⟨rfl, fun _ _ => engaged_crash_other hj s.1⟩⟩

/-- The logic in which process `i` also promises to log out nobody it could have heard of. -/
def heeding (i : Nat) (cfg : Settings) : Logic (beatingInTime cfg) Unit :=
  (listening cfg).promising i fun s s' => ∀ o r, s'.1.log = .answered i o r :: s.1.log →
    o.LogsOut → Heeds i o s.1

/-- The agent is on the list, with its turn to come, and has not been heard of. -/
structure OnSilentList (i : Nat) (olderThan : Time) (x : Agent) (s : State × Unit) : Prop where
  turn : ∀ t, olderThan ≤ t → engaged (Op.awaitsTurn x.id t) i s.1.log = true
  unheard : Unheard olderThan x.id s.1

/-- While its turn is to come, an agent is not heard of. -/
theorem OnSilentList.step {olderThan : Time} {x : Agent} {s s' : State × Unit}
    (h : OnSilentList i olderThan x s) (hheard : AgentsHeard s.1 s'.1)
    (hsame : ∀ t, engaged (Op.awaitsTurn x.id t) i s'.1.log
      = engaged (Op.awaitsTurn x.id t) i s.1.log) : OnSilentList i olderThan x s' := by
  refine ⟨fun t ht => (hsame t).trans (h.turn t ht), ?_⟩
  obtain ⟨a, ha, hold⟩ := h.unheard
  obtain ⟨a', ha', hcase⟩ := hheard _ _ ha
  refine ⟨a', ha', ?_⟩
  rcases hcase with heq | ⟨t, heq, hoff⟩
  · rw [heq]
    exact hold
  · -- a heartbeat that is not before the cutoff would have found it on the list
    by_contra hlate
    rw [heq, Option.any_some, decide_eq_true_eq, not_lt] at hlate
    have hturn := h.turn t hlate
    obtain ⟨e, he, rfl⟩ := mem_of_engaged hturn
    rw [hoff e he] at hturn
    cases hturn

/-- The sweep reported `agents`, and the turn of `rest` is to come. -/
structure Remaining (i : Nat) (olderThan : Time) (agents rest : List Agent) (s : State × Unit) :
    Prop where
  last : silentAgents i s.1.log = some (olderThan, agents)
  reported : ∀ x ∈ rest, x ∈ agents
  distinct : (rest.map Agent.id).Nodup
  waiting : ∀ x ∈ rest, OnSilentList i olderThan x s

theorem remaining_stable (olderThan : Time) (agents rest : List Agent) :
    (heeding i cfg).Stable i (Remaining i olderThan agents rest) := by
  refine Logic.Stable.promising (Logic.stable_of_step ?_)
  intro j s s' hj hg _ h
  obtain ⟨hlast, hturn⟩ := hg.2 i hj.symm
  exact ⟨hlast.trans h.last, h.reported, h.distinct,
    fun x hx => (h.waiting x hx).step hg.1 fun t => hturn x.id t⟩

/-- The triple of an operation that logs out nobody it could have heard of. -/
theorem heeding_atomic {o : Op} {A : Assertion Unit} {B : Except Exn (Ans o) → Assertion Unit}
    (ho : ∀ s, A s → o.LogsOut → Heeds i o s.1)
    (hB : ∀ ch s, (beatingInTime cfg).run i o ch s.1 → A s →
      B (exec i o ch s.1).1 ((exec i o ch s.1).2, ())) : (heeding i cfg).Atomic i o A B := by
  intro s _ hs ch hc
  refine ⟨(), trivial, ⟨listening_guar hc, fun _ o' r hlog => ?_⟩, hB ch s hc hs⟩
  obtain rfl := answered_exec hlog
  exact ho s hs

/-- An operation that logs nobody out. -/
theorem heeding_idle {o : Op} (ho : ¬o.LogsOut) :
    (heeding i cfg).Atomic i o (fun _ => True) fun _ _ => True :=
  heeding_atomic (fun _ _ h => absurd h ho) fun _ _ _ _ => trivial

/-- An operation of the sweep between its look-up and its end. -/
theorem remaining_atomic {o : Op} {olderThan : Time} {agents rest rest' : List Agent}
    (hlook : ∀ a, Entry.silentAgents i (.answered i o (.ok a)) = none)
    (hsub : rest'.Sublist rest)
    (hturn : ∀ x ∈ rest', ∀ t a, o.awaitsTurn x.id t (.ok a) = none)
    (ho : ∀ s, Remaining i olderThan agents rest s → o.LogsOut → Heeds i o s.1) :
    (heeding i cfg).Atomic i o (Remaining i olderThan agents rest)
      (Returns fun _ => Remaining i olderThan agents rest') := by
  refine heeding_atomic ho fun ch s hc hs => ?_
  generalize hr : (exec i o ch s.1).1 = r
  cases r with
  | error e => trivial
  | ok a =>
      refine ⟨?_, fun x hx => hs.reported x (hsub.subset hx),
        hs.distinct.sublist (hsub.map Agent.id), fun x hx => ?_⟩
      -- not a query for silent agents: the last one stays the last
      · rw [exec_log, hr, silentAgents, List.findSome?_cons, hlook a]
        exact hs.last
      · refine (hs.waiting x (hsub.subset hx)).step (agentsHeard_exec hc) fun t => ?_
        rw [engaged_exec, hr, hturn x hx t a]
        rfl

/-! ## The sweep -/

/-- The call of the next agent is cancelled because that agent is silent. -/
theorem heeding_cancel {olderThan : Time} {agents rest : List Agent} {x : Agent} :
    CancelOutline (heeding i cfg) i x "agent_disappeared"
      (Remaining i olderThan agents (x :: rest)) (Remaining i olderThan agents (x :: rest)) where
  stable_before := remaining_stable _ _ _
  stable_after := remaining_stable _ _ _
  unbound _ _ h := h
  find callId _ := by
    have hkeep : (heeding i cfg).Atomic i (.findCallById callId)
        (Remaining i olderThan agents (x :: rest))
        (Returns fun _ => Remaining i olderThan agents (x :: rest)) :=
      remaining_atomic (fun _ => rfl) (List.Sublist.refl _) (fun _ _ _ _ => rfl)
        fun _ _ h => h.elim
    intro s hinv hs ch hc
    obtain ⟨γ, h₁, h₂, h₃⟩ := hkeep s hinv hs ch hc
    refine ⟨γ, h₁, h₂, ?_⟩
    -- the call found is the one that was bound, and it is cancelled under its own id
    generalize hr : (exec i (.findCallById callId) ch s.1).1 = r at h₃
    cases r with
    | error e => trivial
    | ok found =>
        cases found with
        | none => exact h₃
        | some call =>
            change OnBound _ _ callId (some call) _
            rw [OnBound]
            split
            · exact h₃
            · obtain ⟨heff, -⟩ := exec_ok hr
              exact ⟨Collection.key_of_get (Except.ok.inj heff), h₃⟩
  cancel callId hbound := by
    refine remaining_atomic (fun _ => rfl) (List.Sublist.refl _) (fun _ _ _ _ => rfl) ?_
    intro s hs _
    exact ⟨_, hs.last, x, hs.reported x List.mem_cons_self, hbound,
      (hs.waiting x List.mem_cons_self).unheard⟩
  releaseBorrower call := remaining_atomic (fun _ => rfl) (List.Sublist.refl _)
    (fun _ _ _ _ => rfl) fun _ _ h => h.elim

theorem heeding_logOutAgent {olderThan : Time} {agents rest : List Agent} {x : Agent}
    {s : State × Unit} (hs : Remaining i olderThan agents (x :: rest) s) :
    (heeding i cfg).wp i (RecoveryWorker.logOutAgent cfg x)
      (Returns fun _ => Remaining i olderThan agents rest) s := by
  refine wp_bind_returns (heeding_cancel.wp_cancelBoundCall hs) fun _ s₁ hs₁ => ?_
  refine wp_bind_returns (f := fun _ => Remaining i olderThan agents rest) ?_ fun _ _ h => h
  rw [Agents.transitionAgent]
  split
  · trivial
  have hdistinct := hs₁.distinct
  rw [List.map_cons, List.nodup_cons] at hdistinct
  refine Logic.wp_perform (remaining_stable _ _ _) (remaining_atomic (fun _ => rfl)
    (List.sublist_cons_self x rest) (fun y hy t a => if_neg ?_) fun s hs _ => ?_) hs₁
  · -- the turn of the others is still to come
    intro heq
    exact hdistinct.1 (heq ▸ List.mem_map_of_mem hy)
  · exact ⟨_, hs.last, x, hs.reported x List.mem_cons_self, rfl,
      (hs.waiting x List.mem_cons_self).unheard⟩

theorem heeding_sweepHeartbeatTimeouts (now : Time) (s : State × Unit) :
    (heeding i cfg).wp i (RecoveryWorker.sweepHeartbeatTimeouts cfg now) Anyhow s := by
  generalize holder : now - seconds cfg.agentHeartbeatTimeoutSeconds = olderThan
  have hfind : (heeding i cfg).Atomic i
      (.findHeartbeatExpired olderThan cfg.recoverySweepLimit) (fun _ => True)
      (Returns fun agents => Remaining i olderThan agents agents) := by
    refine heeding_atomic (fun _ _ => False.elim) fun ch s _ _ => ?_
    generalize hr : (exec i (.findHeartbeatExpired olderThan cfg.recoverySweepLimit) ch s.1).1 = r
    cases r with
    | error e => trivial
    | ok agents =>
        obtain ⟨heff, -⟩ := exec_ok hr
        have hmem : ∀ x ∈ agents, s.1.agents.get x.id = some x
            ∧ x.lastHeartbeatAt.any (· < olderThan) = true := by
          intro x hx
          rw [← Except.ok.inj heff] at hx
          obtain ⟨hget, hp⟩ := Collection.mem_find.mp (Collection.mem_of_mem_limit hx)
          exact ⟨hget, (Bool.and_eq_true_iff.mp hp).2⟩
        -- the list is fresh: all its agents are distinct, on file as seen, and not heard of since
        refine ⟨?_, fun _ hx => hx, ?_, fun x hx => ⟨fun t ht => ?_, ?_⟩⟩
        · rw [exec_log, hr, silentAgents, List.findSome?_cons, Entry.silentAgents, if_pos rfl]
        · rw [← Except.ok.inj heff]
          exact s.1.agents.nodup.sublist
            (((Collection.limit_sublist _ _).trans List.filter_sublist).map key)
        · rw [engaged_exec, hr]
          have hon : agents.any (fun y => y.id == x.id) = true :=
            List.any_eq_true.mpr ⟨x, hx, beq_self_eq_true _⟩
          simp [Op.awaitsTurn, hon, ht]
        · refine ⟨x, ?_, (hmem x hx).2⟩
          rw [agents_of_ok hr]
          exact (hmem x hx).1
  rw [RecoveryWorker.sweepHeartbeatTimeouts, holder]
  refine wp_bind_of_returns (Logic.wp_perform Logic.stable_true hfind trivial) ?_
  exact fun agents s' hs => wp_anyhow (wp_count_list
    (I := Remaining i olderThan agents) (fun _ _ _ hs => heeding_logOutAgent hs) hs)

theorem heeding_runSweeps (s : State × Unit) :
    (heeding i cfg).wp i (Task.program cfg .runSweeps) Anyhow s := by
  refine wp_runSweeps (fun o ho => heeding_idle ?_) (fun now s => ?_)
    heeding_sweepHeartbeatTimeouts s
  -- only the heartbeat sweep takes an agent OFFLINE or says that it disappeared
  · intro hout
    cases o with
    | transitionAgent _ _ _ _ => exact ho hout
    | transitionCall _ _ _ => exact ho hout.1
    | _ => exact hout
  · -- the other sweep cancels calls too, but gives another reason
    have hcancel : ∀ agent, (RecoveryWorker.cancelBoundCall cfg agent
        "agent_lease_expired").All fun o : Op => ¬o.LogsOut := by
      refine RecoveryWorker.cancelBoundCall_all (fun _ h => h) ?_ fun call =>
        Prog.all_bind (Prog.all_perform fun h => h) fun _ => trivial
      rintro _ ⟨-, h⟩
      revert h
      decide
    exact wp_all_anyhow (RecoveryWorker.sweepExpiredAgentLeases_all (fun _ _ h => h) hcancel
      (fun _ _ h => h) now) fun _ => heeding_idle

/--
**Only silent agents are logged out.** In every run in which no agent is heard of between the
look-up of a sweep that reports it and the sweep's last write to it: when a recovery run takes
an agent OFFLINE, or cancels a call because its agent disappeared, the agent is one the sweep
reported, and its last heartbeat is still older than the sweep's cutoff.
-/
theorem only_silent_logged_out {Init : State → Prop} {w : World (dialer cfg)}
    (h : Started (beatingInTime cfg) Init i .runSweeps w) {o : Op} (ho : w.Awaits i o)
    (hout : o.LogsOut) : Heeds i o w.st := by
  have hv : (listening cfg).Verified Init := ⟨fun _ _ => ⟨(), trivial⟩,
    listening_verified.task, listening_verified.crash⟩
  have hprog : ∀ s : State × Unit, (listening cfg).Inv s →
      (heeding i cfg).wp i ((dialer cfg).prog .runSweeps) (fun _ _ => True) s :=
    fun s _ => heeding_runSweeps s
  have hcrash : ∀ (s : State × Unit) (γ : Unit), ∀ o r,
      (crash i s.1, γ).1.log = .answered i o r :: s.1.log → o.LogsOut → Heeds i o s.1 := by
    intro s γ o r hlog
    cases (List.cons.inj hlog).1
  -- it is not a heartbeat, so the run allows it
  have hc : (beatingInTime cfg).run i o {} w.st := by
    cases o with
    | heartbeat _ => exact hout.elim
    | _ => trivial
  obtain ⟨_, _, -, hpromise⟩ := hv.promised hprog hcrash h ho hc
  exact hpromise o _ (exec_log i o {} w.st) hout

end

/-! ## A heartbeat too late -/

/-- A heartbeat of the agent after so many seconds, by process `i`. -/
def heartbeatAt (i : Nat) (n : Int) : List (Label (dialer {})) :=
  .spawn (.agentAction "agent" "heartbeat") :: List.replicate 3 (.run i { now := seconds n })

/-- A round of recovery, up to its look-up of silent agents, after so many seconds. -/
def lookUpSilent (i : Nat) (n : Int) : List (Label (dialer {})) :=
  List.replicate 5 (.run i { now := seconds n })

/-- An agent that is back after a minute is logged out for the silence before. -/
theorem heard_logged_out :
    ∃ w, ∃ o : Op, Started (Policy.any (dialer {})) Fresh 1 .runSweeps w ∧ w.Awaits 1 o
      ∧ o.LogsOut ∧ ¬Heeds 1 o w.st
      ∧ ((exec 1 o {} w.st).2.agents.get "agent").map Agent.state = some .offline := by
  obtain ⟨w, hw, htest⟩ := Started.of_play (Policy.any (dialer {})) oneAgent_fresh
    (heartbeatAt 0 0) (lookUpSilent 1 60 ++ heartbeatAt 2 60) 1 .runSweeps trivial
    (fun w => (w.awaited 1).any fun o : Op => decide (o.LogsOut ∧ ¬Heeds 1 o w.st
      ∧ ((exec 1 o {} w.st).2.agents.get "agent").map Agent.state = some .offline))
    (by decide +kernel)
  obtain ⟨o, ho, hrest⟩ := Option.any_eq_true _ _ |>.mp htest
  obtain ⟨hout, hheard, hoffline⟩ := of_decide_eq_true hrest
  exact ⟨w, o, hw, awaits_of_awaited ho, hout, hheard, hoffline⟩

/-- An agent that is back when it has been logged out. -/
theorem only_silent_logged_out_minute :
    ∃ w, ∃ o : Op, Started (beatingInTime {}) (fun _ => True) 1 .runSweeps w ∧ o.LogsOut
      ∧ Heeds 1 o w.st := by
  obtain ⟨w, hw, htest⟩ : ∃ w, Started (beatingInTime {}) (fun _ => True) 1 .runSweeps w
      ∧ (w.awaited 1).any (fun o : Op => decide o.LogsOut) = true :=
    Started.of_play (s := oneAgent) (beatingInTime {}) trivial (heartbeatAt 0 0)
      (lookUpSilent 1 60) 1 .runSweeps trivial
      (fun w => (w.awaited 1).any fun o : Op => decide o.LogsOut)
      (by decide +kernel)
  obtain ⟨o, ho, hrest⟩ := Option.any_eq_true _ _ |>.mp htest
  have hout := of_decide_eq_true hrest
  exact ⟨w, o, hw, hout, only_silent_logged_out hw (awaits_of_awaited ho) hout⟩

end SmartDialer
