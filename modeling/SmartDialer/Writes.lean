import SmartDialer.Runtime

/-!
# What one operation can do

The inversion lemmas of `exec`: an operation changes at most one document, the one
its write is addressed to, and only if the write's filter holds of it; or it
inserts one call under a new id and a new key. Everything proved about runs goes
through these, and none of it unfolds `exec`.
-/

namespace SmartDialer

open Store Conc

/-! ## The writes, operation by operation -/

/-- The write of an operation to the agents. -/
def Op.agentWrite (c : Choice) : Op → Option (Write Agent)
  | .tryReserveAgent campaignId agentId workerId ttlSeconds =>
      some ⟨agentId, AgentRepository.reservable campaignId,
        AgentRepository.reserve c.now workerId ttlSeconds⟩
  | .releaseAgent agentId workerId target actor _ =>
      some ⟨agentId, AgentRepository.releasable workerId (allowedSources target actor),
        AgentRepository.release c.now (allowedSources target actor) target⟩
  | .transitionAgent agentId fromState toState expectedVersion =>
      some ⟨agentId, AgentRepository.movable fromState expectedVersion,
        AgentRepository.move c.now fromState toState⟩
  | .bindCall agentId workerId callId =>
      some ⟨agentId, AgentRepository.bindable workerId, AgentRepository.setCurrentCall callId⟩
  | .releaseExpiredAgentLease agent now =>
      some ⟨agent.id, AgentRepository.leaseUnchanged agent now, AgentRepository.reclaim now⟩
  | .heartbeat agentId => some ⟨agentId, fun _ => true, AgentRepository.beat c.now⟩
  | _ => none

/-- The write of an operation to the borrowers. -/
def Op.borrowerWrite (c : Choice) : Op → Option (Write Borrower)
  | .tryReserveBorrower campaignId borrowerId workerId ttlSeconds =>
      some ⟨borrowerId, BorrowerRepository.claimable campaignId c.now,
        BorrowerRepository.reserve c.now workerId ttlSeconds⟩
  | .releaseBorrower borrowerId workerId outcome maxAttempts backoffBaseSeconds _ =>
      some ⟨borrowerId, BorrowerRepository.releasable workerId,
        BorrowerRepository.release c.now outcome maxAttempts backoffBaseSeconds⟩
  | .reclaimExpiredBorrowerLease candidate now =>
      some ⟨candidate.id, BorrowerRepository.leaseUnchanged candidate now,
        BorrowerRepository.reclaim now⟩
  | _ => none

/-- The write of an operation to the calls that are there. -/
def Op.callWrite (c : Choice) : Op → Option (Write Call)
  | .attachProviderCallId callId providerCallId =>
      some ⟨callId, CallRepository.attachable, CallRepository.attach c.now providerCallId⟩
  | .transitionCall callId targetState failureReason =>
      some ⟨callId, CallRepository.advanceable targetState,
        CallRepository.advance c.now targetState failureReason⟩
  | _ => none

/-- The call an operation inserts. -/
def Op.callInsert (c : Choice) : Op → Option Call
  | .insertCall campaignId agentId borrowerId providerName workerId attempt =>
      some (c.newCall campaignId agentId borrowerId providerName workerId attempt)
  | _ => none

/-! ## Which operations write -/

/-- The cases of an operation that writes to the agents. -/
theorem Op.agentWrite_cases {c : Choice}
    {motive : (o : Op) → (w : Write Agent) → o.agentWrite c = some w → Prop}
    (tryReserveAgent : ∀ campaignId agentId workerId ttlSeconds,
      motive (.tryReserveAgent campaignId agentId workerId ttlSeconds) _ rfl)
    (releaseAgent : ∀ agentId workerId target actor shielded,
      motive (.releaseAgent agentId workerId target actor shielded) _ rfl)
    (transitionAgent : ∀ agentId fromState toState expectedVersion,
      motive (.transitionAgent agentId fromState toState expectedVersion) _ rfl)
    (bindCall : ∀ agentId workerId callId, motive (.bindCall agentId workerId callId) _ rfl)
    (releaseExpiredAgentLease : ∀ agent now, motive (.releaseExpiredAgentLease agent now) _ rfl)
    (heartbeat : ∀ agentId, motive (.heartbeat agentId) _ rfl)
    (o : Op) (w : Write Agent) (h : o.agentWrite c = some w) : motive o w h := by
  cases o with
  | tryReserveAgent _ _ _ _ => obtain rfl := Option.some.inj h; exact tryReserveAgent ..
  | releaseAgent _ _ _ _ _ => obtain rfl := Option.some.inj h; exact releaseAgent ..
  | transitionAgent _ _ _ _ => obtain rfl := Option.some.inj h; exact transitionAgent ..
  | bindCall _ _ _ => obtain rfl := Option.some.inj h; exact bindCall ..
  | releaseExpiredAgentLease _ _ =>
      obtain rfl := Option.some.inj h; exact releaseExpiredAgentLease ..
  | heartbeat _ => obtain rfl := Option.some.inj h; exact heartbeat _
  | _ => cases h

/-- The cases of an operation that writes to the borrowers. -/
theorem Op.borrowerWrite_cases {c : Choice}
    {motive : (o : Op) → (w : Write Borrower) → o.borrowerWrite c = some w → Prop}
    (tryReserveBorrower : ∀ campaignId borrowerId workerId ttlSeconds,
      motive (.tryReserveBorrower campaignId borrowerId workerId ttlSeconds) _ rfl)
    (releaseBorrower : ∀ borrowerId workerId outcome maxAttempts backoffBaseSeconds shielded,
      motive (.releaseBorrower borrowerId workerId outcome maxAttempts backoffBaseSeconds shielded)
        _ rfl)
    (reclaimExpiredBorrowerLease : ∀ candidate now,
      motive (.reclaimExpiredBorrowerLease candidate now) _ rfl)
    (o : Op) (w : Write Borrower) (h : o.borrowerWrite c = some w) : motive o w h := by
  cases o with
  | tryReserveBorrower _ _ _ _ => obtain rfl := Option.some.inj h; exact tryReserveBorrower ..
  | releaseBorrower _ _ _ _ _ _ => obtain rfl := Option.some.inj h; exact releaseBorrower ..
  | reclaimExpiredBorrowerLease _ _ =>
      obtain rfl := Option.some.inj h; exact reclaimExpiredBorrowerLease ..
  | _ => cases h

/-- The cases of an operation that writes to the calls. -/
theorem Op.callWrite_cases {c : Choice}
    {motive : (o : Op) → (w : Write Call) → o.callWrite c = some w → Prop}
    (attachProviderCallId : ∀ callId providerCallId,
      motive (.attachProviderCallId callId providerCallId) _ rfl)
    (transitionCall : ∀ callId targetState failureReason,
      motive (.transitionCall callId targetState failureReason) _ rfl)
    (o : Op) (w : Write Call) (h : o.callWrite c = some w) : motive o w h := by
  cases o with
  | attachProviderCallId _ _ => obtain rfl := Option.some.inj h; exact attachProviderCallId ..
  | transitionCall _ _ _ => obtain rfl := Option.some.inj h; exact transitionCall ..
  | _ => cases h

/-- The one case of an operation that inserts a call. -/
theorem Op.callInsert_cases {c : Choice}
    {motive : (o : Op) → (d : Call) → o.callInsert c = some d → Prop}
    (insertCall : ∀ campaignId agentId borrowerId providerName workerId attempt,
      motive (.insertCall campaignId agentId borrowerId providerName workerId attempt) _ rfl)
    (o : Op) (d : Call) (h : o.callInsert c = some d) : motive o d h := by
  cases o with
  | insertCall _ _ _ _ _ _ => obtain rfl := Option.some.inj h; exact insertCall ..
  | _ => cases h

variable {i : Nat} {o : Op} {c : Choice} {s : State}

/-! ## Faults -/

/-- A faulty operation had its effect, or none. -/
theorem attempt_state (o : Op) (c : Choice) (s : State) :
    (attempt o c s).2 = s ∨ (attempt o c s).2 = (effect o c s).2 := by
  unfold attempt
  cases c.fault with
  | none => exact .inr rfl
  | dbError name performed =>
      cases performed <;> simp only [Bool.false_eq_true, if_true, if_false] <;> split <;> simp
  | cancelled performed =>
      cases performed <;> simp only [Bool.false_eq_true, if_true, if_false] <;> split <;> simp

/-! ## The log is not looked at -/

/-- The same documents; the logs may differ. -/
structure SameDocuments (s s' : State) : Prop where
  agents : s.agents = s'.agents
  borrowers : s.borrowers = s'.borrowers
  calls : s.calls = s'.calls
  events : s.events = s'.events

namespace SameDocuments

variable {s s' s'' : State}

theorem refl (s : State) : SameDocuments s s := ⟨rfl, rfl, rfl, rfl⟩

theorem symm (h : SameDocuments s s') : SameDocuments s' s :=
  ⟨h.agents.symm, h.borrowers.symm, h.calls.symm, h.events.symm⟩

theorem trans (h : SameDocuments s s') (h' : SameDocuments s' s'') : SameDocuments s s'' :=
  ⟨h.agents.trans h'.agents, h.borrowers.trans h'.borrowers, h.calls.trans h'.calls,
    h.events.trans h'.events⟩

theorem record (s : State) (e : Entry) : SameDocuments (s.record e) s := ⟨rfl, rfl, rfl, rfl⟩

theorem congr {t t' : State} (h : SameDocuments s s') (ht : SameDocuments t s)
    (ht' : SameDocuments t' s') : SameDocuments t t' :=
  (ht.trans h).trans ht'.symm

/-- What distinguishes them is the log. -/
theorem eq (h : SameDocuments s s') : s' = { s with log := s'.log } := by
  obtain ⟨agents, borrowers, calls, events, log⟩ := s
  obtain ⟨agents', borrowers', calls', events', log'⟩ := s'
  obtain ⟨rfl, rfl, rfl, rfl⟩ := h
  rfl

end SameDocuments

theorem effect_log (o : Op) (c : Choice) (s : State) (log : List Entry) :
    effect o c { s with log := log }
      = ((effect o c s).1, { (effect o c s).2 with log := log }) := by
  cases o <;> first | rfl | (simp only [effect]; split <;> rfl)

/-- What the effect of an operation does not tell apart, its faults do not either. -/
theorem attempt_of_effect {o : Op} {c : Choice} {s : State} {f : State → State}
    (h : effect o c (f s) = ((effect o c s).1, f (effect o c s).2)) :
    attempt o c (f s) = ((attempt o c s).1, f (attempt o c s).2) := by
  rw [attempt, attempt, h]
  cases c.fault with
  | none => rfl
  | dbError name performed =>
      dsimp only
      split
      · cases performed <;> rfl
      · rfl
  | cancelled performed =>
      dsimp only
      split
      · cases performed <;> rfl
      · rfl

/-- States with the same documents answer the same, and are left with the same. -/
theorem SameDocuments.attempt {s s' : State} (h : SameDocuments s s') (o : Op) (c : Choice) :
    (SmartDialer.attempt o c s).1 = (SmartDialer.attempt o c s').1
      ∧ SameDocuments (SmartDialer.attempt o c s).2 (SmartDialer.attempt o c s').2 := by
  have hlog : SmartDialer.attempt o c { s with log := s'.log }
      = ((SmartDialer.attempt o c s).1,
        { (SmartDialer.attempt o c s).2 with log := s'.log }) :=
    attempt_of_effect (f := fun t => { t with log := s'.log }) (effect_log o c s s'.log)
  rw [← h.eq] at hlog
  rw [hlog]
  exact ⟨rfl, rfl, rfl, rfl, rfl⟩

/-- The operation has its effect, whatever is answered. -/
def Choice.performs (c : Choice) (o : Op) : Bool :=
  match c.fault with
  | .none => true
  | .dbError _ performed => !o.isDatabase || performed
  | .cancelled performed => !o.isCancellable || performed

/-- An operation that has no effect only leaves a line in the log. -/
theorem exec_of_not_performs (h : c.performs o = false) :
    (exec i o c s).2 = s.record (.answered i o (exec i o c s).1) := by
  have hstate : (attempt o c s).2 = s := by
    rw [attempt]
    rw [Choice.performs] at h
    cases hf : c.fault with
    | none =>
        rw [hf] at h
        cases h
    | dbError name performed =>
        simp only [hf, Bool.or_eq_false_iff, Bool.not_eq_false'] at h ⊢
        rw [if_pos h.1, h.2]
        rfl
    | cancelled performed =>
        simp only [hf, Bool.or_eq_false_iff, Bool.not_eq_false'] at h ⊢
        rw [if_pos h.1, h.2]
        rfl
  rw [exec, hstate]

/-- An operation that has its effect, whatever is answered. -/
theorem exec_of_performs (h : c.performs o = true) :
    (exec i o c s).2 = (effect o c s).2.record (.answered i o (exec i o c s).1) := by
  have hstate : (attempt o c s).2 = (effect o c s).2 := by
    rw [attempt]
    rw [Choice.performs] at h
    cases hf : c.fault with
    | none => rfl
    | dbError name performed =>
        simp only [hf, Bool.or_eq_true, Bool.not_eq_true'] at h ⊢
        by_cases hd : o.isDatabase = true
        · have hperf : performed = true := h.resolve_left (by simp [hd])
          rw [if_pos hd, if_pos hperf]
        · rw [if_neg hd]
    | cancelled performed =>
        simp only [hf, Bool.or_eq_true, Bool.not_eq_true'] at h ⊢
        by_cases hc : o.isCancellable = true
        · have hperf : performed = true := h.resolve_left (by simp [hc])
          rw [if_pos hc, if_pos hperf]
        · rw [if_neg hc]
  rw [exec, hstate]

/-- What was answered without a fault is what the operation does. -/
theorem attempt_ok {a : Ans o} (h : (attempt o c s).1 = .ok a) :
    attempt o c s = effect o c s := by
  unfold attempt at h ⊢
  cases hf : c.fault with
  | none => rfl
  | dbError name performed =>
      simp only [hf] at h ⊢
      split at h
      · simp at h
      · rename_i hd
        rw [if_neg hd]
  | cancelled performed =>
      simp only [hf] at h ⊢
      split at h
      · simp at h
      · rename_i hd
        rw [if_neg hd]

theorem exec_ok {a : Ans o} (h : (exec i o c s).1 = .ok a) :
    (effect o c s).1 = .ok a
      ∧ (exec i o c s).2 = (effect o c s).2.record (.answered i o (.ok a)) := by
  have ha := attempt_ok (show (attempt o c s).1 = .ok a from h)
  rw [exec, ha] at h ⊢
  exact ⟨h, by rw [show (effect o c s).1 = .ok a from h]⟩

@[simp] theorem exec_log (i : Nat) (o : Op) (c : Choice) (s : State) :
    (exec i o c s).2.log = .answered i o (exec i o c s).1 :: s.log := by
  have hlog : ∀ o, (effect o c s).2.log = s.log := by
    intro o
    cases o <;> simp only [effect, State.onAgents, State.onBorrowers, State.onCalls,
      State.onEvents] <;> split <;> rfl
  rcases attempt_state o c s with h | h
  · simp [exec, State.record, h]
  · simp [exec, State.record, h, hlog]

/-! ## What the log says of a process -/

/-- The line an operation leaves in the log is about that operation. -/
theorem answered_exec {o' : Op} {r : Except Exn (Ans o')}
    (h : (exec i o c s).2.log = .answered i o' r :: s.log) : o' = o := by
  rw [exec_log] at h
  obtain ⟨-, rfl, -⟩ := Entry.answered.inj (List.cons.inj h).1
  rfl

/-- What the log says last is not changed by a line that does not say it. -/
theorem findSome?_exec {α : Type} {f : Entry → Option α}
    (h : f (.answered i o (exec i o c s).1) = none) :
    (exec i o c s).2.log.findSome? f = s.log.findSome? f := by
  rw [exec_log, List.findSome?_cons, h]

section

variable {f : (o : Op) → Except Exn (Ans o) → Option Bool}

theorem engaged_cons (e : Entry) (j : Nat) (log : List Entry) :
    engaged f j (e :: log) = (e.tells f j).getD (engaged f j log) := by
  rw [engaged, List.findSome?_cons]
  cases e.tells f j <;> rfl

/-- What a process does says something of that process only. -/
theorem engaged_exec_other {j : Nat} (hj : j ≠ i) (o : Op) (c : Choice) (s : State) :
    engaged f j (exec i o c s).2.log = engaged f j s.log := by
  rw [exec_log, engaged_cons, Entry.tells, if_neg (Ne.symm hj)]
  rfl

theorem engaged_exec (i : Nat) (o : Op) (c : Choice) (s : State) :
    engaged f i (exec i o c s).2.log = (f o (exec i o c s).1).getD (engaged f i s.log) := by
  rw [exec_log, engaged_cons, Entry.tells, if_pos rfl]

theorem engaged_crash_other {j : Nat} (hj : j ≠ i) (s : State) :
    engaged f j (crash i s).log = engaged f j s.log := by
  change engaged f j (.crashed i :: s.log) = _
  rw [engaged_cons, Entry.tells, if_neg (Ne.symm hj)]
  rfl

/-- A process that has begun something is in the log. -/
theorem mem_of_engaged {j : Nat} {log : List Entry} (h : engaged f j log = true) :
    ∃ e ∈ log, e.process = j := by
  induction log with
  | nil => cases h
  | cons e log ih =>
      rw [engaged_cons] at h
      cases htells : e.tells f j with
      | none =>
          rw [htells] at h
          obtain ⟨e', he', hj⟩ := ih h
          exact ⟨e', List.mem_cons_of_mem e he', hj⟩
      | some b =>
          refine ⟨e, List.mem_cons_self, ?_⟩
          by_contra hne
          cases e with
          | answered k o r => cases htells.symm.trans (if_neg hne)
          | crashed k => cases htells.symm.trans (if_neg hne)

end

/-! ## Agents -/

theorem effect_agents (o : Op) (c : Choice) (s : State) :
    (effect o c s).2.agents = (o.agentWrite c).elim s.agents s.agents.write := by
  cases o <;> first | rfl | (simp only [effect]; split <;> rfl)

/-- An operation leaves the agents alone, or performs its write. -/
theorem exec_agents (i : Nat) (o : Op) (c : Choice) (s : State) :
    (exec i o c s).2.agents = s.agents
      ∨ ∃ w, o.agentWrite c = some w ∧ (exec i o c s).2.agents = s.agents.write w := by
  have heff : (effect o c s).2.agents = s.agents
      ∨ ∃ w, o.agentWrite c = some w ∧ (effect o c s).2.agents = s.agents.write w := by
    rw [effect_agents]
    cases h : o.agentWrite c with
    | none => exact .inl rfl
    | some w => exact .inr ⟨w, rfl, rfl⟩
  rcases attempt_state o c s with h | h
  · exact .inl (by simp [exec, State.record, h])
  · simpa [exec, State.record, h] using heff

/-- An agent found after an operation was there before it. -/
theorem agent_of_exec {k : String} {a' : Agent} (h : (exec i o c s).2.agents.get k = some a') :
    ∃ a, s.agents.get k = some a ∧ Rewritten (o.agentWrite c) a a' := by
  rcases exec_agents i o c s with he | ⟨w, hw, he⟩
  · exact ⟨a', he ▸ h, .same⟩
  · rw [he] at h
    rw [hw]
    exact Collection.get_write_some h

/-- An agent is never lost. -/
theorem agent_exec {k : String} {a : Agent} (h : s.agents.get k = some a) :
    ∃ a', (exec i o c s).2.agents.get k = some a' ∧ Rewritten (o.agentWrite c) a a' := by
  rcases exec_agents i o c s with he | ⟨w, hw, he⟩
  · exact ⟨a, he ▸ h, .same⟩
  · rw [he, hw]
    exact Collection.get_write h

/-- What an answered operation did to the agents. -/
theorem agents_of_ok {answer : Ans o} (h : (exec i o c s).1 = .ok answer) :
    (exec i o c s).2.agents = (o.agentWrite c).elim s.agents s.agents.write := by
  obtain ⟨-, hstate⟩ := exec_ok h
  rw [hstate]
  exact effect_agents o c s

/-- What an answered operation wrote to the agent it is addressed to. -/
theorem agent_of_ok {answer : Ans o} {w : Write Agent} {a : Agent}
    (h : (exec i o c s).1 = .ok answer) (hw : o.agentWrite c = some w)
    (ha : s.agents.get w.target = some a) (hp : w.filter a = true) :
    (exec i o c s).2.agents.get w.target = some (w.update.apply a) := by
  rw [agents_of_ok h, hw]
  exact Collection.get_write_of_filter ha hp

/-! ## Borrowers -/

theorem effect_borrowers (o : Op) (c : Choice) (s : State) :
    (effect o c s).2.borrowers = (o.borrowerWrite c).elim s.borrowers s.borrowers.write := by
  cases o <;> first | rfl | (simp only [effect]; split <;> rfl)

/-- An operation leaves the borrowers alone, or performs its write. -/
theorem exec_borrowers (i : Nat) (o : Op) (c : Choice) (s : State) :
    (exec i o c s).2.borrowers = s.borrowers
      ∨ ∃ w, o.borrowerWrite c = some w ∧ (exec i o c s).2.borrowers = s.borrowers.write w := by
  have heff : (effect o c s).2.borrowers = s.borrowers
      ∨ ∃ w, o.borrowerWrite c = some w ∧ (effect o c s).2.borrowers = s.borrowers.write w := by
    rw [effect_borrowers]
    cases h : o.borrowerWrite c with
    | none => exact .inl rfl
    | some w => exact .inr ⟨w, rfl, rfl⟩
  rcases attempt_state o c s with h | h
  · exact .inl (by simp [exec, State.record, h])
  · simpa [exec, State.record, h] using heff

/-- What an answered operation did to the borrowers. -/
theorem borrowers_of_ok {answer : Ans o} (h : (exec i o c s).1 = .ok answer) :
    (exec i o c s).2.borrowers = (o.borrowerWrite c).elim s.borrowers s.borrowers.write := by
  obtain ⟨-, hstate⟩ := exec_ok h
  rw [hstate]
  exact effect_borrowers o c s

/-- A borrower found after an operation was there before it. -/
theorem borrower_of_exec {k : String} {b' : Borrower}
    (h : (exec i o c s).2.borrowers.get k = some b') :
    ∃ b, s.borrowers.get k = some b ∧ Rewritten (o.borrowerWrite c) b b' := by
  rcases exec_borrowers i o c s with he | ⟨w, hw, he⟩
  · exact ⟨b', he ▸ h, .same⟩
  · rw [he] at h
    rw [hw]
    exact Collection.get_write_some h

/-- A borrower is never lost. -/
theorem borrower_exec {k : String} {b : Borrower} (h : s.borrowers.get k = some b) :
    ∃ b', (exec i o c s).2.borrowers.get k = some b' ∧ Rewritten (o.borrowerWrite c) b b' := by
  rcases exec_borrowers i o c s with he | ⟨w, hw, he⟩
  · exact ⟨b, he ▸ h, .same⟩
  · rw [he, hw]
    exact Collection.get_write h

/-! ## Calls -/

/-- No call is filed under this idempotency key. -/
def KeyFree (s : State) (idempotencyKey : String) : Prop :=
  ∀ k d, s.calls.get k = some d → d.idempotencyKey ≠ idempotencyKey

theorem insertCall_some {call : Call} {calls calls' : Collection Call}
    (h : CallRepository.insertCall call calls = some calls') :
    calls.insert call = some calls' ∧ calls.get call.id = none
      ∧ ∀ k d, calls.get k = some d → d.idempotencyKey ≠ call.idempotencyKey := by
  rw [CallRepository.insertCall] at h
  split at h
  · simp at h
  · rename_i hkey
    refine ⟨h, ?_, ?_⟩
    · exact Collection.insert_isSome_iff.mp (by rw [h]; rfl)
    · intro k d hd heq
      have hnone := Collection.findOne_none (by simpa using hkey) hd
      simp [heq] at hnone

/-- An operation leaves the calls alone, performs its write, or inserts its call. -/
theorem exec_calls (i : Nat) (o : Op) (c : Choice) (s : State) :
    (exec i o c s).2.calls = s.calls
      ∨ (∃ w, o.callWrite c = some w ∧ (exec i o c s).2.calls = s.calls.write w)
      ∨ ∃ d, o.callInsert c = some d ∧ s.calls.get d.id = none ∧ KeyFree s d.idempotencyKey
          ∧ s.calls.insert d = some (exec i o c s).2.calls := by
  have heff : (effect o c s).2.calls = s.calls
      ∨ (∃ w, o.callWrite c = some w ∧ (effect o c s).2.calls = s.calls.write w)
      ∨ ∃ d, o.callInsert c = some d ∧ s.calls.get d.id = none ∧ KeyFree s d.idempotencyKey
          ∧ s.calls.insert d = some (effect o c s).2.calls := by
    cases o with
    | insertCall campaignId agentId borrowerId providerName workerId attempt =>
        simp only [effect]
        split
        · rename_i calls hins
          obtain ⟨h₁, h₂, h₃⟩ := insertCall_some hins
          exact .inr (.inr ⟨_, rfl, h₂, h₃, h₁⟩)
        · exact .inl rfl
    | transitionCall callId targetState failureReason => exact .inr (.inl ⟨_, rfl, rfl⟩)
    | attachProviderCallId callId providerCallId =>
        simp only [effect, State.onCalls, CallRepository.attachProviderCallId]
        split
        · exact .inl rfl
        · exact .inr (.inl ⟨_, rfl, rfl⟩)
    | originateCall _ _ _ => simp only [effect]; split <;> exact .inl rfl
    | hangupCall _ _ => simp only [effect]; split <;> exact .inl rfl
    | getCallStatus _ _ => simp only [effect]; split <;> exact .inl rfl
    | _ => exact .inl rfl
  rcases attempt_state o c s with h | h
  · exact .inl (by simp [exec, State.record, h])
  · simpa [exec, State.record, h] using heff

/-- A call found after an operation was inserted by it, or was there before it. -/
theorem call_of_exec {k : String} {d' : Call} (h : (exec i o c s).2.calls.get k = some d') :
    (o.callInsert c = some d' ∧ k = d'.id ∧ s.calls.get k = none ∧ KeyFree s d'.idempotencyKey)
      ∨ ∃ d, s.calls.get k = some d ∧ Rewritten (o.callWrite c) d d' := by
  rcases exec_calls i o c s with he | ⟨w, hw, he⟩ | ⟨d, hd, hid, hkey, he⟩
  · exact .inr ⟨d', he ▸ h, .same⟩
  · rw [he] at h
    rw [hw]
    exact .inr (Collection.get_write_some h)
  · rw [Collection.get_insert he] at h
    split at h
    · rename_i hk
      obtain rfl := Option.some.inj h
      exact .inl ⟨hd, hk, hk ▸ hid, hkey⟩
    · exact .inr ⟨d', h, .same⟩

/-- A call is never lost. -/
theorem call_exec {k : String} {d : Call} (h : s.calls.get k = some d) :
    ∃ d', (exec i o c s).2.calls.get k = some d' ∧ Rewritten (o.callWrite c) d d' := by
  rcases exec_calls i o c s with he | ⟨w, hw, he⟩ | ⟨e, he₁, hid, hkey, he⟩
  · exact ⟨d, he ▸ h, .same⟩
  · rw [he, hw]
    exact Collection.get_write h
  · refine ⟨d, ?_, .same⟩
    rw [Collection.get_insert he, if_neg]
    · exact h
    · intro hk
      rw [hk, call_key, hid] at h
      simp at h

/-! ## Answers -/

/-- `transition_call` answered the call as it now is. -/
theorem transitionCall_some {callId : String} {t : CallState} {reason : Option String} {d' : Call}
    (h : (exec i (.transitionCall callId t reason) c s).1 = .ok (some d')) :
    ∃ d, s.calls.get callId = some d ∧ CallRepository.advanceable t d = true
      ∧ d' = (CallRepository.advance c.now t reason).apply d
      ∧ (exec i (.transitionCall callId t reason) c s).2.calls.get callId = some d' := by
  obtain ⟨heff, hstate⟩ := exec_ok h
  rw [hstate]
  exact Collection.get_of_findOneAndUpdate_some (Except.ok.inj heff)

/-- What `transition_call` leaves behind when it is answered. -/
theorem transitionCall_get {callId : String} {t : CallState} {reason : Option String}
    {answer : Option Call} {d : Call}
    (h : (exec i (.transitionCall callId t reason) c s).1 = .ok answer)
    (hd : s.calls.get callId = some d) (hp : CallRepository.advanceable t d = true) :
    (exec i (.transitionCall callId t reason) c s).2.calls.get callId
      = some ((CallRepository.advance c.now t reason).apply d) := by
  obtain ⟨-, hstate⟩ := exec_ok h
  rw [hstate]
  exact Collection.get_write_of_filter
    (w := ⟨callId, CallRepository.advanceable t, CallRepository.advance c.now t reason⟩) hd hp

/-- `try_reserve_agent` answered the agent as it now is. -/
theorem tryReserveAgent_some {campaignId agentId workerId : String} {ttlSeconds : Int}
    {a' : Agent}
    (h : (exec i (.tryReserveAgent campaignId agentId workerId ttlSeconds) c s).1
      = .ok (some a')) :
    ∃ a, s.agents.get a'.id = some a ∧ AgentRepository.reservable campaignId a = true
      ∧ a' = (AgentRepository.reserve c.now workerId ttlSeconds).apply a
      ∧ (exec i (.tryReserveAgent campaignId agentId workerId ttlSeconds) c s).2.agents.get a'.id
        = some a' := by
  obtain ⟨heff, hstate⟩ := exec_ok h
  obtain ⟨a, ha, hp, rfl, hget⟩ := Collection.get_of_findOneAndUpdate_some (Except.ok.inj heff)
  obtain rfl : a.id = agentId := Collection.key_of_get ha
  rw [hstate]
  exact ⟨a, ha, hp, rfl, hget⟩

theorem tryReserveAgent_id {campaignId agentId workerId : String} {ttlSeconds : Int} {a' : Agent}
    (h : (exec i (.tryReserveAgent campaignId agentId workerId ttlSeconds) c s).1
      = .ok (some a')) : a'.id = agentId := by
  obtain ⟨heff, -⟩ := exec_ok h
  obtain ⟨a, ha, -, rfl⟩ := Collection.findOneAndUpdate_some.mp (Except.ok.inj heff)
  exact Collection.key_of_get ha

/-- `try_reserve_borrower` answered the borrower as it now is. -/
theorem tryReserveBorrower_some {campaignId borrowerId workerId : String} {ttlSeconds : Int}
    {b' : Borrower}
    (h : (exec i (.tryReserveBorrower campaignId borrowerId workerId ttlSeconds) c s).1
      = .ok (some b')) :
    ∃ b, s.borrowers.get b'.id = some b ∧ BorrowerRepository.claimable campaignId c.now b = true
      ∧ b' = (BorrowerRepository.reserve c.now workerId ttlSeconds).apply b
      ∧ (exec i (.tryReserveBorrower campaignId borrowerId workerId ttlSeconds) c
        s).2.borrowers.get b'.id = some b' := by
  obtain ⟨heff, hstate⟩ := exec_ok h
  obtain ⟨b, hb, hp, rfl, hget⟩ := Collection.get_of_findOneAndUpdate_some (Except.ok.inj heff)
  obtain rfl : b.id = borrowerId := Collection.key_of_get hb
  rw [hstate]
  exact ⟨b, hb, hp, rfl, hget⟩

theorem tryReserveBorrower_id {campaignId borrowerId workerId : String} {ttlSeconds : Int}
    {b' : Borrower}
    (h : (exec i (.tryReserveBorrower campaignId borrowerId workerId ttlSeconds) c s).1
      = .ok (some b')) : b'.id = borrowerId := by
  obtain ⟨heff, -⟩ := exec_ok h
  obtain ⟨b, hb, -, rfl⟩ := Collection.findOneAndUpdate_some.mp (Except.ok.inj heff)
  exact Collection.key_of_get hb

/-- `create_call` answered the call it inserted. -/
theorem insertCall_ok {campaignId agentId borrowerId providerName workerId : String}
    {attempt : Nat} {d : Call}
    (h : (exec i (.insertCall campaignId agentId borrowerId providerName workerId attempt) c s).1
      = .ok d) :
    d = c.newCall campaignId agentId borrowerId providerName workerId attempt
      ∧ s.calls.get d.id = none ∧ KeyFree s d.idempotencyKey
      ∧ (exec i (.insertCall campaignId agentId borrowerId providerName workerId attempt)
        c s).2.calls.get d.id = some d := by
  obtain ⟨heff, hstate⟩ := exec_ok h
  rw [hstate]
  simp only [effect] at heff ⊢
  split at heff
  · rename_i calls hins
    obtain rfl := Except.ok.inj heff
    obtain ⟨hinsert, hid, hkey⟩ := insertCall_some hins
    exact ⟨rfl, hid, hkey, (Collection.get_insert hinsert _).trans (if_pos rfl)⟩
  · cases heff

/-- An attach that was answered with nothing left the call as it was. -/
theorem attach_none {callId k : String} {providerCallId : Option String} {d : Call}
    (h : (exec i (.attachProviderCallId callId providerCallId) c s).1 = .ok none)
    (hd : s.calls.get k = some d) :
    (exec i (.attachProviderCallId callId providerCallId) c s).2.calls.get k = some d := by
  obtain ⟨heff, hstate⟩ := exec_ok h
  rw [hstate]
  simp only [State.record, effect, State.onCalls, CallRepository.attachProviderCallId] at heff ⊢
  split at heff
  · rename_i htaken
    rw [if_pos htaken]
    exact hd
  · rename_i htaken
    rw [if_neg htaken]
    refine (Collection.update_of_get_filter ?_ k).trans hd
    exact Option.map_eq_none_iff.mp (Except.ok.inj heff)

/-- The call that has a key. -/
theorem findByIdempotencyKey_some {idempotencyKey : String} {d : Call}
    (h : (exec i (.findByIdempotencyKey idempotencyKey) c s).1 = .ok (some d)) :
    s.calls.get d.id = some d ∧ d.idempotencyKey = idempotencyKey := by
  obtain ⟨heff, -⟩ := exec_ok h
  obtain ⟨hget, hp⟩ := Collection.findOne_some (Except.ok.inj heff)
  exact ⟨hget, by simpa using hp⟩

/-- An agent found by its id has that id. -/
theorem findAgentById_some {agentId : String} {a : Agent}
    (h : (exec i (.findAgentById agentId) c s).1 = .ok (some a)) : a.id = agentId := by
  obtain ⟨heff, -⟩ := exec_ok h
  exact Collection.key_of_get (Except.ok.inj heff)

/-- A call found by its provider call id has that id. -/
theorem findByProviderCallId_some {providerName providerCallId : String} {d : Call}
    (h : (exec i (.findByProviderCallId providerName providerCallId) c s).1 = .ok (some d)) :
    s.calls.get d.id = some d ∧ d.providerName = providerName
      ∧ d.providerCallId = some providerCallId := by
  obtain ⟨heff, -⟩ := exec_ok h
  obtain ⟨hget, hp⟩ := Collection.findOne_some (Except.ok.inj heff)
  simp only [Bool.and_eq_true, beq_iff_eq] at hp
  exact ⟨hget, hp⟩

theorem now_of_utcNow {now : Time} (h : (exec i .utcNow c s).1 = .ok now) : c.now = now :=
  Except.ok.inj (exec_ok h).1

/-- A stale call is a stored call. -/
theorem findStaleCalls_mem {olderThan : Time} {limit : Int} {calls : List Call} {d : Call}
    (h : (exec i (.findStaleCalls olderThan limit) c s).1 = .ok calls) (hd : d ∈ calls) :
    s.calls.get d.id = some d ∧ CallRepository.stale olderThan d = true := by
  obtain ⟨heff, -⟩ := exec_ok h
  rw [← Except.ok.inj heff, CallRepository.findStaleCalls] at hd
  exact Collection.mem_find.mp (Collection.mem_sortOn.mp (Collection.mem_of_mem_limit hd))

end SmartDialer
