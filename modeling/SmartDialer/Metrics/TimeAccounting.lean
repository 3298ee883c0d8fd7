import SmartDialer.Metrics.Utilization

/-!
# Where an agent's time goes

An agent's counters and its current stay, against the time it has really spent in its states.
Whoever takes an agent out of a counted state has to add the stay to the counters before
`state_changed_at` is reset. `release_agent` and `transition_agent` do; a reservation adds
nothing to the available time, and the reclaim of an expired lease adds nothing at all.

A counter is one *account*: the states it is about, and what it has on file. The argument about
one account is made once, and then read at three of them.

The current stay is told in milliseconds by way of a float that is truncated, and some numbers
of milliseconds do not come back from that. So there are two conditions: one on the operations,
and one on the moment at which one looks.
-/

namespace SmartDialer

open Store Conc

/-! ## The time really spent -/

/-- The clock after these operations: its last reading. -/
def clockOf (t₀ : Time) : List (Op × Choice) → Time
  | [] => t₀
  | (_, c) :: _ => c.now

/-- The clock does not go back; the reading a sweep passes to a reclaim is one it took before. -/
def Chronological (t₀ : Time) : List (Op × Choice) → Prop
  | [] => True
  | (o, c) :: ops =>
      clockOf t₀ ops ≤ c.now
        ∧ (∀ agent now, o = .releaseExpiredAgentLease agent now → now ≤ c.now)
        ∧ Chronological t₀ ops

/-- The agent under this id is in a state of which `p` is true. -/
def isIn (p : AgentState → Bool) (agentId : String) (s : State) : Bool :=
  (s.agents.get agentId).any fun a => p a.state

/-- How long the agent has been in such states since `t₀`, stay by stay. -/
def timeIn (p : AgentState → Bool) (agentId : String) (s : State) (t₀ : Time) :
    List (Op × Choice) → Time → Int
  | [], now => if isIn p agentId s then now - t₀ else 0
  | (o, c) :: ops, now =>
      timeIn p agentId s t₀ ops c.now
        + if isIn p agentId (operated s ((o, c) :: ops)) then now - c.now else 0

/-! ## Accounts -/

/-- Some states, and the counters in which the time spent in them is kept. -/
structure Account where
  covers : AgentState → Bool
  /-- The counters are those of the available, busy, connected and wrap-up time. -/
  counted : Nat → Nat → Nat → Nat → Nat

namespace Account

/-- What is on file. -/
def filed (acc : Account) (a : Agent) : Nat :=
  acc.counted a.availableTimeMs a.busyTimeMs a.connectedTimeMs a.wrapUpTimeMs

/-- What is on file, and the current stay. -/
def live (acc : Account) (a : Agent) (now : Time) : Int :=
  acc.filed a + if acc.covers a.state then max 0 (now - a.stateChangedAt) else 0

/-- `time_accounting_updates` adds the stay to the account, if the state is covered. -/
def Kept (acc : Account) : Prop :=
  ∀ source now a, (acc.filed (AgentRepository.timeAccountingUpdates source now a) : Int)
    = acc.filed a + if acc.covers source then max 0 (now - a.stateChangedAt) else 0

/-- All that counts towards utilization. -/
def total : Account where
  covers := utilizationDenominatorStates.contains
  counted available busy _ _ := available + busy

/-- The time on the phone. -/
def connected : Account where
  covers state := state == .connected
  counted _ _ connected _ := connected

/-- The time in wrap-up. -/
def wrapUp : Account where
  covers state := state == .wrapUp
  counted _ _ _ wrapUp := wrapUp

theorem total_kept : total.Kept := by
  intro source now a
  cases source <;>
    simp [filed, total, AgentRepository.timeAccountingUpdates, utilizationDenominatorStates,
      List.contains_eq_mem] <;> omega

theorem connected_kept : connected.Kept := by
  intro source now a
  cases source <;> simp [filed, connected, AgentRepository.timeAccountingUpdates]

theorem wrapUp_kept : wrapUp.Kept := by
  intro source now a
  cases source <;> simp [filed, wrapUp, AgentRepository.timeAccountingUpdates]

/-! ## What the writes make of an account -/

variable {acc : Account} {a : Agent} {t : Time}

theorem live_reserve (acc : Account) (a : Agent) (t : Time) (workerId : String) (ttl : Int) :
    acc.live ((AgentRepository.reserve t workerId ttl).apply a) t = acc.filed a := by
  change (acc.filed a : Int) + (if acc.covers .reserved then max 0 (t - t) else 0) = _
  simp

theorem live_reclaim (acc : Account) (a : Agent) (t now : Time) :
    acc.live ((AgentRepository.reclaim now).apply a) t
      = acc.filed a + if acc.covers .available then max 0 (t - now) else 0 := rfl

/-- `transition_agent` closes the books on the stay that ends. -/
theorem live_move (hkept : acc.Kept) {fromState : AgentState} (hstate : a.state = fromState)
    (toState : AgentState) :
    acc.live ((AgentRepository.move t fromState toState).apply a) t = acc.live a t := by
  change (acc.filed (AgentRepository.timeAccountingUpdates fromState t a) : Int)
    + (if acc.covers toState then max 0 (t - t) else 0) = _
  rw [hkept fromState t a, ← hstate]
  simp [live]

/-- So does `release_agent`, whose filter lets only sources through. -/
theorem live_release (hkept : acc.Kept) {sources : List AgentState} (hstate : a.state ∈ sources)
    (target : AgentState) :
    acc.live ((AgentRepository.release t sources target).apply a) t = acc.live a t := by
  change (acc.filed (AgentRepository.conditionalAccounting sources t a) : Int)
    + (if acc.covers target then max 0 (t - t) else 0) = _
  rw [AgentRepository.conditionalAccounting, if_pos hstate, hkept a.state t a]
  simp [live]

/-! ## One account, over a run -/

/-- The account of an agent is right, whenever one looks. -/
def Balanced (acc : Account) (agentId : String) (s : State) (t₀ : Time)
    (ops : List (Op × Choice)) : Prop :=
  ∀ a, (operated s ops).agents.get agentId = some a → ∀ now, clockOf t₀ ops ≤ now →
    acc.live a now = timeIn acc.covers agentId s t₀ ops now

variable {agentId : String} {s : State} {t₀ : Time} {ops : List (Op × Choice)} {o : Op}
  {c : Choice}

/-- From some moment of the stay on, time goes by. -/
theorem live_from {now : Time} (ht : a.stateChangedAt ≤ t) (hnow : t ≤ now) :
    acc.live a now = acc.live a t + if acc.covers a.state then now - t else 0 := by
  have hsum : now - a.stateChangedAt = (t - a.stateChangedAt) + (now - t) := by abel
  rw [live, live, max_eq_right (sub_nonneg.mpr (ht.trans hnow)),
    max_eq_right (sub_nonneg.mpr ht), hsum]
  split
  · rw [add_assoc]
  · rw [add_zero, add_zero]

theorem timeIn_from (p : AgentState → Bool) (now : Time) :
    timeIn p agentId s t₀ ops now = timeIn p agentId s t₀ ops (clockOf t₀ ops)
      + if isIn p agentId (operated s ops) then now - clockOf t₀ ops else 0 := by
  cases ops with
  | nil =>
      rw [timeIn, timeIn, clockOf, sub_self, ite_self, zero_add]
      rfl
  | cons x ops => rw [timeIn, timeIn, clockOf, sub_self, ite_self, add_zero]

/-- It is enough to look once. -/
theorem balanced_iff (ha : (operated s ops).agents.get agentId = some a)
    (hchanged : a.stateChangedAt ≤ clockOf t₀ ops) (ht : clockOf t₀ ops ≤ t) :
    acc.Balanced agentId s t₀ ops ↔ acc.live a t = timeIn acc.covers agentId s t₀ ops t := by
  refine ⟨fun h => h a ha _ ht, fun h a' ha' now hnow => ?_⟩
  obtain rfl := Option.some.inj (ha.symm.trans ha')
  have hin : isIn acc.covers agentId (operated s ops) = acc.covers a.state := by
    rw [isIn, ha, Option.any_some]
  -- both go on alike from the last reading of the clock
  rw [timeIn_from, live_from hchanged ht, hin, add_left_inj] at h
  rw [timeIn_from, live_from hchanged hnow, h, hin]

/-- **One step.** An account that is right stays so if the operation does not move it. -/
theorem balanced_cons_iff (hbalanced : acc.Balanced agentId s t₀ ops)
    (ha : (operated s ops).agents.get agentId = some a) {a' : Agent}
    (ha' : (operated s ((o, c) :: ops)).agents.get agentId = some a')
    (hchanged : a'.stateChangedAt ≤ c.now) (hclock : clockOf t₀ ops ≤ c.now) :
    acc.Balanced agentId s t₀ ((o, c) :: ops) ↔ acc.live a' c.now = acc.live a c.now := by
  have htime : timeIn acc.covers agentId s t₀ ((o, c) :: ops) c.now = acc.live a c.now := by
    rw [timeIn, sub_self, ite_self, add_zero, hbalanced a ha c.now hclock]
  have hiff : acc.Balanced agentId s t₀ ((o, c) :: ops) ↔ _ :=
    balanced_iff ha' hchanged (le_refl c.now)
  rw [hiff, htime]

theorem balanced_nil (ha : s.agents.get agentId = some a) (hfiled : acc.filed a = 0) :
    acc.Balanced agentId s a.stateChangedAt [] := by
  have hiff : acc.Balanced agentId s a.stateChangedAt [] ↔ _ :=
    balanced_iff ha (le_refl _) (le_refl _)
  refine hiff.mpr ?_
  simp [live, hfiled, timeIn, clockOf]

end Account

/-! ## The three accounts -/

/-- What becomes of an agent under an operation. -/
def Op.rewriteAgent (o : Op) (c : Choice) (agentId : String) (a : Agent) : Agent :=
  match o.agentWrite c with
  | none => a
  | some w => if agentId = w.target ∧ w.filter a = true then w.update.apply a else a

variable {agentId : String} {s : State} {t₀ now : Time} {ops : List (Op × Choice)} {o : Op}
  {c : Choice} {a : Agent}

theorem operated_cons_get (ha : (operated s ops).agents.get agentId = some a) :
    (operated s ((o, c) :: ops)).agents.get agentId = some (o.rewriteAgent c agentId a) := by
  rw [operated, effect_agents, Op.rewriteAgent]
  cases o.agentWrite c with
  | none => exact ha
  | some w =>
      change (Collection.write _ w).get agentId = _
      rw [Collection.write, Collection.get_update, ha]
      rfl

/-- It stays as it is, or a write that lets it through is applied. -/
theorem rewriteAgent_of {P : Agent → Prop} (hsame : P a)
    (hwritten : ∀ w, o.agentWrite c = some w → w.filter a = true → P (w.update.apply a)) :
    P (o.rewriteAgent c agentId a) := by
  rw [Op.rewriteAgent]
  cases hw : o.agentWrite c with
  | none => exact hsame
  | some w =>
      change P (if agentId = w.target ∧ w.filter a = true then w.update.apply a else a)
      split
      · rename_i hhit
        exact hwritten w hw hhit.2
      · exact hsame

/--
The operation does not lose the agent's time, and makes none up: a reservation ends a stay that
has only just begun; a reclaim goes back to the beginning of the stay it ends, or begins where
nothing was counted, and ends no conversation and no wrap-up that has lasted.
-/
def KeepsTime (agentId : String) (o : Op) (c : Choice) (a : Agent) : Prop :=
  match o with
  | .tryReserveAgent campaignId k _ _ =>
      agentId = k → AgentRepository.reservable campaignId a = true → c.now = a.stateChangedAt
  | .releaseExpiredAgentLease agent now =>
      agentId = agent.id → AgentRepository.leaseUnchanged agent now a = true →
        (if utilizationDenominatorStates.contains a.state then now = a.stateChangedAt
          else c.now = now)
        ∧ (a.state = .connected ∨ a.state = .wrapUp → c.now = a.stateChangedAt)
  | _ => True

/-- The operation does not move the three accounts. -/
def Unmoved (a a' : Agent) (now : Time) : Prop :=
  Account.total.live a' now = Account.total.live a now
    ∧ Account.connected.live a' now = Account.connected.live a now
    ∧ Account.wrapUp.live a' now = Account.wrapUp.live a now

theorem unmoved_refl (a : Agent) (now : Time) : Unmoved a a now := ⟨rfl, rfl, rfl⟩

theorem unmoved_of_kept {a a' : Agent} {now : Time}
    (h : ∀ acc : Account, acc.Kept → acc.live a' now = acc.live a now) : Unmoved a a' now :=
  ⟨h _ Account.total_kept, h _ Account.connected_kept, h _ Account.wrapUp_kept⟩

theorem unmoved_of_written (h : ∀ w, o.agentWrite c = some w → w.filter a = true →
    Unmoved a (w.update.apply a) c.now) : Unmoved a (o.rewriteAgent c agentId a) c.now :=
  rewriteAgent_of (P := fun a' => Unmoved a a' c.now) (unmoved_refl ..) h

theorem unmoved_reserve_iff (hstate : a.state = .available) (hchanged : a.stateChangedAt ≤ c.now)
    (workerId : String) (ttl : Int) :
    Unmoved a ((AgentRepository.reserve c.now workerId ttl).apply a) c.now
      ↔ c.now = a.stateChangedAt := by
  simp only [Unmoved, Account.live_reserve]
  simp only [Account.live, hstate, Account.total, Account.connected, Account.wrapUp,
    max_eq_right (sub_nonneg.mpr hchanged)]
  simp [utilizationDenominatorStates, sub_eq_zero]

theorem unmoved_reclaim_iff {now : Time} (hnow : now ≤ c.now)
    (hchanged : a.stateChangedAt ≤ c.now) :
    Unmoved a ((AgentRepository.reclaim now).apply a) c.now
      ↔ (if utilizationDenominatorStates.contains a.state then now = a.stateChangedAt
          else c.now = now)
        ∧ (a.state = .connected ∨ a.state = .wrapUp → c.now = a.stateChangedAt) := by
  simp only [Unmoved, Account.live_reclaim]
  simp only [Account.live, Account.total, Account.connected, Account.wrapUp,
    max_eq_right (sub_nonneg.mpr hchanged), max_eq_right (sub_nonneg.mpr hnow)]
  cases a.state <;> simp [utilizationDenominatorStates, sub_eq_zero]

/-- An operation keeps time exactly if it does not move the accounts. -/
theorem unmoved_iff (hchanged : a.stateChangedAt ≤ c.now)
    (hreading : ∀ agent now, o = .releaseExpiredAgentLease agent now → now ≤ c.now) :
    Unmoved a (o.rewriteAgent c agentId a) c.now ↔ KeepsTime agentId o c a := by
  cases o with
  | tryReserveAgent campaignId k workerId ttl =>
      simp only [Op.rewriteAgent, Op.agentWrite, KeepsTime]
      split
      · rename_i hhit
        have hstate : a.state = .available := by
          simpa using (Bool.and_eq_true_iff.mp hhit.2).2
        rw [unmoved_reserve_iff hstate hchanged]
        exact ⟨fun h _ _ => h, fun h => h hhit.1 hhit.2⟩
      · rename_i hmiss
        exact iff_of_true (unmoved_refl ..) fun hk hp => absurd ⟨hk, hp⟩ hmiss
  | releaseExpiredAgentLease agent now =>
      simp only [Op.rewriteAgent, Op.agentWrite, KeepsTime]
      split
      · rename_i hhit
        rw [unmoved_reclaim_iff (hreading agent now rfl) hchanged]
        exact ⟨fun h _ _ => h, fun h => h hhit.1 hhit.2⟩
      · rename_i hmiss
        exact iff_of_true (unmoved_refl ..) fun hk hp => absurd ⟨hk, hp⟩ hmiss
  | releaseAgent k workerId target actor shielded =>
      refine iff_of_true (unmoved_of_written fun w hw hp => ?_) trivial
      cases hw
      have hstate : a.state ∈ allowedSources target actor := by
        simpa using (Bool.and_eq_true_iff.mp hp).2
      exact unmoved_of_kept fun _ hkept => Account.live_release hkept hstate target
  | transitionAgent k fromState toState version =>
      refine iff_of_true (unmoved_of_written fun w hw hp => ?_) trivial
      cases hw
      have hstate : a.state = fromState := by
        simpa using (Bool.and_eq_true_iff.mp hp).1
      exact unmoved_of_kept fun _ hkept => Account.live_move hkept hstate toState
  | bindCall k workerId callId =>
      refine iff_of_true (unmoved_of_written fun w hw _ => ?_) trivial
      cases hw
      exact ⟨rfl, rfl, rfl⟩
  | heartbeat k =>
      refine iff_of_true (unmoved_of_written fun w hw _ => ?_) trivial
      cases hw
      exact ⟨rfl, rfl, rfl⟩
  | _ => exact iff_of_true (unmoved_refl ..) trivial

/-- A stay begins when the clock says, or when it once said. -/
theorem changedAt_rewriteAgent_le (hchanged : a.stateChangedAt ≤ c.now)
    (hreading : ∀ agent now, o = .releaseExpiredAgentLease agent now → now ≤ c.now) :
    (o.rewriteAgent c agentId a).stateChangedAt ≤ c.now := by
  refine rewriteAgent_of (P := fun a => a.stateChangedAt ≤ c.now) hchanged fun w hw _ => ?_
  cases o, w, hw using Op.agentWrite_cases with
  | tryReserveAgent _ _ _ _ => exact le_refl _
  | releaseAgent _ _ _ _ _ => exact le_refl _
  | transitionAgent _ _ _ _ => exact le_refl _
  | bindCall _ _ _ => exact hchanged
  | releaseExpiredAgentLease agent now => exact hreading agent now rfl
  | heartbeat _ => exact hchanged

/-! ## Conservation of time -/

/--
What the counters tell, with the current stay, against the time really spent: in all the counted
states, on the phone, and in wrap-up.
-/
def Tells (agrees : Int → Int → Prop) (agentId : String) (s : State) (t₀ : Time)
    (ops : List (Op × Choice)) (a : Agent) (now : Time) : Prop :=
  agrees (a.availableTimeMs + a.busyTimeMs + elapsedInCurrentStateMs a now : Nat)
      (timeIn utilizationDenominatorStates.contains agentId s t₀ ops now)
    ∧ agrees (a.connectedTimeMs
        + if a.state = .connected then elapsedInCurrentStateMs a now else 0 : Nat)
      (timeIn (· == .connected) agentId s t₀ ops now)
    ∧ agrees (a.wrapUpTimeMs
        + if a.state = .wrapUp then elapsedInCurrentStateMs a now else 0 : Nat)
      (timeIn (· == .wrapUp) agentId s t₀ ops now)

/-- They tell the time really spent. -/
def TellsTime (agentId : String) (s : State) (t₀ : Time) (ops : List (Op × Choice)) (a : Agent)
    (now : Time) : Prop :=
  Tells (fun told spent => told = spent) agentId s t₀ ops a now

/-- They tell it to the millisecond, or a millisecond less. -/
def TellsNearly (agentId : String) (s : State) (t₀ : Time) (ops : List (Op × Choice)) (a : Agent)
    (now : Time) : Prop :=
  Tells (fun told spent => told = spent ∨ told = spent - 1) agentId s t₀ ops a now

/-- The current stay, if it counts, comes back from its conversion to seconds as it was. -/
def Agent.StayExact (a : Agent) (now : Time) : Prop :=
  utilizationDenominatorStates.contains a.state = true →
    wholeMs (now - a.stateChangedAt) = now - a.stateChangedAt

/-- The time is told right, whenever the current stay is. -/
def Accurate (agentId : String) (s : State) (t₀ : Time) (ops : List (Op × Choice)) : Prop :=
  ∀ a, (operated s ops).agents.get agentId = some a → ∀ now, clockOf t₀ ops ≤ now →
    a.StayExact now → TellsTime agentId s t₀ ops a now

theorem wholeMs_zero : wholeMs 0 = 0 :=
  wholeMs_of_representable ⟨0, 0, by decide, by simp⟩ ⟨0, 0, by decide, by simp⟩

/-- However long a stay, there is a longer one that is exact. -/
theorem exists_exact (d : Int) : ∃ d', d ≤ d' ∧ wholeMs d' = d' := by
  refine ⟨1000 * 2 ^ d.toNat, ?_, wholeMs_of_representable ⟨1, d.toNat, by decide, ?_⟩
    ⟨1000, d.toNat, by decide, ?_⟩⟩
  · have hlt : (d.toNat : Int) < 2 ^ d.toNat := by exact_mod_cast Nat.lt_two_pow_self
    omega
  · push_cast
    rw [mul_div_cancel_left₀ _ (by decide), one_mul, zpow_natCast]
  · push_cast
    rw [zpow_natCast]

/-- How long the current stay really is, if it counts. -/
def Agent.currentStay (a : Agent) (now : Time) : Int :=
  if utilizationDenominatorStates.contains a.state then max 0 (now - a.stateChangedAt) else 0

/-- How much of it is not told. -/
def Agent.untold (a : Agent) (now : Time) : Int :=
  a.currentStay now - elapsedInCurrentStateMs a now

/-- The stay is told in full exactly if its conversion is exact. -/
theorem untold_eq_zero_iff (hchanged : a.stateChangedAt ≤ now) :
    a.untold now = 0 ↔ a.StayExact now := by
  rw [Agent.untold, sub_eq_zero, eq_comm, elapsedInCurrentStateMs, Agent.currentStay,
    Agent.StayExact, max_eq_right (sub_nonneg.mpr hchanged)]
  cases utilizationDenominatorStates.contains a.state with
  | false => simp
  | true =>
      rw [if_pos rfl, if_pos rfl, Int.toNat_of_nonneg (le_max_left ..)]
      refine ⟨fun h _ => ?_, fun h => ?_⟩
      · -- a stay that is told as nothing at all was nothing
        rcases le_total 0 (wholeMs (now - a.stateChangedAt)) with hpos | hneg
        · rwa [max_eq_right hpos] at h
        · rw [max_eq_left hneg] at h
          rw [← h, wholeMs_zero]
      · rw [h rfl]
        exact max_eq_right (sub_nonneg.mpr hchanged)

/-- And never more than a millisecond short. -/
theorem untold_near (hchanged : a.stateChangedAt ≤ now)
    (hlong : now - a.stateChangedAt < 2 ^ 51) : a.untold now = 0 ∨ a.untold now = 1 := by
  have hstay : 0 ≤ now - a.stateChangedAt := sub_nonneg.mpr hchanged
  rw [Agent.untold, elapsedInCurrentStateMs, Agent.currentStay, max_eq_right hstay]
  cases utilizationDenominatorStates.contains a.state with
  | false => simp
  | true =>
      rw [if_pos rfl, if_pos rfl, Int.toNat_of_nonneg (le_max_left ..)]
      rcases wholeMs_near hstay hlong with h | h <;> rw [h]
      · exact .inl (by rw [max_eq_right hstay, sub_self])
      · rcases hstay.eq_or_lt with hzero | hpos
        · exact .inl (by rw [← hzero]; rfl)
        · refine .inr ?_
          rw [max_eq_right (Int.le_sub_one_of_lt hpos)]
          exact sub_sub_cancel _ _

/-- An account that covers one of the counted states. -/
theorem live_of_one_state (acc : Account) (state : AgentState)
    (hcovers : acc.covers = fun x => x == state)
    (hcounted : utilizationDenominatorStates.contains state = true) (a : Agent) (now : Time) :
    acc.live a now = acc.filed a + if a.state = state then a.currentStay now else 0 := by
  rw [Account.live, hcovers, Agent.currentStay]
  by_cases hstate : a.state = state
  · rw [if_pos hstate, hstate, if_pos hcounted, if_pos (beq_self_eq_true state)]
  · rw [if_neg hstate, if_neg fun h => hstate (beq_iff_eq.mp h)]

/-- All three accounts are right. -/
structure AllBalanced (agentId : String) (s : State) (t₀ : Time) (ops : List (Op × Choice)) :
    Prop where
  total : Account.total.Balanced agentId s t₀ ops
  connected : Account.connected.Balanced agentId s t₀ ops
  wrapUp : Account.wrapUp.Balanced agentId s t₀ ops

/-- The figures are the accounts, but for what is not told of the current stay. -/
theorem tells_iff_live {agrees : Int → Int → Prop} :
    Tells agrees agentId s t₀ ops a now
      ↔ agrees (Account.total.live a now - a.untold now)
          (timeIn utilizationDenominatorStates.contains agentId s t₀ ops now)
        ∧ agrees (Account.connected.live a now - if a.state = .connected then a.untold now else 0)
          (timeIn (· == .connected) agentId s t₀ ops now)
        ∧ agrees (Account.wrapUp.live a now - if a.state = .wrapUp then a.untold now else 0)
          (timeIn (· == .wrapUp) agentId s t₀ ops now) := by
  have htotal : ((a.availableTimeMs + a.busyTimeMs + elapsedInCurrentStateMs a now : Nat) : Int)
      = Account.total.live a now - a.untold now := by
    have hlive : Account.total.live a now
        = (a.availableTimeMs + a.busyTimeMs : Nat) + a.currentStay now := rfl
    rw [hlive, Agent.untold]
    omega
  have hone : ∀ filed : Nat, ∀ state : AgentState,
      ((filed + if a.state = state then elapsedInCurrentStateMs a now else 0 : Nat) : Int)
        = (filed + if a.state = state then a.currentStay now else 0)
          - if a.state = state then a.untold now else 0 := by
    intro filed state
    rw [Agent.untold]
    split <;> omega
  rw [Tells, htotal, hone a.connectedTimeMs .connected, hone a.wrapUpTimeMs .wrapUp,
    live_of_one_state .connected .connected rfl rfl, live_of_one_state .wrapUp .wrapUp rfl rfl]
  rfl

/-- Where the stay is exact, the figures are the accounts. -/
theorem tellsTime_iff_live (hchanged : a.stateChangedAt ≤ now) (hexact : a.StayExact now) :
    TellsTime agentId s t₀ ops a now
      ↔ Account.total.live a now
          = timeIn utilizationDenominatorStates.contains agentId s t₀ ops now
        ∧ Account.connected.live a now = timeIn (· == .connected) agentId s t₀ ops now
        ∧ Account.wrapUp.live a now = timeIn (· == .wrapUp) agentId s t₀ ops now := by
  rw [TellsTime, tells_iff_live, (untold_eq_zero_iff hchanged).mpr hexact]
  simp only [ite_self, sub_zero]

/-- **When the time is told right**, by accounts that are: when the current stay is exact. -/
theorem tellsTime_iff (h : AllBalanced agentId s t₀ ops)
    (ha : (operated s ops).agents.get agentId = some a) (hchanged : a.stateChangedAt ≤ now)
    (hnow : clockOf t₀ ops ≤ now) :
    TellsTime agentId s t₀ ops a now ↔ a.StayExact now := by
  refine ⟨fun htells => (untold_eq_zero_iff hchanged).mp ?_, fun hexact => ?_⟩
  · have htotal := (tells_iff_live.mp htells).1
    rw [h.total a ha now hnow] at htotal
    exact sub_eq_self.mp htotal
  · exact (tellsTime_iff_live hchanged hexact).mpr
      ⟨h.total a ha now hnow, h.connected a ha now hnow, h.wrapUp a ha now hnow⟩

/-- **It is never told wrong by more**, if accounts are right, than by a millisecond. -/
theorem tellsNearly (h : AllBalanced agentId s t₀ ops)
    (ha : (operated s ops).agents.get agentId = some a) (hchanged : a.stateChangedAt ≤ now)
    (hlong : now - a.stateChangedAt < 2 ^ 51) (hnow : clockOf t₀ ops ≤ now) :
    TellsNearly agentId s t₀ ops a now := by
  have hnear : ∀ t : Int, t - a.untold now = t ∨ t - a.untold now = t - 1 := by
    intro t
    rcases untold_near hchanged hlong with huntold | huntold
    · exact .inl (by rw [huntold, sub_zero])
    · exact .inr (by rw [huntold])
  have hpart : ∀ (t : Int) (state : AgentState),
      (t - if a.state = state then a.untold now else 0) = t
        ∨ (t - if a.state = state then a.untold now else 0) = t - 1 := by
    intro t state
    split
    · exact hnear t
    · exact .inl (sub_zero t)
  refine tells_iff_live.mpr ⟨?_, ?_, ?_⟩
  · rw [h.total a ha now hnow]
    exact hnear _
  · rw [h.connected a ha now hnow]
    exact hpart _ _
  · rw [h.wrapUp a ha now hnow]
    exact hpart _ _

/-- The figures are accurate exactly if the accounts are right. -/
theorem accurate_iff (ha : (operated s ops).agents.get agentId = some a)
    (hchanged : a.stateChangedAt ≤ clockOf t₀ ops) :
    Accurate agentId s t₀ ops ↔ AllBalanced agentId s t₀ ops := by
  constructor
  · intro h
    obtain ⟨d, hle, hd⟩ := exists_exact (clockOf t₀ ops - a.stateChangedAt)
    have hlater : clockOf t₀ ops ≤ a.stateChangedAt + d := sub_le_iff_le_add'.mp hle
    have hstay : a.stateChangedAt + d - a.stateChangedAt = d := add_sub_cancel_left ..
    have hexact : a.StayExact (a.stateChangedAt + d) := fun _ => by rw [hstay, hd]
    obtain ⟨htotal, hconnected, hwrapUp⟩ :=
      (tellsTime_iff_live (hchanged.trans hlater) hexact).mp (h a ha _ hlater hexact)
    exact ⟨(Account.balanced_iff ha hchanged hlater).mpr htotal,
      (Account.balanced_iff ha hchanged hlater).mpr hconnected,
      (Account.balanced_iff ha hchanged hlater).mpr hwrapUp⟩
  · intro h a' ha' now hnow hexact
    obtain rfl := Option.some.inj (ha.symm.trans ha')
    exact (tellsTime_iff h ha (hchanged.trans hnow) hnow).mpr hexact

theorem allBalanced_nil (ha : s.agents.get agentId = some a) (hnew : a.Unbooked) :
    AllBalanced agentId s a.stateChangedAt [] where
  total := Account.balanced_nil ha (by simp [Account.filed, Account.total, hnew.available,
    hnew.busy])
  connected := Account.balanced_nil ha hnew.connected
  wrapUp := Account.balanced_nil ha hnew.wrapUp

/-- The agent is there, and its stay has begun. -/
theorem agent_operated (ha : s.agents.get agentId = some a)
    (hclock : Chronological a.stateChangedAt ops) :
    ∃ a', (operated s ops).agents.get agentId = some a'
      ∧ a'.stateChangedAt ≤ clockOf a.stateChangedAt ops := by
  induction ops with
  | nil => exact ⟨a, ha, le_refl _⟩
  | cons x ops ih =>
      obtain ⟨o, c⟩ := x
      obtain ⟨hforward, hreading, hclock⟩ := hclock
      obtain ⟨a', ha', hchanged⟩ := ih hclock
      exact ⟨_, operated_cons_get ha', changedAt_rewriteAgent_le (hchanged.trans hforward) hreading⟩

theorem Chronological.suffix {ops' : List (Op × Choice)} (h : Chronological t₀ ops)
    (hsuffix : ops' <:+ ops) : Chronological t₀ ops' := by
  induction ops with
  | nil =>
      obtain rfl := List.suffix_nil.mp hsuffix
      exact h
  | cons x ops ih =>
      rcases List.suffix_cons_iff.mp hsuffix with rfl | hsuffix
      · exact h
      · exact ih h.2.2 hsuffix

/-- **One step.** Accounts that are right stay so exactly if the operation keeps time. -/
theorem allBalanced_cons_iff (h : AllBalanced agentId s t₀ ops)
    (ha : (operated s ops).agents.get agentId = some a)
    (hchanged : a.stateChangedAt ≤ clockOf t₀ ops) (hforward : clockOf t₀ ops ≤ c.now)
    (hreading : ∀ agent now, o = .releaseExpiredAgentLease agent now → now ≤ c.now) :
    AllBalanced agentId s t₀ ((o, c) :: ops) ↔ KeepsTime agentId o c a := by
  have hstay : a.stateChangedAt ≤ c.now := hchanged.trans hforward
  have hstep : ∀ {acc : Account}, acc.Balanced agentId s t₀ ops →
      (acc.Balanced agentId s t₀ ((o, c) :: ops)
        ↔ acc.live (o.rewriteAgent c agentId a) c.now = acc.live a c.now) := fun hbalanced =>
    Account.balanced_cons_iff hbalanced ha (operated_cons_get ha)
      (changedAt_rewriteAgent_le hstay hreading) hforward
  rw [← unmoved_iff hstay hreading, Unmoved, ← hstep h.total, ← hstep h.connected,
    ← hstep h.wrapUp]
  exact ⟨fun h => ⟨h.total, h.connected, h.wrapUp⟩, fun h => ⟨h.1, h.2.1, h.2.2⟩⟩

/-- **A run.** The accounts are right all along exactly if every operation keeps time. -/
theorem allBalanced_run_iff (ha : s.agents.get agentId = some a) (hnew : a.Unbooked)
    (hclock : Chronological a.stateChangedAt ops) :
    (∀ ops', ops' <:+ ops → AllBalanced agentId s a.stateChangedAt ops')
      ↔ ∀ o c ops', (o, c) :: ops' <:+ ops →
        ∀ a', (operated s ops').agents.get agentId = some a' → KeepsTime agentId o c a' := by
  induction ops with
  | nil =>
      refine iff_of_true (fun ops' hsuffix => ?_) fun o c ops' hsuffix => ?_
      · obtain rfl := List.suffix_nil.mp hsuffix
        exact allBalanced_nil ha hnew
      · cases List.suffix_nil.mp hsuffix
  | cons x ops ih =>
      obtain ⟨o, c⟩ := x
      obtain ⟨hforward, hreading, hclock⟩ := hclock
      obtain ⟨a', ha', hchanged⟩ := agent_operated ha hclock
      have hstep : AllBalanced agentId s a.stateChangedAt ops →
          (AllBalanced agentId s a.stateChangedAt ((o, c) :: ops) ↔ KeepsTime agentId o c a') :=
        fun h => allBalanced_cons_iff h ha' hchanged hforward hreading
      constructor
      · intro hall o' c' ops' hsuffix a'' ha''
        have hbefore : ∀ ops', ops' <:+ ops → AllBalanced agentId s a.stateChangedAt ops' :=
          fun ops' h => hall ops' (h.trans (List.suffix_cons ..))
        rcases List.suffix_cons_iff.mp hsuffix with heq | hsuffix
        · cases heq
          obtain rfl := Option.some.inj (ha'.symm.trans ha'')
          exact (hstep (hbefore _ List.suffix_rfl)).mp (hall _ List.suffix_rfl)
        · exact (ih hclock).mp hbefore o' c' ops' hsuffix a'' ha''
      · intro hall ops' hsuffix
        have hbefore := (ih hclock).mpr fun o' c' ops' h =>
          hall o' c' ops' (h.trans (List.suffix_cons ..))
        rcases List.suffix_cons_iff.mp hsuffix with rfl | hsuffix
        · exact (hstep (hbefore _ List.suffix_rfl)).mpr (hall o c ops List.suffix_rfl a' ha')
        · exact hbefore ops' hsuffix

/--
**When time is conserved.** In a run of operations with a clock that does not go back, on an agent
inserted with no time counted: in every state of the run, and whenever one looks at a moment at
which the current stay is exact, the figures are the time really spent, exactly if every
operation of the run keeps time. Then there are no other moments at which they are, and at those
others they are a millisecond short at most, unless a stay lasts for seventy thousand years.
-/
theorem time_conserved_iff (ha : s.agents.get agentId = some a) (hnew : a.Unbooked)
    (hclock : Chronological a.stateChangedAt ops) :
    ((∀ ops', ops' <:+ ops → Accurate agentId s a.stateChangedAt ops')
        ↔ ∀ o c ops', (o, c) :: ops' <:+ ops →
          ∀ a', (operated s ops').agents.get agentId = some a' → KeepsTime agentId o c a')
      ∧ ((∀ ops', ops' <:+ ops → Accurate agentId s a.stateChangedAt ops') →
        ∀ ops', ops' <:+ ops → ∀ a', (operated s ops').agents.get agentId = some a' →
          ∀ now, clockOf a.stateChangedAt ops' ≤ now →
            (TellsTime agentId s a.stateChangedAt ops' a' now ↔ a'.StayExact now)
              ∧ (now - a'.stateChangedAt < 2 ^ 51 →
                TellsNearly agentId s a.stateChangedAt ops' a' now)) := by
  have hiff : ∀ ops', ops' <:+ ops → (Accurate agentId s a.stateChangedAt ops'
      ↔ AllBalanced agentId s a.stateChangedAt ops') := by
    intro ops' hsuffix
    obtain ⟨a', ha', hchanged⟩ := agent_operated ha (hclock.suffix hsuffix)
    exact accurate_iff ha' hchanged
  constructor
  · rw [← allBalanced_run_iff ha hnew hclock]
    exact forall₂_congr hiff
  · intro hall ops' hsuffix a' ha' now hnow
    obtain ⟨a'', ha'', hchanged⟩ := agent_operated ha (hclock.suffix hsuffix)
    obtain rfl := Option.some.inj (ha'.symm.trans ha'')
    have hbalanced := (hiff ops' hsuffix).mp (hall ops' hsuffix)
    exact ⟨tellsTime_iff hbalanced ha' (hchanged.trans hnow) hnow,
      fun hlong => tellsNearly hbalanced ha' (hchanged.trans hnow) hlong hnow⟩

/-! ## A reservation -/

/-- The agent logs in at once, and is reserved and dialled after so many milliseconds. -/
def reservedAfter (wait : Time) : List (Op × Choice) :=
  [(.transitionAgent "agent" .reserved .dialing 2, { now := wait + 4000 }),
    (.tryReserveAgent "campaign" "agent" "worker" 30, { now := wait }),
    (.transitionAgent "agent" .offline .available 0, {})]

theorem reservedAfter_chronological {wait : Time} (h : 0 ≤ wait) :
    Chronological 0 (reservedAfter wait) :=
  ⟨le_add_of_nonneg_right (by decide), (fun _ _ h => by cases h), h, (fun _ _ h => by cases h),
    le_refl _, (fun _ _ h => by cases h), trivial⟩

/-- Reserved the moment it is available, the agent loses no time. -/
theorem time_conserved_atOnce : Chronological 0 (reservedAfter 0)
    ∧ ∀ ops', ops' <:+ reservedAfter 0 → Accurate "agent" loggedOut 0 ops' := by
  have hclock : Chronological 0 (reservedAfter 0) := reservedAfter_chronological (le_refl 0)
  refine ⟨hclock, (time_conserved_iff
    (a := { id := "agent", campaignId := "campaign", stateChangedAt := 0 })
    rfl ⟨rfl, rfl, rfl, rfl⟩ hclock).1.mpr ?_⟩
  intro o c ops' hsuffix a' ha'
  rw [reservedAfter, List.suffix_cons_iff, List.suffix_cons_iff, List.suffix_cons_iff,
    List.suffix_nil] at hsuffix
  rcases hsuffix with h | h | h | h
  · cases h
    trivial
  · cases h
    intro _ _
    have hchanged : ((operated loggedOut [(.transitionAgent "agent" .offline .available 0,
        {})]).agents.get "agent").map Agent.stateChangedAt = some 0 := rfl
    rw [ha'] at hchanged
    exact (Option.some.inj hchanged).symm
  · cases h
    trivial
  · cases h

/-- Reserved after ten seconds, it has been available for ten seconds that nobody counts. -/
theorem time_not_conserved :
    ¬∀ (s : State) (agentId : String) (a : Agent) (ops : List (Op × Choice)),
      s.agents.get agentId = some a → a.Unbooked → Chronological a.stateChangedAt ops →
      ∀ a', (operated s ops).agents.get agentId = some a' →
        ∀ now, clockOf a.stateChangedAt ops ≤ now →
          TellsTime agentId s a.stateChangedAt ops a' now := by
  intro hall
  have htells := hall loggedOut "agent"
    { id := "agent", campaignId := "campaign", stateChangedAt := 0 } (reservedAfter 10000) rfl
    ⟨rfl, rfl, rfl, rfl⟩ (reservedAfter_chronological (by decide))
  have hcounted : ((operated loggedOut (reservedAfter 10000)).agents.get "agent").any (fun a =>
      a.availableTimeMs + a.busyTimeMs + elapsedInCurrentStateMs a 20000 == 10000) = true := by
    decide +kernel
  have hspent : timeIn utilizationDenominatorStates.contains "agent" loggedOut 0
      (reservedAfter 10000) 20000 = 20000 := by
    decide +kernel
  obtain ⟨a, ha, hcounted⟩ := Option.any_eq_true _ _ |>.mp hcounted
  have htotal := (htells a ha 20000 (by decide)).1
  rw [beq_iff_eq.mp hcounted, hspent] at htotal
  exact absurd htotal (by decide)

end SmartDialer
