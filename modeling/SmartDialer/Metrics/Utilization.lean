import Mathlib.Algebra.Order.BigOperators.Group.List
import Mathlib.Algebra.Order.Field.Basic
import Mathlib.Algebra.Order.Field.Rat
import SmartDialer.Writes
import SmartDialer.Workers.DialerWorker

/-!
# Utilization

`app/metrics/utilization.py`, and what the repository's bookkeeping makes of it. The four
counters of an agent are written by whoever takes it out of a state; here the operations come
in any order, with any clock readings, and what they leave is still a proper ratio.
-/

namespace SmartDialer

open Store Conc

/-! ## Runs of operations -/

/-- The state after these operations, the latest of them first. -/
def operated (s : State) : List (Op × Choice) → State
  | [] => s
  | (o, c) :: ops => (effect o c (operated s ops)).2

/-- An agent found after an operation was there before it. -/
theorem agent_of_effect {o : Op} {c : Choice} {s : State} {k : String} {a' : Agent}
    (h : (effect o c s).2.agents.get k = some a') :
    ∃ a, s.agents.get k = some a ∧ Rewritten (o.agentWrite c) a a' := by
  rw [effect_agents] at h
  cases hw : o.agentWrite c with
  | none =>
      rw [hw] at h
      exact ⟨a', h, .same⟩
  | some w =>
      rw [hw] at h
      exact Collection.get_write_some h

/-- **The invariant rule.** What every write to an agent keeps is true of every agent. -/
theorem operated_invariant {A : Agent → Prop} {s : State}
    (hinit : ∀ k a, s.agents.get k = some a → A a)
    (hwrite : ∀ (o : Op) c w a, o.agentWrite c = some w → A a → A (w.update.apply a))
    (ops : List (Op × Choice)) : ∀ k a, (operated s ops).agents.get k = some a → A a := by
  induction ops with
  | nil => exact hinit
  | cons x ops ih =>
      intro k a' ha'
      obtain ⟨a, ha, hre⟩ := agent_of_effect ha'
      cases hre with
      | same => exact ih k _ ha
      | written w hw _ _ => exact hwrite _ _ w _ hw (ih k _ ha)

/-! ## The model -/

/-- `UTILIZATION_DENOMINATOR_STATES`. -/
def utilizationDenominatorStates : List AgentState :=
  [.available, .reserved, .dialing, .connected, .wrapUp]

/-- `AgentUtilization`. -/
structure AgentUtilization where
  agentId : String
  connectedTimeMs : Nat
  productiveTimeMs : Nat
  countedTimeMs : Nat
  talkUtilization : Option ℚ
  productiveUtilization : Option ℚ

/-- `CampaignUtilization`. -/
structure CampaignUtilization where
  connectedTimeMs : Nat
  productiveTimeMs : Nat
  countedTimeMs : Nat
  talkUtilization : Option ℚ
  productiveUtilization : Option ℚ
  agentsCounted : Nat

/-- `_ratio`. -/
def ratio (numerator denominator : Nat) : Option ℚ :=
  if denominator ≤ 0 then none else some (numerator / denominator)

/-- `elapsed_in_current_state_ms`. -/
def elapsedInCurrentStateMs (agent : Agent) (now : Time) : Nat :=
  if utilizationDenominatorStates.contains agent.state then
    (max 0 (wholeMs (now - agent.stateChangedAt))).toNat
  else 0

/-- `_live_totals`: connected, productive and counted time. -/
def liveTotals (agent : Agent) (now : Time) : Nat × Nat × Nat :=
  let elapsed := elapsedInCurrentStateMs agent now
  let counted := agent.busyTimeMs + agent.availableTimeMs + elapsed
  let connected :=
    if agent.state = .connected then agent.connectedTimeMs + elapsed else agent.connectedTimeMs
  let wrapUp :=
    if agent.state = .wrapUp then agent.wrapUpTimeMs + elapsed else agent.wrapUpTimeMs
  (connected, connected + wrapUp, counted)

/-- `agent_utilization`, with the moment it is asked for. -/
def agentUtilization (agent : Agent) (now : Time) : AgentUtilization :=
  let (connected, productive, counted) := liveTotals agent now
  { agentId := agent.id
    connectedTimeMs := connected
    productiveTimeMs := productive
    countedTimeMs := counted
    talkUtilization := ratio connected counted
    productiveUtilization := ratio productive counted }

/-- `campaign_utilization`, with the moment it is asked for. -/
def campaignUtilization (agents : List Agent) (moment : Time) : CampaignUtilization :=
  let totals := agents.map fun agent => liveTotals agent moment
  let connected := (totals.map fun item => item.1).sum
  let productive := (totals.map fun item => item.2.1).sum
  let counted := (totals.map fun item => item.2.2).sum
  { connectedTimeMs := connected
    productiveTimeMs := productive
    countedTimeMs := counted
    talkUtilization := ratio connected counted
    productiveUtilization := ratio productive counted
    agentsCounted := agents.length }

/-! ## Proper ratios -/

/-- Three times, each within the next, and the ratios of the first two to the third. -/
structure Proper (connected productive counted : Nat) (talk worked : Option ℚ) : Prop where
  nonneg : 0 ≤ connected
  connected_le : connected ≤ productive
  productive_le : productive ≤ counted
  talk_rate : ∀ t ∈ talk, 0 ≤ t ∧ t ≤ 1
  worked_rate : ∀ p ∈ worked, 0 ≤ p ∧ p ≤ 1
  /-- There is a talk utilization exactly if there is a productive one, and it is at most that. -/
  none_iff : talk = none ↔ worked = none
  talk_le : ∀ t ∈ talk, ∀ p ∈ worked, t ≤ p

theorem ratio_eq_none_iff {numerator denominator : Nat} :
    ratio numerator denominator = none ↔ denominator = 0 := by
  rw [ratio]
  split <;> simp <;> omega

theorem mem_ratio {numerator denominator : Nat} {x : ℚ} (h : x ∈ ratio numerator denominator) :
    0 < denominator ∧ x = numerator / denominator := by
  rw [ratio] at h
  split at h
  · cases h
  · exact ⟨by omega, (Option.some.inj h).symm⟩

theorem ratio_rate {numerator denominator : Nat} (hle : numerator ≤ denominator) {x : ℚ}
    (h : x ∈ ratio numerator denominator) : 0 ≤ x ∧ x ≤ 1 := by
  obtain ⟨hpos, rfl⟩ := mem_ratio h
  refine ⟨div_nonneg (Nat.cast_nonneg _) (Nat.cast_nonneg _), ?_⟩
  exact (div_le_one (Nat.cast_pos.mpr hpos)).mpr (Nat.cast_le.mpr hle)

theorem proper_of_le {connected productive counted : Nat} (h : connected ≤ productive)
    (h' : productive ≤ counted) :
    Proper connected productive counted (ratio connected counted) (ratio productive counted) where
  nonneg := Nat.zero_le _
  connected_le := h
  productive_le := h'
  talk_rate _ ht := ratio_rate (h.trans h') ht
  worked_rate _ hp := ratio_rate h' hp
  none_iff := ratio_eq_none_iff.trans ratio_eq_none_iff.symm
  talk_le t ht p hp := by
    obtain ⟨hpos, rfl⟩ := mem_ratio ht
    obtain ⟨-, rfl⟩ := mem_ratio hp
    exact div_le_div_of_nonneg_right (Nat.cast_le.mpr h) (Nat.cast_nonneg _)

/-! ## The books of an agent -/

/-- As `insert_many` files it: no time has been counted. -/
structure Agent.Unbooked (a : Agent) : Prop where
  busy : a.busyTimeMs = 0
  available : a.availableTimeMs = 0
  connected : a.connectedTimeMs = 0
  wrapUp : a.wrapUpTimeMs = 0

/-- Time on the phone and in wrap-up is busy time. -/
def Agent.Booked (a : Agent) : Prop := a.connectedTimeMs + a.wrapUpTimeMs ≤ a.busyTimeMs

theorem Agent.Unbooked.booked {a : Agent} (h : a.Unbooked) : a.Booked := by
  rw [Agent.Booked, h.connected, h.wrapUp, h.busy]

theorem Agent.Booked.timeAccountingUpdates {a : Agent} (h : a.Booked) (source : AgentState)
    (now : Time) : (AgentRepository.timeAccountingUpdates source now a).Booked := by
  rw [Agent.Booked] at h ⊢
  cases source <;> simp only [AgentRepository.timeAccountingUpdates] <;> omega

theorem Agent.Booked.conditionalAccounting {a : Agent} (h : a.Booked)
    (sources : List AgentState) (now : Time) :
    (AgentRepository.conditionalAccounting sources now a).Booked := by
  rw [AgentRepository.conditionalAccounting]
  split
  · exact h.timeAccountingUpdates _ now
  · exact h

/-- **One step.** Whatever the source state and the clock, the books stay in order. -/
theorem Agent.Booked.write {o : Op} {c : Choice} {w : Write Agent} {a : Agent}
    (hw : o.agentWrite c = some w) (h : a.Booked) : (w.update.apply a).Booked := by
  refine Op.agentWrite_cases (c := c) (motive := fun _ w _ => (w.update.apply a).Booked)
    ?_ ?_ ?_ ?_ ?_ ?_ o w hw
  · exact fun _ _ _ _ => h
  · exact fun _ _ _ _ _ => h.conditionalAccounting _ c.now
  · exact fun _ _ _ _ => h.timeAccountingUpdates _ c.now
  · exact fun _ _ _ => h
  · exact fun _ _ => h
  · exact fun _ => h

theorem liveTotals_le {a : Agent} (h : a.Booked) (now : Time) :
    (liveTotals a now).1 ≤ (liveTotals a now).2.1
      ∧ (liveTotals a now).2.1 ≤ (liveTotals a now).2.2 := by
  rw [Agent.Booked] at h
  simp only [liveTotals]
  refine ⟨Nat.le_add_right .., ?_⟩
  by_cases hconnected : a.state = .connected
  · rw [if_pos hconnected, if_neg (by rw [hconnected]; decide)]
    omega
  · rw [if_neg hconnected]
    split <;> omega

/-! ## Utilization -/

/-- An agent as some run of operations on `s` leaves it. -/
def Documented (s : State) (a : Agent) : Prop :=
  ∃ ops, (operated s ops).agents.get a.id = some a

theorem Documented.booked {s : State} (hs : ∀ k a, s.agents.get k = some a → a.Unbooked)
    {a : Agent} (h : Documented s a) : a.Booked := by
  obtain ⟨ops, hops⟩ := h
  exact operated_invariant (fun k a ha => (hs k a ha).booked) (fun _ _ _ _ hw h => h.write hw)
    ops a.id a hops

/--
**Utilization is a proper ratio**, of each agent and of each list of agents, when they have been
inserted with no time counted: in every run of operations, in any order and with any clock
readings, and whenever it is asked for.
-/
theorem utilization_proper {s : State} (hs : ∀ k a, s.agents.get k = some a → a.Unbooked) :
    (∀ a, Documented s a → ∀ now,
        Proper (agentUtilization a now).connectedTimeMs (agentUtilization a now).productiveTimeMs
          (agentUtilization a now).countedTimeMs (agentUtilization a now).talkUtilization
          (agentUtilization a now).productiveUtilization)
      ∧ ∀ agents : List Agent, (∀ a ∈ agents, Documented s a) → ∀ now,
        Proper (campaignUtilization agents now).connectedTimeMs
          (campaignUtilization agents now).productiveTimeMs
          (campaignUtilization agents now).countedTimeMs
          (campaignUtilization agents now).talkUtilization
          (campaignUtilization agents now).productiveUtilization := by
  have hle : ∀ a, Documented s a → ∀ now, (liveTotals a now).1 ≤ (liveTotals a now).2.1
      ∧ (liveTotals a now).2.1 ≤ (liveTotals a now).2.2 :=
    fun a ha now => liveTotals_le (ha.booked hs) now
  refine ⟨fun a ha now => proper_of_le (hle a ha now).1 (hle a ha now).2, fun agents hall now => ?_⟩
  have hsum : ∀ f g : Nat × Nat × Nat → Nat,
      (∀ a, Documented s a → f (liveTotals a now) ≤ g (liveTotals a now)) →
      ((agents.map fun agent => liveTotals agent now).map f).sum
        ≤ ((agents.map fun agent => liveTotals agent now).map g).sum := by
    intro f g hfg
    rw [List.map_map, List.map_map]
    exact List.sum_le_sum fun a ha => hfg a (hall a ha)
  exact proper_of_le (hsum _ _ fun a ha => (hle a ha now).1) (hsum _ _ fun a ha => (hle a ha now).2)

/-! ## A clock that goes backwards -/

/-- One agent, logged out, and nothing else. -/
def loggedOut : State where
  agents := ⟨[{ id := "agent", campaignId := "campaign", stateChangedAt := 0 }],
    List.nodup_singleton _⟩
  borrowers := .empty
  calls := .empty
  events := .empty
  log := []

theorem loggedOut_unbooked : ∀ k a, loggedOut.agents.get k = some a → a.Unbooked := by
  intro k a ha
  obtain rfl := List.mem_singleton.mp (Collection.mem_of_get ha)
  exact ⟨rfl, rfl, rfl, rfl⟩

/-- The agent logs in, is reserved, dialled and connected; twice the clock is set back. -/
def againstTheClock : List (Op × Choice) :=
  [(.transitionAgent "agent" .dialing .connected 3, { now := 90 }),
    (.transitionAgent "agent" .reserved .dialing 2, { now := 100 }),
    (.tryReserveAgent "campaign" "agent" "worker" 30, { now := 40 }),
    (.transitionAgent "agent" .offline .available 0, { now := 50 })]

/-- The talk utilization is a rate all the same. -/
theorem utilization_proper_againstTheClock :
    ∃ a, Documented loggedOut a ∧ (agentUtilization a 200).talkUtilization = some (11 / 17)
      ∧ ∀ t ∈ (agentUtilization a 200).talkUtilization, 0 ≤ t ∧ t ≤ 1 := by
  have htest : ((operated loggedOut againstTheClock).agents.get "agent").any (fun a =>
      a.id == "agent" && (agentUtilization a 200).talkUtilization == some (11 / 17)) = true := by
    decide +kernel
  obtain ⟨a, ha, hrest⟩ := Option.any_eq_true _ _ |>.mp htest
  obtain ⟨hid, htalk⟩ := Bool.and_eq_true_iff.mp hrest
  have hdocumented : Documented loggedOut a := ⟨againstTheClock, (beq_iff_eq.mp hid).symm ▸ ha⟩
  exact ⟨a, hdocumented, beq_iff_eq.mp htalk,
    ((utilization_proper loggedOut_unbooked).1 a hdocumented 200).talk_rate⟩

end SmartDialer
