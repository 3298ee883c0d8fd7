import SmartDialer.Protocol.Lifecycle

/-!
# What a provider is asked to call

A dial reserves its agent and its borrower, and then takes five steps before it asks the
provider for a call. The agent is moved and the call is bound under filters that fail when
the agent was lost in the meantime; but nobody looks at what they answer, and the borrower
is not looked at again at all. So the pair is known to be held at the request only in the
runs in which nobody else interferes with a pair that is being set up. Who sets up what is
read off the log.
-/

namespace SmartDialer

open Store Conc

/-! ## Statement -/

/-- The agent is DIALING on this call for the worker, and the borrower is reserved for it. -/
def Ready (pair : ReservationPair) (callId : String) (s : State) : Prop :=
  (∃ a ∈ s.agents.get pair.agent.id,
      a.state = .dialing ∧ a.reservedBy = some pair.workerId ∧ a.currentCallId = some callId)
    ∧ ∃ b ∈ s.borrowers.get pair.borrower.id,
      b.status = .reserved ∧ b.reservedBy = some pair.workerId

instance (pair : ReservationPair) (callId : String) (s : State) :
    Decidable (Ready pair callId s) := by
  unfold Ready
  infer_instance

/-- A provider is asked only for calls whose pair is ready. -/
def Op.Backed (s : State) : Op → Prop
  | .originateCall _ pair request => Ready pair request.callId s
  | _ => True

/-- What a process is setting up: its agent, and its borrower once it has one. -/
structure SettingUp where
  agentId : Option String := none
  borrowerId : Option String := none

/-- The failures a dial, or the reservation of its pair, goes on after. -/
def Op.survives : Op → Exn → Bool
  | .insertCall .., e => e == .duplicateKeyError
  | .findClaimableBorrowers .., e | .tryReserveBorrower .., e => e.isPyMongoError
  | _, _ => false

/-- What an answer makes of that. -/
def SettingUp.after (u : SettingUp) : (o : Op) → Except Exn (Ans o) → SettingUp
  | .tryReserveAgent .., .ok (some a) => ⟨some a.id, none⟩
  | .tryReserveBorrower .., .ok (some b) => ⟨u.agentId, some b.id⟩
  | .releaseAgent .., _ | .originateCall .., _ => {}
  | _, .ok _ => u
  | o, .error e => if o.survives e then u else {}

/-- What process `i` is setting up. -/
def settingUp (i : Nat) : List Entry → SettingUp
  | [] => {}
  | .answered j o r :: log => if j = i then (settingUp i log).after o r else settingUp i log
  | .crashed j :: log => if j = i then {} else settingUp i log

/-- The operation, which is no heartbeat, is addressed to the agent, and its filter holds. -/
def Op.touchesAgent (ch : Choice) (s : State) (agentId : String) : Op → Bool
  | .heartbeat _ => false
  | o => (o.agentWrite ch).any fun w =>
      w.target == agentId && (s.agents.get agentId).any w.filter

/-- The operation is addressed to the borrower, and its filter holds. -/
def Op.touchesBorrower (ch : Choice) (s : State) (borrowerId : String) (o : Op) : Bool :=
  (o.borrowerWrite ch).any fun w =>
    w.target == borrowerId && (s.borrowers.get borrowerId).any w.filter

/--
The runs in which no update of another process, heartbeats excepted, matches the agent or
the borrower of a pair that is being set up.
-/
def unhindered (cfg : Settings) : Policy (dialer cfg) where
  task _ := True
  run i o ch s := ch.performs o = true → ∀ e ∈ s.log, e.process ≠ i →
    (∀ k ∈ (settingUp e.process s.log).agentId, o.touchesAgent ch s k = false)
      ∧ ∀ k ∈ (settingUp e.process s.log).borrowerId, o.touchesBorrower ch s k = false

instance (cfg : Settings) : (unhindered cfg).Checkable where
  task _ := .isTrue trivial
  run _ _ _ s := inferInstanceAs (Decidable (_ → ∀ e ∈ s.log, _ → _ ∧ _))

/-! ## Who sets up what -/

variable {i : Nat} {o : Op} {ch : Choice} {s : State}

theorem settingUp_self (i : Nat) (o : Op) (ch : Choice) (s : State) :
    settingUp i (exec i o ch s).2.log = (settingUp i s.log).after o (exec i o ch s).1 := by
  rw [exec_log, settingUp, if_pos rfl]

/-- What a process does says nothing of what others set up. -/
theorem settingUp_other {j : Nat} (hj : j ≠ i) (o : Op) (ch : Choice) (s : State) :
    settingUp j (exec i o ch s).2.log = settingUp j s.log := by
  rw [exec_log, settingUp, if_neg (Ne.symm hj)]

/-- A failure that is survived ends nothing. -/
theorem after_error {u : SettingUp} {e : Exn} (he : o.survives e = true) :
    u.after o (.error e) = u := by
  cases o <;> exact if_pos he

/-- A process that sets something up is in the log. -/
theorem mem_of_settingUp {j : Nat} {log : List Entry}
    (h : (settingUp j log).agentId ≠ none ∨ (settingUp j log).borrowerId ≠ none) :
    ∃ e ∈ log, e.process = j := by
  induction log with
  | nil => exact (h.elim (fun h => h rfl) fun h => h rfl).elim
  | cons e log ih =>
      by_cases hj : e.process = j
      · exact ⟨e, List.mem_cons_self, hj⟩
      · have hlog : settingUp j (e :: log) = settingUp j log := by
          cases e with
          | answered k o r => exact if_neg hj
          | crashed k => exact if_neg hj
        rw [hlog] at h
        obtain ⟨e', he', hj'⟩ := ih h
        exact ⟨e', List.mem_cons_of_mem e he', hj'⟩

/-! ## What is known of a pair -/

/-- What the document of an agent says of who has it. -/
structure AgentClaim where
  state : AgentState
  version : Nat
  reservedBy : Option String
  callId : Option String

/-- Who has the agent. -/
def State.agentClaim (s : State) (agentId : String) : Option AgentClaim :=
  (s.agents.get agentId).map fun a => ⟨a.state, a.stateVersion, a.reservedBy, a.currentCallId⟩

/-- Who has the borrower. -/
def State.borrowerClaim (s : State) (borrowerId : String) :
    Option (BorrowerStatus × Option String) :=
  (s.borrowers.get borrowerId).map fun b => (b.status, b.reservedBy)

/-- Whoever does not touch an agent leaves it to who has it. -/
theorem agentClaim_exec {k : String}
    (h : ch.performs o = true → o.touchesAgent ch s k = false) :
    (exec i o ch s).2.agentClaim k = s.agentClaim k := by
  cases hperf : ch.performs o with
  | false =>
      rw [exec_of_not_performs hperf]
      rfl
  | true =>
      rcases exec_agents i o ch s with he | ⟨w, hw, he⟩
      · rw [State.agentClaim, he, State.agentClaim]
      · have htouch := h hperf
        rw [State.agentClaim, he, Collection.write, Collection.get_update, Option.map_map,
          State.agentClaim]
        cases ha : s.agents.get k with
        | none => rfl
        | some a =>
            simp only [Option.map_some, Function.comp_apply]
            split
            · -- only a heartbeat gets here
              rename_i hkp
              obtain ⟨rfl, hp⟩ := hkp
              cases o with
              | heartbeat agentId =>
                  obtain rfl := Option.some.inj hw
                  rfl
              | _ =>
                  simp only [Op.touchesAgent, hw, Option.any_some, ha, hp, beq_self_eq_true,
                    Bool.and_self, Bool.true_eq_false] at htouch
            · rfl

/-- Whoever does not touch a borrower leaves it to who has it. -/
theorem borrowerClaim_exec {k : String}
    (h : ch.performs o = true → o.touchesBorrower ch s k = false) :
    (exec i o ch s).2.borrowerClaim k = s.borrowerClaim k := by
  cases hperf : ch.performs o with
  | false =>
      rw [exec_of_not_performs hperf]
      rfl
  | true =>
      rcases exec_borrowers i o ch s with he | ⟨w, hw, he⟩
      · rw [State.borrowerClaim, he, State.borrowerClaim]
      · have htouch := h hperf
        rw [State.borrowerClaim, he, Collection.write, Collection.get_update, Option.map_map,
          State.borrowerClaim]
        cases hb : s.borrowers.get k with
        | none => rfl
        | some b =>
            simp only [Option.map_some, Function.comp_apply]
            split
            · rename_i hkp
              obtain ⟨rfl, hp⟩ := hkp
              simp only [Op.touchesBorrower, hw, Option.any_some, hb, hp, beq_self_eq_true,
                Bool.and_self, Bool.true_eq_false] at htouch
            · rfl

/-! ## The logic -/

section

variable {cfg : Settings}

/-- What others set up is left alone, and every request to a provider is backed. -/
def handover (cfg : Settings) : Logic (unhindered cfg) Unit where
  Inv _ := True
  Guar i s s' :=
    (∀ j, j ≠ i → settingUp j s'.1.log = settingUp j s.1.log
      ∧ (∀ k ∈ (settingUp j s.1.log).agentId, s'.1.agentClaim k = s.1.agentClaim k)
      ∧ ∀ k ∈ (settingUp j s.1.log).borrowerId, s'.1.borrowerClaim k = s.1.borrowerClaim k)
    ∧ ∀ o r, s'.1.log = .answered i o r :: s.1.log → o.Backed s.1

/-- The triple of an operation; only a request to a provider has something to show for. -/
theorem handover_atomic {A : Assertion Unit} {B : Except Exn (Ans o) → Assertion Unit}
    (hback : ∀ s, A s → o.Backed s.1)
    (hB : ∀ ch s, A s → B (exec i o ch s.1).1 ((exec i o ch s.1).2, ())) :
    (handover cfg).Atomic i o A B := by
  intro s _ hs ch hc
  refine ⟨(), trivial, ⟨?_, ?_⟩, hB ch s hs⟩
  · intro j hj
    refine ⟨settingUp_other hj o ch s.1, ?_, ?_⟩
    · intro k hk
      obtain ⟨e, he, rfl⟩ := mem_of_settingUp (.inl (Option.ne_none_iff_exists'.mpr ⟨k, hk⟩))
      exact agentClaim_exec fun hperf => (hc hperf e he hj).1 k hk
    · intro k hk
      obtain ⟨e, he, rfl⟩ := mem_of_settingUp (.inr (Option.ne_none_iff_exists'.mpr ⟨k, hk⟩))
      exact borrowerClaim_exec fun hperf => (hc hperf e he hj).2 k hk
  · intro o' r hlog
    rw [exec_log] at hlog
    obtain ⟨-, rfl, -⟩ := Entry.answered.inj (List.cons.inj hlog).1
    exact hback s hs

/-- Process `i` is setting up the agent, and `C` is true of it. -/
def AgentIs (i : Nat) (agentId : String) (C : AgentClaim → Prop) : Assertion Unit := fun s =>
  (settingUp i s.1.log).agentId = some agentId ∧ ∃ c, s.1.agentClaim agentId = some c ∧ C c

/-- Process `i` is setting up the borrower, which is RESERVED for the worker. -/
def BorrowerIs (i : Nat) (borrowerId workerId : String) : Assertion Unit := fun s =>
  (settingUp i s.1.log).borrowerId = some borrowerId
    ∧ s.1.borrowerClaim borrowerId = some (.reserved, some workerId)

theorem agentIs_stable (agentId : String) (C : AgentClaim → Prop) :
    (handover cfg).Stable i (AgentIs i agentId C) := by
  refine Logic.stable_of_step ?_
  rintro j s s' hj ⟨hothers, -⟩ - ⟨hset, hclaim⟩
  obtain ⟨hset', hagent, -⟩ := hothers i hj.symm
  refine ⟨hset' ▸ hset, ?_⟩
  rwa [hagent agentId hset]

theorem borrowerIs_stable (borrowerId workerId : String) :
    (handover cfg).Stable i (BorrowerIs i borrowerId workerId) := by
  refine Logic.stable_of_step ?_
  rintro j s s' hj ⟨hothers, -⟩ - ⟨hset, hclaim⟩
  obtain ⟨hset', -, hborrower⟩ := hothers i hj.symm
  refine ⟨hset' ▸ hset, ?_⟩
  rwa [hborrower borrowerId hset]

/-- An operation that touches no agent, after which the setting up goes on. -/
theorem agentIs_exec {agentId : String} {C : AgentClaim → Prop} {s : State × Unit}
    (ho : ∀ ch, o.agentWrite ch = none)
    (hset : ((settingUp i s.1.log).after o (exec i o ch s.1).1).agentId
      = (settingUp i s.1.log).agentId)
    (h : AgentIs i agentId C s) : AgentIs i agentId C ((exec i o ch s.1).2, ()) := by
  refine ⟨?_, ?_⟩
  · rw [settingUp_self, hset]
    exact h.1
  · have htouch : o.touchesAgent ch s.1 agentId = false := by
      rw [Op.touchesAgent.eq_def]
      split
      · rfl
      · rw [ho ch]
        rfl
    rw [agentClaim_exec fun _ => htouch]
    exact h.2

theorem borrowerIs_exec {borrowerId workerId : String} {s : State × Unit}
    (ho : ∀ ch, o.borrowerWrite ch = none)
    (hset : ((settingUp i s.1.log).after o (exec i o ch s.1).1).borrowerId
      = (settingUp i s.1.log).borrowerId)
    (h : BorrowerIs i borrowerId workerId s) :
    BorrowerIs i borrowerId workerId ((exec i o ch s.1).2, ()) := by
  refine ⟨?_, ?_⟩
  · rw [settingUp_self, hset]
    exact h.1
  · rw [borrowerClaim_exec fun _ => by rw [Op.touchesBorrower, ho ch]; rfl]
    exact h.2

/-! ## Dials -/

/-- The agent is as it was reserved. -/
def AsReserved (version : Nat) (workerId : String) (c : AgentClaim) : Prop :=
  c.state = .reserved ∧ c.version = version ∧ c.reservedBy = some workerId

/-- Process `i` is setting up the pair, and `C` is true of its agent. -/
def PairIs (i : Nat) (pair : ReservationPair) (C : AgentClaim → Prop) : Assertion Unit := fun s =>
  AgentIs i pair.agent.id C s ∧ BorrowerIs i pair.borrower.id pair.workerId s

/-- What is asserted at each point of a dial. -/
def handoverPoints (i : Nat) (pair : ReservationPair) : DialPoint → Assertion Unit
  | .held | .created _ | .initiated _ =>
      PairIs i pair (AsReserved pair.agent.stateVersion pair.workerId)
  | .dialing _ => PairIs i pair fun c =>
      c.state = .dialing ∧ c.reservedBy = some pair.workerId
  | .bound callId => PairIs i pair fun c =>
      c.state = .dialing ∧ c.reservedBy = some pair.workerId ∧ c.callId = some callId
  | _ => fun _ => True

variable {pair : ReservationPair} {C : AgentClaim → Prop}

theorem pairIs_stable (pair : ReservationPair) (C : AgentClaim → Prop) :
    (handover cfg).Stable i (PairIs i pair C) :=
  Logic.Stable.and (agentIs_stable _ C) (borrowerIs_stable _ _)

theorem handoverPoints_stable (p : DialPoint) :
    (handover cfg).Stable i (handoverPoints i pair p) := by
  cases p <;> first | exact pairIs_stable _ _ | exact Logic.stable_true

/-- An operation on calls, after which the setting up goes on. -/
theorem pairIs_exec {s : State × Unit} (ho : o.OnCalls)
    (hset : (settingUp i s.1.log).after o (exec i o ch s.1).1 = settingUp i s.1.log)
    (h : PairIs i pair C s) : PairIs i pair C ((exec i o ch s.1).2, ()) := by
  refine ⟨agentIs_exec ?_ (by rw [hset]) h.1, borrowerIs_exec ?_ (by rw [hset]) h.2⟩
  · intro ch
    cases o <;> first | rfl | exact ho.elim
  · intro ch
    cases o <;> first | rfl | exact ho.elim

/-- What an answer to an operation on calls makes of what is set up: nothing. -/
theorem after_onCalls {u : SettingUp} {a : Ans o} (ho : o.OnCalls) : u.after o (.ok a) = u := by
  cases o <;> first | rfl | exact ho.elim

/-- The triple of an operation on calls. -/
theorem onCalls_next (ho : o.OnCalls) {p : DialPoint} {f : Ans o → Assertion Unit}
    (hp : ∀ s, handoverPoints i pair p s → PairIs i pair C s)
    (hf : ∀ a s, PairIs i pair C s → f a s) :
    (handover cfg).Atomic i o (handoverPoints i pair p) (Next (handoverPoints i pair) f) := by
  refine handover_atomic ?_ ?_
  · intro s _
    cases o <;> trivial
  · intro ch s hs
    refine next_of (fun a heq => hf a _ (pairIs_exec ho ?_ (hp s hs))) trivial
    rw [heq]
    exact after_onCalls ho

/-- Where nothing is asserted any more. -/
theorem unready_next {p q : DialPoint} (hback : ∀ s : State, o.Backed s)
    (hq : ∀ s, handoverPoints i pair q s) :
    (handover cfg).Atomic i o (handoverPoints i pair p)
      (Next (handoverPoints i pair) fun _ => handoverPoints i pair q) := by
  refine handover_atomic ?_ ?_
  · exact fun s _ => hback s.1
  · exact fun _ _ _ => next_of (fun _ _ => hq _) trivial

theorem handover_dial (campaign : Campaign) (pair : ReservationPair) :
    DialOutline (handover cfg) i campaign pair (handoverPoints i pair) where
  stable := handoverPoints_stable
  now := onCalls_next (o := .utcNow) (p := .held) trivial (fun _ h => h) fun _ _ h => h
  gate := onCalls_next (o := .shouldAllowRetry _) (p := .held) trivial (fun _ h => h) fun _ _ h => h
  abandon _ _ := trivial
  releaseAgent _ := unready_next (q := .halfReleased _) (fun _ => trivial) fun _ => trivial
  releaseBorrower _ := unready_next (q := .done) (fun _ => trivial) fun _ => trivial
  insert := by
    refine handover_atomic ?_ ?_
    · exact fun _ _ => trivial
    intro ch s hs
    cases heq : (exec i (.insertCall campaign.id pair.agent.id pair.borrower.id
        campaign.providerName pair.workerId (pair.borrower.attemptCount + 1)) ch s.1).1 with
    | ok call =>
        refine onCall_of call (fun _ => pairIs_exec trivial ?_ hs) fun _ => trivial
        rw [heq]
        rfl
    | error e =>
        cases e with
        | duplicateKeyError =>
            refine pairIs_exec trivial ?_ hs
            rw [heq]
            rfl
        | _ => exact fun _ => trivial
  existing := onCalls_next (o := .findByIdempotencyKey _) (p := .held) trivial (fun _ h => h)
    fun answer _ h => match answer with
    | none => trivial
    | some call => onCall_of call (fun _ => h) fun _ => trivial
  reserve _ := onCalls_next (o := .transitionCall _ _ _) (p := .created _) trivial
    (fun _ h => h) fun _ _ h => h
  initiate _ := onCalls_next (o := .transitionCall _ _ _) (p := .created _) trivial
    (fun _ h => h) fun answer _ h => match answer with
    | none => trivial
    | some _ => h
  dialAgent callId := by
    refine handover_atomic ?_ ?_
    · exact fun _ _ => trivial
    rintro ch s ⟨⟨hset, c, hc, hstate, hversion, hreserved⟩, hborrower⟩
    refine next_of (fun answer heq => ?_) trivial
    obtain ⟨a, ha, rfl⟩ := Option.map_eq_some_iff.mp hc
    dsimp only at hstate hversion hreserved
    -- the agent is at the version of the reservation, so the guarded write goes through
    have hp : AgentRepository.movable .reserved pair.agent.stateVersion a = true :=
      AgentRepository.movable_iff.mpr ⟨hstate, hversion⟩
    have hget := agent_of_ok heq rfl ha hp
    refine ⟨⟨?_, _, congrArg (Option.map _) hget, rfl, ?_⟩,
      borrowerIs_exec (fun _ => rfl) ?_ hborrower⟩
    · rw [settingUp_self, heq]
      exact hset
    · exact (AgentRepository.timeAccountingUpdates_reservedBy ..).trans hreserved
    · rw [heq]
      rfl
  bind callId := by
    refine handover_atomic ?_ ?_
    · exact fun _ _ => trivial
    rintro ch s ⟨⟨hset, c, hc, hstate, hreserved⟩, hborrower⟩
    refine next_of (fun answer heq => ?_) trivial
    obtain ⟨a, ha, rfl⟩ := Option.map_eq_some_iff.mp hc
    dsimp only at hstate hreserved
    -- the call is bound only under the worker's own name
    have hp : AgentRepository.bindable pair.workerId a = true :=
      AgentRepository.bindable_iff.mpr hreserved
    have hget := agent_of_ok heq rfl ha hp
    refine ⟨⟨?_, _, congrArg (Option.map _) hget, hstate, hreserved, rfl⟩,
      borrowerIs_exec (fun _ => rfl) ?_ hborrower⟩
    · rw [settingUp_self, heq]
      exact hset
    · rw [heq]
      rfl
  originate callId := by
    refine handover_atomic ?_ ?_
    -- the request goes out with what the last two writes have left
    · rintro s ⟨⟨-, c, hc, hready⟩, -, hb⟩
      obtain ⟨a, ha, rfl⟩ := Option.map_eq_some_iff.mp hc
      obtain ⟨b, hb, heq⟩ := Option.map_eq_some_iff.mp hb
      obtain ⟨hstatus, hreserved⟩ := Prod.mk.inj heq
      exact ⟨⟨a, ha, hready⟩, b, hb, hstatus, hreserved⟩
    · exact fun _ _ _ => onOriginate_of (fun _ => trivial) (fun _ => trivial) trivial
  attach _ _ := by
    refine handover_atomic ?_ ?_
    · exact fun _ _ => trivial
    · exact fun _ _ _ => next_of (fun answer _ => by cases answer <;> trivial) trivial
  hangup _ _ := by
    refine handover_atomic ?_ ?_
    · exact fun _ _ => trivial
    · exact fun _ _ _ => onHangup_of (fun _ => trivial) trivial
  fail _ _ := unready_next (q := .abandoned .retry) (fun _ => trivial) fun _ => trivial
  compensateAgent := by
    refine handover_atomic ?_ fun _ _ _ => trivial
    exact fun _ _ => trivial
  compensateBorrower := by
    refine handover_atomic ?_ fun _ _ _ => trivial
    exact fun _ _ => trivial

/-- Whatever is no request to a provider may happen in any state. -/
theorem unasked_any (ho : ∀ s : State, o.Backed s) :
    (handover cfg).Atomic i o (fun _ => True) fun _ _ => True := by
  refine handover_atomic ?_ fun _ _ _ => trivial
  exact fun s _ => ho s.1

theorem handover_allocate (campaign : Campaign) (workerId : String) :
    AllocateOutline (handover cfg) i campaign workerId (fun _ _ => True)
      (fun _ agent => AgentIs i agent.id (AsReserved agent.stateVersion workerId))
      fun _ pair => handoverPoints i pair where
  skip _ _ _ := trivial
  reserve _ :=
    { stable_idle := Logic.stable_true
      stable_claimed := fun _ => agentIs_stable _ _
      findAgents := Logic.Atomic.mono (unasked_any fun _ => trivial) (fun _ h => h)
        fun _ _ h => unless_of fun _ => h
      claimAgent := by
        intro agentId
        refine handover_atomic ?_ ?_
        · exact fun _ _ => trivial
        intro ch s _
        refine onClaim_of (fun agent heq => ⟨?_, ?_⟩) fun _ => trivial
        · rw [settingUp_self, heq]
          rfl
        · obtain ⟨a, -, -, rfl, hget⟩ := tryReserveAgent_some heq
          exact ⟨_, congrArg (Option.map _) hget, rfl, rfl, rfl⟩
      findBorrowers := by
        intro agent
        refine handover_atomic ?_ ?_
        · exact fun _ _ => trivial
        intro ch s hs
        cases heq : (exec i (.findClaimableBorrowers campaign.id 1) ch s.1).1 with
        | ok _ =>
            refine agentIs_exec (fun _ => rfl) ?_ hs
            rw [heq]
            rfl
        | error e =>
            intro he
            refine agentIs_exec (fun _ => rfl) ?_ hs
            rw [heq, after_error (o := .findClaimableBorrowers _ _) he]
      claimBorrower := by
        intro agent borrowerId
        refine handover_atomic ?_ ?_
        · exact fun _ _ => trivial
        intro ch s hs
        -- the claim of a borrower does not concern the agent
        have hkeep : ∀ r, (exec i (.tryReserveBorrower campaign.id borrowerId workerId
            cfg.reservationTtlSeconds) ch s.1).1 = r →
            ((settingUp i s.1.log).after _ r).agentId = (settingUp i s.1.log).agentId →
            AgentIs i agent.id (AsReserved agent.stateVersion workerId)
              ((exec i (.tryReserveBorrower campaign.id borrowerId workerId
                cfg.reservationTtlSeconds) ch s.1).2, ()) :=
          fun r heq hset => agentIs_exec (fun _ => rfl) (by rw [heq, hset]) hs
        cases heq : (exec i (.tryReserveBorrower campaign.id borrowerId workerId
            cfg.reservationTtlSeconds) ch s.1).1 with
        | error e =>
            intro he
            refine hkeep _ heq ?_
            rw [after_error (o := .tryReserveBorrower _ _ _ _) he]
        | ok answer =>
            cases answer with
            | none => exact hkeep _ heq rfl
            | some borrower =>
                refine ⟨hkeep _ heq rfl, ?_, ?_⟩
                · rw [settingUp_self, heq]
                  rfl
                · obtain ⟨b, -, -, rfl, hget⟩ := tryReserveBorrower_some heq
                  exact congrArg (Option.map _) hget
      giveBack := fun _ => Logic.Atomic.mono (unasked_any fun _ => trivial) (fun _ _ => trivial)
        fun _ _ h => unless_of fun _ => h }
  dial _ := handover_dial campaign
  done _ _ _ _ := trivial

/-! ## Every run -/

theorem handover_verified : (handover cfg).Verified fun _ => True where
  init _ _ := ⟨(), trivial⟩
  task t _ i s _ := by
    refine wp_program ?_ (fun campaign workerId =>
      ⟨_, _, handover_allocate campaign workerId⟩) t s
    intro o ho
    refine unasked_any fun _ => ?_
    cases o with
    | originateCall _ _ _ => exact ho.elim
    | _ => trivial
  crash i s _ := by
    refine ⟨(), trivial, ?_, ?_⟩
    · intro j hj
      exact ⟨if_neg (Ne.symm hj), fun _ _ => rfl, fun _ _ => rfl⟩
    · intro o r hlog
      cases (List.cons.inj hlog).1

/--
**No call without a pair.** In every run in which nobody else's update matches the agent or
the borrower of a pair that is being set up: whenever a provider is about to be asked for a
call, the agent is DIALING on that call for the worker that asks, and the borrower is
reserved for it.
-/
theorem originate_ready {w : World (dialer cfg)}
    (h : Reachable (unhindered cfg) (fun _ => True) w) {i : Nat} {providerName : String}
    {pair : ReservationPair} {request : OriginateRequest}
    (hi : w.Awaits i (.originateCall providerName pair request)) :
    Ready pair request.callId w.st := by
  obtain ⟨_, _, -, -, hback⟩ := handover_verified.guar h (c := ({} : Choice)) hi
    fun _ _ _ _ => ⟨fun _ _ => rfl, fun _ _ => rfl⟩
  exact hback _ _ (exec_log ..)

end

/-! ## A logout in between -/

/-- What process `i` is about to ask a provider for. -/
def aboutToOriginate (i : Nat) (w : World (dialer {})) :
    Option (String × ReservationPair × OriginateRequest) :=
  match w.procs[i]? with
  | some (.await (.originateCall providerName pair request) _) => some (providerName, pair, request)
  | _ => none

theorem awaits_of_aboutToOriginate {i : Nat} {w : World (dialer {})}
    {x : String × ReservationPair × OriginateRequest} (h : aboutToOriginate i w = some x) :
    w.Awaits i (.originateCall x.1 x.2.1 x.2.2) := by
  rw [aboutToOriginate] at h
  split at h
  · rename_i k hi
    obtain rfl := Option.some.inj h
    exact ⟨k, hi⟩
  · cases h

/-- The agent logs out after it was reserved, and the call is originated all the same. -/
theorem originate_unready :
    ¬∀ w, Reachable (Policy.any (dialer {})) Fresh w → ∀ i providerName pair request,
      w.Awaits i (.originateCall providerName pair request) → Ready pair request.callId w.st := by
  intro hall
  obtain ⟨w, hw, htest⟩ := Reachable.of_play (Policy.any (dialer {})) oneAgent_fresh
    (oneDial.take 5 ++ .spawn (.agentAction "agent" "logout") :: List.replicate 2 (.run 1 {})
      ++ (oneDial.drop 5).take 5)
    (fun w => (aboutToOriginate 0 w).any fun x => !decide (Ready x.2.1 x.2.2.callId w.st))
    (by decide +kernel)
  obtain ⟨x, hx, hready⟩ := Option.any_eq_true _ _ |>.mp htest
  have := hall w hw _ _ _ _ (awaits_of_aboutToOriginate hx)
  simp [this] at hready

theorem originate_ready_oneDial :
    ∃ w providerName pair request, Reachable (unhindered {}) (fun _ => True) w
      ∧ w.Awaits 0 (.originateCall providerName pair request)
      ∧ Ready pair request.callId w.st := by
  obtain ⟨w, hw, htest⟩ : ∃ w, Reachable (unhindered {}) (fun _ => True) w
      ∧ (aboutToOriginate 0 w).isSome :=
    Reachable.of_play (unhindered {}) (s := oneAgent) trivial
      (oneDial.take 5 ++ .spawn (.agentAction "agent" "heartbeat")
        :: List.replicate 2 (.run 1 {}) ++ (oneDial.drop 5).take 5)
      (fun w => (aboutToOriginate 0 w).isSome) (by decide +kernel)
  obtain ⟨x, hx⟩ := Option.isSome_iff_exists.mp htest
  have hi := awaits_of_aboutToOriginate hx
  exact ⟨w, _, _, _, hw, hi, originate_ready hw hi⟩

end SmartDialer
