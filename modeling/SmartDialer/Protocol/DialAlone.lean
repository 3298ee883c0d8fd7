import SmartDialer.Protocol.Lifecycle
import SmartDialer.Protocol.Undisturbed

/-!
# A dial by itself

What one dial makes of its pair and of the calls, when no other process moves: from the
moment it has its call until it returns, raises, or is cancelled. The database does not fail,
new ids are new, and what the provider answers is a parameter, as is whether an operation at
which the dial is cancelled has had its effect by then. The log tells how far it had come.
-/

namespace SmartDialer

open Store Conc

/-! ## How far the dial has come -/

/-- The operation an entry is about, if it took effect; `b` says whether a cancelled one did. -/
def Entry.effective (b : Bool) : Entry → Option Op
  | .answered _ o (.ok _) => some o
  | .answered _ o (.error .cancelledError) => if b then some o else none
  | _ => none

/-- The operations that took effect. -/
def effected (b : Bool) (log : List Entry) : List Op := log.filterMap (Entry.effective b)

/-- It files a call. -/
def Op.opensCall : Op → Bool
  | .insertCall .. => true
  | _ => false

/-- It makes a call FAILED. -/
def Op.failsCall : Op → Bool
  | .transitionCall _ .failed _ => true
  | _ => false

/-- It releases a borrower for another attempt. -/
def Op.countsAttempt : Op → Bool
  | .releaseBorrower _ _ .retry _ _ _ => true
  | _ => false

/-- How far the log says a dial has come, cancelled or not. -/
structure Stage (log : List Entry) (opened failed counted : Bool) : Prop where
  opened : ∀ b, (effected b log).any Op.opensCall = opened
  failed : ∀ b, (effected b log).any Op.failsCall = failed
  counted : ∀ b, (effected b log).any Op.countsAttempt = counted

theorem stage_nil : Stage [] false false false :=
  ⟨fun _ => rfl, fun _ => rfl, fun _ => rfl⟩

theorem effected_cons (b : Bool) (e : Entry) (log : List Entry) :
    effected b (e :: log) = (e.effective b).toList ++ effected b log := by
  rw [effected, List.filterMap_cons]
  cases e.effective b <;> rfl

variable {i : Nat} {log : List Entry} {opened failed counted : Bool}

/-- An operation that was answered. -/
theorem Stage.answered (h : Stage log opened failed counted) {o : Op} (a : Ans o) :
    Stage (.answered i o (.ok a) :: log) (o.opensCall || opened) (o.failsCall || failed)
      (o.countsAttempt || counted) := by
  have heff : ∀ b, effected b (.answered i o (.ok a) :: log) = o :: effected b log :=
    fun b => effected_cons b _ log
  refine ⟨fun b => ?_, fun b => ?_, fun b => ?_⟩
  · rw [heff, List.any_cons, h.opened]
  · rw [heff, List.any_cons, h.failed]
  · rw [heff, List.any_cons, h.counted]

/-- An operation that raised something of its own. -/
theorem Stage.raised (h : Stage log opened failed counted) {o : Op} {e : Exn}
    (he : e ≠ .cancelledError) :
    Stage (.answered i o (.error e) :: log) opened failed counted := by
  have heff : ∀ b, effected b (.answered i o (.error e) :: log) = effected b log := by
    intro b
    have hnone : (Entry.answered i o (.error e)).effective b = none := by
      cases e with
      | cancelledError => exact absurd rfl he
      | _ => rfl
    rw [effected_cons, hnone]
    rfl
  refine ⟨fun b => ?_, fun b => ?_, fun b => ?_⟩
  · rw [heff, h.opened]
  · rw [heff, h.failed]
  · rw [heff, h.counted]

/-- What took effect when the dial was cancelled. -/
theorem effected_cancelled (b : Bool) (o : Op) (log : List Entry) :
    effected b (.answered i o (.error .cancelledError) :: log)
      = (if b then [o] else []) ++ effected b log := by
  rw [effected_cons]
  cases b <;> rfl

/-! ## What may happen around it -/

/--
The database does not fail, and new ids are new. The task may be cancelled at an operation
that has its effect or not, as `Cut` allows, and the provider answers something `Ans` allows.
-/
def alone (cfg : Settings) (s₀ : State) (Cut : Bool → Prop) (Answers : OriginateAnswer → Prop) :
    Policy (dialer cfg) where
  task _ := True
  run _ _ c _ := (c.fault = .none ∨ ∃ b, Cut b ∧ c.fault = .cancelled b)
    ∧ s₀.calls.get c.newId = none ∧ Answers c.originate

variable {cfg : Settings} {s₀ : State} {Cut : Bool → Prop} {Answers : OriginateAnswer → Prop}

/-- The logic of a dial nobody disturbs. -/
abbrev dialLogic (cfg : Settings) (s₀ : State) (Cut : Bool → Prop)
    (Answers : OriginateAnswer → Prop) (i : Nat) : Logic (alone cfg s₀ Cut Answers) Unit :=
  Logic.alone (alone cfg s₀ Cut Answers) i

/-- An environment in which nothing goes wrong with the operation. -/
structure Calm (s₀ : State) (Answers : OriginateAnswer → Prop) (c : Choice) : Prop where
  fault : c.fault = .none
  fresh : s₀.calls.get c.newId = none
  answers : Answers c.originate

/-- The state in which an operation that was cancelled leaves the database. -/
structure CutOff (s₀ : State) (Answers : OriginateAnswer → Prop) (i : Nat) (o : Op) (b : Bool)
    (s s' : State) : Prop where
  log : s'.log = .answered i o (.error .cancelledError) :: s.log
  without : b = false → SameDocuments s' s
  performed : b = true → ∃ c, Calm s₀ Answers c ∧ SameDocuments s' (exec i o c s).2

theorem effect_fault (o : Op) (c : Choice) (f : Fault) (s : State) :
    effect o { c with fault := f } s = effect o c s := by
  cases o <;> rfl

theorem exec_cancelled {o : Op} {c : Choice} {b : Bool} (hc : c.fault = .cancelled b)
    (ho : o.isCancellable = true) (i : Nat) (s : State) :
    exec i o c s = (.error .cancelledError,
      (if b then (effect o c s).2 else s).record (.answered i o (.error .cancelledError))) := by
  have hattempt : attempt o c s
      = (.error .cancelledError, if b then (effect o c s).2 else s) := by
    rw [attempt, hc]
    exact if_pos ho
  rw [exec, hattempt]

/-- A cancellation waits for the next operation at which it may strike. -/
theorem exec_uncancellable {o : Op} {c : Choice} {b : Bool} (hc : c.fault = .cancelled b)
    (ho : ¬o.isCancellable = true) (i : Nat) (s : State) :
    exec i o c s = exec i o { c with fault := .none } s := by
  have hattempt : attempt o c s = attempt o { c with fault := .none } s := by
    rw [attempt, hc]
    exact (if_neg ho).trans (effect_fault o c .none s).symm
  rw [exec, hattempt, exec]

/-- One operation: it is answered, or the dial is cancelled at it. -/
theorem wp_await {o : Op} {s : State} {Q : Except Exn (Ans o) → Assertion Unit}
    (hgo : ∀ c, Calm s₀ Answers c → Q (exec i o c s).1 ((exec i o c s).2, ()))
    (hcut : o.isCancellable = true → ∀ b s', Cut b → CutOff s₀ Answers i o b s s' →
      Q (.error .cancelledError) (s', ())) :
    (dialLogic cfg s₀ Cut Answers i).wp i (await o) Q (s, ()) := by
  refine Logic.wp_perform_alone fun c hc => ?_
  obtain ⟨hfault, hfresh, hans⟩ := hc
  have hcalm : Calm s₀ Answers { c with fault := .none } := ⟨rfl, hfresh, hans⟩
  change Q (exec i o c s).1 ((exec i o c s).2, ())
  rcases hfault with hnone | ⟨b, hb, hcancel⟩
  · exact hgo c ⟨hnone, hfresh, hans⟩
  · by_cases ho : o.isCancellable = true
    · have hexec := exec_cancelled hcancel ho i s
      rw [hexec]
      refine hcut ho b _ hb ⟨?_, fun hf => ?_, fun ht => ⟨_, hcalm, ?_⟩⟩
      · rw [← congrArg Prod.snd hexec, exec_log, hexec]
      · rw [hf]
        exact SameDocuments.record ..
      · rw [ht, exec_faultless rfl, effect_fault]
        exact (SameDocuments.record ..).trans (SameDocuments.record ..).symm
    · rw [exec_uncancellable hcancel ho]
      exact hgo _ hcalm

/-! ## The pair and the calls -/

/-- The pair as `reserve_pair` hands it over: nobody has touched either document since. -/
structure PairHeld (pair : ReservationPair) (s : State) : Prop where
  agent : s.agents.get pair.agent.id = some pair.agent
  agentState : pair.agent.state = .reserved
  agentWorker : pair.agent.reservedBy = some pair.workerId
  borrower : s.borrowers.get pair.borrower.id = some pair.borrower
  borrowerStatus : pair.borrower.status = .reserved
  borrowerWorker : pair.borrower.reservedBy = some pair.workerId

/-- The key under which the dial files its call. -/
def dialKey (campaign : Campaign) (pair : ReservationPair) : String :=
  buildIdempotencyKey campaign.id pair.agent.id pair.borrower.id (pair.borrower.attemptCount + 1)

/-- A live call that names the agent or the borrower. -/
def Calling (pair : ReservationPair) (d : Call) : Prop :=
  isTerminal d.state = false ∧ (d.agentId = pair.agent.id ∨ d.borrowerId = pair.borrower.id)

/-- No live call names either of them. -/
def Uncalled (pair : ReservationPair) (s : State) : Prop :=
  ∀ k d, s.calls.get k = some d → ¬Calling pair d

/-- The worker may still release it. -/
def Agent.HeldBy (workerId : String) (a : Agent) : Prop :=
  a.reservedBy = some workerId ∧ (a.state = .reserved ∨ a.state = .dialing)

theorem Agent.HeldBy.releasable {workerId : String} {a : Agent} (h : a.HeldBy workerId) :
    AgentRepository.releasable workerId (allowedSources .available .allocator) a = true := by
  refine AgentRepository.releasable_iff.mpr ⟨h.1, ?_⟩
  rcases h.2 with hstate | hstate
  · rw [hstate]
    decide
  · rw [hstate]
    decide

/-- The worker has moved it to DIALING. -/
def Agent.DialingFor (workerId : String) (a : Agent) : Prop :=
  a.reservedBy = some workerId ∧ a.state = .dialing

theorem Agent.DialingFor.heldBy {workerId : String} {a : Agent} (h : a.DialingFor workerId) :
    a.HeldBy workerId := ⟨h.1, .inr h.2⟩

/-- It is AVAILABLE, and nothing is left of a lease. -/
def Agent.Free (a : Agent) : Prop :=
  a.state = .available ∧ a.reservedBy = none ∧ a.reservedAt = none ∧ a.leaseExpiresAt = none

/-- It is PENDING, and nothing is left of a lease. -/
def Borrower.Free (b : Borrower) : Prop :=
  b.status = .pending ∧ b.reservedBy = none ∧ b.reservedAt = none ∧ b.leaseExpiresAt = none

section

variable {campaign : Campaign} {pair : ReservationPair}

/-- Where the call of a dial comes from: it filed it, or it took over the one that was there. -/
inductive Origin (campaign : Campaign) (pair : ReservationPair) (s₀ : State) (d : Call) :
    Bool → Prop where
  | own (free : KeyFree s₀ (dialKey campaign pair)) (new : s₀.calls.get d.id = none)
      (agent : d.agentId = pair.agent.id) (borrower : d.borrowerId = pair.borrower.id) :
      Origin campaign pair s₀ d true
  | adopted (d₀ : Call)
      (found : CallRepository.findByIdempotencyKey (dialKey campaign pair) s₀.calls = some d₀)
      (queued : d₀.state = .queued) (id : d.id = d₀.id) (agent : d.agentId = d₀.agentId)
      (borrower : d.borrowerId = d₀.borrowerId) : Origin campaign pair s₀ d false

/-- Who a call is for, and its id, do not change. -/
theorem Origin.of_eq {d d' : Call} {own : Bool} (h : Origin campaign pair s₀ d own)
    (hid : d'.id = d.id) (hagent : d'.agentId = d.agentId)
    (hborrower : d'.borrowerId = d.borrowerId) : Origin campaign pair s₀ d' own := by
  cases h with
  | own free new agent borrower =>
      exact .own free (hid ▸ new) (hagent.trans agent) (hborrower.trans borrower)
  | adopted d₀ found queued id agent borrower =>
      exact .adopted d₀ found queued (hid.trans id) (hagent.trans agent)
        (hborrower.trans borrower)

/-- The dial has the call `d`, and the agent is as `A` says; all else is as it was in `s₀`. -/
structure Driving (campaign : Campaign) (pair : ReservationPair) (s₀ : State) (own : Bool)
    (A : Agent → Prop) (d : Call) (s : State) : Prop where
  agent : ∃ a, s.agents.get pair.agent.id = some a ∧ A a
  borrowers : s.borrowers = s₀.borrowers
  call : s.calls.get d.id = some d
  wellFormed : d.WellFormed
  others : ∀ k, k ≠ d.id → s.calls.get k = s₀.calls.get k
  origin : Origin campaign pair s₀ d own

/-- The look-up under the dial's key finds nothing exactly if the key is free. -/
theorem not_keyFree_of_found {key : String} {s : State} {d : Call}
    (h : CallRepository.findByIdempotencyKey key s.calls = some d) : ¬KeyFree s key := by
  intro hfree
  obtain ⟨hget, hp⟩ := Collection.findOne_some h
  exact hfree _ d hget (by simpa using hp)

/--
What has to be so for no live call to name the pair, when the dial has filed a call or not,
and has made it FAILED or not: nobody named them before, but for a call that is FAILED now.
-/
def Unnamed (campaign : Campaign) (pair : ReservationPair) (s₀ : State) (opened failed : Bool) :
    Prop :=
  (∀ k d, s₀.calls.get k = some d → Calling pair d → failed = true
    ∧ CallRepository.findByIdempotencyKey (dialKey campaign pair) s₀.calls = some d)
  ∧ (KeyFree s₀ (dialKey campaign pair) → opened = true → failed = true)

/-- Before the dial has its call, or when it never comes to that. -/
theorem uncalled_untouched {s : State} {opened : Bool} (hs : s.calls = s₀.calls)
    (hopened : KeyFree s₀ (dialKey campaign pair) → opened = false) :
    Uncalled pair s ↔ Unnamed campaign pair s₀ opened false := by
  constructor
  · intro h
    refine ⟨fun k d hd hcalling => absurd hcalling (h k d (hs ▸ hd)), fun hfree ho => ?_⟩
    cases (hopened hfree).symm.trans ho
  · intro h k d hd hcalling
    cases (h.1 k d (hs ▸ hd) hcalling).1

variable {own : Bool} {A : Agent → Prop} {d : Call} {s : State}

/-- While its call is live. -/
theorem Driving.uncalled_live (h : Driving campaign pair s₀ own A d s)
    (hlive : isTerminal d.state = false) :
    Uncalled pair s ↔ Unnamed campaign pair s₀ own false := by
  cases h.origin with
  -- its own call names both parties, so there is a call, and the other side is false too
  | own free new agent borrower =>
      constructor
      · intro hnone
        exact absurd ⟨hlive, .inl agent⟩ (hnone _ d h.call)
      · intro hnone
        cases hnone.2 free rfl
  | adopted d₀ found queued id agent borrower =>
      have hd₀ : s₀.calls.get d₀.id = some d₀ := (Collection.findOne_some found).1
      -- the adopted call names whom it named when it was QUEUED
      have hsame : Calling pair d ↔ Calling pair d₀ := by
        rw [Calling, Calling, agent, borrower, hlive, queued]
        rfl
      constructor
      · intro hnone
        refine ⟨fun k x hx hcalling => ?_, fun hfree => absurd hfree (not_keyFree_of_found found)⟩
        exfalso
        by_cases hk : k = d.id
        · obtain rfl : d₀ = x := by
            rw [hk, id, hd₀] at hx
            exact Option.some.inj hx
          exact hnone _ d h.call (hsame.mpr hcalling)
        · exact hnone k x ((h.others k hk).trans hx) hcalling
      · intro hnone k x hx hcalling
        by_cases hk : k = d.id
        · obtain rfl : d = x := Option.some.inj (h.call.symm.trans (hk ▸ hx))
          cases (hnone.1 _ d₀ hd₀ (hsame.mp hcalling)).1
        · cases (hnone.1 k x ((h.others k hk).symm.trans hx) hcalling).1

/-- When its call is FAILED. -/
theorem Driving.uncalled_failed (h : Driving campaign pair s₀ own A d s)
    (hterm : isTerminal d.state = true) :
    Uncalled pair s ↔ Unnamed campaign pair s₀ own true := by
  have hmine : ¬Calling pair d := fun hcalling => by cases hterm.symm.trans hcalling.1
  constructor
  · intro hnone
    refine ⟨fun k x hx hcalling => ⟨rfl, ?_⟩, fun _ _ => rfl⟩
    by_cases hk : k = d.id
    · cases h.origin with
      | own free new agent borrower =>
          cases new.symm.trans (hk ▸ hx)
      -- the call under the key is the one that was adopted, and that one is FAILED now
      | adopted d₀ found queued id agent borrower =>
          have hd₀ : s₀.calls.get d₀.id = some d₀ := (Collection.findOne_some found).1
          rw [hk, id, hd₀] at hx
          rw [found, hx]
    · exact absurd hcalling (hnone k x ((h.others k hk).trans hx))
  · intro hnone k x hx hcalling
    by_cases hk : k = d.id
    · obtain rfl : d = x := Option.some.inj (h.call.symm.trans (hk ▸ hx))
      exact hmine hcalling
    · have hx₀ := (h.others k hk).symm.trans hx
      obtain ⟨-, hfound⟩ := hnone.1 k x hx₀ hcalling
      cases h.origin with
      | own free new agent borrower => exact not_keyFree_of_found hfound free
      | adopted d₀ found queued id agent borrower =>
          obtain rfl : d₀ = x := Option.some.inj (found.symm.trans hfound)
          have hkey : d₀.id = k := Collection.key_of_get hx₀
          exact hk (hkey.symm.trans id.symm)

/-! ## What a cancellation comes upon -/

/-- The release for another attempt took effect, and it was the last one there is. -/
def Exhausting (cfg : Settings) (pair : ReservationPair) (counted : Bool) : Prop :=
  counted = true ∧ cfg.maxCallAttempts ≤ pair.borrower.attemptCount + 1

/--
What a dial that is cancelled leaves for the compensation: documents it can put right, unless
the borrower is EXHAUSTED, and calls it will not touch.
-/
structure CutFrom (cfg : Settings) (campaign : Campaign) (pair : ReservationPair) (s₀ : State)
    (opened failed counted : Bool) (s : State) : Prop where
  agent : ∃ a, s.agents.get pair.agent.id = some a ∧ (a.HeldBy pair.workerId ∨ a.Free)
  borrower : ∃ x, s.borrowers.get pair.borrower.id = some x
    ∧ (Exhausting cfg pair counted ∧ x.status = .exhausted
      ∨ ¬Exhausting cfg pair counted ∧ (x = pair.borrower ∨ x.Free))
  calls : Uncalled pair s ↔ Unnamed campaign pair s₀ opened failed

/-- The same, with what the log tells of how far the dial had come. -/
def CutPost (cfg : Settings) (campaign : Campaign) (pair : ReservationPair) (s₀ : State)
    (b : Bool) (s : State) : Prop :=
  CutFrom cfg campaign pair s₀ ((effected b s.log).any Op.opensCall)
    ((effected b s.log).any Op.failsCall) ((effected b s.log).any Op.countsAttempt) s

theorem CutFrom.cutPost {opened failed counted b : Bool} {s s' : State}
    (h : CutFrom cfg campaign pair s₀ opened failed counted s) (hs : SameDocuments s' s)
    (hopened : (effected b s'.log).any Op.opensCall = opened)
    (hfailed : (effected b s'.log).any Op.failsCall = failed)
    (hcounted : (effected b s'.log).any Op.countsAttempt = counted) :
    CutPost cfg campaign pair s₀ b s' := by
  rw [CutPost, hopened, hfailed, hcounted]
  refine ⟨?_, ?_, ?_⟩
  · rw [hs.agents]
    exact h.agent
  · rw [hs.borrowers]
    exact h.borrower
  · rw [Uncalled, hs.calls]
    exact h.calls

/-- An operation at which the dial is cancelled, with what holds before and after it. -/
theorem cutPost_of_cutOff {o : Op} {b : Bool} {s s' : State} {opened failed counted : Bool}
    (hs : CutOff s₀ Answers i o b s s') (hstage : Stage s.log opened failed counted)
    (hbefore : CutFrom cfg campaign pair s₀ opened failed counted s)
    (hafter : ∀ c, Calm s₀ Answers c → CutFrom cfg campaign pair s₀ (o.opensCall || opened)
      (o.failsCall || failed) (o.countsAttempt || counted) (exec i o c s).2) :
    CutPost cfg campaign pair s₀ b s' := by
  cases b with
  | false =>
      refine hbefore.cutPost (hs.without rfl) ?_ ?_ ?_
      · rw [hs.log, effected_cancelled]
        exact hstage.opened false
      · rw [hs.log, effected_cancelled]
        exact hstage.failed false
      · rw [hs.log, effected_cancelled]
        exact hstage.counted false
  | true =>
      obtain ⟨c, hc, hsame⟩ := hs.performed rfl
      refine (hafter c hc).cutPost hsame ?_ ?_ ?_
      · rw [hs.log, effected_cancelled, if_pos rfl, List.singleton_append, List.any_cons,
          hstage.opened]
      · rw [hs.log, effected_cancelled, if_pos rfl, List.singleton_append, List.any_cons,
          hstage.failed]
      · rw [hs.log, effected_cancelled, if_pos rfl, List.singleton_append, List.any_cons,
          hstage.counted]

end

end SmartDialer
