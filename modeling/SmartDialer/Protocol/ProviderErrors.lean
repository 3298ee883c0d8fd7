import SmartDialer.Protocol.Driving

/-!
# When the provider lets a dial down

A dial that does not come to a call has something to give back, and what it is depends on how
far it came. For a timeout and for a refusal the source has a way back. Whatever else the
provider raises leaves `_dial` as it is, and so does the look-up of a provider nobody has
registered: the call stays INITIATED, and the pair is held until recovery comes round.
-/

namespace SmartDialer

open Store Conc

/-- Nothing goes wrong around the dial, and the provider answers `answer`. -/
structure Answered (s : State) (answer : OriginateAnswer) (env : Nat → Choice) : Prop where
  fault : ∀ n, (env n).fault = .none
  fresh : ∀ n, s.calls.get (env n).newId = none
  answers : ∀ n, (env n).originate = answer

variable {cfg : Settings} {campaign : Campaign} {pair : ReservationPair} {s : State} {i : Nat}
  {answer : OriginateAnswer} {env : Nat → Choice}

theorem PairHeld.of_sameDocuments {s s' : State} (h : PairHeld pair s)
    (hs : SameDocuments s' s) : PairHeld pair s' where
  agent := hs.agents ▸ h.agent
  agentState := h.agentState
  agentWorker := h.agentWorker
  borrower := hs.borrowers ▸ h.borrower
  borrowerStatus := h.borrowerStatus
  borrowerWorker := h.borrowerWorker

theorem NothingLeaked.congr {s s' t t' : State} (h : NothingLeaked pair s s')
    (hs : SameDocuments t s) (hs' : SameDocuments t' s') : NothingLeaked pair t t' where
  calls := by
    rw [hs.calls, hs'.calls]
    exact h.calls
  agent := by
    rw [hs'.agents]
    exact h.agent
  borrower := by
    rw [hs'.borrowers]
    exact h.borrower

/-- What an answered dial meets at each of its operations. -/
theorem Answered.policy (h : Answered s answer env) (n : Nat) (o : Op) (s' : State) :
    (alone cfg s (fun _ => False) (· = answer)).run i o (env n) s' :=
  ⟨.inl (h.fault n), h.fresh n, h.answers n⟩

/-- A part of the dial that cannot fail for want of an answer. -/
theorem Answered.eval_orCut (h : Answered s answer env) {α : Type} {p : Async α}
    {f : α → State → Prop} {x : State × Nat}
    (hp : (dialLogic cfg s (fun _ => False) (· = answer) i).wp i p
      (OrCut cfg campaign pair s (fun _ => False) f) (x.1, ())) :
    ∃ a x', p.eval (solo i env) x = (.ok a, x') ∧ f a x'.1 := by
  have hpost : OrCut cfg campaign pair s (fun _ => False) f (p.eval (solo i env) x).1
      ((p.eval (solo i env) x).2.1, ()) :=
    Logic.eval_of_wp (n := x.2) (fun n _ => h.policy n) hp
  generalize p.eval (solo i env) x = y at hpost
  obtain ⟨r, x'⟩ := y
  cases r with
  | ok a => exact ⟨a, x', rfl, hpost⟩
  | error e =>
      obtain ⟨-, _, hfalse, -⟩ := hpost
      exact hfalse.elim

/-- From the moment it has its call, the dial gets an answer, or an exception leaves it. -/
theorem Answered.eval_ended (h : Answered s answer env) {α : Type} {p : Async α}
    {f : α → State → Prop} {x : State × Nat}
    (hp : (dialLogic cfg s (fun _ => False) (· = answer) i).wp i p
      (Ended cfg campaign pair s (fun _ => False) (· = answer) f) (x.1, ())) :
    (∃ a x', p.eval (solo i env) x = (.ok a, x') ∧ f a x'.1)
      ∨ ∃ e x', p.eval (solo i env) x = (.error e, x')
        ∧ Stuck campaign pair (· = answer) x'.1 := by
  have hpost : Ended cfg campaign pair s (fun _ => False) (· = answer) f
      (p.eval (solo i env) x).1 ((p.eval (solo i env) x).2.1, ()) :=
    Logic.eval_of_wp (n := x.2) (fun n _ => h.policy n) hp
  generalize p.eval (solo i env) x = y at hpost
  obtain ⟨r, x'⟩ := y
  cases r with
  | ok a => exact .inl ⟨a, x', rfl, hpost⟩
  | error e =>
      rcases hpost with ⟨-, _, hfalse, -⟩ | ⟨-, hstuck⟩
      · exact hfalse.elim
      · exact .inr ⟨e, x', rfl, hstuck⟩

/-- The provider the campaign names is there, and the dial knows what to do with its answer. -/
def OriginateAnswer.answerable (campaign : Campaign) (answer : OriginateAnswer) : Bool :=
  providerNames.contains campaign.providerName && answer.handled

theorem answerable_of_met (h : Met campaign (· = answer)) : answer.answerable campaign = true := by
  obtain ⟨hregistered, _, rfl, hhandled⟩ := h
  rw [OriginateAnswer.answerable, hregistered, hhandled]
  rfl

theorem Stuck.not_answerable (h : Stuck campaign pair (· = answer) s) :
    answer.answerable campaign = false := by
  rw [OriginateAnswer.answerable]
  cases hregistered : providerNames.contains campaign.providerName with
  | false => rfl
  | true =>
      obtain ⟨_, rfl, hunhandled⟩ := h.unmet hregistered
      exact hunhandled

theorem Stuck.not_nothingLeaked {s₀ : State} (h : Stuck campaign pair (· = answer) s) :
    ¬NothingLeaked pair s₀ s := by
  intro hleaked
  obtain ⟨a, ha, hdialing⟩ := h.agent
  exact (hleaked.agent a ha).2 hdialing

/--
**When a dial leaks nothing.** By itself, and with a database that does not fail, a dial that
does not return True has given everything back exactly if it did not have to ask the provider
(the retry gate was closed, or its call had been driven before), or if the provider is
registered and answered with a result, a timeout or a rejection.
-/
theorem dial_leaks_nothing_iff (hheld : PairHeld pair s) (hwell : CallsWellFormed s)
    (henv : Answered s answer env) :
    (((CallAllocator.dial cfg campaign pair).eval (solo i env) (s, 0)).1 ≠ .ok true →
        NothingLeaked pair s ((CallAllocator.dial cfg campaign pair).eval (solo i env) (s, 0)).2.1)
      ↔ GateClosed cfg pair env ∨ PastQueued campaign pair s
        ∨ answer.answerable campaign = true := by
  -- what is in the log beforehand does not matter
  obtain ⟨s₀, hs₀, hlog⟩ : ∃ s₀ : State, SameDocuments s₀ s ∧ s₀.log = [] :=
    ⟨{ s with log := [] }, ⟨rfl, rfl, rfl, rfl⟩, rfl⟩
  have hboth : ((CallAllocator.dial cfg campaign pair).eval (solo i env) (s, 0)).1
        = ((CallAllocator.dial cfg campaign pair).eval (solo i env) (s₀, 0)).1
      ∧ SameDocuments ((CallAllocator.dial cfg campaign pair).eval (solo i env) (s, 0)).2.1
        ((CallAllocator.dial cfg campaign pair).eval (solo i env) (s₀, 0)).2.1 :=
    hs₀.symm.eval (CallAllocator.dial cfg campaign pair) 0
  obtain ⟨hans, hdocs⟩ := hboth
  have hleaked : NothingLeaked pair s
        ((CallAllocator.dial cfg campaign pair).eval (solo i env) (s, 0)).2.1
      ↔ NothingLeaked pair s₀
        ((CallAllocator.dial cfg campaign pair).eval (solo i env) (s₀, 0)).2.1 :=
    ⟨fun h => h.congr hs₀ hdocs.symm, fun h => h.congr hs₀.symm hdocs⟩
  have hpast : PastQueued campaign pair s ↔ PastQueued campaign pair s₀ := by
    rw [PastQueued, PastQueued, hs₀.calls]
  have hheld₀ := hheld.of_sameDocuments hs₀
  have hwell₀ : CallsWellFormed s₀ := by
    rw [CallsWellFormed, hs₀.calls]
    exact hwell
  have henv₀ : Answered s₀ answer env := ⟨henv.fault, hs₀.calls ▸ henv.fresh, henv.answers⟩
  rw [hans, hleaked, hpast]
  obtain ⟨x, hgate, hx, hstage⟩ : ∃ x, (CallAllocator.retrySuppressed cfg campaign pair).eval
      (solo i env) (s₀, 0) = (.ok (decide (GateClosed cfg pair env)), x)
      ∧ SameDocuments x.1 s₀ ∧ Stage x.1.log false false false :=
    eval_retrySuppressed (hlog ▸ stage_nil)
  rw [dial_eq, Prog.eval_bind, hgate]
  dsimp only
  by_cases hclosed : GateClosed cfg pair env
  · rw [decide_eq_true hclosed, if_pos rfl]
    have hunopened : KeyFree s₀ (dialKey campaign pair) → false = false := fun _ => rfl
    obtain ⟨b, x', heval, -, hnothing⟩ :=
      henv₀.eval_orCut (wp_giveBack hheld₀ hx hstage hunopened)
    rw [heval]
    exact ⟨fun _ => .inl hclosed, fun _ _ => hnothing⟩
  · rw [decide_eq_false hclosed, if_neg (by decide)]
    by_cases hpast : PastQueued campaign pair s₀
    · obtain ⟨b, x', heval, -, hnothing⟩ :=
        henv₀.eval_orCut (wp_createAndDrive_past hheld₀ hx hstage hpast)
      rw [heval]
      exact ⟨fun _ => .inr (.inl hpast), fun _ _ => hnothing⟩
    · rcases henv₀.eval_ended (wp_createAndDrive hheld₀ hwell₀ hx hstage hpast)
        with ⟨b, x', heval, hmet, hnothing⟩ | ⟨e, x', heval, hstuck⟩
      · rw [heval]
        refine ⟨fun _ => .inr (.inr (answerable_of_met hmet)), fun _ hne => hnothing ?_⟩
        cases b with
        | false => rfl
        | true => exact absurd rfl hne
      · rw [heval]
        constructor
        · intro h
          exact absurd (h (by simp)) hstuck.not_nothingLeaked
        · rintro (h | h | h)
          · exact absurd h hclosed
          · exact absurd h hpast
          · cases hstuck.not_answerable.symm.trans h

/-! ## A pair in hand -/

/-- An agent and a borrower that a worker has reserved. -/
def pairInHand : ReservationPair where
  campaignId := "campaign"
  workerId := "worker"
  agent := { idleAgent "agent" with state := .reserved, reservedBy := some "worker" }
  borrower := { pendingBorrower "borrower" with status := .reserved, reservedBy := some "worker" }

theorem nodup_borrowerInHand : ([pairInHand.borrower].map key).Nodup := List.nodup_singleton _

/-- There are no others. -/
def inHand : State :=
  seed ⟨[pairInHand.agent], List.nodup_singleton _⟩ ⟨[pairInHand.borrower], nodup_borrowerInHand⟩

theorem inHand_held : PairHeld pairInHand inHand := ⟨rfl, rfl, rfl, rfl, rfl, rfl⟩

theorem inHand_wellFormed : CallsWellFormed inHand := by
  intro k d hd
  cases hd

/-- The provider gives this answer to whoever asks. -/
def answering (answer : OriginateAnswer) (_ : Nat) : Choice where
  newId := "call"
  originate := answer

theorem inHand_answered (answer : OriginateAnswer) : Answered inHand answer (answering answer) :=
  ⟨fun _ => rfl, fun _ => rfl, fun _ => rfl⟩

/-- The provider's timeout is one of the failures a dial has a way back from. -/
theorem dial_leaks_nothing_timeout :
    NothingLeaked pairInHand inHand ((CallAllocator.dial {} { id := "campaign" } pairInHand).eval
      (solo 0 (answering .timeoutError)) (inHand, 0)).2.1 :=
  (dial_leaks_nothing_iff inHand_held inHand_wellFormed (inHand_answered .timeoutError)).mpr
    (.inr (.inr (by decide +kernel))) (by decide +kernel)

/-- The campaign names a provider that nobody has registered. -/
theorem dial_leaks :
    ¬∀ (cfg : Settings) (campaign : Campaign) (pair : ReservationPair) (s : State) (i : Nat)
      (answer : OriginateAnswer) (env : Nat → Choice), PairHeld pair s → CallsWellFormed s →
      Answered s answer env →
      ((CallAllocator.dial cfg campaign pair).eval (solo i env) (s, 0)).1 ≠ .ok true →
      NothingLeaked pair s
        ((CallAllocator.dial cfg campaign pair).eval (solo i env) (s, 0)).2.1 := by
  intro hall
  have hleaked := hall {} { id := "campaign", providerName := "mock_c" } pairInHand inHand 0
    .timeoutError (answering .timeoutError) inHand_held inHand_wellFormed
    (inHand_answered .timeoutError) (by decide +kernel)
  have hdialing : (((CallAllocator.dial {} { id := "campaign", providerName := "mock_c" }
      pairInHand).eval (solo 0 (answering .timeoutError)) (inHand, 0)).2.1.agents.get
        "agent").any (fun a => a.state == .dialing) = true := by
    decide +kernel
  obtain ⟨a, ha, hstate⟩ := Option.any_eq_true _ _ |>.mp hdialing
  exact (hleaked.agent a ha).2 (by simpa using hstate)

end SmartDialer
