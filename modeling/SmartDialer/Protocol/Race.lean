import SmartDialer.Protocol.Lifecycle
import SmartDialer.Protocol.Undisturbed
import SmartDialer.Store.Claims

/-!
# The race for agents and borrowers

Any number of `reserve_pair` executions at once, and no other writers. A loser walks on
through its candidates, and gives its agent back when it finds no borrower, while others
may be looking for that agent.

That nothing is left behind is a matter of bookkeeping: `Claimed` says of each document who
holds it. That somebody wins is not, since a process that comes away with nothing does so
because of what others did, and they may come away with nothing as well. What settles it is
who claimed an agent *first*. Until then no agent has changed, so the first candidate on
anybody's list is to be had; and until a borrower is claimed no borrower has changed, so the
one who was first to have an agent cannot come away without a borrower unless another got one.
-/

namespace SmartDialer

open Store Conc

/-! ## Statement -/

/-- The executions of `reserve_pair` for a campaign; a task is the name of a worker. -/
@[reducible] def reservers (cfg : Settings) (campaignId : String) : System sig where
  St := State
  Choice := Choice
  Task := String
  Ret := Option ReservationPair
  exec := exec
  crash := crash
  killed := .cancelledError
  prog := ReservationService.reservePair cfg campaignId

/-- The runs of the executions that are there, without failures, from a time on. -/
def racing (cfg : Settings) (campaignId : String) (start : Time) :
    Policy (reservers cfg campaignId) where
  task _ := False
  run _ _ c _ := c.fault = .none ∧ start ≤ c.now

instance (cfg : Settings) (campaignId : String) (start : Time) :
    (racing cfg campaignId start).Checkable where
  task _ := .isFalse id
  run _ _ c _ := inferInstanceAs (Decidable (c.fault = .none ∧ start ≤ c.now))

/-- One execution for each of the workers; several may have the same name. -/
def reservePairs (cfg : Settings) (campaignId : String) (workers : List String) (s : State) :
    World (reservers cfg campaignId) where
  st := s
  procs := workers.map (ReservationService.reservePair cfg campaignId)

/-- RESERVED by a worker, with a lease. -/
structure Agent.Leased (workerId : String) (a : Agent) : Prop where
  state : a.state = .reserved
  reservedBy : a.reservedBy = some workerId
  reservedAt : a.reservedAt.isSome = true
  leaseExpiresAt : a.leaseExpiresAt.isSome = true

/-- RESERVED by a worker, with a lease. -/
structure Borrower.Leased (workerId : String) (b : Borrower) : Prop where
  status : b.status = .reserved
  reservedBy : b.reservedBy = some workerId
  reservedAt : b.reservedAt.isSome = true
  leaseExpiresAt : b.leaseExpiresAt.isSome = true

/-- `cleared_lease_fields`. -/
structure Agent.LeaseCleared (a : Agent) : Prop where
  reservedBy : a.reservedBy = none
  reservedAt : a.reservedAt = none
  leaseExpiresAt : a.leaseExpiresAt = none

section

variable {cfg : Settings} {campaignId : String}

/-- Execution `i` has returned a pair. -/
def Returned (w : World (reservers cfg campaignId)) (i : Nat) (pair : ReservationPair) : Prop :=
  w.procs[i]? = some (.ret (some pair))

/-- Where the executions have left the agents and borrowers of `s₀`. -/
structure RaceOutcome (start : Time) (workers : List String) (s₀ : State)
    (w : World (reservers cfg campaignId)) : Prop where
  disjoint : ∀ i j pair pair', Returned w i pair → Returned w j pair' → i ≠ j →
    pair.agent.id ≠ pair'.agent.id ∧ pair.borrower.id ≠ pair'.borrower.id
  agents : ∀ i pair, Returned w i pair → workers[i]? = some pair.workerId
    ∧ ∃ a, w.st.agents.get pair.agent.id = some a ∧ a.Leased pair.workerId
  borrowers : ∀ i pair, Returned w i pair →
    ∃ b, w.st.borrowers.get pair.borrower.id = some b ∧ b.Leased pair.workerId
  /-- What an execution gave back has its lease cleared, and the rest is as it was. -/
  otherAgents : ∀ id a₀, s₀.agents.get id = some a₀ → a₀.state = .available →
    (∀ i pair, Returned w i pair → pair.agent.id ≠ id) →
    ∃ a, w.st.agents.get id = some a ∧ a.state = .available ∧ (a.LeaseCleared ∨ a = a₀)
  otherBorrowers : ∀ id, (∀ i pair, Returned w i pair → pair.borrower.id ≠ id) →
    w.st.borrowers.get id = s₀.borrowers.get id
  someone : workers ≠ [] →
    (∃ id a, s₀.agents.get id = some a ∧ AgentRepository.reservable campaignId a = true) →
    (∃ id b, s₀.borrowers.get id = some b
      ∧ BorrowerRepository.claimable campaignId start b = true) →
    ∃ i pair, Returned w i pair

/-! ## What is known of the run -/

/-- Which execution holds which agent and borrower, and which was the first to hold an agent. -/
structure Holdings where
  agent : String → Option Nat
  borrower : String → Option Nat
  first : Option Nat

/-- What the executions make of an agent. -/
def agentDiscipline (campaignId : String) (workers : List String) : Discipline Agent where
  free a := AgentRepository.reservable campaignId a = true
  held j a := a.campaignId = campaignId ∧ ∃ workerId, workers[j]? = some workerId
    ∧ a.Leased workerId
  returned a := AgentRepository.reservable campaignId a = true ∧ a.LeaseCleared

/-- What the executions make of a borrower; none is given back. -/
def borrowerDiscipline (campaignId : String) (workers : List String) : Discipline Borrower where
  free b := b.campaignId = campaignId ∧ b.status = .pending
  held j b := ∃ workerId, workers[j]? = some workerId ∧ b.Leased workerId
  returned _ := False

/-- Everything that has changed is accounted for. -/
structure Accounted (campaignId : String) (workers : List String) (s₀ : State)
    (x : State × Holdings) : Prop where
  agents : Claimed (agentDiscipline campaignId workers) s₀.agents x.1.agents x.2.agent
  borrowers : Claimed (borrowerDiscipline campaignId workers) s₀.borrowers x.1.borrowers
    x.2.borrower
  /-- Nobody has had an agent yet. -/
  untouched : x.2.first = none → ∀ id, x.1.agents.get id = s₀.agents.get id
  first : ∀ j, x.2.first = some j → j < workers.length

/-- An execution changes its own holdings only, and keeps a borrower once it has one. -/
structure OwnHoldings (i : Nat) (γ γ' : Holdings) : Prop where
  agent : ∀ id j, j ≠ i → (γ'.agent id = some j ↔ γ.agent id = some j)
  borrower : ∀ id j, j ≠ i → (γ'.borrower id = some j ↔ γ.borrower id = some j)
  kept : ∀ id j, γ.borrower id = some j → γ'.borrower id = some j
  first : ∀ j, γ.first = some j → γ'.first = some j
  entrant : ∀ j, γ'.first = some j → γ.first = some j ∨ j = i

theorem OwnHoldings.refl (i : Nat) (γ : Holdings) : OwnHoldings i γ γ where
  agent _ _ _ := .rfl
  borrower _ _ _ := .rfl
  kept _ _ h := h
  first _ h := h
  entrant _ h := .inl h

/-- The logic of the race. -/
def race (cfg : Settings) (campaignId : String) (start : Time) (workers : List String)
    (s₀ : State) : Logic (racing cfg campaignId start) Holdings where
  Inv := Accounted campaignId workers s₀
  Guar i x x' := OwnHoldings i x.2 x'.2

variable {start : Time} {workers : List String} {s₀ : State} {i : Nat}

/-! ## Assertions -/

/-- Execution `i` holds this agent, if any, and this borrower, if any, and nothing else. -/
def HoldsJust (i : Nat) (agent borrower : Option String) : Assertion Holdings := fun x =>
  (∀ id, x.2.agent id = some i ↔ agent = some id)
    ∧ ∀ id, x.2.borrower id = some i ↔ borrower = some id

/-- Some execution has a borrower. -/
def SomeBorrower : Assertion Holdings := fun x => ∃ id j, x.2.borrower id = some j

/-- If there was an agent to be had, the list starts with one, or somebody has had one. -/
def AgentChance (campaignId : String) (s₀ : State) (candidates : List Agent) :
    Assertion Holdings := fun x =>
  (∃ id a, s₀.agents.get id = some a ∧ AgentRepository.reservable campaignId a = true) →
    x.2.first ≠ none ∨ ∃ candidate rest a, candidates = candidate :: rest
      ∧ s₀.agents.get candidate.id = some a ∧ AgentRepository.reservable campaignId a = true

/-- If there was a borrower to be had, the list starts with one, or somebody has one. -/
def BorrowerChance (campaignId : String) (start : Time) (s₀ : State)
    (candidates : List Borrower) : Assertion Holdings := fun x =>
  (∃ id b, s₀.borrowers.get id = some b
      ∧ BorrowerRepository.claimable campaignId start b = true) →
    SomeBorrower x ∨ ∃ candidate rest b, candidates = candidate :: rest
      ∧ s₀.borrowers.get candidate.id = some b
      ∧ BorrowerRepository.claimable campaignId start b = true

theorem holds_stable (agent borrower : Option String) :
    (race cfg campaignId start workers s₀).Stable i (HoldsJust i agent borrower) := by
  refine Logic.stable_of_step fun j x x' hj hg _ h => ?_
  exact ⟨fun id => (hg.agent id i hj.symm).trans (h.1 id),
    fun id => (hg.borrower id i hj.symm).trans (h.2 id)⟩

theorem notFirst_stable :
    (race cfg campaignId start workers s₀).Stable i fun x => x.2.first ≠ some i := by
  refine Logic.stable_of_step fun j x x' hj hg _ h hfirst => ?_
  rcases hg.entrant i hfirst with hold | rfl
  · exact h hold
  · exact hj rfl

theorem someBorrower_stable :
    (race cfg campaignId start workers s₀).Stable i SomeBorrower := by
  refine Logic.stable_of_step fun _ x x' _ hg _ h => ?_
  obtain ⟨id, j, hj⟩ := h
  exact ⟨id, j, hg.kept id j hj⟩

theorem first_stable :
    (race cfg campaignId start workers s₀).Stable i fun x => x.2.first ≠ none := by
  refine Logic.stable_of_step fun _ x x' _ hg _ h => ?_
  obtain ⟨j, hj⟩ := Option.ne_none_iff_exists'.mp h
  rw [hg.first j hj]
  exact Option.some_ne_none j

theorem agentChance_stable (candidates : List Agent) :
    (race cfg campaignId start workers s₀).Stable i
      (AgentChance campaignId s₀ candidates) := by
  intro x x' hr h hinit
  rcases h hinit with hfirst | hhead
  · exact .inl (first_stable x x' hr hfirst)
  · exact .inr hhead

theorem borrowerChance_stable (candidates : List Borrower) :
    (race cfg campaignId start workers s₀).Stable i
      (BorrowerChance campaignId start s₀ candidates) := by
  intro x x' hr h hinit
  rcases h hinit with hsome | hhead
  · exact .inl (someBorrower_stable x x' hr hsome)
  · exact .inr hhead

/-! ## One operation -/

theorem Accounted.record {s : State} {γ : Holdings} (h : Accounted campaignId workers s₀ (s, γ))
    (e : Entry) : Accounted campaignId workers s₀ (s.record e, γ) where
  agents := h.agents
  borrowers := h.borrowers
  untouched := h.untouched
  first := h.first

/-- As long as nobody has a borrower, the borrowers are as they were at the start. -/
theorem Accounted.borrowers_untouched {x : State × Holdings}
    (h : Accounted campaignId workers s₀ x) (hnobody : ¬SomeBorrower x) (id : String) :
    x.1.borrowers.get id = s₀.borrowers.get id := by
  have hnone : x.2.borrower id = none := by
    by_contra hne
    obtain ⟨j, hj⟩ := Option.ne_none_iff_exists'.mp hne
    exact hnobody ⟨id, j, hj⟩
  rcases h.borrowers.unheld id hnone with hsame | ⟨_, _, -, -, -, hback⟩
  · exact hsame
  · exact hback.elim

/-- One operation of an execution: its effect, and who holds what after it. -/
theorem race_atomic {o : Op} {A : Assertion Holdings} {B : Ans o → Assertion Holdings}
    (h : ∀ c x, start ≤ c.now → Accounted campaignId workers s₀ x → A x →
      ∃ a γ, (effect o c x.1).1 = .ok a
        ∧ Accounted campaignId workers s₀ ((effect o c x.1).2, γ) ∧ OwnHoldings i x.2 γ
        ∧ ∀ s, B a (s, γ)) :
    (race cfg campaignId start workers s₀).Atomic i o A (Finishes B) := by
  intro x hinv hA c hc
  obtain ⟨a, γ, ha, hinv', hown, hB⟩ := h c x hc.2 hinv hA
  have hexec : exec i o c x.1 = (.ok a, (effect o c x.1).2.record (.answered i o (.ok a))) := by
    rw [exec_faultless hc.1, ha]
  change ∃ γ, Accounted campaignId workers s₀ ((exec i o c x.1).2, γ) ∧ OwnHoldings i x.2 γ
    ∧ Finishes B (exec i o c x.1).1 ((exec i o c x.1).2, γ)
  rw [hexec]
  exact ⟨γ, hinv'.record _, hown, hB _⟩

/-- Until an agent has been claimed, an agent there was to be had heads the candidates. -/
theorem findClaimableAgents_atomic :
    (race cfg campaignId start workers s₀).Atomic i (.findClaimableAgents campaignId 1)
      (fun x => HoldsJust i none none x ∧ x.2.first ≠ some i)
      (Finishes fun candidates x => (HoldsJust i none none x ∧ x.2.first ≠ some i)
        ∧ AgentChance campaignId s₀ candidates x) := by
  refine race_atomic fun c x _ hinv hx => ?_
  refine ⟨_, x.2, rfl, hinv, .refl i x.2, fun s => ⟨hx, fun ⟨id, a, ha, hfree⟩ => ?_⟩⟩
  by_cases hfirst : x.2.first = none
  · have hsame := hinv.untouched hfirst
    have hnow : x.1.agents.get id = some a := (hsame id).trans ha
    obtain ⟨head, rest, hlist, hhead, hp, -⟩ :=
      Collection.limit_sortOn_find Agent.stateChangedAt (candidateWindow 1) hnow hfree
    refine .inr ⟨head, rest, head, ?_, (hsame _).symm.trans hhead, hp⟩
    rw [AgentRepository.findClaimableAgents, if_neg (by decide)]
    exact hlist
  · exact .inl hfirst

/-- The claim of an agent: the first to be made is not refused. -/
theorem tryReserveAgent_atomic {workerId : String} (hi : workers[i]? = some workerId)
    (candidate : Agent) (rest : List Agent) :
    (race cfg campaignId start workers s₀).Atomic i
      (.tryReserveAgent campaignId candidate.id workerId cfg.reservationTtlSeconds)
      (fun x => (HoldsJust i none none x ∧ x.2.first ≠ some i)
        ∧ AgentChance campaignId s₀ (candidate :: rest) x)
      (Finishes fun answer x => match answer with
        | some agent => HoldsJust i (some agent.id) none x
        | none => (HoldsJust i none none x ∧ x.2.first ≠ some i)
            ∧ AgentChance campaignId s₀ rest x) := by
  refine race_atomic fun c x _ hinv hx => ?_
  obtain ⟨⟨⟨hagent, hborrower⟩, hnot⟩, hchance⟩ := hx
  have hi' : i < workers.length := (List.getElem?_eq_some_iff.mp hi).1
  cases hans : (AgentRepository.tryReserveAgent c.now campaignId candidate.id workerId
      cfg.reservationTtlSeconds x.1.agents).1 with
  | none =>
      have hkept := hinv.agents.refused hans
      have hsame : ∀ id, (AgentRepository.tryReserveAgent c.now campaignId candidate.id workerId
          cfg.reservationTtlSeconds x.1.agents).2.get id = x.1.agents.get id :=
        Collection.update_of_get_filter (Option.map_eq_none_iff.mp hans)
      refine ⟨none, x.2, congrArg Except.ok hans,
        ⟨hkept, hinv.borrowers, ?_, hinv.first⟩, .refl i x.2,
        fun s => ⟨⟨⟨hagent, hborrower⟩, hnot⟩, fun hinit => ?_⟩⟩
      · exact fun hfirst id => (hsame id).trans (hinv.untouched hfirst id)
      · refine .inl fun hfirst => ?_
        -- nobody has had an agent, and yet the head of the list was refused
        rcases hchance hinit with hsome | ⟨head, _, a, hlist, ha, hfree⟩
        · exact hsome hfirst
        · obtain ⟨rfl, -⟩ := List.cons.inj hlist
          have hnow : x.1.agents.get candidate.id = some a :=
            (hinv.untouched hfirst _).trans ha
          have hrefused := Collection.findOneAndUpdate_none.mp hans a hnow
          cases hrefused.symm.trans hfree
  | some agent =>
      have hkey : agent.id = candidate.id := by
        obtain ⟨d, hd, -, rfl, -⟩ := Collection.get_of_findOneAndUpdate_some hans
        exact Collection.key_of_get hd
      have hheld : ∀ a, AgentRepository.reservable campaignId a = true →
          (agentDiscipline campaignId workers).held i
            ((AgentRepository.reserve c.now workerId cfg.reservationTtlSeconds).apply a) := by
        intro a ha
        exact ⟨(AgentRepository.reservable_iff.mp ha).1, workerId, hi, rfl, rfl, rfl, rfl⟩
      have hrefuse : ∀ j a, (agentDiscipline campaignId workers).held j a →
          AgentRepository.reservable campaignId a = false := by
        rintro j a ⟨-, _, -, hleased⟩
        rw [AgentRepository.reservable, hleased.state]
        exact Bool.and_false _
      obtain ⟨hfree, hclaimed⟩ := hinv.agents.claim (fun _ h => h) hheld hrefuse hans
      refine ⟨some agent, ⟨Function.update x.2.agent candidate.id (some i), x.2.borrower,
        some (x.2.first.getD i)⟩, congrArg Except.ok hans,
        ⟨hclaimed, hinv.borrowers, (fun h => by cases h), ?_⟩,
        ⟨?_, fun _ _ _ => .rfl, fun _ _ h => h, ?_, ?_⟩,
        fun s => ⟨?_, hborrower⟩⟩
      · intro j hj
        cases hfirst : x.2.first with
        | none =>
            rw [hfirst] at hj
            exact Option.some.inj hj ▸ hi'
        | some j' =>
            rw [hfirst] at hj
            exact Option.some.inj hj ▸ hinv.first j' hfirst
      · exact fun id j hj => update_claim_ne hfree hj id
      · intro j hj
        rw [hj]
        rfl
      · intro j hj
        cases hfirst : x.2.first with
        | none =>
            rw [hfirst] at hj
            exact .inr (Option.some.inj hj).symm
        | some j' =>
            rw [hfirst] at hj
            exact .inl hj
      · rw [hkey]
        exact update_claim_self hagent

/-- Until a borrower has been claimed, a borrower there was to be had heads the candidates. -/
theorem findClaimableBorrowers_atomic (agent : String) :
    (race cfg campaignId start workers s₀).Atomic i (.findClaimableBorrowers campaignId 1)
      (HoldsJust i (some agent) none)
      (Finishes fun candidates x => HoldsJust i (some agent) none x
        ∧ BorrowerChance campaignId start s₀ candidates x) := by
  refine race_atomic fun c x hnow hinv hx => ?_
  refine ⟨_, x.2, rfl, hinv, .refl i x.2, fun s => ⟨hx, fun ⟨id, b, hb, hfree⟩ => ?_⟩⟩
  by_cases hsome : SomeBorrower x
  · exact .inl hsome
  · have hsame := hinv.borrowers_untouched hsome
    have hp : BorrowerRepository.claimable campaignId c.now b = true :=
      BorrowerRepository.claimable_later hfree hnow
    obtain ⟨head, rest, hlist, hhead, hphead, hle⟩ :=
      Collection.limit_sortOn_find Borrower.nextEligibleAt (candidateWindow 1)
        ((hsame id).trans hb) hp
    obtain ⟨-, -, heligible⟩ := BorrowerRepository.claimable_iff.mp hfree
    obtain ⟨hcampaign, hpending, -⟩ := BorrowerRepository.claimable_iff.mp hphead
    refine .inr ⟨head, rest, head, ?_, (hsame _).symm.trans hhead, ?_⟩
    · rw [BorrowerRepository.findClaimableBorrowers, if_neg (by decide)]
      exact hlist
    · -- the head has been eligible for longer than the one there was at the start
      exact BorrowerRepository.claimable_iff.mpr ⟨hcampaign, hpending, hle.trans heligible⟩

/-- The claim of a borrower: the first to be made is not refused. -/
theorem tryReserveBorrower_atomic {workerId : String} (hi : workers[i]? = some workerId)
    (agent : String) (candidate : Borrower) (rest : List Borrower) :
    (race cfg campaignId start workers s₀).Atomic i
      (.tryReserveBorrower campaignId candidate.id workerId cfg.reservationTtlSeconds)
      (fun x => HoldsJust i (some agent) none x
        ∧ BorrowerChance campaignId start s₀ (candidate :: rest) x)
      (Finishes fun answer x => match answer with
        | some borrower => HoldsJust i (some agent) (some borrower.id) x
        | none => HoldsJust i (some agent) none x
            ∧ BorrowerChance campaignId start s₀ rest x) := by
  refine race_atomic fun c x hnow hinv hx => ?_
  obtain ⟨⟨hagent, hborrower⟩, hchance⟩ := hx
  cases hans : (BorrowerRepository.tryReserveBorrower c.now campaignId candidate.id workerId
      cfg.reservationTtlSeconds x.1.borrowers).1 with
  | none =>
      refine ⟨none, x.2, congrArg Except.ok hans,
        ⟨hinv.agents, hinv.borrowers.refused hans, hinv.untouched, hinv.first⟩, .refl i x.2,
        fun s => ⟨⟨hagent, hborrower⟩, fun hinit => ?_⟩⟩
      rcases hchance hinit with hsome | ⟨head, _, b, hlist, hb, hfree⟩
      · exact .inl hsome
      · obtain ⟨rfl, -⟩ := List.cons.inj hlist
        left
        -- had nobody claimed it, it would be what it was at the start
        by_contra hnobody
        have hthere : x.1.borrowers.get candidate.id = some b :=
          (hinv.borrowers_untouched hnobody _).trans hb
        have hrefused := Collection.findOneAndUpdate_none.mp hans b hthere
        cases hrefused.symm.trans (BorrowerRepository.claimable_later hfree hnow)
  | some borrower =>
      have hkey : borrower.id = candidate.id := by
        obtain ⟨d, hd, -, rfl, -⟩ := Collection.get_of_findOneAndUpdate_some hans
        exact Collection.key_of_get hd
      have hfree : ∀ b, BorrowerRepository.claimable campaignId c.now b = true →
          (borrowerDiscipline campaignId workers).free b := by
        intro b hb
        obtain ⟨hcampaign, hpending, -⟩ := BorrowerRepository.claimable_iff.mp hb
        exact ⟨hcampaign, hpending⟩
      have hheld : ∀ b, BorrowerRepository.claimable campaignId c.now b = true →
          (borrowerDiscipline campaignId workers).held i
            ((BorrowerRepository.reserve c.now workerId cfg.reservationTtlSeconds).apply b) :=
        fun b _ => ⟨workerId, hi, rfl, rfl, rfl, rfl⟩
      have hrefuse : ∀ j b, (borrowerDiscipline campaignId workers).held j b →
          BorrowerRepository.claimable campaignId c.now b = false := by
        rintro j b ⟨_, -, hleased⟩
        rw [BorrowerRepository.claimable, hleased.status]
        simp
      obtain ⟨hnone, hclaimed⟩ := hinv.borrowers.claim hfree hheld hrefuse hans
      refine ⟨some borrower, ⟨x.2.agent, Function.update x.2.borrower candidate.id (some i),
        x.2.first⟩, congrArg Except.ok hans, ⟨hinv.agents, hclaimed, hinv.untouched, hinv.first⟩,
        ⟨fun _ _ _ => .rfl, fun id j hj => update_claim_ne hnone hj id, ?_, fun _ h => h,
          fun _ h => .inl h⟩, fun s => ⟨hagent, ?_⟩⟩
      · intro id j hj
        by_cases hji : j = i
        · cases (hborrower id).mp (hji ▸ hj)
        · exact (update_claim_ne hnone hji id).mpr hj
      · rw [hkey]
        exact update_claim_self hborrower

/-- The compensation: the agent is AVAILABLE again, its lease cleared. -/
theorem releaseAgent_atomic {workerId : String} (hi : workers[i]? = some workerId)
    (agent : String) :
    (race cfg campaignId start workers s₀).Atomic i
      (.releaseAgent agent workerId .available .allocator false) (HoldsJust i (some agent) none)
      (Finishes fun _ x => HoldsJust i none none x) := by
  refine race_atomic fun c x _ hinv hx => ?_
  obtain ⟨hagent, hborrower⟩ := hx
  have hmine : x.2.agent agent = some i := (hagent agent).mpr rfl
  have hopen : ∀ a, (agentDiscipline campaignId workers).held i a →
      AgentRepository.releasable workerId (allowedSources .available .allocator) a = true := by
    rintro a ⟨-, name, hname, hleased⟩
    obtain rfl : workerId = name := Option.some.inj (hi.symm.trans hname)
    rw [AgentRepository.releasable, hleased.reservedBy, hleased.state]
    simp only [beq_self_eq_true, Bool.true_and]
    decide
  have hback : ∀ a, (agentDiscipline campaignId workers).held i a →
      (agentDiscipline campaignId workers).returned ((AgentRepository.release c.now
        (allowedSources .available .allocator) .available).apply a) := by
    rintro a ⟨hcampaign, -⟩
    refine ⟨?_, rfl, rfl, rfl⟩
    have hsame : ((AgentRepository.release c.now (allowedSources .available .allocator)
        .available).apply a).campaignId = a.campaignId := by
      simp only [AgentRepository.release, AgentRepository.conditionalAccounting]
      split
      · exact AgentRepository.timeAccountingUpdates_campaignId ..
      · rfl
    rw [AgentRepository.reservable, hsame, hcampaign, beq_self_eq_true, Bool.true_and]
    rfl
  refine ⟨_, ⟨Function.update x.2.agent agent none, x.2.borrower, x.2.first⟩, rfl,
    ⟨hinv.agents.giveBack hmine hopen hback, hinv.borrowers, ?_, hinv.first⟩,
    ⟨fun id j hj => update_giveBack_ne hmine hj id, fun _ _ _ => .rfl, fun _ _ h => h,
      fun _ h => h, fun _ h => .inl h⟩, fun s => ⟨update_giveBack_self hagent, hborrower⟩⟩
  intro hfirst
  -- the agent it holds has changed, so somebody has had one
  obtain ⟨a₀, a, ha₀, hfree, ha, -, _, -, hleased⟩ := hinv.agents.held agent i hmine
  obtain rfl : a = a₀ :=
    Option.some.inj (ha.symm.trans ((hinv.untouched hfirst agent).trans ha₀))
  change AgentRepository.reservable campaignId a = true at hfree
  rw [AgentRepository.reservable, hleased.state] at hfree
  cases (Bool.and_false _).symm.trans hfree

/-! ## One execution -/

theorem wp_claimFirstAgent {workerId : String} (hi : workers[i]? = some workerId)
    (candidates : List Agent) {x : State × Holdings}
    (hx : (HoldsJust i none none x ∧ x.2.first ≠ some i)
      ∧ AgentChance campaignId s₀ candidates x) :
    (race cfg campaignId start workers s₀).wp i
      (ReservationService.claimFirstAgent cfg campaignId workerId candidates)
      (Finishes fun answer x => match answer with
        | some agent => HoldsJust i (some agent.id) none x
        | none => (HoldsJust i none none x ∧ x.2.first ≠ some i)
            ∧ AgentChance campaignId s₀ [] x) x := by
  induction candidates generalizing x with
  | nil => exact hx
  | cons candidate rest ih =>
      have hstable : (race cfg campaignId start workers s₀).Stable i fun x =>
          (HoldsJust i none none x ∧ x.2.first ≠ some i)
            ∧ AgentChance campaignId s₀ (candidate :: rest) x :=
        ((holds_stable none none).and notFirst_stable).and (agentChance_stable _)
      refine wp_bind_finishes (Logic.wp_perform hstable
        (tryReserveAgent_atomic hi candidate rest) hx) fun answer x₁ hx₁ => ?_
      cases answer with
      | some agent => exact hx₁
      | none => exact ih hx₁

theorem wp_claimFirstBorrower {workerId : String} (hi : workers[i]? = some workerId)
    (agent : String) (candidates : List Borrower) {x : State × Holdings}
    (hx : HoldsJust i (some agent) none x ∧ BorrowerChance campaignId start s₀ candidates x) :
    (race cfg campaignId start workers s₀).wp i
      (ReservationService.claimFirstBorrower cfg campaignId workerId candidates)
      (Finishes fun answer x => match answer with
        | some borrower => HoldsJust i (some agent) (some borrower.id) x
        | none => HoldsJust i (some agent) none x
            ∧ BorrowerChance campaignId start s₀ [] x) x := by
  induction candidates generalizing x with
  | nil => exact hx
  | cons candidate rest ih =>
      have hstable : (race cfg campaignId start workers s₀).Stable i fun x =>
          HoldsJust i (some agent) none x
            ∧ BorrowerChance campaignId start s₀ (candidate :: rest) x :=
        (holds_stable (some agent) none).and (borrowerChance_stable _)
      refine wp_bind_finishes (Logic.wp_perform hstable
        (tryReserveBorrower_atomic hi agent candidate rest) hx) fun answer x₁ hx₁ => ?_
      cases answer with
      | some borrower => exact hx₁
      | none => exact ih hx₁

/-- `_claim_agent`. -/
theorem wp_claimAgent {workerId : String} (hi : workers[i]? = some workerId)
    {x : State × Holdings} (hx : HoldsJust i none none x ∧ x.2.first ≠ some i) :
    (race cfg campaignId start workers s₀).wp i
      (ReservationService.claimAgent cfg campaignId workerId)
      (Finishes fun answer x => match answer with
        | some agent => HoldsJust i (some agent.id) none x
        | none => (HoldsJust i none none x ∧ x.2.first ≠ some i)
            ∧ AgentChance campaignId s₀ [] x) x :=
  wp_bind_finishes (Logic.wp_perform ((holds_stable none none).and notFirst_stable)
    findClaimableAgents_atomic hx) fun candidates _ hx₁ => wp_claimFirstAgent hi candidates hx₁

/-- `_claim_borrower`. -/
theorem wp_claimBorrower {workerId : String} (hi : workers[i]? = some workerId) (agent : String)
    {x : State × Holdings} (hx : HoldsJust i (some agent) none x) :
    (race cfg campaignId start workers s₀).wp i
      (ReservationService.claimBorrower cfg campaignId workerId)
      (Finishes fun answer x => match answer with
        | some borrower => HoldsJust i (some agent) (some borrower.id) x
        | none => HoldsJust i (some agent) none x
            ∧ BorrowerChance campaignId start s₀ [] x) x :=
  wp_bind_finishes (Logic.wp_perform (holds_stable (some agent) none)
    (findClaimableBorrowers_atomic agent) hx)
    fun candidates _ hx₁ => wp_claimFirstBorrower hi agent candidates hx₁

/-- If there was a borrower to be had, somebody has one. -/
def BorrowerHad (campaignId : String) (start : Time) (s₀ : State) : Assertion Holdings := fun x =>
  (∃ id b, s₀.borrowers.get id = some b
    ∧ BorrowerRepository.claimable campaignId start b = true) → SomeBorrower x

theorem borrowerHad_stable :
    (race cfg campaignId start workers s₀).Stable i (BorrowerHad campaignId start s₀) :=
  fun x x' hr h hinit => someBorrower_stable x x' hr (h hinit)

/-- `_release_agent`. -/
theorem wp_releaseAgent {workerId : String} (hi : workers[i]? = some workerId) (agent : String)
    {x : State × Holdings} (hx : HoldsJust i (some agent) none x)
    (hhad : BorrowerHad campaignId start s₀ x) :
    (race cfg campaignId start workers s₀).wp i
      (ReservationService.releaseAgent agent workerId false)
      (Finishes fun _ x => HoldsJust i none none x ∧ BorrowerHad campaignId start s₀ x) x := by
  have hrelease : (race cfg campaignId start workers s₀).wp i
      (ReservationService.releaseAgent agent workerId false)
      (Finishes fun _ x => HoldsJust i none none x) x :=
    wp_bind_finishes (Logic.wp_perform (holds_stable (some agent) none)
      (releaseAgent_atomic hi agent) hx) fun _ _ hx₁ => hx₁
  have hown : ∀ x x' : State × Holdings, OwnHoldings i x.2 x'.2 →
      BorrowerHad campaignId start s₀ x → BorrowerHad campaignId start s₀ x' := by
    intro x x' hg h hinit
    obtain ⟨id, j, hj⟩ := h hinit
    exact ⟨id, j, hg.kept id j hj⟩
  refine Logic.wp_mono (Logic.wp_frame borrowerHad_stable hown hrelease hhad) ?_
  intro r x' hr
  cases r with
  | ok _ => exact hr
  | error e => exact hr.1.elim

/-- Why an execution may have come away with nothing. -/
def Excused (campaignId : String) (start : Time) (s₀ : State) (i : Nat) : Assertion Holdings :=
  fun x => (∃ id a, s₀.agents.get id = some a ∧ AgentRepository.reservable campaignId a = true) →
    BorrowerHad campaignId start s₀ x ∨ ∃ j, x.2.first = some j ∧ j ≠ i

/-- What an execution comes to; nothing is said of one that died. -/
def Outcome (campaignId : String) (start : Time) (workers : List String) (s₀ : State) (i : Nat) :
    Except Exn (Option ReservationPair) → Assertion Holdings
  | .ok (some pair), x => HoldsJust i (some pair.agent.id) (some pair.borrower.id) x
      ∧ workers[i]? = some pair.workerId
  | .ok none, x => HoldsJust i none none x ∧ Excused campaignId start s₀ i x
  | .error _, _ => True

theorem outcome_stable (r : Except Exn (Option ReservationPair)) :
    (race cfg campaignId start workers s₀).Stable i
      (Outcome campaignId start workers s₀ i r) := by
  cases r with
  | error e => exact Logic.stable_true
  | ok answer =>
      cases answer with
      | some pair => exact (holds_stable _ _).and (Logic.stable_const _)
      | none =>
          refine (holds_stable none none).and (Logic.stable_of_step ?_)
          intro j x x' _ hg _ h hagent
          rcases h hagent with hhad | ⟨j', hj', hne⟩
          · refine .inl fun hinit => ?_
            obtain ⟨id, k, hk⟩ := hhad hinit
            exact ⟨id, k, hg.kept id k hk⟩
          · exact .inr ⟨j', hg.first j' hj', hne⟩

/-- **One execution**, amid the others. -/
theorem wp_reservePair {workerId : String} (hi : workers[i]? = some workerId)
    {x : State × Holdings} (hx : HoldsJust i none none x ∧ x.2.first ≠ some i) :
    (race cfg campaignId start workers s₀).wp i
      (ReservationService.reservePair cfg campaignId workerId)
      (Outcome campaignId start workers s₀ i) x := by
  refine wp_bind_finishes (wp_claimAgent hi hx) fun answer x₁ hx₁ => ?_
  cases answer with
  | none =>
      obtain ⟨⟨hholds, hnot⟩, hchance⟩ := hx₁
      refine ⟨hholds, fun hagent => .inr ?_⟩
      -- nothing left to claim: then somebody was first, and it was not this one
      rcases hchance hagent with hfirst | ⟨_, _, _, hlist, -⟩
      · obtain ⟨j, hj⟩ := Option.ne_none_iff_exists'.mp hfirst
        exact ⟨j, hj, fun heq => hnot (heq ▸ hj)⟩
      · cases hlist
  | some agent =>
      refine wp_bind_finishes (wp_tryCatch_finishes (wp_claimBorrower hi agent.id hx₁))
        fun answer x₂ hx₂ => ?_
      cases answer with
      | some borrower => exact ⟨hx₂, hi⟩
      | none =>
          obtain ⟨hholds, hchance⟩ := hx₂
          have hhad : BorrowerHad campaignId start s₀ x₂ := by
            intro hinit
            rcases hchance hinit with hsome | ⟨_, _, _, hlist, -⟩
            · exact hsome
            · cases hlist
          refine wp_bind_finishes (wp_releaseAgent hi agent.id hholds hhad) fun _ x₃ hx₃ => ?_
          exact ⟨hx₃.1, fun _ => .inl hx₃.2⟩

/-! ## All of them -/

/-- A run of the executions ends in a good world. -/
theorem race_good {w : World (reservers cfg campaignId)}
    (hrun : Relation.ReflTransGen (Step (racing cfg campaignId start))
      (reservePairs cfg campaignId workers s₀) w) :
    ∃ γ, (race cfg campaignId start workers s₀).Good (Outcome campaignId start workers s₀)
      w γ := by
  have hstart : (race cfg campaignId start workers s₀).Good
      (Outcome campaignId start workers s₀) (reservePairs cfg campaignId workers s₀)
      ⟨fun _ => none, fun _ => none, none⟩ := by
    refine ⟨⟨.init _, .init _, fun _ _ => rfl, fun _ h => by cases h⟩, fun i p hp => ?_⟩
    change (workers.map (ReservationService.reservePair cfg campaignId))[i]? = some p at hp
    rw [List.getElem?_map] at hp
    obtain ⟨workerId, hi, rfl⟩ := Option.map_eq_some_iff.mp hp
    refine wp_reservePair hi ⟨⟨fun id => ?_, fun id => ?_⟩, (fun h => by cases h)⟩
    · exact ⟨(fun h => by cases h), (fun h => by cases h)⟩
    · exact ⟨(fun h => by cases h), (fun h => by cases h)⟩
  refine hstart.steps (fun i r => outcome_stable r) (fun _ h => h) (fun i x hx => ?_) hrun
  exact ⟨x.2, hx.record _, .refl i x.2, trivial⟩

/-- Where every execution has come to, once all have finished. -/
theorem outcome_of_finished {w : World (reservers cfg campaignId)} {γ : Holdings}
    (hgood : (race cfg campaignId start workers s₀).Good (Outcome campaignId start workers s₀)
      w γ) (hlen : workers.length ≤ w.procs.length) (hdone : w.Finished)
    (hi : i < workers.length) :
    ∃ r, w.procs[i]? = some (.ret r)
      ∧ Outcome campaignId start workers s₀ i (.ok r) (w.st, γ) := by
  have hlt : i < w.procs.length := by omega
  obtain ⟨r, hr⟩ := hdone _ (List.getElem_mem hlt)
  have hproc : w.procs[i]? = some (.ret r) := by rw [List.getElem?_eq_getElem hlt, hr]
  exact ⟨r, hproc, hgood.returned hproc⟩

section

variable {w : World (reservers cfg campaignId)} {γ : Holdings}
  (hgood : (race cfg campaignId start workers s₀).Good (Outcome campaignId start workers s₀) w γ)
  (hlen : workers.length ≤ w.procs.length) (hdone : w.Finished)

include hgood hlen hdone

/-- Who holds an agent in the end has returned it. -/
theorem returned_of_agent {id : String} {j : Nat} (hj : γ.agent id = some j) :
    ∃ pair, Returned w j pair ∧ pair.agent.id = id := by
  obtain ⟨-, _, -, -, -, -, _, hworker, -⟩ := hgood.1.agents.held id j hj
  obtain ⟨r, hr, hout⟩ := outcome_of_finished hgood hlen hdone
    (List.getElem?_eq_some_iff.mp hworker).1
  cases r with
  | none => cases (hout.1.1 id).mp hj
  | some pair => exact ⟨pair, hr, Option.some.inj ((hout.1.1 id).mp hj)⟩

/-- Who holds a borrower in the end has returned it. -/
theorem returned_of_borrower {id : String} {j : Nat} (hj : γ.borrower id = some j) :
    ∃ pair, Returned w j pair ∧ pair.borrower.id = id := by
  obtain ⟨-, _, -, -, -, _, hworker, -⟩ := hgood.1.borrowers.held id j hj
  obtain ⟨r, hr, hout⟩ := outcome_of_finished hgood hlen hdone
    (List.getElem?_eq_some_iff.mp hworker).1
  cases r with
  | none => cases (hout.1.2 id).mp hj
  | some pair => exact ⟨pair, hr, Option.some.inj ((hout.1.2 id).mp hj)⟩

theorem agent_kept_or_cleared {id : String} {a₀ : Agent} (ha₀ : s₀.agents.get id = some a₀)
    (havail : a₀.state = .available) (hnot : ∀ i pair, Returned w i pair → pair.agent.id ≠ id) :
    ∃ a, w.st.agents.get id = some a ∧ a.state = .available ∧ (a.LeaseCleared ∨ a = a₀) := by
  have hnone : γ.agent id = none := by
    by_contra hne
    obtain ⟨j, hj⟩ := Option.ne_none_iff_exists'.mp hne
    obtain ⟨pair, hret, hid⟩ := returned_of_agent hgood hlen hdone hj
    exact hnot j pair hret hid
  rcases hgood.1.agents.unheld id hnone with hsame | ⟨-, a, -, -, ha, hfree, hcleared⟩
  · exact ⟨a₀, hsame.trans ha₀, havail, .inr rfl⟩
  · exact ⟨a, ha, (AgentRepository.reservable_iff.mp hfree).2, .inl hcleared⟩

theorem borrower_kept {id : String}
    (hnot : ∀ i pair, Returned w i pair → pair.borrower.id ≠ id) :
    w.st.borrowers.get id = s₀.borrowers.get id := by
  have hnone : γ.borrower id = none := by
    by_contra hne
    obtain ⟨j, hj⟩ := Option.ne_none_iff_exists'.mp hne
    obtain ⟨pair, hret, hid⟩ := returned_of_borrower hgood hlen hdone hj
    exact hnot j pair hret hid
  rcases hgood.1.borrowers.unheld id hnone with hsame | ⟨_, _, -, -, -, hback⟩
  · exact hsame
  · exact hback.elim

/-- **Somebody wins**: the first to have an agent, if nobody else. -/
theorem someone_returned (hne : workers ≠ [])
    (hagent : ∃ id a, s₀.agents.get id = some a
      ∧ AgentRepository.reservable campaignId a = true)
    (hborrower : ∃ id b, s₀.borrowers.get id = some b
      ∧ BorrowerRepository.claimable campaignId start b = true) :
    ∃ i pair, Returned w i pair := by
  have hwin : ∀ i, i < workers.length → (∃ i pair, Returned w i pair)
      ∨ ∃ j, γ.first = some j ∧ j ≠ i := by
    intro i hi
    obtain ⟨r, hr, hout⟩ := outcome_of_finished hgood hlen hdone hi
    cases r with
    | some pair => exact .inl ⟨i, pair, hr⟩
    | none =>
        rcases hout.2 hagent with hhad | hother
        · obtain ⟨id, j, hj⟩ := hhad hborrower
          obtain ⟨pair, hret, -⟩ := returned_of_borrower hgood hlen hdone hj
          exact .inl ⟨j, pair, hret⟩
        · exact .inr hother
  rcases hwin 0 (List.length_pos_iff.mpr hne) with hwon | ⟨j, hj, -⟩
  · exact hwon
  · -- the first to have an agent cannot refer to one who was before it
    rcases hwin j (hgood.1.first j hj) with hwon | ⟨j', hj', hne'⟩
    · exact hwon
    · exact absurd (Option.some.inj (hj'.symm.trans hj)) hne'

end

/--
**The race.** However the executions are interleaved, once all have finished: no two pairs
share an agent or a borrower; the agents and borrowers of the pairs are RESERVED, with a
lease; every other agent that was AVAILABLE is so, with its lease cleared or exactly as it
was; every other borrower is as it was; and somebody has a pair, if there was one to be had.
-/
theorem reservation_race {w : World (reservers cfg campaignId)}
    (hrun : Relation.ReflTransGen (Step (racing cfg campaignId start))
      (reservePairs cfg campaignId workers s₀) w) (hdone : w.Finished) :
    RaceOutcome start workers s₀ w := by
  obtain ⟨γ, hgood⟩ := race_good hrun
  have hlen : workers.length ≤ w.procs.length := by
    have hsteps := Step.length_le_of_steps hrun
    rwa [reservePairs, List.length_map] at hsteps
  -- what is returned is what the ghost state says is held
  have hpair : ∀ i pair, Returned w i pair →
      Outcome campaignId start workers s₀ i (.ok (some pair)) (w.st, γ) :=
    fun i pair hret => hgood.returned hret
  refine ⟨?_, ?_, ?_, ?_, ?_, ?_⟩
  · intro i j pair pair' hi hj hne
    have hi' := (hpair i pair hi).1
    have hj' := (hpair j pair' hj).1
    constructor
    · intro heq
      have h : γ.agent pair.agent.id = some i := (hi'.1 _).mpr rfl
      have h' : γ.agent pair.agent.id = some j := heq ▸ (hj'.1 _).mpr rfl
      exact hne (Option.some.inj (h.symm.trans h'))
    · intro heq
      have h : γ.borrower pair.borrower.id = some i := (hi'.2 _).mpr rfl
      have h' : γ.borrower pair.borrower.id = some j := heq ▸ (hj'.2 _).mpr rfl
      exact hne (Option.some.inj (h.symm.trans h'))
  · intro i pair hi
    obtain ⟨hholds, hworker⟩ := hpair i pair hi
    obtain ⟨-, a, -, -, ha, -, name, hname, hleased⟩ :=
      hgood.1.agents.held pair.agent.id i ((hholds.1 _).mpr rfl)
    obtain rfl : pair.workerId = name := Option.some.inj (hworker.symm.trans hname)
    exact ⟨hworker, a, ha, hleased⟩
  · intro i pair hi
    obtain ⟨hholds, hworker⟩ := hpair i pair hi
    obtain ⟨-, b, -, -, hb, name, hname, hleased⟩ :=
      hgood.1.borrowers.held pair.borrower.id i ((hholds.2 _).mpr rfl)
    obtain rfl : pair.workerId = name := Option.some.inj (hworker.symm.trans hname)
    exact ⟨b, hb, hleased⟩
  · exact fun id a₀ ha₀ havail hnot => agent_kept_or_cleared hgood hlen hdone ha₀ havail hnot
  · exact fun id hnot => borrower_kept hgood hlen hdone hnot
  · exact fun hne ha hb => someone_returned hgood hlen hdone hne ha hb

end

/-! ## Two executions -/

/-- Both find the one agent there is, and the second is refused. -/
def refusal : List (Label (reservers {} "campaign")) :=
  [.run 0 {}, .run 1 {}, .run 0 {}, .run 1 {}, .run 0 {}, .run 0 {}]

/-- Such a race, of two workers of one name. -/
theorem reservation_race_refusal :
    ∃ w : World (reservers {} "campaign"),
      Relation.ReflTransGen (Step (racing {} "campaign" 0))
        (reservePairs {} "campaign" ["worker", "worker"] oneAgent) w
      ∧ w.Finished ∧ RaceOutcome 0 ["worker", "worker"] oneAgent w := by
  have hplay : ((reservePairs {} "campaign" ["worker", "worker"] oneAgent).play
      (racing {} "campaign" 0) refusal).any
        (fun w : World (reservers {} "campaign") => decide w.Finished) = true := by
    decide +kernel
  obtain ⟨w, hw, hdone⟩ := Option.any_eq_true _ _ |>.mp hplay
  have hrun := steps_of_play hw
  exact ⟨w, hrun, of_decide_eq_true hdone, reservation_race hrun (of_decide_eq_true hdone)⟩

/-! ## A lease that was there before -/

/-- Two agents, and a borrower. -/
def colleagues : State :=
  seed ⟨[idleAgent "agent", idleAgent "colleague"], nodup_colleagues⟩
    ⟨[pendingBorrower "borrower"], nodup_borrower⟩

/-- The agent is reserved by a worker that dies; it logs out, and logs in again. -/
def loggedInAgain : List (Label (dialer {})) :=
  [dialOnce, .run 0 {}, .run 0 {}, .crash 0]
    ++ .spawn (.agentAction "agent" "logout") :: List.replicate 2 (.run 1 { now := 1 })
    ++ .spawn (.agentAction "agent" "login") :: List.replicate 4 (.run 2 { now := 2 })

/-- No process has returned a pair with the agent in it. -/
def passedOver (agentId : String) (w : World (reservers {} "campaign")) : Bool :=
  w.procs.all fun p => match p with
    | .ret (some pair) => pair.agent.id != agentId
    | _ => true

theorem ne_of_passedOver {agentId : String} {w : World (reservers {} "campaign")}
    (h : passedOver agentId w = true) {i : Nat} {pair : ReservationPair}
    (hret : Returned w i pair) : pair.agent.id ≠ agentId := by
  have hproc := List.all_eq_true.mp h _ (List.mem_of_getElem? hret)
  simpa using hproc

/-- The agent has a lease, and one execution leaves it as it is. -/
def passesOver (w₀ : World (dialer {})) : Bool :=
  (w₀.st.agents.get "agent").any fun a => a.state == .available && a.leaseExpiresAt.isSome
    && ((reservePairs {} "campaign" ["worker"] w₀.st).play (racing {} "campaign" 2)
      (List.replicate 4 (.run 0 { now := 2 }))).any
        fun w : World (reservers {} "campaign") => decide w.Finished && passedOver "agent" w
          && w.st.agents.get "agent" == some a

/--
**A lease may outlive the race.** An agent that logs out while it is reserved keeps the lease
when it logs in again. The one execution there is takes its colleague; the agent is AVAILABLE
before and after, in no pair, and its lease is not cleared.
-/
theorem lease_outlives_race :
    ∃ (w₀ : World (dialer {})) (w : World (reservers {} "campaign")) (a : Agent),
      Reachable (Policy.any (dialer {})) Fresh w₀
      ∧ Relation.ReflTransGen (Step (racing {} "campaign" 2))
        (reservePairs {} "campaign" ["worker"] w₀.st) w
      ∧ w.Finished
      ∧ w₀.st.agents.get "agent" = some a ∧ a.state = .available
      ∧ (∀ i pair, Returned w i pair → pair.agent.id ≠ "agent")
      ∧ w.st.agents.get "agent" = some a ∧ ¬a.LeaseCleared := by
  obtain ⟨w₀, hw₀, htest⟩ := Reachable.of_play (Policy.any (dialer {})) (s := colleagues)
    (seed_fresh _ _) loggedInAgain passesOver (by decide +kernel)
  obtain ⟨a, ha, hrest⟩ := Option.any_eq_true _ _ |>.mp htest
  simp only [Bool.and_eq_true, beq_iff_eq] at hrest
  obtain ⟨⟨havail, hlease⟩, hplay⟩ := hrest
  obtain ⟨w, hw, htest'⟩ := Option.any_eq_true _ _ |>.mp hplay
  simp only [Bool.and_eq_true, decide_eq_true_eq, beq_iff_eq] at htest'
  obtain ⟨⟨hdone, hpassed⟩, hkept⟩ := htest'
  refine ⟨w₀, w, a, hw₀, steps_of_play hw, hdone, ha, havail,
    fun i pair hret => ne_of_passedOver hpassed hret, hkept, fun hcleared => ?_⟩
  rw [hcleared.leaseExpiresAt] at hlease
  cases hlease

end SmartDialer
