import SmartDialer.Protocol.ProviderErrors

/-!
# A dial that is cancelled

`allocate` gives the pair back when a dial is cancelled, and shields the two releases that do
it. That puts the agent right from wherever the dial was, and the borrower too, unless the dial
had just released it for the last attempt there is. The call is not looked at: what the dial
has filed by then, and not made FAILED, stays behind with the names of both on it.
-/

namespace SmartDialer

open Store Conc

variable {cfg : Settings} {campaign : Campaign} {pair : ReservationPair} {s : State} {i : Nat}
  {b : Bool} {env : Nat → Choice}

/--
The task may be cancelled anywhere, and `b` says whether the operation at which it is has had
its effect by then; the database does not fail, and new ids are new.
-/
structure Interrupted (s : State) (b : Bool) (env : Nat → Choice) : Prop where
  fault : ∀ n, (env n).fault = .none ∨ (env n).fault = .cancelled b
  fresh : ∀ n, s.calls.get (env n).newId = none

theorem Interrupted.policy (h : Interrupted s b env) (n : Nat) (o : Op) (s' : State) :
    (alone cfg s (· = b) fun _ => True).run i o (env n) s' :=
  ⟨(h.fault n).imp id fun hc => ⟨b, rfl, hc⟩, h.fresh n, trivial⟩

/-- All is as if the pair had never been reserved, and nobody is on the phone with either. -/
structure Compensated (pair : ReservationPair) (s : State) : Prop where
  agent : ∃ a, s.agents.get pair.agent.id = some a ∧ a.Free
  borrower : ∃ x, s.borrowers.get pair.borrower.id = some x ∧ x.Free
  uncalled : Uncalled pair s

/-! ## The dial -/

/-- A dial that ends in a cancellation leaves what `CutPost` tells. -/
theorem cutPost_of_cancelled (hheld : PairHeld pair s) (hwell : CallsWellFormed s)
    (hlog : s.log = []) (henv : Interrupted s b env) {x : State × Nat}
    (hcancel : (CallAllocator.dial cfg campaign pair).eval (solo i env) (s, 0)
      = (.error .cancelledError, x)) : CutPost cfg campaign pair s b x.1 := by
  obtain ⟨y, hgate, hy, hstage⟩ : ∃ y, (CallAllocator.retrySuppressed cfg campaign pair).eval
      (solo i env) (s, 0) = (.ok (decide (GateClosed cfg pair env)), y)
      ∧ SameDocuments y.1 s ∧ Stage y.1.log false false false :=
    eval_retrySuppressed (hlog ▸ stage_nil)
  rw [dial_eq, Prog.eval_bind, hgate] at hcancel
  -- whatever the dial does past the gate, its outline is read off at the cancellation
  have hpast : ∀ (p : Async Bool) (f : Bool → State → Prop),
      (dialLogic cfg s (· = b) (fun _ => True) i).wp i p
        (Ended cfg campaign pair s (· = b) (fun _ => True) f) (y.1, ()) →
      p.eval (solo i env) y = (.error .cancelledError, x) → CutPost cfg campaign pair s b x.1 := by
    intro p f hp heval
    have hpost : Ended cfg campaign pair s (· = b) (fun _ => True) f (p.eval (solo i env) y).1
        ((p.eval (solo i env) y).2.1, ()) :=
      Logic.eval_of_wp (n := y.2) (fun n _ => henv.policy n) hp
    rw [heval] at hpost
    rcases hpost with ⟨-, _, rfl, hcut⟩ | ⟨hne, -⟩
    · exact hcut
    · exact absurd rfl hne
  dsimp only at hcancel
  split at hcancel
  -- the gate was closed, and the pair was on its way back
  · have hunopened : KeyFree s (dialKey campaign pair) → false = false := fun _ => rfl
    refine hpast _ (fun _ _ => True) ?_ hcancel
    exact Logic.wp_mono (wp_giveBack hheld hy hstage hunopened)
      fun r z hr => hr.ended fun _ _ _ => trivial
  · refine hpast _ (fun _ _ => True) ?_ hcancel
    by_cases hdriven : PastQueued campaign pair s
    · exact Logic.wp_mono (wp_createAndDrive_past hheld hy hstage hdriven)
        fun r z hr => hr.ended fun _ _ _ => trivial
    · refine Logic.wp_mono (wp_createAndDrive hheld hwell hy hstage hdriven) ?_
      rintro (e | a) z hr
      · exact hr
      · trivial

/-! ## The compensation -/

/-- An operation that is not interrupted. -/
theorem wp_shielded {o : Op} (ho : o.Plain) (hshield : o.isCancellable = false)
    {s₀ : State} {Cut : Bool → Prop} {Answers : OriginateAnswer → Prop}
    {f : Ans o → Assertion Unit}
    (hgo : ∀ c : Choice, c.fault = .none → ∀ a, (exec i o c s).1 = .ok a →
      f a ((exec i o c s).2, ())) :
    (dialLogic cfg s₀ Cut Answers i).wp i (await o) (Finishes f) (s, ()) := by
  refine wp_await (fun c hc => ?_) fun hcancellable => ?_
  · obtain ⟨a, hans⟩ := exec_plain ho hc.fault i s
    rw [hans]
    exact hgo c hc.fault a hans
  · rw [hshield] at hcancellable
    cases hcancellable

/-- What the compensation leaves of documents in `s₁`. -/
structure Restored (cfg : Settings) (pair : ReservationPair) (counted : Bool) (s₁ s₂ : State) :
    Prop where
  calls : s₂.calls = s₁.calls
  agent : ∃ a, s₂.agents.get pair.agent.id = some a ∧ a.Free
  borrower : ∃ x, s₂.borrowers.get pair.borrower.id = some x
    ∧ (Exhausting cfg pair counted ∧ x.status = .exhausted
      ∨ ¬Exhausting cfg pair counted ∧ x.Free)

/-- What the shielded releases come to, from anything a cancelled dial leaves. -/
theorem wp_releasePair_shielded (hheld : PairHeld pair s) {s₁ : State} {counted : Bool}
    {opened failed : Bool} (hcut : CutFrom cfg campaign pair s opened failed counted s₁) :
    (dialLogic cfg s (· = b) (fun _ => True) i).wp i
      (ReservationService.releasePair cfg pair .released true)
      (Finishes fun _ z => Restored cfg pair counted s₁ z.1) (s₁, ()) := by
  obtain ⟨a, ha, hA⟩ := hcut.agent
  obtain ⟨x, hx, hX⟩ := hcut.borrower
  refine wp_bind_finishes (f := fun _ (z : State × Unit) => z.1.calls = s₁.calls
    ∧ z.1.borrowers = s₁.borrowers
    ∧ ∃ a, z.1.agents.get pair.agent.id = some a ∧ a.Free) ?_ ?_
  · change (dialLogic cfg s (· = b) (fun _ => True) i).wp i ((await (.releaseAgent pair.agent.id
      pair.workerId .available .allocator true)).bind fun _ => .ret ()) _ _
    refine wp_bind_finishes (wp_shielded (o := .releaseAgent _ _ _ _ _) trivial rfl
      fun c hc answer hans => ?_) fun _ _ h => h
    refine ⟨?_, borrowers_of_ok hans, releaseAgent_exec ha hA hc true⟩
    rw [exec_faultless hc]
    rfl
  · rintro - ⟨s₂, ⟨⟩⟩ ⟨hcalls, hborrowers, a', ha', hfree⟩
    have hx₂ : s₂.borrowers.get pair.borrower.id = some x := hborrowers ▸ hx
    refine wp_bind_finishes (wp_shielded (o := .releaseBorrower _ _ _ _ _ _) trivial rfl
      fun c hc answer hans => ?_) fun _ _ h => h
    refine ⟨?_, ⟨a', ?_, hfree⟩, ?_⟩
    · rw [exec_faultless hc]
      exact hcalls
    · rw [agents_of_ok hans]
      exact ha'
    -- the dial may have released the borrower itself: then there is nothing left to release
    · rcases hX with ⟨hexhausting, hstatus⟩ | ⟨hspared, rfl | hXfree⟩
      · exact ⟨x, releaseBorrower_exec_released hx₂ (.inr hstatus) hc .released true,
          .inl ⟨hexhausting, hstatus⟩⟩
      · obtain ⟨x', hx', hstatus⟩ := releaseBorrower_exec cfg (i := i) hheld hx₂ hc
          (.inl rfl) true
        refine ⟨x', hx', .inr ⟨hspared, ?_⟩⟩
        rcases hstatus with ⟨⟨hretry, -⟩, -⟩ | ⟨-, h⟩
        · cases hretry
        · exact h
      · exact ⟨x, releaseBorrower_exec_released hx₂ (.inl hXfree) hc .released true,
          .inr ⟨hspared, hXfree⟩⟩

/--
**When a cancelled dial is compensated.** By itself, and with a database that does not fail,
exactly if no live call named the agent or the borrower before (but for the QUEUED one the dial
took over and had made FAILED by then), if it had not filed its call yet or had made it FAILED,
and if it had not released the borrower for the last of its attempts.
-/
theorem compensated_iff (hheld : PairHeld pair s) (hwell : CallsWellFormed s)
    (hlog : s.log = []) (henv : Interrupted s b env) {x : State × Nat}
    (hcancel : (CallAllocator.dial cfg campaign pair).eval (solo i env) (s, 0)
      = (.error .cancelledError, x)) :
    Compensated pair
        ((CallAllocator.dialOrCompensate cfg campaign pair).eval (solo i env) (s, 0)).2.1
      ↔ Unnamed campaign pair s ((effected b x.1.log).any Op.opensCall)
          ((effected b x.1.log).any Op.failsCall)
        ∧ ¬Exhausting cfg pair ((effected b x.1.log).any Op.countsAttempt) := by
  have hcut := cutPost_of_cancelled hheld hwell hlog henv hcancel
  have hwp : (dialLogic cfg s (· = b) (fun _ => True) i).wp i
      (CallAllocator.compensateCancelledDial cfg pair)
      (Finishes fun _ z => Restored cfg pair ((effected b x.1.log).any Op.countsAttempt) x.1 z.1)
      (x.1, ()) :=
    wp_tryCatch_finishes (wp_releasePair_shielded hheld hcut)
  obtain ⟨y, heval, hrestored⟩ : ∃ y, (CallAllocator.compensateCancelledDial cfg pair).eval
      (solo i env) x = (.ok (), y)
      ∧ Restored cfg pair ((effected b x.1.log).any Op.countsAttempt) x.1 y.1 := by
    have hpost : Finishes
        (fun _ z => Restored cfg pair ((effected b x.1.log).any Op.countsAttempt) x.1 z.1)
        ((CallAllocator.compensateCancelledDial cfg pair).eval (solo i env) x).1
        (((CallAllocator.compensateCancelledDial cfg pair).eval (solo i env) x).2.1, ()) :=
      Logic.eval_of_wp (n := x.2) (fun n _ => henv.policy n) hwp
    generalize (CallAllocator.compensateCancelledDial cfg pair).eval (solo i env) x = z at hpost
    obtain ⟨r, y⟩ := z
    cases r with
    | ok _ => exact ⟨y, rfl, hpost⟩
    | error e => exact hpost.elim
  -- the compensation swallows nothing: it runs to its end and raises again
  have hend : ((CallAllocator.dialOrCompensate cfg campaign pair).eval (solo i env) (s, 0)).2.1
      = y.1 := by
    rw [CallAllocator.dialOrCompensate, Prog.eval_tryCatch, hcancel]
    dsimp only
    rw [if_pos rfl, Prog.bind_eq, Prog.eval_bind, heval]
    rfl
  rw [hend]
  -- it releases the pair, and has no say about the calls
  have huncalled : Uncalled pair y.1 ↔ Unnamed campaign pair s
      ((effected b x.1.log).any Op.opensCall) ((effected b x.1.log).any Op.failsCall) := by
    rw [Uncalled, hrestored.calls]
    exact hcut.calls
  obtain ⟨z, hz, hZ⟩ := hrestored.borrower
  constructor
  · rintro ⟨-, ⟨z', hz', hfree⟩, hnone⟩
    refine ⟨huncalled.mp hnone, fun hexhausting => ?_⟩
    obtain rfl : z = z' := Option.some.inj (hz.symm.trans hz')
    -- an EXHAUSTED borrower is not free
    rcases hZ with ⟨-, hstatus⟩ | ⟨hspared, -⟩
    · cases hstatus.symm.trans hfree.1
    · exact hspared hexhausting
  · rintro ⟨hunnamed, hspared⟩
    refine ⟨hrestored.agent, ⟨z, hz, ?_⟩, huncalled.mpr hunnamed⟩
    rcases hZ with ⟨hexhausting, -⟩ | ⟨-, hfree⟩
    · exact absurd hexhausting hspared
    · exact hfree

/-- The provider accepts, and the task is cancelled at its `n`-th operation. -/
def cancelledAt (n : Nat) (b : Bool) (k : Nat) : Choice where
  newId := "call"
  originate := .result ⟨true, 1, some "provider-call", none⟩
  fault := if k = n then .cancelled b else .none

theorem inHand_interrupted (n : Nat) (b : Bool) : Interrupted inHand b (cancelledAt n b) where
  fault k := by
    by_cases hk : k = n
    · exact .inr (if_pos hk)
    · exact .inl (if_neg hk)
  fresh _ := rfl

/-- Cancelled before it has filed its call, the dial leaves nothing behind. -/
theorem compensated_at_once :
    Compensated pairInHand ((CallAllocator.dialOrCompensate {} { id := "campaign" }
      pairInHand).eval (solo 0 (cancelledAt 0 false)) (inHand, 0)).2.1 := by
  have hcancel : ((CallAllocator.dial {} { id := "campaign" } pairInHand).eval
      (solo 0 (cancelledAt 0 false)) (inHand, 0)).1 = .error .cancelledError := by
    decide +kernel
  refine (compensated_iff inHand_held inHand_wellFormed rfl (inHand_interrupted 0 false)
    (Prod.ext hcancel rfl)).mpr ⟨⟨fun k d hd => ?_, fun _ hopened => ?_⟩, fun h => ?_⟩
  · cases hd
  · have hnot : ((effected false ((CallAllocator.dial {} { id := "campaign" } pairInHand).eval
        (solo 0 (cancelledAt 0 false)) (inHand, 0)).2.1.log).any Op.opensCall) = false := by
      decide +kernel
    cases hnot.symm.trans hopened
  · exact absurd h.2 (by decide)

/-- The dial is cancelled when the provider has accepted the call, which goes on. -/
theorem not_compensated :
    ¬∀ (cfg : Settings) (campaign : Campaign) (pair : ReservationPair) (s : State) (i : Nat)
      (b : Bool) (env : Nat → Choice) (x : State × Nat), PairHeld pair s → CallsWellFormed s →
      s.log = [] → Interrupted s b env →
      (CallAllocator.dial cfg campaign pair).eval (solo i env) (s, 0)
        = (.error .cancelledError, x) →
      Compensated pair
        ((CallAllocator.dialOrCompensate cfg campaign pair).eval (solo i env) (s, 0)).2.1 := by
  intro hall
  have hcancel : ((CallAllocator.dial {} { id := "campaign" } pairInHand).eval
      (solo 0 (cancelledAt 6 false)) (inHand, 0)).1 = .error .cancelledError := by
    decide +kernel
  have hcompensated := hall {} { id := "campaign" } pairInHand inHand 0 false (cancelledAt 6 false)
    _ inHand_held inHand_wellFormed rfl (inHand_interrupted 6 false) (Prod.ext hcancel rfl)
  have hlive : (((CallAllocator.dialOrCompensate {} { id := "campaign" } pairInHand).eval
      (solo 0 (cancelledAt 6 false)) (inHand, 0)).2.1.calls.get "call").any
        (fun d => !isTerminal d.state && d.agentId == "agent") = true := by
    decide +kernel
  obtain ⟨d, hd, hcalling⟩ := Option.any_eq_true _ _ |>.mp hlive
  simp only [Bool.and_eq_true, Bool.not_eq_true', beq_iff_eq] at hcalling
  exact hcompensated.uncalled _ d hd ⟨hcalling.1, .inl hcalling.2⟩

end SmartDialer
