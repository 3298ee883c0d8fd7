import SmartDialer.Protocol.ProviderErrors
import SmartDialer.Protocol.Redelivery

/-!
# An event that is ignored

An event that is not applied is filed with the reason, and the parties are as they were before
it. Applying one takes three or four writes, though, and the handler around them tells whatever
failed on the way as an event that was ignored, even if the first of the writes, which moves
the call, had been made.
-/

namespace SmartDialer

open Store Conc

variable {cfg : Settings} {i : Nat} {env : Nat → Choice} {s : State} {c : Choice}
  {event : ProviderEvent}

/-! ## Programs that tell every failure -/

/-- The operation can fail, and it can be cancelled; if neither happens it is answered. -/
structure Op.Exposed (o : Op) : Prop where
  database : o.isDatabase = true
  cancellable : o.isCancellable = true
  plain : o.Plain

theorem Op.Exposed.answered_iff {o : Op} (ho : o.Exposed) :
    (∃ a, (exec i o c s).1 = .ok a) ↔ c.fault = .none := by
  constructor
  · rintro ⟨a, ha⟩
    have hattempt : (attempt o c s).1 = .ok a := ha
    cases hc : c.fault with
    | none => rfl
    | dbError name performed =>
        rw [attempt, hc] at hattempt
        simp only [ho.database, if_true] at hattempt
        cases hattempt
    | cancelled performed =>
        rw [attempt, hc] at hattempt
        simp only [ho.cancellable, if_true] at hattempt
        cases hattempt
  · intro hc
    exact exec_plain ho.plain hc i s

/-- What an operation that meets a fault raises. -/
theorem Op.Exposed.raised {o : Op} (ho : o.Exposed) {e : Exn} (h : (exec i o c s).1 = .error e) :
    e.isPyMongoError = true ∨ e = .cancelledError := by
  have hattempt : (attempt o c s).1 = .error e := h
  cases hc : c.fault with
  | none =>
      obtain ⟨a, ha⟩ := (ho.answered_iff (i := i) (s := s)).mpr hc
      cases ha.symm.trans h
  | dbError name performed =>
      rw [attempt, hc] at hattempt
      simp only [ho.database, if_true] at hattempt
      exact .inl (by rw [← Except.error.inj hattempt]; rfl)
  | cancelled performed =>
      rw [attempt, hc] at hattempt
      simp only [ho.cancellable, if_true] at hattempt
      exact .inr (Except.error.inj hattempt).symm

/-- The `n`-th operation and those before the `m`-th meet no fault. -/
def Smooth (env : Nat → Choice) (n m : Nat) : Prop := ∀ k, n ≤ k → k < m → (env k).fault = .none

theorem smooth_self (n : Nat) : Smooth env n n := fun _ hle hlt => absurd hlt (by omega)

theorem smooth_append {n m k : Nat} (hnm : n ≤ m) (hmk : m ≤ k) :
    Smooth env n k ↔ Smooth env n m ∧ Smooth env m k := by
  constructor
  · exact fun h => ⟨fun j hle hlt => h j hle (by omega), fun j hle hlt => h j (by omega) hlt⟩
  · rintro ⟨hleft, hright⟩ j hle hlt
    by_cases hj : j < m
    · exact hleft j hle hj
    · exact hright j (by omega) hlt

theorem smooth_succ (n : Nat) : Smooth env n (n + 1) ↔ (env n).fault = .none := by
  constructor
  · exact fun h => h n (Nat.le_refl n) (Nat.lt_succ_self n)
  · intro h k hle hlt
    obtain rfl : k = n := by omega
    exact h

/-- Operations are counted. -/
theorem eval_count {α : Type} (i : Nat) (env : Nat → Choice) (p : Async α) (x : State × Nat) :
    x.2 ≤ (p.eval (solo i env) x).2.2 := by
  induction p generalizing x with
  | ret a => exact Nat.le_refl _
  | raise e => exact Nat.le_refl _
  | await o k ih => exact Nat.le_trans (Nat.le_succ x.2) (ih _ (solo i env o x).2)

/-- The program ends without an exception exactly if none of its operations meets a fault. -/
def Transparent {α : Type} (p : Async α) : Prop :=
  ∀ (i : Nat) (env : Nat → Choice) (x : State × Nat),
    (∃ a, (p.eval (solo i env) x).1 = .ok a) ↔ Smooth env x.2 (p.eval (solo i env) x).2.2

theorem transparent_ret {α : Type} (a : α) : Transparent (.ret a : Async α) :=
  fun _ _ x => ⟨fun _ => smooth_self x.2, fun _ => ⟨a, rfl⟩⟩

theorem transparent_await {o : Op} (ho : o.Exposed) : Transparent (await o) := by
  intro i env x
  have hans := ho.answered_iff (i := i) (c := env x.2) (s := x.1)
  rw [Prog.eval_perform]
  exact hans.trans (smooth_succ x.2).symm

theorem transparent_bind {α β : Type} {p : Async α} {f : α → Async β} (hp : Transparent p)
    (hf : ∀ a, Transparent (f a)) : Transparent (p.bind f) := by
  intro i env x
  have hleft := hp i env x
  have hcount := eval_count i env p x
  rw [Prog.eval_bind]
  generalize p.eval (solo i env) x = y at hleft hcount ⊢
  obtain ⟨r, x'⟩ := y
  cases r with
  | error e =>
      constructor
      · rintro ⟨a, ha⟩
        cases ha
      · intro hsmooth
        obtain ⟨a, ha⟩ := hleft.mpr hsmooth
        cases ha
  | ok a =>
      have hsmooth : Smooth env x.2 x'.2 := hleft.mp ⟨a, rfl⟩
      exact (hf a i env x').trans
        ((smooth_append hcount (eval_count i env (f a) x')).trans (and_iff_right hsmooth)).symm

/-- A handler that lets failures and cancellations through. -/
theorem transparent_tryCatch {α : Type} {o : Op} (ho : o.Exposed) {f : Ans o → Async α}
    (hf : ∀ a, ∃ b, f a = .ret b) {h : Exn → Async α}
    (hh : ∀ e, e.isPyMongoError = true ∨ e = .cancelledError → h e = throw e) :
    Transparent (Prog.tryCatch ((await o).bind f) h) := by
  intro i env x
  rw [Prog.eval_tryCatch, Prog.eval_bind, Prog.eval_perform]
  have hans := ho.answered_iff (i := i) (c := env x.2) (s := x.1)
  have hraised := fun e => ho.raised (i := i) (c := env x.2) (s := x.1) (e := e)
  have hcount : (solo i env o x).2.2 = x.2 + 1 := rfl
  change (∃ a, (solo i env o x).1 = .ok a) ↔ _ at hans
  change ∀ e, (solo i env o x).1 = .error e → _ at hraised
  generalize solo i env o x = y at hans hraised hcount ⊢
  obtain ⟨r, x'⟩ := y
  change x'.2 = x.2 + 1 at hcount
  cases r with
  | ok a =>
      obtain ⟨b, hb⟩ := hf a
      dsimp only
      rw [hb]
      change (∃ a, Except.ok b = .ok a) ↔ Smooth env x.2 x'.2
      rw [hcount, smooth_succ, ← hans]
      exact ⟨fun _ => ⟨a, rfl⟩, fun _ => ⟨b, rfl⟩⟩
  -- it was raised from outside, so the handler raises it again
  | error e =>
      dsimp only
      rw [hh e (hraised e rfl)]
      change (∃ a, Except.error e = .ok a) ↔ Smooth env x.2 x'.2
      rw [hcount, smooth_succ, ← hans]
      constructor
      · rintro ⟨a, ha⟩
        cases ha
      · rintro ⟨a, ha⟩
        cases ha

/-! ## The parties -/

/-- The same agents, borrowers and calls; the events may differ. -/
structure SameParties (s s' : State) : Prop where
  agents : s.agents = s'.agents
  borrowers : s.borrowers = s'.borrowers
  calls : s.calls = s'.calls

theorem SameParties.refl (s : State) : SameParties s s := ⟨rfl, rfl, rfl⟩

theorem SameParties.trans {s s' s'' : State} (h : SameParties s s') (h' : SameParties s' s'') :
    SameParties s s'' :=
  ⟨h.agents.trans h'.agents, h.borrowers.trans h'.borrowers, h.calls.trans h'.calls⟩

/-- The operation writes to none of them. -/
def Op.Clerical (o : Op) : Prop := ∀ c s, SameParties s (effect o c s).2

theorem sameParties_exec {o : Op} (ho : o.Clerical) : SameParties s (exec i o c s).2 := by
  have hattempt : SameParties s (attempt o c s).2 := by
    rcases attempt_state o c s with h | h
    · rw [h]
      exact SameParties.refl s
    · rw [h]
      exact ho c s
  exact ⟨hattempt.agents, hattempt.borrowers, hattempt.calls⟩

/-- A program that writes to none of them. -/
theorem sameParties_eval {α : Type} {p : Async α} (hp : p.All Op.Clerical) (x : State × Nat) :
    SameParties x.1 (p.eval (solo i env) x).2.1 :=
  hp.eval (A := fun (y : State × Nat) => SameParties x.1 y.1)
    (fun _ _ ho hy => hy.trans (sameParties_exec ho)) (SameParties.refl x.1)

theorem finish_clerical (status : EventProcessingStatus) (appliedTransition : Option String) :
    (EventProcessor.finish event status appliedTransition).All Op.Clerical :=
  Prog.all_bind (Prog.all_perform (S := sig) (o := .markProcessed _ _ _ _)
    fun _ _ => ⟨rfl, rfl, rfl⟩) fun _ => trivial

/-! ## The rest of an event that has been applied to its call -/

theorem finish_transparent (status : EventProcessingStatus) (appliedTransition : Option String) :
    Transparent (EventProcessor.finish event status appliedTransition) :=
  transparent_bind (transparent_await ⟨rfl, rfl, trivial⟩) fun _ => transparent_ret _

theorem applyAgentTransition_transparent (call : Call) (t : CallState) :
    Transparent (EventProcessor.applyAgentTransition call t) := by
  unfold EventProcessor.applyAgentTransition
  split
  · exact transparent_ret ()
  · rename_i agentState _
    refine transparent_bind (transparent_await ⟨rfl, rfl, trivial⟩) fun found => ?_
    cases found with
    | none => exact transparent_ret ()
    | some agent =>
        dsimp only
        split
        · exact transparent_ret ()
        · split
          · refine transparent_bind ?_ fun _ => transparent_ret ()
            unfold Agents.releaseAgent
            split
            · exact transparent_ret none
            · exact transparent_await ⟨rfl, rfl, trivial⟩
          · unfold Agents.transitionAgent
            split
            · exact transparent_ret ()
            · refine transparent_tryCatch (o := .transitionAgent _ _ _ _) ⟨rfl, rfl, trivial⟩
                (fun _ => ⟨(), rfl⟩) ?_
              rintro e (he | rfl)
              · cases e <;> first | rfl | cases he
              · rfl

/-- What `_apply_event` does when it has moved the call. -/
def EventProcessor.conclude (cfg : Settings) (event : ProviderEvent) (call updated : Call)
    (t : CallState) : Async EventProcessingResult := do
  EventProcessor.applyAgentTransition updated t
  if agentReleasingCallStates.contains t then EventProcessor.releaseBorrower cfg updated t
  else pure ()
  EventProcessor.finish event .processed (some (call.state.value ++ "->" ++ t.value))

theorem conclude_transparent (call updated : Call) (t : CallState) :
    Transparent (EventProcessor.conclude cfg event call updated t) := by
  refine transparent_bind (applyAgentTransition_transparent updated t) fun _ => ?_
  dsimp only
  split
  · refine transparent_bind ?_ fun _ => finish_transparent _ _
    exact transparent_bind (transparent_await (o := .releaseBorrower _ _ _ _ _ _)
      ⟨rfl, rfl, trivial⟩) fun _ => transparent_ret ()
  · exact finish_transparent _ _

theorem conclude_processed (call updated : Call) (t : CallState) :
    (EventProcessor.conclude cfg event call updated t).Yields (·.status = .processed) := by
  have hfinish : (EventProcessor.finish event .processed
      (some (call.state.value ++ "->" ++ t.value))).Yields (·.status = .processed) :=
    Prog.yields_bind fun _ => rfl
  refine Prog.yields_bind fun _ => ?_
  dsimp only
  split
  · exact Prog.yields_bind fun _ => hfinish
  · exact hfinish

/-- It does not come back to the calls. -/
theorem conclude_calls (call updated : Call) (t : CallState) (x : State × Nat) :
    ((EventProcessor.conclude cfg event call updated t).eval (solo i env) x).2.1.calls
      = x.1.calls := by
  have hall : (EventProcessor.conclude cfg event call updated t).All
      (Op.Outside fun _ => False) := by
    refine Prog.all_bind (EventProcessor.applyAgentTransition_outside updated t) fun _ => ?_
    dsimp only
    split
    · exact Prog.all_bind (EventProcessor.releaseBorrower_outside ..) fun _ =>
        EventProcessor.finish_outside ..
    · exact EventProcessor.finish_outside ..
  refine hall.eval (A := fun (y : State × Nat) => y.1.calls = x.1.calls) ?_ rfl
  rintro o y ho hy
  rw [← hy]
  rcases exec_calls i o (env y.2) y.1 with heq | ⟨w, hw, -⟩ | ⟨d, hd, -⟩
  · exact heq
  · cases o, w, hw using Op.callWrite_cases with
    | attachProviderCallId _ _ => exact ho.elim
    | transitionCall _ _ _ => exact ho.elim
  · cases o, d, hd using Op.callInsert_cases with
    | insertCall _ _ _ _ _ _ => exact ho.elim

/-! ## The transition of the call -/

/-- The write that moves the call of an event. -/
def Op.move (event : ProviderEvent) (call : Call) (t : CallState) : Op :=
  .transitionCall call.id t (EventProcessor.failureReason event t)

theorem move_exposed (event : ProviderEvent) (call : Call) (t : CallState) :
    (Op.move event call t).Exposed := ⟨rfl, rfl, trivial⟩

theorem applyTransition_eq (call : Call) (t : CallState) :
    EventProcessor.applyTransition cfg event call t
      = (await (.move event call t)).bind fun
        | none => EventProcessor.finish event .staleIgnored none
        | some updated => EventProcessor.conclude cfg event call updated t := rfl

/-- The write has no effect, and neither has the rest. -/
theorem eval_applyTransition_still {call : Call} {t : CallState} {x : State × Nat}
    (hcall : x.1.calls.get call.id = some call)
    (h : ¬(CallRepository.advanceable t call = true
      ∧ (env x.2).performs (.move event call t) = true)) :
    SameParties x.1
      ((EventProcessor.applyTransition cfg event call t).eval (solo i env) x).2.1 := by
  -- either the write never reaches the database, or its filter refuses the call
  have hsame : SameParties x.1 (exec i (.move event call t) (env x.2) x.1).2 := by
    cases hperf : (env x.2).performs (.move event call t) with
    | false =>
        rw [exec_of_not_performs hperf]
        exact ⟨rfl, rfl, rfl⟩
    | true =>
        have hfilter : CallRepository.advanceable t call = false := by
          by_contra hp
          exact h ⟨by simpa using hp, hperf⟩
        rw [exec_of_performs hperf]
        refine ⟨rfl, rfl, (Collection.update_eq_self ?_).symm⟩
        rw [hcall, Option.filter_some, if_neg (by rw [hfilter]; decide)]
  -- so the call cannot be answered as moved
  have hnone : ∀ updated, (exec i (.move event call t) (env x.2) x.1).1 ≠ .ok (some updated) := by
    intro updated hans
    obtain ⟨d, hd, hp, -⟩ := transitionCall_some hans
    obtain rfl : call = d := Option.some.inj (hcall.symm.trans hd)
    refine h ⟨hp, ?_⟩
    have hfault := (move_exposed event call t).answered_iff.mp ⟨_, hans⟩
    rw [Choice.performs, hfault]
  rw [applyTransition_eq, Prog.eval_bind, Prog.eval_perform]
  change SameParties x.1 (exec i (.move event call t) (env x.2) x.1).2 at hsame
  have hsolo : (solo i env (.move event call t) x).1 = (exec i (.move event call t) (env x.2)
    x.1).1 := rfl
  have hsolo' : (solo i env (.move event call t) x).2.1 = (exec i (.move event call t) (env x.2)
    x.1).2 := rfl
  rw [← hsolo] at hnone
  rw [← hsolo'] at hsame
  generalize solo i env (.move event call t) x = y at hsame hnone
  obtain ⟨r, x'⟩ := y
  cases r with
  | error e => exact hsame
  | ok answer =>
      cases answer with
      | none => exact hsame.trans (sameParties_eval (finish_clerical ..) x')
      | some updated => exact absurd rfl (hnone updated)

/-- What is found once the write has had its effect. -/
structure Moved (env : Nat → Choice) (call : Call) (t : CallState) (n : Nat)
    (y : Except Exn EventProcessingResult × State × Nat) : Prop where
  call : ∃ d, y.2.1.calls.get call.id = some d ∧ d.state = t
  processed : ∀ result, y.1 = .ok result → result.status = .processed
  returned : (∃ result, y.1 = .ok result) ↔ Smooth env n y.2.2
  count : n ≤ y.2.2

/-- The write has its effect, and the rest tells whether something fails. -/
theorem eval_applyTransition_moved {call : Call} {t : CallState} {x : State × Nat}
    (hcall : x.1.calls.get call.id = some call)
    (hp : CallRepository.advanceable t call = true)
    (hperf : (env x.2).performs (.move event call t) = true) :
    Moved env call t x.2
      ((EventProcessor.applyTransition cfg event call t).eval (solo i env) x) := by
  -- the call is moved even where the answer is lost
  have hget : (exec i (.move event call t) (env x.2) x.1).2.calls.get call.id
      = some ((CallRepository.advance (env x.2).now t
        (EventProcessor.failureReason event t)).apply call) := by
    rw [exec_of_performs hperf]
    exact Collection.get_write_of_filter (w := ⟨call.id, CallRepository.advanceable t,
      CallRepository.advance (env x.2).now t (EventProcessor.failureReason event t)⟩) hcall hp
  have hexposed := (move_exposed event call t).answered_iff (i := i) (c := env x.2) (s := x.1)
  rw [applyTransition_eq, Prog.eval_bind, Prog.eval_perform]
  have hsolo : solo i env (.move event call t) x = ((exec i (.move event call t) (env x.2) x.1).1,
    (exec i (.move event call t) (env x.2) x.1).2, x.2 + 1) := rfl
  rw [hsolo]
  cases hans : (exec i (.move event call t) (env x.2) x.1).1 with
  -- the answer is lost: something failed, and the event is not concluded
  | error e =>
      refine ⟨⟨_, hget, rfl⟩, fun result h => (by cases h), ?_, Nat.le_succ x.2⟩
      change (∃ result, Except.error e = .ok result) ↔ Smooth env x.2 (x.2 + 1)
      rw [smooth_succ, ← hexposed, hans]
      constructor
      · rintro ⟨result, h⟩
        cases h
      · rintro ⟨answer, h⟩
        cases h
  | ok answer =>
      have hfault : (env x.2).fault = .none := hexposed.mp ⟨answer, hans⟩
      obtain ⟨updated, rfl⟩ : ∃ updated, answer = some updated := by
        obtain ⟨heff, -⟩ := exec_ok hans
        cases answer with
        | some updated => exact ⟨updated, rfl⟩
        | none =>
            have hrefused := Collection.findOneAndUpdate_none.mp (Except.ok.inj heff) call hcall
            cases hp.symm.trans hrefused
      have htransparent := (conclude_transparent call updated t :
        Transparent (EventProcessor.conclude cfg event call updated t)) i env
        ((exec i (.move event call t) (env x.2) x.1).2, x.2 + 1)
      have hcount := eval_count i env
        (EventProcessor.conclude cfg event call updated t)
        ((exec i (.move event call t) (env x.2) x.1).2, x.2 + 1)
      refine ⟨⟨(CallRepository.advance (env x.2).now t (EventProcessor.failureReason event
        t)).apply call, ?_, rfl⟩, fun result h => ?_, htransparent.trans ?_, ?_⟩
      · dsimp only
        rw [conclude_calls]
        exact hget
      · exact (conclude_processed call updated t).eval h
      · refine Iff.trans ?_ (smooth_append (Nat.le_succ x.2) hcount).symm
        exact (and_iff_right ((smooth_succ x.2).mpr hfault)).symm
      · exact Nat.le_of_succ_le hcount

/-! ## The event -/

/-- The event is about this call, and takes it to the state `t`. -/
structure Applies (event : ProviderEvent) (s : State) (call : Call) (t : CallState) : Prop where
  found : CallRepository.findByProviderCallId event.providerName event.providerCallId s.calls
    = some call
  target : eventTypeToCallState event.eventType = some t
  applicable : shouldApplyEvent call.state t = .apply
  advanceable : CallRepository.advanceable t call = true

/--
The write that moves the call has its effect: the event is new and applies, its call is found,
and the write does not fail, or it fails when it has been made.
-/
def Takes (event : ProviderEvent) (s : State) (c c' : Choice) : Prop :=
  c.fault = .none ∧ ∃ call t, Applies event s call t ∧ c'.performs (.move event call t) = true

/-- An event that does not get to move its call. -/
theorem eval_applyEvent_still {x : State × Nat}
    (h : ¬Takes event x.1 (env x.2) (env (x.2 + 1))) :
    SameParties x.1 ((EventProcessor.applyEvent cfg event).eval (solo i env) x).2.1 := by
  have hclerical : Op.Clerical (.findByProviderCallId event.providerName event.providerCallId) :=
    fun _ _ => ⟨rfl, rfl, rfl⟩
  have hsame := sameParties_exec (i := i) (c := env x.2) (s := x.1) hclerical
  unfold EventProcessor.applyEvent
  rw [Prog.bind_eq, Prog.eval_bind, Prog.eval_perform]
  have hsolo : solo i env (.findByProviderCallId event.providerName event.providerCallId) x
    = ((exec i (.findByProviderCallId event.providerName event.providerCallId) (env x.2) x.1).1,
      (exec i (.findByProviderCallId event.providerName event.providerCallId) (env x.2) x.1).2,
      x.2 + 1) := rfl
  -- whatever is filed about the event is filed beside the parties
  have hclerk : ∀ status applied, SameParties x.1 ((EventProcessor.finish event status
      applied).eval (solo i env) ((exec i (.findByProviderCallId event.providerName
        event.providerCallId) (env x.2) x.1).2, x.2 + 1)).2.1 := fun status applied =>
    hsame.trans (sameParties_eval (finish_clerical status applied) (_, x.2 + 1))
  rw [hsolo]
  cases hans : (exec i (.findByProviderCallId event.providerName event.providerCallId) (env x.2)
      x.1).1 with
  | error e => exact hsame
  | ok answer =>
      dsimp only
      cases answer with
      | none => exact hclerk _ _
      | some call =>
          dsimp only
          split
          · exact hclerk _ _
          · rename_i t htarget
            split
            · rename_i happlicable
              obtain ⟨heff, hstate⟩ := exec_ok hans
              have hfound : CallRepository.findByProviderCallId event.providerName
                  event.providerCallId x.1.calls = some call := Except.ok.inj heff
              have hcall : (exec i (.findByProviderCallId event.providerName
                  event.providerCallId) (env x.2) x.1).2.calls.get call.id = some call := by
                rw [hstate]
                exact (Collection.findOne_some hfound).1
              refine hsame.trans (eval_applyTransition_still (x := (_, x.2 + 1)) hcall ?_)
              rintro ⟨hp, hperf⟩
              refine h ⟨?_, call, t, ⟨hfound, htarget, happlicable, hp⟩, hperf⟩
              exact (Op.Exposed.answered_iff (o := .findByProviderCallId _ _)
                ⟨rfl, rfl, trivial⟩).mp ⟨_, hans⟩
            · exact hclerk _ _

/-- An event that does. -/
theorem eval_applyEvent_moved {x : State × Nat} {call : Call} {t : CallState}
    (hfault : (env x.2).fault = .none) (happlies : Applies event x.1 call t)
    (hperf : (env (x.2 + 1)).performs (.move event call t) = true) :
    Moved env call t (x.2 + 1) ((EventProcessor.applyEvent cfg event).eval (solo i env) x) := by
  have hans : (exec i (.findByProviderCallId event.providerName event.providerCallId) (env x.2)
      x.1).1 = .ok (some call) := by
    rw [exec_faultless hfault]
    exact congrArg Except.ok happlies.found
  have hget : (exec i (.findByProviderCallId event.providerName event.providerCallId) (env x.2)
      x.1).2.calls.get call.id = some call := by
    rw [exec_faultless hfault]
    exact (Collection.findOne_some happlies.found).1
  unfold EventProcessor.applyEvent
  rw [Prog.bind_eq, Prog.eval_perform_bind (S := sig) hans]
  dsimp only
  rw [happlies.target]
  dsimp only
  rw [happlies.applicable]
  exact eval_applyTransition_moved (x := (_, x.2 + 1)) hget happlies.advanceable hperf

/-- Where a call has moved on, the parties are not what they were. -/
theorem not_sameParties {s' : State} {call : Call} {t : CallState} (h : Applies event s call t)
    (hmoved : ∃ d, s'.calls.get call.id = some d ∧ d.state = t) : ¬SameParties s s' := by
  intro hsame
  obtain ⟨d, hd, hstate⟩ := hmoved
  have hget : s.calls.get call.id = some call := (Collection.findOne_some h.found).1
  rw [← hsame.calls, hget] at hd
  obtain rfl := Option.some.inj hd
  obtain ⟨-, hrank, -⟩ := shouldApplyEvent_apply h.applicable
  rw [hstate] at hrank
  exact Nat.lt_irrefl _ hrank

theorem SameParties.symm {s s' : State} (h : SameParties s s') : SameParties s' s :=
  ⟨h.agents.symm, h.borrowers.symm, h.calls.symm⟩

theorem takes_congr {s s' : State} {c c' : Choice} (h : SameParties s s') :
    Takes event s c c' ↔ Takes event s' c c' := by
  have happlies : ∀ {s s' : State} {call t}, SameParties s s' → Applies event s call t →
      Applies event s' call t := fun h ha =>
    ⟨h.calls ▸ ha.found, ha.target, ha.applicable, ha.advanceable⟩
  constructor
  · rintro ⟨hfault, call, t, ha, hperf⟩
    exact ⟨hfault, call, t, happlies h ha, hperf⟩
  · rintro ⟨hfault, call, t, ha, hperf⟩
    exact ⟨hfault, call, t, happlies h.symm ha, hperf⟩

/-- What the handler of `process_event` returns, if it does. -/
theorem eval_handler {e : Exn} {x x' : State × Nat} {result : EventProcessingResult}
    (h : (if e.isException then
        EventProcessor.finish event .invalidIgnored (some ("error:" ++ e.typeName))
      else throw e).eval (solo i env) x' = (.ok result, x)) :
    result.status = .invalidIgnored ∧ SameParties x'.1 x.1 ∧ x'.2 ≤ x.2 := by
  split at h
  · have hyields : (EventProcessor.finish event .invalidIgnored
        (some ("error:" ++ e.typeName))).Yields (·.status = .invalidIgnored) :=
      Prog.yields_bind fun _ => rfl
    have hsame : SameParties x'.1 ((EventProcessor.finish event .invalidIgnored
        (some ("error:" ++ e.typeName))).eval (solo i env) x').2.1 :=
      sameParties_eval (finish_clerical _ _) x'
    have hcount := eval_count i env
      (EventProcessor.finish event .invalidIgnored (some ("error:" ++ e.typeName))) x'
    rw [h] at hsame hcount
    exact ⟨hyields.eval (congrArg Prod.fst h), hsame, hcount⟩
  · cases h

/-- `process_event`, from the moment the event is filed. -/
def EventProcessor.guardedApply (cfg : Settings) (event : ProviderEvent) :
    Async EventProcessingResult :=
  Prog.tryCatch (EventProcessor.applyEvent cfg event) fun e =>
    if e.isException then
      EventProcessor.finish event .invalidIgnored (some ("error:" ++ e.typeName))
    else throw e

/-- The event has moved its call: whatever is told of it, the call stays moved. -/
theorem eval_guardedApply_moved {call : Call} {t : CallState} {n : Nat} {x x' : State × Nat}
    {result : EventProcessingResult}
    (hmoved : Moved env call t n ((EventProcessor.applyEvent cfg event).eval (solo i env) x))
    (hreturn : (EventProcessor.guardedApply cfg event).eval (solo i env) x = (.ok result, x')) :
    (result.status = .processed ↔ Smooth env n x'.2)
      ∧ ∃ d, x'.1.calls.get call.id = some d ∧ d.state = t := by
  rw [EventProcessor.guardedApply, Prog.eval_tryCatch] at hreturn
  generalize (EventProcessor.applyEvent cfg event).eval (solo i env) x = y at hreturn hmoved
  obtain ⟨r, x₁⟩ := y
  cases r with
  | ok res =>
      obtain ⟨hres, rfl⟩ := Prod.mk.inj hreturn
      obtain rfl := Except.ok.inj hres
      have hsmooth : Smooth env n x₁.2 := hmoved.returned.mp ⟨_, rfl⟩
      exact ⟨iff_of_true (hmoved.processed _ rfl) hsmooth, hmoved.call⟩
  | error e =>
      obtain ⟨hstatus, hparties, hlater⟩ := eval_handler hreturn
      -- the failure that was caught lies between the move and the handler
      have hrough : ¬Smooth env n x'.2 := fun hsmooth => by
        obtain ⟨_, h⟩ := hmoved.returned.mpr ((smooth_append hmoved.count hlater).mp hsmooth).1
        cases h
      refine ⟨iff_of_false ?_ hrough, ?_⟩
      · rw [hstatus]
        decide
      · rw [← hparties.calls]
        exact hmoved.call

/-- The event has not: the parties are as they were. -/
theorem eval_guardedApply_still {x x' : State × Nat} {result : EventProcessingResult}
    (hstill : SameParties x.1 ((EventProcessor.applyEvent cfg event).eval (solo i env) x).2.1)
    (hreturn : (EventProcessor.guardedApply cfg event).eval (solo i env) x = (.ok result, x')) :
    SameParties x.1 x'.1 := by
  rw [EventProcessor.guardedApply, Prog.eval_tryCatch] at hreturn
  generalize (EventProcessor.applyEvent cfg event).eval (solo i env) x = y at hreturn hstill
  obtain ⟨r, x₁⟩ := y
  cases r with
  | ok res =>
      obtain ⟨-, rfl⟩ := Prod.mk.inj hreturn
      exact hstill
  | error e =>
      obtain ⟨-, hsame, -⟩ := eval_handler hreturn
      exact hstill.trans hsame

/-- Something fails between the `n`-th operation and the `m`-th. -/
theorem not_smooth_iff (n m : Nat) :
    ¬Smooth env n m ↔ ∃ k, n ≤ k ∧ k < m ∧ (env k).fault ≠ .none := by
  simp only [Smooth, not_forall, exists_prop]

/--
**When an ignored event has had no effect.** Exactly if it did not get as far as moving its
call, or nothing failed from then on: what fails once the call is moved is told as an event
that was ignored, and the call stays moved.
-/
theorem ignored_without_effect_iff {result : EventProcessingResult} {x : State × Nat}
    (hreturn : (EventProcessor.processEvent cfg event).eval (solo i env) (s, 0)
      = (.ok result, x)) :
    (result.status ≠ .processed → SameParties s x.1)
      ↔ ¬(event.fileKey ∉ recorded s ∧ Takes event s (env 1) (env 2)
        ∧ ∃ n, 2 ≤ n ∧ n < x.2 ∧ (env n).fault ≠ .none) := by
  have hexposed := Op.Exposed.answered_iff (i := i) (c := env 0) (s := s) (o := .recordEvent event)
    ⟨rfl, rfl, trivial⟩
  have hsame := sameParties_exec (i := i) (o := .recordEvent event) (c := env 0) (s := s)
    fun _ _ => ⟨rfl, rfl, rfl⟩
  unfold EventProcessor.processEvent at hreturn
  rw [Prog.bind_eq, Prog.eval_bind, Prog.eval_perform] at hreturn
  have hsolo : solo i env (.recordEvent event) (s, 0)
    = ((exec i (.recordEvent event) (env 0) s).1, (exec i (.recordEvent event) (env 0) s).2, 1) :=
    rfl
  rw [hsolo] at hreturn
  cases hans : (exec i (.recordEvent event) (env 0) s).1 with
  | error e =>
      rw [hans] at hreturn
      cases hreturn
  | ok answer =>
      rw [hans] at hreturn
      have hfault : (env 0).fault = .none := hexposed.mp ⟨_, hans⟩
      cases answer with
      | duplicate =>
          -- the event was on file before: nothing more is done
          obtain ⟨-, rfl⟩ := Prod.mk.inj hreturn
          refine ⟨fun _ h => h.1 ?_, fun _ _ => hsame⟩
          by_contra hnew
          cases hans.symm.trans (exec_recordEvent_new hfault hnew).1
      | recorded =>
          have hnew : event.fileKey ∉ recorded s := fun hold => by
            cases hans.symm.trans (exec_recordEvent_old hfault hold).1
          have htakes : Takes event (exec i (.recordEvent event) (env 0) s).2 (env 1) (env 2)
              ↔ Takes event s (env 1) (env 2) := takes_congr hsame.symm
          change (EventProcessor.guardedApply cfg event).eval (solo i env)
            ((exec i (.recordEvent event) (env 0) s).2, 1) = (.ok result, x) at hreturn
          by_cases htaken : Takes event s (env 1) (env 2)
          · obtain ⟨hfound, call, t, happlies, hperf⟩ := htakes.mpr htaken
            obtain ⟨hprocessed, hcall⟩ := eval_guardedApply_moved
              (eval_applyEvent_moved (x := (_, 1)) hfound happlies hperf) hreturn
            have hchanged : ¬SameParties s x.1 := fun hparties =>
              not_sameParties happlies hcall (hsame.symm.trans hparties)
            -- so the left side says that the event is told as processed
            rw [← not_smooth_iff, and_iff_right hnew, and_iff_right htaken, not_not,
              imp_iff_not hchanged, ne_eq, not_not]
            exact hprocessed
          · have hstill := eval_guardedApply_still
              (eval_applyEvent_still (x := (_, 1)) fun h => htaken (htakes.mp h)) hreturn
            exact ⟨fun _ h => htaken h.2.1, fun _ _ => hsame.trans hstill⟩

/-! ## An event about a call that has been launched -/

/-- The pair has been dialled, and the provider has accepted. -/
def launched : State :=
  ((CallAllocator.dial {} { id := "campaign" } pairInHand).eval
    (solo 0 (answering (.result ⟨true, 1, some "provider-call", none⟩))) (inHand, 0)).2.1

/-- The call it has made. -/
def launchedCall : Call where
  id := "call"
  campaignId := "campaign"
  agentId := "agent"
  borrowerId := "borrower"
  state := .initiated
  stateRank := 2
  providerName := "mock_a"
  providerCallId := some "provider-call"
  idempotencyKey := "campaign:agent:borrower:1"
  createdByWorker := "worker"
  initiatedAt := some 0
  updatedAt := 0

theorem launched_wellFormed : CallsWellFormed launched := by
  intro k d hd
  have hdocs : launched.calls.docs = [launchedCall] := by
    decide +kernel
  have hmem := Collection.mem_of_get hd
  rw [hdocs] at hmem
  obtain rfl := List.mem_singleton.mp hmem
  exact ⟨rfl, rfl, rfl, fun _ => by decide, by decide +kernel⟩

/-- The database fails at the `n`-th operation. -/
def failingAt (n : Nat) (k : Nat) : Choice where
  fault := if k = n then .dbError "AutoReconnect" false else .none

/-- An event of a kind nobody knows is ignored, and that is all. -/
theorem ignored_unknown :
    SameParties launched ((EventProcessor.processEvent {} (eventOf "HELD")).eval
      (solo 1 fun _ => {}) (launched, 0)).2.1 := by
  have hreturn : ((EventProcessor.processEvent {} (eventOf "HELD")).eval (solo 1 fun _ => {})
      (launched, 0)).1 = .ok ⟨.invalidIgnored, none⟩ := by
    decide +kernel
  refine (ignored_without_effect_iff (Prod.ext hreturn rfl)).mpr ?_ (by decide)
  rintro ⟨-, -, n, -, -, hn⟩
  exact hn rfl

/-- The call is FAILED, the look-up of its agent raises, and the event counts as ignored. -/
theorem ignored_with_effect :
    ¬∀ (cfg : Settings) (event : ProviderEvent) (s : State) (i : Nat) (env : Nat → Choice)
      (result : EventProcessingResult) (x : State × Nat), CallsWellFormed s →
      (EventProcessor.processEvent cfg event).eval (solo i env) (s, 0) = (.ok result, x) →
      result.status ≠ .processed → SameParties s x.1 := by
  intro hall
  have hreturn : ((EventProcessor.processEvent {} (eventOf "FAILED")).eval
      (solo 1 (failingAt 3)) (launched, 0)).1
        = .ok ⟨.invalidIgnored, some "error:AutoReconnect"⟩ := by
    decide +kernel
  have hsame := hall {} (eventOf "FAILED") launched 1 (failingAt 3) _ _ launched_wellFormed
    (Prod.ext hreturn rfl) (by decide)
  have hbefore : (launched.calls.get "call").map Call.state = some .initiated := by
    decide +kernel
  have hafter : (((EventProcessor.processEvent {} (eventOf "FAILED")).eval
      (solo 1 (failingAt 3)) (launched, 0)).2.1.calls.get "call").map Call.state
        = some .failed := by
    decide +kernel
  rw [hsame.calls] at hbefore
  cases hbefore.symm.trans hafter

end SmartDialer
