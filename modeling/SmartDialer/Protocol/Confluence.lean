import SmartDialer.Protocol.Outcome

/-!
# Events in any order

Each event processor decides on a call it read some time ago, and then writes under the
rank guard. Whatever the interleaving, the call ends up in the highest of the states it was
told of, or in one of the terminal ones. What carries the proof is that a processor that is
through with an event has seen the call at the event's rank or above, and ranks only rise;
the duplicate gate is an insert of its own, so of the deliveries of one event only the one
that passed it has to answer for the rank, and the others refer to it.
-/

namespace SmartDialer

open Store Conc

/-! ## Statement -/

/-- What `provider_events` files an event under. -/
def ProviderEvent.fileKey (e : ProviderEvent) : String × String :=
  (e.providerName, e.providerEventId)

/-- The states the events stand for. -/
def targets (es : List ProviderEvent) : List CallState :=
  es.filterMap fun e => eventTypeToCallState e.eventType

/-- Events about the call, in any number of copies, none of them recorded so far. -/
structure NewEvents (providerName providerCallId : String) (s : State)
    (es : List ProviderEvent) : Prop where
  about : ∀ e ∈ es, e.About providerName providerCallId
  known : ∀ e ∈ es, (eventTypeToCallState e.eventType).isSome = true
  new : ∀ e ∈ es, e.fileKey ∉ recorded s
  /-- Equal event ids mean the same event. -/
  same : ∀ e ∈ es, ∀ e' ∈ es, e.providerEventId = e'.providerEventId → e = e'

/-- The state a call in state `st` comes to, when it is told of the states `ts`. -/
structure Settles (st : CallState) (ts : List CallState) (st' : CallState) : Prop where
  final : isTerminal st = true → st' = st
  ended : isTerminal st = false → (∃ t ∈ ts, isTerminal t = true) →
    st' ∈ ts ∧ isTerminal st' = true
  highest : isTerminal st = false → (∀ t ∈ ts, isTerminal t = false) →
    st' ∈ st :: ts ∧ ∀ t ∈ st :: ts, rank t ≤ rank st'

/-- The runs of the processes that are there, without failures. -/
def closed (cfg : Settings) : Policy (dialer cfg) where
  task _ := False
  run _ _ c _ := c.fault = .none

instance (cfg : Settings) : (closed cfg).Checkable where
  task _ := .isFalse id
  run _ _ c _ := inferInstanceAs (Decidable (c.fault = .none))

/-- One event processor for each of the deliveries. -/
def eventProcessors (cfg : Settings) (s : State) (es : List ProviderEvent) :
    World (dialer cfg) where
  st := s
  procs := es.map fun e => Task.program cfg (.processEvent e)

/-! ## What is known of the run -/

section

variable {cfg : Settings} {providerName providerCallId : String} {s₀ : State} {d₀ : Call}
  {es : List ProviderEvent}

/-- The process that recorded an event. -/
abbrev Owners : Type := String × String → Option Nat

/-- The call has come to rank `r`. -/
def Reached (providerName providerCallId : String) (r : Nat) (s : State) : Prop :=
  ∃ d, CallRepository.findByProviderCallId providerName providerCallId s.calls = some d
    ∧ r ≤ rank d.state

/-- The call went from `d₀` to a state it was told of, and each event has its process. -/
structure OnCourse (providerName providerCallId : String) (s₀ : State) (d₀ : Call)
    (es : List ProviderEvent) (x : State × Owners) : Prop where
  call : ∃ d, CallRepository.findByProviderCallId providerName providerCallId x.1.calls = some d
    ∧ d.id = d₀.id ∧ d.WellFormed ∧ rank d₀.state ≤ rank d.state
    ∧ (d.state = d₀.state ∨ isTerminal d₀.state = false ∧ d.state ∈ targets es)
  owned : ∀ k ∈ recorded x.1, k ∈ recorded s₀ ∨ ∃ j, x.2 k = some j
  owner : ∀ k j, x.2 k = some j → k ∈ recorded x.1 ∧ ∃ e, es[j]? = some e ∧ e.fileKey = k

/-- Ranks rise, and an event that has been recorded has been recorded by one process. -/
def confluence (cfg : Settings) (providerName providerCallId : String) (s₀ : State) (d₀ : Call)
    (es : List ProviderEvent) : Logic (closed cfg) Owners where
  Inv := OnCourse providerName providerCallId s₀ d₀ es
  Guar i x x' := (∀ r, Reached providerName providerCallId r x.1 →
      Reached providerName providerCallId r x'.1)
    ∧ (∀ k j, x.2 k = some j → x'.2 k = some j)
    ∧ ∀ k j, x'.2 k = some j → x.2 k = some j ∨ j = i

variable {i : Nat}

theorem reached_stable (r : Nat) :
    (confluence cfg providerName providerCallId s₀ d₀ es).Stable i
      fun x => Reached providerName providerCallId r x.1 :=
  Logic.stable_of_step fun _ _ _ _ hg _ h => hg.1 r h

theorem owner_stable (k : String × String) (j : Nat) :
    (confluence cfg providerName providerCallId s₀ d₀ es).Stable i fun x => x.2 k = some j :=
  Logic.stable_of_step fun _ _ _ _ hg _ h => hg.2.1 k j h

/-- Nothing has been recorded by process `i`. -/
def Unowned (i : Nat) : Assertion Owners := fun x => ∀ k, x.2 k ≠ some i

theorem unowned_stable :
    (confluence cfg providerName providerCallId s₀ d₀ es).Stable i (Unowned i) := by
  refine Logic.stable_of_step fun j _ _ hj hg _ h k hk => ?_
  rcases hg.2.2 k i hk with hold | rfl
  · exact h k hold
  · exact hj rfl

/-! ## One operation -/

/-- An operation that leaves the calls and the events recorded alone. -/
def Op.Passive : Op → Prop
  | .transitionCall .. | .attachProviderCallId .. | .insertCall .. | .recordEvent _ => False
  | o => o.Plain

theorem Op.Aside.passive {o : Op} (h : o.Aside) : o.Passive := by
  cases o <;> first | exact h.elim | exact trivial

theorem exec_passive {o : Op} (ho : o.Passive) {c : Choice} (hc : c.fault = .none) (i : Nat)
    (s : State) : (∃ a, (exec i o c s).1 = .ok a) ∧ (exec i o c s).2.calls = s.calls
      ∧ recorded (exec i o c s).2 = recorded s := by
  rw [exec_faultless hc]
  cases o with
  | markProcessed _ _ _ _ => exact ⟨⟨_, rfl⟩, rfl, Collection.keys_update ..⟩
  | _ => first | exact ho.elim | exact ⟨⟨_, rfl⟩, rfl, rfl⟩

theorem OnCourse.of_passive {x : State × Owners} {s' : State}
    (h : OnCourse providerName providerCallId s₀ d₀ es x) (hcalls : s'.calls = x.1.calls)
    (hrec : recorded s' = recorded x.1) :
    OnCourse providerName providerCallId s₀ d₀ es (s', x.2) where
  call := hcalls ▸ h.call
  owned k hk := h.owned k (hrec ▸ hk)
  owner k j hj := by
    obtain ⟨hk, he⟩ := h.owner k j hj
    exact ⟨hrec ▸ hk, he⟩

theorem reached_of_calls {s s' : State} (hcalls : s'.calls = s.calls) {r : Nat}
    (h : Reached providerName providerCallId r s) :
    Reached providerName providerCallId r s' := by
  obtain ⟨d, hd, hr⟩ := h
  exact ⟨d, hcalls ▸ hd, hr⟩

/-- An operation that leaves the calls alone keeps what is known of them. -/
theorem passive_atomic {o : Op} (ho : o.Passive) {A : Assertion Owners}
    {B : Ans o → Assertion Owners}
    (h : ∀ c x a, OnCourse providerName providerCallId s₀ d₀ es x → A x →
      (exec i o c x.1).1 = .ok a → (exec i o c x.1).2.calls = x.1.calls →
      B a ((exec i o c x.1).2, x.2)) :
    (confluence cfg providerName providerCallId s₀ d₀ es).Atomic i o A (Finishes B) := by
  intro x hinv hA c hc
  obtain ⟨⟨a, ha⟩, hcalls, hrec⟩ := exec_passive ho hc i x.1
  refine ⟨x.2, hinv.of_passive hcalls hrec,
    ⟨fun r => reached_of_calls hcalls, fun _ _ h => h, fun _ _ h => .inl h⟩, ?_⟩
  change Finishes B (exec i o c x.1).1 _
  rw [ha]
  exact h c x a hinv hA ha hcalls

/-- What a process knows once it is through with an event it has recorded. -/
def Through (providerName providerCallId : String) (i : Nat) (k : String × String) (r : Nat) :
    Assertion Owners :=
  fun x => x.2 k = some i ∧ Reached providerName providerCallId r x.1

theorem through_stable (k : String × String) (r : Nat) :
    (confluence cfg providerName providerCallId s₀ d₀ es).Stable i
      (Through providerName providerCallId i k r) :=
  (owner_stable k i).and (reached_stable r)

/-- What is left to do once the call is there. -/
theorem wp_passive {α : Type} {p : Async α} (hp : p.Total Op.Passive) {k : String × String}
    {r : Nat} {x : State × Owners} (hx : Through providerName providerCallId i k r x) :
    (confluence cfg providerName providerCallId s₀ d₀ es).wp i p
      (Finishes fun _ => Through providerName providerCallId i k r) x := by
  refine wp_total_finishes hp (through_stable k r) (fun o ho => passive_atomic ho ?_) hx
  exact fun _ _ _ _ hx _ hcalls => ⟨hx.1, reached_of_calls hcalls hx.2⟩

theorem update_eq_some {γ : Owners} {k k' : String × String} {j : Nat} :
    Function.update γ k (some i) k' = some j ↔ k' = k ∧ j = i ∨ k' ≠ k ∧ γ k' = some j := by
  by_cases h : k' = k
  · rw [h, Function.update_self, Option.some_inj]
    simp [eq_comm]
  · rw [Function.update_of_ne h]
    simp [h]

/-- The event is recorded by this process, or it was by another. -/
theorem recordEvent_atomic {e : ProviderEvent} (hi : es[i]? = some e)
    (hes : NewEvents providerName providerCallId s₀ es) :
    (confluence cfg providerName providerCallId s₀ d₀ es).Atomic i (.recordEvent e) (Unowned i)
      (Finishes fun answer x => match answer with
        | .recorded => x.2 e.fileKey = some i
        | .duplicate => ∃ j, x.2 e.fileKey = some j ∧ j ≠ i) := by
  intro x hinv hunowned c hc
  have hgone : x.1.calls = (exec i (.recordEvent e) c x.1).2.calls := by
    rw [exec_faultless hc]
    rfl
  by_cases hseen : e.fileKey ∈ recorded x.1
  · have hdup : EventRepository.recordEvent c.now e x.1.events = (.duplicate, x.1.events) := by
      rw [EventRepository.recordEvent, Collection.insert_of_mem hseen]
    refine ⟨x.2, hinv.of_passive hgone.symm ?_,
      ⟨fun r => reached_of_calls hgone.symm, fun _ _ h => h, fun _ _ h => .inl h⟩, ?_⟩
    · change recorded (exec i (.recordEvent e) c x.1).2 = _
      rw [exec_faultless hc]
      simp only [effect, State.onEvents, hdup]
      rfl
    · change Finishes _ (exec i (.recordEvent e) c x.1).1 _
      rw [exec_faultless hc]
      simp only [effect, State.onEvents, hdup]
      rcases hinv.owned _ hseen with hold | ⟨j, hj⟩
      · exact absurd hold (hes.new e (List.mem_of_getElem? hi))
      · exact ⟨j, hj, fun heq => hunowned _ (heq ▸ hj)⟩
  · obtain ⟨events, hins, hkeys⟩ :=
      Collection.insert_of_not_mem (d := EventRepository.toDocument c.now e) hseen
    have hnew : EventRepository.recordEvent c.now e x.1.events = (.recorded, events) := by
      rw [EventRepository.recordEvent, hins]
    have hrec : recorded (exec i (.recordEvent e) c x.1).2 = recorded x.1 ++ [e.fileKey] := by
      rw [exec_faultless hc]
      simp only [effect, State.onEvents, hnew]
      exact hkeys
    -- nobody answers for the event so far, since it is not there
    have hnobody : ∀ j, x.2 e.fileKey ≠ some j := fun j hj => hseen (hinv.owner _ j hj).1
    have hkept : ∀ k j, x.2 k = some j →
        Function.update x.2 e.fileKey (some i) k = some j := by
      intro k j hj
      refine update_eq_some.mpr (.inr ⟨?_, hj⟩)
      rintro rfl
      exact hnobody j hj
    refine ⟨Function.update x.2 e.fileKey (some i), ⟨hgone ▸ hinv.call, ?_, ?_⟩,
      ⟨fun r => reached_of_calls hgone.symm, hkept, ?_⟩, ?_⟩
    · intro k hk
      change k ∈ recorded (exec i (.recordEvent e) c x.1).2 at hk
      rw [hrec] at hk
      rcases List.mem_append.mp hk with hold | hk
      · rcases hinv.owned k hold with h | ⟨j, hj⟩
        · exact .inl h
        · exact .inr ⟨j, hkept k j hj⟩
      · exact .inr ⟨i, update_eq_some.mpr (.inl ⟨List.mem_singleton.mp hk, rfl⟩)⟩
    · intro k j hj
      change k ∈ recorded (exec i (.recordEvent e) c x.1).2 ∧ _
      rw [hrec, List.mem_append]
      rcases update_eq_some.mp hj with ⟨rfl, rfl⟩ | ⟨-, hold⟩
      · exact ⟨.inr (List.mem_singleton_self _), e, hi, rfl⟩
      · obtain ⟨hk, he⟩ := hinv.owner k j hold
        exact ⟨.inl hk, he⟩
    · intro k j hj
      rcases update_eq_some.mp hj with ⟨-, rfl⟩ | ⟨-, hold⟩
      · exact .inr rfl
      · exact .inl hold
    · change Finishes _ (exec i (.recordEvent e) c x.1).1 _
      rw [exec_faultless hc]
      simp only [effect, State.onEvents, hnew]
      exact Function.update_self ..

/-- The step to `t` leaves the call at the rank of `t` or above, whether it is taken or not. -/
theorem transitionCall_atomic {t : CallState} (ht : t ∈ targets es) (reason : Option String)
    (k : String × String) (callId : String) (hid : callId = d₀.id) :
    (confluence cfg providerName providerCallId s₀ d₀ es).Atomic i
      (.transitionCall callId t reason) (fun x => x.2 k = some i)
      (Finishes fun _ => Through providerName providerCallId i k (rank t)) := by
  intro x hinv hk c hc
  obtain ⟨d, hd, hdid, hwf, hrank, hstate⟩ := hinv.call
  obtain rfl : callId = d.id := hid.trans hdid.symm
  have hstep : ∃ d', CallRepository.findByProviderCallId providerName providerCallId
        (exec i (.transitionCall d.id t reason) c x.1).2.calls = some d'
      ∧ d'.id = d.id ∧ d'.WellFormed ∧ rank d.state ≤ rank d'.state ∧ rank t ≤ rank d'.state
      ∧ (d'.state = d.state ∨ isTerminal d.state = false ∧ d'.state = t) := by
    have hcalls : (exec i (.transitionCall d.id t reason) c x.1).2.calls
        = x.1.calls.write ⟨d.id, CallRepository.advanceable t,
          CallRepository.advance c.now t reason⟩ := by
      rw [exec_faultless hc]
      rfl
    rw [hcalls, CallRepository.findByProviderCallId, Collection.write,
      Collection.findOne_update (fun _ => rfl),
      show x.1.calls.findOne _ = some d from hd, Option.map_some]
    -- taken, the step leaves the call at the rank of `t`; refused, it was there or above
    by_cases hp : CallRepository.advanceable t d = true
    · rw [if_pos ⟨rfl, hp⟩]
      have hlive : isTerminal d.state = false :=
        hwf.terminal_eq ▸ (CallRepository.advanceable_iff.mp hp).1
      exact ⟨_, rfl, rfl, advance_wellFormed hwf _ _ _ hp, (hwf.advanceable_iff.mp hp).le, le_rfl,
        .inr ⟨hlive, rfl⟩⟩
    · rw [if_neg fun h => hp h.2]
      refine ⟨d, rfl, rfl, hwf, le_rfl, ?_, .inl rfl⟩
      exact Nat.not_lt.mp fun hlt => hp (hwf.advanceable_iff.mpr hlt)
  have hrec : recorded (exec i (.transitionCall d.id t reason) c x.1).2 = recorded x.1 := by
    rw [exec_faultless hc]
    rfl
  obtain ⟨d', hd', hdid', hwf', hup, hreach, hmoved⟩ := hstep
  -- if the call moves, it was live from the start, and goes where an event takes it
  have hcourse : d'.state = d₀.state ∨ isTerminal d₀.state = false ∧ d'.state ∈ targets es := by
    rcases hmoved with hsame | ⟨hlive, rfl⟩
    · rw [hsame]
      exact hstate
    · refine .inr ⟨?_, ht⟩
      rcases hstate with heq | ⟨hopen, -⟩
      · rw [← heq]
        exact hlive
      · exact hopen
  refine ⟨x.2, ⟨⟨d', hd', hdid'.trans hdid, hwf', hrank.trans hup, hcourse⟩, ?_, ?_⟩,
    ⟨?_, fun _ _ h => h, fun _ _ h => .inl h⟩, ?_⟩
  · exact fun k hk => hinv.owned k (hrec ▸ hk)
  · intro k j hj
    obtain ⟨hk, he⟩ := hinv.owner k j hj
    exact ⟨hrec.symm ▸ hk, he⟩
  · rintro r ⟨e, he, hr⟩
    obtain rfl : e = d := Option.some.inj (he.symm.trans hd)
    exact ⟨d', hd', hr.trans hup⟩
  · change Finishes _ (exec i (.transitionCall d.id t reason) c x.1).1 _
    have hans : ∃ a, (exec i (.transitionCall d.id t reason) c x.1).1 = .ok a := by
      rw [exec_faultless hc]
      exact ⟨_, rfl⟩
    obtain ⟨a, ha⟩ := hans
    rw [ha]
    exact ⟨hk, d', hd', hreach⟩

/-! ## One event processor -/

/-- Applying an event that this process has recorded. -/
theorem wp_applyEvent {e : ProviderEvent} {t : CallState}
    (he : e.About providerName providerCallId) (ht : eventTypeToCallState e.eventType = some t)
    (hmem : t ∈ targets es) {k : String × String} {x : State × Owners} (hk : x.2 k = some i) :
    (confluence cfg providerName providerCallId s₀ d₀ es).wp i (EventProcessor.applyEvent cfg e)
      (Finishes fun _ => Through providerName providerCallId i k (rank t)) x := by
  have hfind : (confluence cfg providerName providerCallId s₀ d₀ es).Atomic i
      (.findByProviderCallId e.providerName e.providerCallId) (fun x => x.2 k = some i)
      (Finishes fun answer x => ∃ d, answer = some d ∧ d.id = d₀.id ∧ 2 ≤ rank d.state
        ∧ Through providerName providerCallId i k (rank d.state) x) := by
    refine passive_atomic (o := .findByProviderCallId e.providerName e.providerCallId) trivial
      fun c x answer hinv hk hans hcalls => ?_
    obtain ⟨d, hd, hid, hwf, -⟩ := hinv.call
    obtain ⟨heff, -⟩ := exec_ok hans
    refine ⟨d, ?_, hid, ?_, hk, d, hcalls.symm ▸ hd, le_rfl⟩
    · rw [← hd, ← he.1, ← he.2]
      exact (Except.ok.inj heff).symm
    · have hfound := (Collection.findOne_some hd).2
      simp only [Bool.and_eq_true, beq_iff_eq] at hfound
      exact hwf.attached (by rw [hfound.2]; rfl)
  have hfinish : ∀ status applied, (EventProcessor.finish e status applied).Total Op.Passive :=
    fun status applied => (finish_total e status applied).mono fun _ => Op.Aside.passive
  refine wp_bind_finishes (Logic.wp_perform (owner_stable k i) hfind hk) fun answer x₁ hx₁ => ?_
  obtain ⟨d, rfl, hid, hlaunched, hthrough⟩ := hx₁
  dsimp only
  rw [ht]
  dsimp only
  split
  · have hmove : (confluence cfg providerName providerCallId s₀ d₀ es).Atomic i
        (.transitionCall d.id t (EventProcessor.failureReason e t)) (fun x => x.2 k = some i)
        (Finishes fun _ => Through providerName providerCallId i k (rank t)) :=
      transitionCall_atomic hmem _ k d.id hid
    refine wp_bind_finishes (Logic.wp_perform (owner_stable k i) hmove hthrough.1)
      fun updated x₂ hx₂ => ?_
    cases updated with
    | none => exact wp_passive (hfinish _ _) hx₂
    | some updated =>
        refine wp_bind_finishes (wp_passive ((applyAgentTransition_total updated t).mono
          fun _ => Op.Aside.passive) hx₂) fun _ x₃ hx₃ => ?_
        dsimp only
        split
        · have hrelease : (EventProcessor.releaseBorrower cfg updated t).Total Op.Passive :=
            Prog.total_bind (Prog.total_perform trivial) fun _ => trivial
          exact wp_bind_finishes (wp_passive hrelease hx₃) fun _ _ hx₄ =>
            wp_passive (hfinish _ _) hx₄
        · exact wp_passive (hfinish _ _) hx₃
  · rename_i hskip
    -- the event is stale, or the call has ended: the ranks are the table from INITIATED on
    have hrank : rank t ≤ rank d.state := by
      by_contra hlt
      refine hskip ?_
      have hlive : isTerminal d.state = false := by
        have := rank_le_six t
        exact (isTerminal_eq_false_iff_rank d.state).mpr (by omega)
      rw [shouldApplyEvent, hlive, if_neg (by simp), if_neg (by omega),
        canTransition_of_rank hlaunched (by omega), if_neg (by simp)]
    refine finishes_mono (wp_passive (hfinish _ _) hthrough) fun _ x₂ hx₂ => ⟨hx₂.1, ?_⟩
    obtain ⟨d', hd', hr⟩ := hx₂.2
    exact ⟨d', hd', hrank.trans hr⟩

/-- What a process that has finished says of its event. -/
def Answers (providerName providerCallId : String) (es : List ProviderEvent) (i : Nat) :
    Assertion Owners :=
  fun x => ∀ e t, es[i]? = some e → eventTypeToCallState e.eventType = some t →
    ∃ j, x.2 e.fileKey = some j
      ∧ (j = i → Reached providerName providerCallId (rank t) x.1)

/-- What a process comes to; nothing is said of one that died. -/
def Ends (providerName providerCallId : String) (es : List ProviderEvent) (i : Nat) :
    Except Exn Unit → Assertion Owners
  | .ok _ => Answers providerName providerCallId es i
  | .error _ => fun _ => True

theorem ends_stable (r : Except Exn Unit) :
    (confluence cfg providerName providerCallId s₀ d₀ es).Stable i
      (Ends providerName providerCallId es i r) := by
  cases r with
  | error e => exact Logic.stable_true
  | ok a =>
      refine Logic.stable_of_step fun _ x x' _ hg _ hx e t he ht => ?_
      obtain ⟨j, hj, hreached⟩ := hx e t he ht
      exact ⟨j, hg.2.1 _ j hj, fun heq => hg.1 _ (hreached heq)⟩

/-- **One event processor**, amid the others. -/
theorem wp_eventProcessor (hes : NewEvents providerName providerCallId s₀ es)
    {e : ProviderEvent} (hi : es[i]? = some e) {x : State × Owners} (hx : Unowned i x) :
    (confluence cfg providerName providerCallId s₀ d₀ es).wp i
      (Task.program cfg (.processEvent e)) (Ends providerName providerCallId es i) x := by
  have hmem : e ∈ es := List.mem_of_getElem? hi
  obtain ⟨t, ht⟩ := Option.isSome_iff_exists.mp (hes.known e hmem)
  have htarget : t ∈ targets es := List.mem_filterMap.mpr ⟨e, hmem, ht⟩
  have hends : ∀ x : State × Owners,
      (∃ j, x.2 e.fileKey = some j ∧ (j = i → Reached providerName providerCallId (rank t) x.1)) →
        Answers providerName providerCallId es i x := by
    intro x hx e' t' he' ht'
    obtain rfl : e = e' := Option.some.inj (hi.symm.trans he')
    obtain rfl : t = t' := Option.some.inj (ht.symm.trans ht')
    exact hx
  have hprocess : (confluence cfg providerName providerCallId s₀ d₀ es).wp i
      (EventProcessor.processEvent cfg e)
      (Finishes fun _ => Answers providerName providerCallId es i) x := by
    refine wp_bind_finishes (Logic.wp_perform unowned_stable (recordEvent_atomic hi hes) hx)
      fun answer x₁ hx₁ => ?_
    cases answer with
    -- somebody else has recorded the event, and sees it through
    | duplicate =>
        obtain ⟨j, hj, hne⟩ := hx₁
        exact hends x₁ ⟨j, hj, fun heq => absurd heq hne⟩
    | recorded =>
        refine wp_tryCatch_finishes (finishes_mono
          (wp_applyEvent (hes.about e hmem) ht htarget hx₁) fun _ x₂ hx₂ => ?_)
        exact hends x₂ ⟨i, hx₂.1, fun _ => hx₂.2⟩
  exact wp_bind_finishes hprocess fun _ _ h => h

/-! ## All of them -/

theorem onCourse_crash (j : Nat) (x : State × Owners)
    (h : OnCourse providerName providerCallId s₀ d₀ es x) :
    OnCourse providerName providerCallId s₀ d₀ es (crash j x.1, x.2) :=
  h.of_passive rfl rfl

/-- A run of the event processors ends in a good world. -/
theorem confluence_good (hes : NewEvents providerName providerCallId s₀ es)
    (hfound : CallRepository.findByProviderCallId providerName providerCallId s₀.calls = some d₀)
    (hwf : d₀.WellFormed) {w : World (dialer cfg)}
    (hrun : Relation.ReflTransGen (Step (closed cfg)) (eventProcessors cfg s₀ es) w) :
    ∃ γ, (confluence cfg providerName providerCallId s₀ d₀ es).Good
      (Ends providerName providerCallId es) w γ := by
  have hstart : (confluence cfg providerName providerCallId s₀ d₀ es).Good
      (Ends providerName providerCallId es) (eventProcessors cfg s₀ es) fun _ => none := by
    refine ⟨⟨⟨d₀, hfound, rfl, hwf, le_rfl, .inl rfl⟩, fun k hk => .inl hk,
      fun _ _ h => by cases h⟩, fun i p hp => ?_⟩
    change (es.map fun e => Task.program cfg (.processEvent e))[i]? = some p at hp
    rw [List.getElem?_map] at hp
    obtain ⟨e, he, rfl⟩ := Option.map_eq_some_iff.mp hp
    exact wp_eventProcessor hes he fun _ h => by cases h
  refine hstart.steps (fun i r => ends_stable r) (fun _ h => h) (fun i x hx => ?_) hrun
  exact ⟨x.2, onCourse_crash i x hx,
    ⟨fun _ h => h, fun _ _ h => h, fun _ _ h => .inl h⟩, trivial⟩

/-- Once all have finished, the call has come to the rank of every event. -/
theorem reached_of_finished (hes : NewEvents providerName providerCallId s₀ es)
    {w : World (dialer cfg)} {γ : Owners}
    (hgood : (confluence cfg providerName providerCallId s₀ d₀ es).Good
      (Ends providerName providerCallId es) w γ)
    (hlen : es.length ≤ w.procs.length) (hdone : w.Finished) {t : CallState}
    (ht : t ∈ targets es) : Reached providerName providerCallId (rank t) w.st := by
  have hanswers : ∀ i, i < es.length → Answers providerName providerCallId es i (w.st, γ) := by
    intro i hi
    have hlt : i < w.procs.length := Nat.lt_of_lt_of_le hi hlen
    obtain ⟨r, hr⟩ := hdone _ (List.getElem_mem hlt)
    exact hgood.returned (r := r) (by rw [List.getElem?_eq_getElem hlt, hr])
  obtain ⟨e, he, htype⟩ := List.mem_filterMap.mp ht
  obtain ⟨i, hi⟩ := List.mem_iff_getElem?.mp he
  obtain ⟨j, hj, -⟩ := hanswers i (List.getElem?_eq_some_iff.mp hi).1 e t hi htype
  -- the process that recorded the event answers for all its copies
  obtain ⟨-, e', he', hkey⟩ := hgood.1.owner _ j hj
  obtain rfl : e' = e :=
    hes.same e' (List.mem_of_getElem? he') e he (congrArg Prod.snd hkey)
  obtain ⟨j', hj', hreached⟩ := hanswers j (List.getElem?_eq_some_iff.mp he').1 e' t he' htype
  exact hreached (Option.some.inj (hj'.symm.trans hj))

/-- The highest of the states, or a terminal one. -/
theorem settles_of_reached {st st' : CallState} {ts : List CallState}
    (hup : rank st ≤ rank st') (hcourse : st' = st ∨ isTerminal st = false ∧ st' ∈ ts)
    (hall : ∀ t ∈ ts, rank t ≤ rank st') : Settles st ts st' where
  final hterm := by
    rcases hcourse with h | ⟨hlive, -⟩
    · exact h
    · cases hterm.symm.trans hlive
  ended hlive hterm := by
    obtain ⟨t, ht, hend⟩ := hterm
    have hle := hall t ht
    have htop := (isTerminal_iff_rank t).mp hend
    have hsix := rank_le_six st'
    have hend' : isTerminal st' = true := (isTerminal_iff_rank st').mpr (by omega)
    rcases hcourse with rfl | ⟨-, hmem⟩
    · cases hend'.symm.trans hlive
    · exact ⟨hmem, hend'⟩
  highest hlive hopen := by
    refine ⟨?_, fun t ht => ?_⟩
    · rcases hcourse with rfl | ⟨-, hmem⟩
      · exact List.mem_cons_self
      · exact List.mem_cons_of_mem st hmem
    · rcases List.mem_cons.mp ht with rfl | hmem
      · exact hup
      · exact hall t hmem

/--
**Events are confluent on the call.** For an attached call, and any deliveries of events about
it that were not recorded before, in any order and in any number of copies: under any
interleaving of one event processor for each, without failures, once all have finished the
call is in its initial state if that was terminal; otherwise in one of the terminal states it
was told of, if there are any; and otherwise in the highest of the initial state and those it
was told of.
-/
theorem events_confluent (hes : NewEvents providerName providerCallId s₀ es)
    (hfound : CallRepository.findByProviderCallId providerName providerCallId s₀.calls = some d₀)
    (hwf : d₀.WellFormed) {w : World (dialer cfg)}
    (hrun : Relation.ReflTransGen (Step (closed cfg)) (eventProcessors cfg s₀ es) w)
    (hdone : w.Finished) :
    ∃ d ∈ w.st.calls.get d₀.id, Settles d₀.state (targets es) d.state := by
  obtain ⟨γ, hgood⟩ := confluence_good hes hfound hwf hrun
  have hlen : es.length ≤ w.procs.length := by
    have hsteps := Step.length_le_of_steps hrun
    rwa [eventProcessors, List.length_map] at hsteps
  obtain ⟨d, hd, hid, -, hup, hcourse⟩ := hgood.1.call
  refine ⟨d, hid ▸ (Collection.findOne_some hd).1, settles_of_reached hup hcourse fun t ht => ?_⟩
  obtain ⟨e, he, hr⟩ := reached_of_finished hes hgood hlen hdone ht
  obtain rfl : e = d := Option.some.inj (he.symm.trans hd)
  exact hr

end

/-! ## Three deliveries of two events -/

theorem eventsOf_new {types : List String} {s : State}
    (hknown : ∀ type ∈ types, (eventTypeToCallState type).isSome = true)
    (hnew : ∀ type ∈ types, ("mock_a", type) ∉ recorded s) :
    NewEvents "mock_a" "provider-call" s (eventsOf types) where
  about e he := by
    obtain ⟨type, -, rfl⟩ := List.mem_map.mp he
    exact ⟨rfl, rfl⟩
  known e he := by
    obtain ⟨type, htype, rfl⟩ := List.mem_map.mp he
    exact hknown type htype
  new e he := by
    obtain ⟨type, htype, rfl⟩ := List.mem_map.mp he
    exact hnew type htype
  same e he e' he' heq := by
    obtain ⟨type, -, rfl⟩ := List.mem_map.mp he
    obtain ⟨type', -, rfl⟩ := List.mem_map.mp he'
    exact congrArg eventOf heq

/-- CONNECTED overtakes ANSWERED, whose second copy is a duplicate of the first. -/
def overtaking : List (Label (dialer {})) :=
  [.run 0 {}, .run 1 {}, .run 2 {}, .run 1 {}, .run 0 {}]
    ++ List.replicate 4 (.run 0 {}) ++ List.replicate 2 (.run 1 {})

/-- Such a run, in which the late event moves nothing. -/
theorem events_confluent_threeDeliveries :
    ∃ w₀ d₀ w, CallRepository.findByProviderCallId "mock_a" "provider-call" w₀.st.calls = some d₀
      ∧ Reachable (Policy.any (dialer {})) CallsWellFormed w₀
      ∧ Relation.ReflTransGen (Step (closed {}))
        (eventProcessors {} w₀.st (eventsOf ["CONNECTED", "ANSWERED", "ANSWERED"])) w
      ∧ w.Finished ∧ ∃ d ∈ w.st.calls.get d₀.id,
        Settles d₀.state (targets (eventsOf ["CONNECTED", "ANSWERED", "ANSWERED"])) d.state := by
  obtain ⟨w₀, hw₀, htest⟩ := Reachable.of_play (Policy.any (dialer {}))
    oneAgent_fresh.noCalls.wellFormed oneDial
    (fun w => (CallRepository.findByProviderCallId "mock_a" "provider-call" w.st.calls).isSome
      && decide (∀ type ∈ ["CONNECTED", "ANSWERED", "ANSWERED"], ("mock_a", type) ∉ recorded w.st)
      && ((eventProcessors {} w.st (eventsOf ["CONNECTED", "ANSWERED", "ANSWERED"])).play
        (closed {}) overtaking).any fun w' : World (dialer {}) => decide w'.Finished)
    (by decide +kernel)
  simp only [Bool.and_eq_true, decide_eq_true_eq] at htest
  obtain ⟨⟨hsome, hnew⟩, hplay⟩ := htest
  obtain ⟨d₀, hd₀⟩ := Option.isSome_iff_exists.mp hsome
  obtain ⟨w, hw, hdone⟩ := Option.any_eq_true _ _ |>.mp hplay
  have hwf : d₀.WellFormed := (lifecycle_reachable hw₀).1 _ d₀ (Collection.findOne_some hd₀).1
  have hrun := steps_of_play hw
  have hfinished : w.Finished := of_decide_eq_true hdone
  exact ⟨w₀, d₀, w, hd₀, hw₀, hrun, hfinished,
    events_confluent (eventsOf_new (by decide) hnew) hd₀ hwf hrun hfinished⟩

end SmartDialer
