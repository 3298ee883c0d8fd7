import SmartDialer.Protocol.Confluence
import SmartDialer.Simulation.FaultInjector

/-!
# Events delivered again

An event is filed before it is looked at, and the unique index lets one delivery of it
through. Whoever comes later with the same key writes nothing at all, so that deliveries one
by one come to the same documents whether the repetitions are among them or not; and among
deliveries at the same time the index decides who was first. The fault injector reads its
events from where they are filed, and so finds the gate closed for every one of them.
-/

namespace SmartDialer

open Store Conc

/-! ## Statement -/

/-- An event as it arrives, and what the environment does while it is processed. -/
structure Delivery where
  process : Nat
  event : ProviderEvent
  env : Nat → Choice

/-- Nothing goes wrong with the database while it is processed. -/
def Delivery.Faultless (d : Delivery) : Prop := ∀ n, (d.env n).fault = .none

/-- What the processing of one delivery makes of the database. -/
def Delivery.run (cfg : Settings) (d : Delivery) (s : State) : State :=
  ((EventProcessor.processEvent cfg d.event).eval (solo d.process d.env) (s, 0)).2.1

/-- The deliveries are processed one by one. -/
def deliverAll (cfg : Settings) : List Delivery → State → State
  | [], s => s
  | d :: ds, s => deliverAll cfg ds (d.run cfg s)

/-- The deliveries without the repetitions; the keys in `seen` were delivered before. -/
def withoutRepetitions (seen : List (String × String)) : List Delivery → List Delivery
  | [] => []
  | d :: ds =>
      if seen.contains d.event.fileKey then withoutRepetitions seen ds
      else d :: withoutRepetitions (d.event.fileKey :: seen) ds

/-- A delivery of the event with this key got past the duplicate gate. -/
def Entry.passes (key : String × String) : Entry → Bool
  | .answered _ (.recordEvent event) (.ok .recorded) => event.fileKey == key
  | _ => false

/-! ## The files -/

section

variable {i : Nat} {o : Op} {c : Choice} {s : State} {key : String × String}

/-- What an operation does to the keys of the events: it adds one, if it records an event. -/
theorem effect_recorded (o : Op) (c : Choice) (s : State) :
    recorded (effect o c s).2 = recorded s
      ∨ ∃ event, o = .recordEvent event ∧ event.fileKey ∉ recorded s
        ∧ recorded (effect o c s).2 = recorded s ++ [event.fileKey] := by
  cases o with
  | recordEvent event =>
      by_cases hseen : event.fileKey ∈ recorded s
      · refine .inl ?_
        rw [effect, State.onEvents, EventRepository.recordEvent, Collection.insert_of_mem hseen]
      · obtain ⟨events, hins, hkeys⟩ :=
          Collection.insert_of_not_mem (d := EventRepository.toDocument c.now event) hseen
        refine .inr ⟨event, rfl, hseen, ?_⟩
        rw [effect, State.onEvents, EventRepository.recordEvent, hins]
        exact hkeys
  -- a second stamp on the event leaves its key alone
  | markProcessed providerName providerEventId status appliedTransition =>
      exact .inl (Collection.keys_update ..)
  | insertCall _ _ _ _ _ _ =>
      refine .inl ?_
      simp only [effect]
      split <;> rfl
  | originateCall _ _ _ =>
      refine .inl ?_
      simp only [effect]
      split <;> rfl
  | hangupCall _ _ =>
      refine .inl ?_
      simp only [effect]
      split <;> rfl
  | getCallStatus _ _ =>
      refine .inl ?_
      simp only [effect]
      split <;> rfl
  | _ => exact .inl rfl

/-- An event that is filed stays filed. -/
theorem recorded_exec (h : key ∈ recorded s) : key ∈ recorded (exec i o c s).2 := by
  have heff : key ∈ recorded (effect o c s).2 := by
    rcases effect_recorded o c s with hsame | ⟨event, -, -, hnew⟩
    · rw [hsame]
      exact h
    · rw [hnew]
      exact List.mem_append_left _ h
  rcases attempt_state o c s with hst | hst
  · change key ∈ recorded (attempt o c s).2
    rw [hst]
    exact h
  · change key ∈ recorded (attempt o c s).2
    rw [hst]
    exact heff

theorem recorded_eval {α : Type} (p : Async α) {env : Nat → Choice} {x : State × Nat}
    (h : key ∈ recorded x.1) : key ∈ recorded (p.eval (solo i env) x).2.1 :=
  (Prog.all_of_forall (P := fun _ => True) (fun _ => trivial) p).eval
    (A := fun (x : State × Nat) => key ∈ recorded x.1) (fun _ _ _ hx => recorded_exec hx) h

/-- The gate is open for an event that is not filed, and files it. -/
theorem exec_recordEvent_new {event : ProviderEvent} (hc : c.fault = .none)
    (h : event.fileKey ∉ recorded s) :
    (exec i (.recordEvent event) c s).1 = .ok .recorded
      ∧ event.fileKey ∈ recorded (exec i (.recordEvent event) c s).2 := by
  obtain ⟨events, hins, hkeys⟩ :=
    Collection.insert_of_not_mem (d := EventRepository.toDocument c.now event) h
  rw [exec_faultless hc, effect, State.onEvents, EventRepository.recordEvent, hins]
  refine ⟨rfl, ?_⟩
  change event.fileKey ∈ events.docs.map key
  rw [hkeys]
  exact List.mem_append_right _ (List.mem_singleton_self _)

/-- It is closed for one that is, and nothing happens. -/
theorem exec_recordEvent_old {event : ProviderEvent} (hc : c.fault = .none)
    (h : event.fileKey ∈ recorded s) :
    (exec i (.recordEvent event) c s).1 = .ok .duplicate
      ∧ SameDocuments (exec i (.recordEvent event) c s).2 s := by
  rw [exec_faultless hc, effect, State.onEvents, EventRepository.recordEvent,
    Collection.insert_of_mem h]
  exact ⟨rfl, SameDocuments.record ..⟩

end

/-! ## One delivery -/

section

variable {cfg : Settings} {i : Nat} {env : Nat → Choice}

/-- An event that is filed is not applied again. -/
theorem eval_processEvent_old {event : ProviderEvent} {x : State × Nat}
    (henv : (env x.2).fault = .none) (h : event.fileKey ∈ recorded x.1) :
    ∃ x', (EventProcessor.processEvent cfg event).eval (solo i env) x
        = (.ok ⟨.duplicateIgnored, none⟩, x') ∧ SameDocuments x'.1 x.1 := by
  obtain ⟨hans, hsame⟩ := exec_recordEvent_old (i := i) henv h
  have hsolo : (solo i env (.recordEvent event) x).1 = .ok .duplicate := hans
  rw [EventProcessor.processEvent, Prog.bind_eq, Prog.eval_perform_bind (S := sig) hsolo]
  exact ⟨_, rfl, hsame⟩

/-- When an event has been processed, it is filed. -/
theorem eval_processEvent_recorded {event : ProviderEvent} {x : State × Nat}
    (henv : (env x.2).fault = .none) :
    event.fileKey
      ∈ recorded ((EventProcessor.processEvent cfg event).eval (solo i env) x).2.1 := by
  by_cases h : event.fileKey ∈ recorded x.1
  · exact recorded_eval _ h
  · obtain ⟨hans, hfiled⟩ := exec_recordEvent_new (i := i) henv h
    have hsolo : (solo i env (.recordEvent event) x).1 = .ok .recorded := hans
    rw [EventProcessor.processEvent, Prog.bind_eq, Prog.eval_perform_bind (S := sig) hsolo]
    exact recorded_eval _ hfiled

end

/-! ## Deliveries one by one -/

section

variable {cfg : Settings}

theorem SameDocuments.run {s s' : State} (h : SameDocuments s s') (d : Delivery) :
    SameDocuments (d.run cfg s) (d.run cfg s') :=
  (h.eval _ 0).2

theorem SameDocuments.recorded_eq {s s' : State} (h : SameDocuments s s') :
    recorded s = recorded s' := by
  rw [recorded, h.events]
  rfl

/-- Deliveries of what was delivered before may be left out. -/
theorem deliverAll_withoutRepetitions {ds : List Delivery} (hds : ∀ d ∈ ds, d.Faultless)
    {seen : List (String × String)} {s s' : State} (hs : SameDocuments s s')
    (hseen : ∀ k ∈ seen, k ∈ recorded s) :
    SameDocuments (deliverAll cfg ds s)
      (deliverAll cfg (withoutRepetitions seen ds) s') := by
  induction ds generalizing seen s s' with
  | nil => exact hs
  | cons d ds ih =>
      have hd : d.Faultless := hds d List.mem_cons_self
      have hrest : ∀ d' ∈ ds, d'.Faultless := fun d' h => hds d' (List.mem_cons_of_mem _ h)
      have hkept : ∀ k ∈ recorded s, k ∈ recorded (d.run cfg s) :=
        fun k hk => recorded_eval _ hk
      rw [deliverAll, withoutRepetitions]
      by_cases hold : d.event.fileKey ∈ seen
      · rw [if_pos (List.contains_iff_mem.mpr hold)]
        obtain ⟨x', heval, hdocs⟩ : ∃ x', (EventProcessor.processEvent cfg d.event).eval
            (solo d.process d.env) (s, 0) = (.ok ⟨.duplicateIgnored, none⟩, x')
            ∧ SameDocuments x'.1 s := eval_processEvent_old (hd 0) (hseen _ hold)
        have hsame : SameDocuments (d.run cfg s) s := by
          rw [Delivery.run, heval]
          exact hdocs
        exact ih hrest (hsame.trans hs) fun k hk => hkept k (hseen k hk)
      · rw [if_neg fun h => hold (List.contains_iff_mem.mp h), deliverAll]
        refine ih hrest (hs.run d) fun k hk => ?_
        rcases List.mem_cons.mp hk with rfl | hk
        · exact eval_processEvent_recorded (x := (s, 0)) (hd 0)
        · exact hkept k (hseen k hk)

/-- What is filed already may be delivered in any number and order. -/
theorem deliverAll_recorded {ds : List Delivery} {s : State}
    (hds : ∀ d ∈ ds, d.Faultless ∧ d.event.fileKey ∈ recorded s) :
    SameDocuments (deliverAll cfg ds s) s := by
  have hnone : ∀ seen : List (String × String), (∀ d ∈ ds, d.event.fileKey ∈ seen) →
      withoutRepetitions seen ds = [] := by
    intro seen hseen
    induction ds with
    | nil => rfl
    | cons d ds ih =>
        rw [withoutRepetitions, if_pos (List.contains_iff_mem.mpr (hseen d List.mem_cons_self))]
        exact ih (fun d' h => hds d' (List.mem_cons_of_mem _ h))
          fun d' h => hseen d' (List.mem_cons_of_mem _ h)
  have hall : SameDocuments (deliverAll cfg ds s)
      (deliverAll cfg (withoutRepetitions (recorded s) ds) s) :=
    deliverAll_withoutRepetitions (fun d h => (hds d h).1) (.refl s) fun k hk => hk
  rwa [hnone _ fun d h => (hds d h).2] at hall

/-! ## The bursts of the fault injector -/

/-- Where all the events are filed, the loop over them changes nothing. -/
theorem eval_replay {i : Nat} {env : Nat → Choice} (henv : ∀ n, (env n).fault = .none)
    {events : List ProviderEvent} {x : State × Nat}
    (h : ∀ event ∈ events, event.fileKey ∈ recorded x.1) :
    ∃ x', (FaultInjector.replay cfg events).eval (solo i env) x = (.ok (), x')
      ∧ SameDocuments x'.1 x.1 := by
  induction events generalizing x with
  | nil => exact ⟨x, rfl, .refl _⟩
  | cons event rest ih =>
      obtain ⟨x₁, heval, hsame⟩ : ∃ x', (EventProcessor.processEvent cfg event).eval
          (solo i env) x = (.ok ⟨.duplicateIgnored, none⟩, x') ∧ SameDocuments x'.1 x.1 :=
        eval_processEvent_old (henv x.2) (h event List.mem_cons_self)
      have hrest : ∀ e ∈ rest, e.fileKey ∈ recorded x₁.1 := by
        intro e he
        rw [hsame.recorded_eq]
        exact h e (List.mem_cons_of_mem _ he)
      obtain ⟨x₂, heval₂, hsame₂⟩ := ih hrest
      refine ⟨x₂, ?_, hsame₂.trans hsame⟩
      rw [FaultInjector.replay, Prog.bind_eq, Prog.eval_bind, heval]
      exact heval₂

/-- A query by itself. -/
theorem eval_query {i : Nat} {env : Nat → Choice} {o : Op} {a : Ans o} {x : State × Nat}
    (henv : (env x.2).fault = .none) (h : effect o (env x.2) x.1 = (.ok a, x.1)) :
    ∃ x', (await o).eval (solo i env) x = (.ok a, x') ∧ SameDocuments x'.1 x.1 := by
  rw [Prog.eval_perform, solo, exec_faultless henv, h]
  exact ⟨_, rfl, SameDocuments.record ..⟩

/-- All the events a burst replays are filed. -/
theorem eval_replayableEvents {i : Nat} {env : Nat → Choice}
    (henv : ∀ n, (env n).fault = .none) (providerCallId : Option String) (x : State × Nat) :
    ∃ events x', (FaultInjector.replayableEvents providerCallId).eval (solo i env) x
        = (.ok events, x')
      ∧ SameDocuments x'.1 x.1 ∧ ∀ event ∈ events, event.fileKey ∈ recorded x.1 := by
  cases providerCallId with
  | none =>
      obtain ⟨x', heval, hsame⟩ := eval_query (i := i) (o := .findLatestEvents 20) (henv x.2) rfl
      refine ⟨_, x', heval, hsame, fun event hevent => ?_⟩
      obtain ⟨document, hdoc, rfl⟩ := List.mem_map.mp hevent
      have hstored := Collection.mem_of_mem_limit (List.mem_reverse.mp hdoc)
      exact List.mem_map_of_mem ((List.mem_insertionSort _).mp hstored)
  | some callId =>
      obtain ⟨x', heval, hsame⟩ :=
        eval_query (i := i) (o := .findProviderEventsForCall callId) (henv x.2) rfl
      refine ⟨_, x', heval, hsame, fun event hevent => ?_⟩
      obtain ⟨document, hdoc, rfl⟩ := List.mem_map.mp hevent
      have hstored := List.mem_filter.mp (Collection.mem_sortOn.mp hdoc)
      exact List.mem_map_of_mem hstored.1

/-- A burst changes nothing, in whatever order it replays what it has read. -/
theorem eval_burst {i : Nat} {env : Nat → Choice} (henv : ∀ n, (env n).fault = .none)
    (providerCallId : Option String) (order : List ProviderEvent → List ProviderEvent)
    (horder : ∀ events, ∀ event ∈ order events, event ∈ events)
    (result : List ProviderEvent → FaultResult) (s : State) :
    SameDocuments (((FaultInjector.replayableEvents providerCallId).bind fun events =>
      (FaultInjector.replay cfg (order events)).bind fun _ =>
        Prog.ret (result events)).eval (solo i env) (s, 0)).2.1 s := by
  obtain ⟨events, x₁, hread, hsame, hfiled⟩ := eval_replayableEvents (i := i) henv providerCallId
    (s, 0)
  have hall : ∀ event ∈ order events, event.fileKey ∈ recorded x₁.1 := by
    intro event hevent
    rw [hsame.recorded_eq]
    exact hfiled event (horder events event hevent)
  obtain ⟨x₂, hreplay, hsame₂⟩ : ∃ x', (FaultInjector.replay cfg (order events)).eval
      (solo i env) x₁ = (.ok (), x') ∧ SameDocuments x'.1 x₁.1 := eval_replay henv hall
  rw [Prog.eval_bind, hread]
  dsimp only
  rw [Prog.eval_bind, hreplay]
  exact hsame₂.trans hsame

end

/-! ## Deliveries at the same time -/

/-- Of the deliveries of one event at most one got past the gate, and then it is filed. -/
def PassedOnce (s : State) : Prop :=
  ∀ k, (s.log.filter (Entry.passes k)).length ≤ 1
    ∧ ((s.log.filter (Entry.passes k)).length = 1 → k ∈ recorded s)

/-- Who gets past the gate finds it open, and closes it. -/
theorem passes_exec {i : Nat} {o : Op} {c : Choice} {s : State} {k : String × String}
    (h : Entry.passes k (.answered i o (exec i o c s).1) = true) :
    k ∉ recorded s ∧ k ∈ recorded (exec i o c s).2 := by
  cases o with
  | recordEvent event =>
      generalize hans : (exec i (.recordEvent event) c s).1 = r at h
      cases r with
      | error e => cases h
      | ok answer =>
          cases answer with
          | duplicate => cases h
          | recorded =>
              obtain rfl : event.fileKey = k := beq_iff_eq.mp h
              obtain ⟨heff, hstate⟩ := exec_ok hans
              by_cases hseen : event.fileKey ∈ recorded s
              · rw [effect, State.onEvents, EventRepository.recordEvent,
                  Collection.insert_of_mem hseen] at heff
                cases heff
              · have hnew := exec_recordEvent_new (i := i) (c := { c with fault := .none }) rfl
                  hseen
                rw [exec_faultless rfl] at hnew
                rw [hstate]
                exact ⟨hseen, hnew.2⟩
  | _ => cases h

theorem passedOnce_exec {i : Nat} {o : Op} {c : Choice} {s : State} (h : PassedOnce s) :
    PassedOnce (exec i o c s).2 := by
  intro k
  obtain ⟨hone, hfiled⟩ := h k
  rw [exec_log, List.filter_cons]
  by_cases hpass : Entry.passes k (.answered i o (exec i o c s).1) = true
  · obtain ⟨hopen, hclosed⟩ := passes_exec hpass
    have hnone : (s.log.filter (Entry.passes k)).length ≠ 1 := fun heq => hopen (hfiled heq)
    rw [if_pos hpass, List.length_cons]
    exact ⟨by omega, fun _ => hclosed⟩
  · rw [if_neg hpass]
    exact ⟨hone, fun heq => recorded_exec (hfiled heq)⟩

/-- In every run, of the deliveries of one event at most one gets past the gate. -/
theorem passedOnce_reachable {cfg : Settings} {w : World (dialer cfg)}
    (h : Reachable (Policy.any (dialer cfg)) (fun s => s.log = []) w) : PassedOnce w.st := by
  refine h.invariant (I := PassedOnce) (R := fun _ => True)
    (fun t _ => Prog.all_of_forall (fun _ => trivial) _) (fun s hs k => ?_)
    (fun i o c s _ _ hs => passedOnce_exec hs) (fun i s hs => hs)
  rw [hs]
  exact ⟨Nat.zero_le _, fun h => by cases h⟩

/-! ## Repetitions -/

/--
**Duplicate suppression.** Deliveries one by one lead to the documents they lead to without
the repetitions. In every run, of any tasks in any interleaving, with failures, cancellations
and crashes anywhere, at most one delivery of an event gets past the gate. And to deliver
events that are filed, in any number and order, changes no document; so neither does either
burst of the fault injector.
-/
theorem duplicates_suppressed (cfg : Settings) :
    (∀ (ds : List Delivery) (s : State), (∀ d ∈ ds, d.Faultless) →
      SameDocuments (deliverAll cfg ds s) (deliverAll cfg (withoutRepetitions [] ds) s))
    ∧ (∀ w, Reachable (Policy.any (dialer cfg)) (fun s => s.log = []) w →
      ∀ k, (w.st.log.filter (Entry.passes k)).length ≤ 1)
    ∧ (∀ (ds : List Delivery) (s : State),
      (∀ d ∈ ds, d.Faultless ∧ d.event.fileKey ∈ recorded s) →
        SameDocuments (deliverAll cfg ds s) s)
    ∧ (∀ (i : Nat) (env : Nat → Choice) (providerCallId : Option String) (s : State),
      (∀ n, (env n).fault = .none) →
        SameDocuments ((FaultInjector.duplicateEventBurst cfg providerCallId).eval
          (solo i env) (s, 0)).2.1 s
        ∧ SameDocuments ((FaultInjector.outOfOrderBurst cfg providerCallId).eval
          (solo i env) (s, 0)).2.1 s) := by
  refine ⟨fun ds s hds => ?_, fun w hw k => (passedOnce_reachable hw k).1,
    fun ds s hds => deliverAll_recorded hds, fun i env providerCallId s henv => ⟨?_, ?_⟩⟩
  · refine deliverAll_withoutRepetitions hds (SameDocuments.refl s) fun k hk => ?_
    cases hk
  · exact eval_burst henv providerCallId id (fun _ _ h => h) _ s
  · exact eval_burst henv providerCallId List.reverse (fun _ _ h => List.mem_reverse.mp h) _ s

/-- The ANSWERED event of a call, while nothing goes wrong. -/
def answers : Delivery := ⟨1, eventOf "ANSWERED", fun _ => {}⟩

/-- The first delivery of it moves the call; the second, and a burst after it, do nothing. -/
theorem duplicates_suppressed_answeredTwice :
    ∃ w, Reachable (Policy.any (dialer {})) (fun s => s.log = []) w
      ∧ (w.st.calls.get "call").map Call.state = some .initiated
      ∧ ((deliverAll {} [answers] w.st).calls.get "call").map Call.state = some .answered
      ∧ (w.st.log.filter (Entry.passes answers.event.fileKey)).length ≤ 1
      ∧ SameDocuments (deliverAll {} [answers, answers] w.st) (deliverAll {} [answers] w.st)
      ∧ SameDocuments (deliverAll {} [answers] (deliverAll {} [answers] w.st))
        (deliverAll {} [answers] w.st)
      ∧ SameDocuments ((FaultInjector.duplicateEventBurst {} none).eval (solo 1 fun _ => {})
        (deliverAll {} [answers] w.st, 0)).2.1 (deliverAll {} [answers] w.st) := by
  obtain ⟨w, hw, htest⟩ : ∃ w : World (dialer {}),
      Reachable (Policy.any (dialer {})) (fun s => s.log = []) w
        ∧ decide ((w.st.calls.get "call").map Call.state = some .initiated
          ∧ ((deliverAll {} [answers] w.st).calls.get "call").map Call.state = some .answered
          ∧ answers.event.fileKey ∈ recorded (deliverAll {} [answers] w.st)) = true :=
    Reachable.of_play (s := oneAgent) _ oneAgent_fresh.log oneDial _ (by decide +kernel)
  obtain ⟨hbefore, hafter, hfiled⟩ := of_decide_eq_true htest
  have hfaultless : answers.Faultless := fun _ => rfl
  obtain ⟨hrepetitions, hgate, hagain, hbursts⟩ := duplicates_suppressed {}
  refine ⟨w, hw, hbefore, hafter, hgate w hw _, ?_, ?_, ?_⟩
  · refine hrepetitions [answers, answers] w.st fun d hd => ?_
    rcases List.mem_pair.mp hd with rfl | rfl <;> exact hfaultless
  · refine hagain [answers] _ fun d hd => ?_
    obtain rfl := List.mem_singleton.mp hd
    exact ⟨hfaultless, hfiled⟩
  · exact (hbursts 1 _ none _ fun _ => rfl).1

end SmartDialer
