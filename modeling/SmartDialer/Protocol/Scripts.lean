import SmartDialer.Protocol.Confluence
import SmartDialer.Providers.MockRun

/-!
# A script, from the provider to the borrower

The two ends of a call. A mock provider plays a script of events, which it may have disturbed;
the dialer is told of the call by nothing else. Once the provider reports that a call is over and
the events have been processed, in whatever order, the dialer has the call in the state that the
recovery worker would have read off the provider's report, so the two never tell different tales.

Not so for the borrower. A script whose events are swapped still completes the call, but if
CONNECTED goes before ANSWERED, a conversation does not count as a contact.
-/

namespace SmartDialer

open Store Conc

/-! ## What a script tells -/

section

variable {α β : Type}

theorem map_swapNext (f : α → β) (i : Nat) (xs : List α) :
    (swapNext i xs).map f = swapNext i (xs.map f) := by
  induction i, xs using swapNext.induct with
  | case1 x y xs => rfl
  | case2 i x xs ih => exact congrArg (f x :: ·) ih
  | case3 i xs hzero hsucc =>
      rw [swapNext.eq_3 _ _ hzero hsucc]
      cases xs with
      | nil => cases i <;> rfl
      | cons x xs =>
          cases i with
          | succ i => exact (hsucc i x xs rfl rfl).elim
          | zero =>
              cases xs with
              | nil => rfl
              | cons y ys => exact (hzero x y ys rfl rfl).elim

theorem heard_of_mem {e : ProviderEvent} {es : List ProviderEvent}
    {seen : List (String × String)} (h : e.fileKey ∈ seen) :
    heard seen (e :: es) = heard seen es :=
  if_pos h

theorem heard_of_notMem {e : ProviderEvent} {es : List ProviderEvent}
    {seen : List (String × String)} (h : e.fileKey ∉ seen) : heard seen (e :: es)
      = (eventTypeToCallState e.eventType).toList ++ heard (seen ++ [e.fileKey]) es :=
  if_neg h

/-- The copy does not change what is heard. -/
theorem heard_insertNext {f : ℚ × ProviderEvent → ℚ × ProviderEvent} (hf : ∀ x, (f x).2 = x.2)
    (i : Nat) (xs : List (ℚ × ProviderEvent)) (seen : List (String × String)) :
    heard seen ((insertNext f i xs).map Prod.snd) = heard seen (xs.map Prod.snd) := by
  induction i, xs using insertNext.induct generalizing seen with
  | case1 x xs =>
      have hcopy : (insertNext f 0 (x :: xs)).map Prod.snd = x.2 :: x.2 :: xs.map Prod.snd := by
        rw [insertNext, List.map_cons, List.map_cons, hf]
      rw [hcopy, List.map_cons]
      by_cases hseen : x.2.fileKey ∈ seen
      · exact heard_of_mem hseen
      · rw [heard_of_notMem hseen, heard_of_notMem hseen,
          heard_of_mem (List.mem_append_right seen (List.mem_singleton_self _))]
  | case2 i x xs ih =>
      rw [insertNext, List.map_cons, List.map_cons, heard, heard, ih, ih]
  | case3 i => cases i <;> rfl

/-- Everything is heard of events that are new and different. -/
theorem heard_of_nodup {es : List ProviderEvent} {seen : List (String × String)}
    (hnodup : (es.map ProviderEvent.fileKey).Nodup) (hnew : ∀ e ∈ es, e.fileKey ∉ seen) :
    heard seen es = targets es := by
  induction es generalizing seen with
  | nil => rfl
  | cons e es ih =>
      obtain ⟨hne, hnodup⟩ := List.nodup_cons.mp hnodup
      have hfresh : e.fileKey ∉ seen := hnew e List.mem_cons_self
      have hrest : ∀ e' ∈ es, e'.fileKey ∉ seen ++ [e.fileKey] := by
        intro e' he' hmem
        rcases List.mem_append.mp hmem with hmem | hmem
        · exact hnew e' (List.mem_cons_of_mem e he') hmem
        · exact hne (List.mem_singleton.mp hmem ▸ List.mem_map_of_mem he')
      rw [heard_of_notMem hfresh, ih hnodup hrest, targets, targets, List.filterMap_cons]
      cases eventTypeToCallState e.eventType <;> rfl

end

namespace MockProviderBase

variable {behaviour : MockBehaviour} {name c : String} {draws : ScriptDraws}

/-- The call is answered. -/
def Answered (behaviour : MockBehaviour) (draws : ScriptDraws) : Prop :=
  draws.answer < behaviour.answerRate

instance : Decidable (Answered behaviour draws) := inferInstanceAs (Decidable (_ < _))

/-- CONNECTED overtakes ANSWERED. -/
def AnswerOvertaken (behaviour : MockBehaviour) (draws : ScriptDraws) : Prop :=
  draws.outOfOrder < behaviour.outOfOrderRate ∧ randrange 3 draws.swapIndex = 1

instance : Decidable (AnswerOvertaken behaviour draws) := inferInstanceAs (Decidable (_ ∧ _))

/-- The states an undisturbed script tells of. -/
def told (behaviour : MockBehaviour) (draws : ScriptDraws) : List CallState :=
  if Answered behaviour draws then [.ringing, .answered, .connected, .completed]
  else [.ringing, .failed]

theorem targets_planned (behaviour : MockBehaviour) (name c : String) (draws : ScriptDraws) :
    targets ((planned behaviour name c draws).map Prod.snd) = told behaviour draws := by
  rw [planned, told]
  by_cases h : Answered behaviour draws
  · have hdraw : decide (draws.answer < behaviour.answerRate) = true := decide_eq_true h
    rw [if_pos h, hdraw]
    rfl
  · have hdraw : decide (draws.answer < behaviour.answerRate) = false := decide_eq_false h
    rw [if_neg h, hdraw]
    rfl

theorem nodup_planned :
    (((planned behaviour name c draws).map Prod.snd).map ProviderEvent.fileKey).Nodup := by
  rw [List.map_map, List.nodup_iff_getElem?_ne_getElem?]
  intro i j hij hj heq
  rw [List.length_map, planned, List.length_mapIdx] at hj
  rw [List.getElem?_map, List.getElem?_map, planned, List.getElem?_mapIdx, List.getElem?_mapIdx,
    List.getElem?_eq_getElem hj, List.getElem?_eq_getElem (hij.trans hj)] at heq
  have hid := congrArg Prod.snd (Option.some.inj heq)
  exact absurd (repr_injective ((String.append_right_inj _).mp hid)) hij.ne

theorem map_applyOutOfOrder {α β : Type} (f : α → β) (xs : List α) :
    (applyOutOfOrder behaviour draws xs).map f = applyOutOfOrder behaviour draws (xs.map f) := by
  rw [applyOutOfOrder, applyOutOfOrder, List.length_map]
  split
  · rfl
  · split
    · rfl
    · exact map_swapNext f _ xs

theorem heard_applyDuplication (xs : List (ℚ × ProviderEvent)) (seen : List (String × String)) :
    heard seen ((applyDuplication behaviour draws xs).map Prod.snd)
      = heard seen (xs.map Prod.snd) := by
  rw [applyDuplication]
  split
  · rfl
  · split
    · rfl
    · exact heard_insertNext (f := fun x => (min x.1 (1 / 1000), x.2)) (fun _ => rfl) _ xs seen

/-- A disturbed script tells of the same states. -/
theorem mem_targets_events (behaviour : MockBehaviour) (name c : String) (draws : ScriptDraws)
    {t : CallState} : t ∈ targets (buildEventScript behaviour name c draws).events
      ↔ t ∈ told behaviour draws := by
  rw [← targets_planned behaviour name c draws, targets, targets, List.mem_filterMap,
    List.mem_filterMap]
  exact exists_congr fun e => and_congr_left fun _ => mem_events

theorem known_planned {e : ProviderEvent}
    (he : e ∈ (planned behaviour name c draws).map Prod.snd) :
    (eventTypeToCallState e.eventType).isSome = true := by
  obtain ⟨index, step, hstep, rfl⟩ := stepEvent_of_mem (mem_events.mpr he)
  have hmem := List.mem_of_getElem? hstep
  rw [steps] at hmem
  split at hmem <;> simp only [List.mem_cons, List.not_mem_nil, or_false] at hmem
  · rcases hmem with rfl | rfl | rfl | rfl <;> rfl
  · rcases hmem with rfl | rfl <;> rfl

/-- The one terminal state a script tells of is the one its provider will report. -/
theorem final_of_told {t : CallState} (ht : t ∈ told behaviour draws)
    (hterm : isTerminal t = true) :
    providerStatusToCallState (buildEventScript behaviour name c draws).finalStatus = some t := by
  have hfinal : (buildEventScript behaviour name c draws).finalStatus
      = if Answered behaviour draws then .completed else .failed := by
    rw [buildEventScript]
    by_cases h : draws.answer < behaviour.answerRate
    · rw [if_pos (decide_eq_true h)]
      exact (if_pos h).symm
    · rw [if_neg (fun hdec => h (of_decide_eq_true hdec))]
      exact (if_neg h).symm
  rw [hfinal]
  rw [told] at ht
  split at ht <;> rename_i h
  · rw [if_pos h]
    rcases List.mem_cons.mp ht with rfl | ht
    · cases hterm
    rcases List.mem_cons.mp ht with rfl | ht
    · cases hterm
    rcases List.mem_cons.mp ht with rfl | ht
    · cases hterm
    rw [List.mem_singleton.mp ht]
    rfl
  · rw [if_neg h]
    rcases List.mem_cons.mp ht with rfl | ht
    · cases hterm
    rw [List.mem_singleton.mp ht]
    rfl

theorem exists_terminal_told (behaviour : MockBehaviour) (draws : ScriptDraws) :
    ∃ t ∈ told behaviour draws, isTerminal t = true := by
  rw [told]
  split
  · exact ⟨.completed, by decide, rfl⟩
  · exact ⟨.failed, by decide, rfl⟩

end MockProviderBase

/-! ## The provider and the dialer -/

section

variable {cfg : Settings} {name : String} {behaviour : MockBehaviour} {as : List MockAction}
  {out : List MockOutput} {p : MockProvider} {c : String} {s₀ : State} {d₀ : Call}

/-- Deliveries of what a provider emitted are events as the dialer expects them. -/
theorem newEvents_of_run (h : MockProvider.machine.Run (.initial name behaviour) as out p)
    {es : List ProviderEvent} (hes : ∀ e ∈ es, e ∈ eventsOfCall c out)
    (hnew : ∀ e ∈ es, e.fileKey ∉ recorded s₀) : NewEvents name c s₀ es := by
  have hinv := MockProvider.mockInv_run h
  obtain ⟨behaviour', draws, hpre⟩ := (hinv.call c).source
  have hscript := fun e he => hpre.subset (hes e he)
  refine ⟨fun e he => MockProviderBase.about_of_mem (hscript e he), fun e he => ?_, hnew, ?_⟩
  · exact MockProviderBase.known_planned (MockProviderBase.mem_events.mp (hscript e he))
  · exact fun e he e' he' => MockProviderBase.eq_of_eventId (hscript e he) (hscript e' he')

/--
**The dialer comes to what the provider reports.** A mock provider, in any run of it, reports a
call as over that was not hung up. All that it emitted of the call is delivered, in any order and
in any number of copies, to a dialer that had the call attached and live and knew of none of it.
Under any interleaving of the event processors, without failures, once all have finished the
call is in the state that the recovery worker reads off the report.
-/
theorem reported_as_processed (h : MockProvider.machine.Run (.initial name behaviour) as out p)
    (hover : p.getCallStatus c = .completed ∨ p.getCallStatus c = .failed)
    (hkept : .hangupCall c ∉ as)
    (hfound : CallRepository.findByProviderCallId name c s₀.calls = some d₀)
    (hwf : d₀.WellFormed) (hlive : isTerminal d₀.state = false) {es : List ProviderEvent}
    (hes : ∀ e, e ∈ es ↔ e ∈ eventsOfCall c out) (hnew : ∀ e ∈ es, e.fileKey ∉ recorded s₀)
    {w : World (dialer cfg)}
    (hrun : Relation.ReflTransGen (Step (closed cfg)) (eventProcessors cfg s₀ es) w)
    (hdone : w.Finished) : ∃ d ∈ w.st.calls.get d₀.id,
      providerStatusToCallState (p.getCallStatus c) = some d.state := by
  have hevents : NewEvents name c s₀ es :=
    newEvents_of_run h (fun e he => (hes e).mp he) hnew
  -- all the events of one script, and its final status
  have hwhole := (((MockProvider.mockInv_run h).call c).concluded _
    (MockProvider.finished_of_status hover)).2.2
  obtain ⟨behaviour', draws, hscript, hstatus⟩ := hwhole.resolve_left fun hup => hkept hup.1
  have htargets : ∀ t, t ∈ targets es ↔ t ∈ MockProviderBase.told behaviour' draws := by
    intro t
    rw [← MockProviderBase.mem_targets_events behaviour' name c draws, ← hscript, targets, targets,
      List.mem_filterMap, List.mem_filterMap]
    exact exists_congr fun e => and_congr_left fun _ => hes e
  -- what the interleaving comes to
  obtain ⟨γ, hgood⟩ := confluence_good hevents hfound hwf hrun
  have hlen : es.length ≤ w.procs.length := by
    have hsteps := Step.length_le_of_steps hrun
    rwa [eventProcessors, List.length_map] at hsteps
  obtain ⟨d, hd, hid, -, hup, hcourse⟩ := hgood.1.call
  have hsettles : Settles d₀.state (targets es) d.state := by
    refine settles_of_reached hup hcourse fun t ht => ?_
    obtain ⟨e, he, hr⟩ := reached_of_finished hevents hgood hlen hdone ht
    obtain rfl : e = d := Option.some.inj (he.symm.trans hd)
    exact hr
  obtain ⟨t, ht, hterm⟩ := MockProviderBase.exists_terminal_told behaviour' draws
  obtain ⟨hmem, hend⟩ := hsettles.ended hlive ⟨t, (htargets t).mpr ht, hterm⟩
  refine ⟨d, hid ▸ (Collection.findOne_some hd).1, ?_⟩
  rw [hstatus]
  exact MockProviderBase.final_of_told ((htargets _).mp hmem) hend

end

/-- A call that is accepted, is not answered, and is reported as failed. -/
def unansweredCall : List MockAction :=
  [.originate ⟨"call", "campaign", "+15550100", 5⟩ 0 (1 / 2) (1 / 2),
    .answer 0 (1 / 5) (1 / 2) ⟨1 / 2, 120, 1, 0, 1, 0, 0⟩,
    .emit "mock_a-call-1", .handled "mock_a-call-1" false,
    .emit "mock_a-call-1", .handled "mock_a-call-1" false, .finish "mock_a-call-1"]

/-- The call as the dialer makes it. -/
def mockDial : List (Label (dialer {})) :=
  dialOnce :: dialSchedule 0 0 "call" "mock_a-call-1"

/-- RINGING is looked at, and then FAILED. -/
def bothEvents : List (Label (dialer {})) :=
  List.replicate 5 (.run 0 {}) ++ List.replicate 7 (.run 1 {})

/-- The provider reports the call as failed, and the dialer has processed both events. -/
def atBothEnds (w : World (dialer {})) (x : MockProvider × List MockOutput) : Bool :=
  decide (x.1.getCallStatus "mock_a-call-1" = .failed)
    && (eventsOfCall "mock_a-call-1" x.2).all (fun e => !(recorded w.st).contains e.fileKey)
    && ((eventProcessors {} w.st (eventsOfCall "mock_a-call-1" x.2)).play
      (closed {}) bothEvents).any fun w' : World (dialer {}) => decide w'.Finished

/-- Such a call, at both of its ends. -/
theorem reported_as_processed_unanswered : ∃ p out w₀ d₀ w,
    MockProvider.machine.Run (.initial "mock_a" MockProviderA.defaultBehaviour) unansweredCall
        out p
      ∧ CallRepository.findByProviderCallId "mock_a" "mock_a-call-1" w₀.st.calls = some d₀
      ∧ Reachable (Policy.any (dialer {})) CallsWellFormed w₀
      ∧ Relation.ReflTransGen (Step (closed {}))
        (eventProcessors {} w₀.st (eventsOfCall "mock_a-call-1" out)) w
      ∧ w.Finished ∧ ∃ d ∈ w.st.calls.get d₀.id,
        providerStatusToCallState (p.getCallStatus "mock_a-call-1") = some d.state := by
  obtain ⟨w₀, hw₀, htest⟩ := Reachable.of_play (Policy.any (dialer {}))
    oneAgent_fresh.noCalls.wellFormed mockDial
    (fun w => (CallRepository.findByProviderCallId "mock_a" "mock_a-call-1" w.st.calls).any
        (fun d => isTerminal d.state == false)
      && (MockProvider.machine.play (.initial "mock_a" MockProviderA.defaultBehaviour)
        unansweredCall).any (atBothEnds w))
    (by decide +kernel)
  simp only [Bool.and_eq_true] at htest
  obtain ⟨hcall, hprovider⟩ := htest
  obtain ⟨d₀, hd₀, hlive⟩ := Option.any_eq_true _ _ |>.mp hcall
  obtain ⟨⟨p, out⟩, hout, htest⟩ := Option.any_eq_true _ _ |>.mp hprovider
  simp only [atBothEnds, Bool.and_eq_true, decide_eq_true_eq, List.all_eq_true,
    Bool.not_eq_true', List.contains_eq_mem, decide_eq_false_iff_not] at htest
  obtain ⟨⟨hstatus, hnew⟩, hplay⟩ := htest
  obtain ⟨w, hw, hdone⟩ := Option.any_eq_true _ _ |>.mp hplay
  have hwf : d₀.WellFormed := (lifecycle_reachable hw₀).1 _ d₀ (Collection.findOne_some hd₀).1
  have hrun := steps_of_play hw
  have hfinished : w.Finished := of_decide_eq_true hdone
  have hprovider := Machine.Run.of_play hout
  exact ⟨p, out, w₀, d₀, w, hprovider, hd₀, hw₀, hrun, hfinished,
    reported_as_processed hprovider (.inr hstatus) (by simp [unansweredCall]) hd₀ hwf
      (eq_of_beq hlive) (fun _ => Iff.rfl) hnew hrun hfinished⟩

/-! ## The borrower -/

section

variable {name : String} {behaviour : MockBehaviour} {c : String} {draws : ScriptDraws}

/-- What is heard of a script, whatever it was disturbed by. -/
theorem heard_script {seen : List (String × String)}
    (hnew : ∀ e ∈ (MockProviderBase.buildEventScript behaviour name c draws).events,
      e.fileKey ∉ seen) :
    heard seen (MockProviderBase.buildEventScript behaviour name c draws).events
      = MockProviderBase.applyOutOfOrder behaviour draws
        (MockProviderBase.told behaviour draws) := by
  have hperm := MockProviderBase.applyOutOfOrder_perm behaviour draws
    ((MockProviderBase.planned behaviour name c draws).map Prod.snd)
  have hdup : heard seen (MockProviderBase.buildEventScript behaviour name c draws).events
      = heard seen (MockProviderBase.applyOutOfOrder behaviour draws
        ((MockProviderBase.planned behaviour name c draws).map Prod.snd)) := by
    rw [← MockProviderBase.map_applyOutOfOrder]
    exact MockProviderBase.heard_applyDuplication _ seen
  have hknown : ∀ es : List ProviderEvent,
      (∀ e ∈ es, (eventTypeToCallState e.eventType).isSome = true) →
      targets es = es.map fun e => (eventTypeToCallState e.eventType).getD .failed := by
    intro es hes
    rw [targets, ← List.filterMap_eq_map]
    refine List.filterMap_congr fun e he => ?_
    obtain ⟨t, ht⟩ := Option.isSome_iff_exists.mp (hes e he)
    rw [Function.comp_apply, ht, Option.getD_some]
  rw [hdup, heard_of_nodup ((hperm.map _).nodup_iff.mpr MockProviderBase.nodup_planned)
    fun e he => hnew e (MockProviderBase.mem_events.mpr (hperm.mem_iff.mp he)),
    hknown _ fun e he => MockProviderBase.known_planned (hperm.mem_iff.mp he),
    MockProviderBase.map_applyOutOfOrder,
    ← hknown _ fun e he => MockProviderBase.known_planned he, MockProviderBase.targets_planned]

/-- What the machine of the outcome makes of a script. -/
theorem outcome_script {st : CallState} (hst : rank st < rank .answered) :
    outcome st false (MockProviderBase.applyOutOfOrder behaviour draws
        (MockProviderBase.told behaviour draws))
      = some (decide (MockProviderBase.Answered behaviour draws
        ∧ ¬MockProviderBase.AnswerOvertaken behaviour draws)) := by
  rw [MockProviderBase.told]
  by_cases hanswered : MockProviderBase.Answered behaviour draws
  · rw [if_pos hanswered, MockProviderBase.applyOutOfOrder, if_neg (by decide)]
    by_cases hkept : behaviour.outOfOrderRate ≤ draws.outOfOrder
    · have hnot : ¬MockProviderBase.AnswerOvertaken behaviour draws :=
        fun h => absurd h.1 (not_lt.mpr hkept)
      rw [if_pos hkept, decide_eq_true ⟨hanswered, hnot⟩]
      cases st <;> first | rfl | exact absurd hst (by decide)
    · -- the index of the swap is what decides
      have hovertaken : MockProviderBase.AnswerOvertaken behaviour draws
          ↔ randrange 3 draws.swapIndex = 1 := and_iff_right (not_le.mp hkept)
      have hindex : randrange 3 draws.swapIndex < 3 := Nat.mod_lt _ (by decide)
      rw [if_neg hkept]
      simp only [hanswered, hovertaken, true_and]
      change outcome st false (swapNext (randrange 3 draws.swapIndex) _) = _
      generalize randrange 3 draws.swapIndex = k at hindex ⊢
      obtain rfl | rfl | rfl : k = 0 ∨ k = 1 ∨ k = 2 := by omega
      all_goals cases st <;> first | rfl | exact absurd hst (by decide)
  · -- the call fails, before or after it was said to be ringing
    have hnot : decide (MockProviderBase.Answered behaviour draws
        ∧ ¬MockProviderBase.AnswerOvertaken behaviour draws) = false :=
      decide_eq_false fun h => hanswered h.1
    rw [if_neg hanswered, hnot, MockProviderBase.applyOutOfOrder, if_neg (by decide)]
    split
    · cases st <;> first | rfl | exact absurd hst (by decide)
    · have hindex : randrange ([CallState.ringing, .failed].length - 1) draws.swapIndex = 0 :=
        Nat.mod_one _
      rw [hindex]
      cases st <;> first | rfl | exact absurd hst (by decide)

/--
**What a script makes of the borrower.** The script of a call is delivered, one event at a time
and without failures, to a dialer that knew of none of it: the call was attached, its borrower
RESERVED for it, and nothing had been said of an answer. Whatever was swapped or repeated, the
call is over afterwards and the attempt is counted once. The borrower is CONTACTED exactly when
the call was answered and CONNECTED did not overtake ANSWERED.
-/
theorem contacted_of_script (cfg : Settings) (i n : Nat) {env : Nat → Choice}
    (henv : ∀ n, (env n).fault = .none) {s : State} {d : Call} {b : Borrower}
    (h : OnTheLine name c s d b) (hrank : rank d.state < rank .answered)
    (hanswered : d.answeredAt = none)
    (hnew : ∀ e ∈ (MockProviderBase.buildEventScript behaviour name c draws).events,
      e.fileKey ∉ recorded s) :
    ∃ s', s' = (processAll cfg i env
        (MockProviderBase.buildEventScript behaviour name c draws).events (s, n)).1
      ∧ (∃ d', CallRepository.findByProviderCallId name c s'.calls = some d'
        ∧ isTerminal d'.state = true)
      ∧ ∃ b' ∈ s'.borrowers.get d.borrowerId, b'.attemptCount = b.attemptCount + 1
        ∧ (b'.status = .contacted ↔ MockProviderBase.Answered behaviour draws
          ∧ ¬MockProviderBase.AnswerOvertaken behaviour draws) := by
  have hcomes : Comes name c d.borrowerId b
      (processAll cfg i env (MockProviderBase.buildEventScript behaviour name c draws).events
        (s, n)).1
      (outcome d.state d.answeredAt.isSome (heard (recorded s)
        (MockProviderBase.buildEventScript behaviour name c draws).events)) :=
    processAll_outcome (fun e he => MockProviderBase.about_of_mem he) henv h
  rw [heard_script hnew, hanswered, Option.isSome_none, outcome_script hrank] at hcomes
  obtain ⟨b', hover, hcount, hcontact⟩ := hcomes
  exact ⟨_, rfl, hover.ended, b', hover.borrower, hcount, hcontact.trans decide_eq_true_iff⟩

end

/-- An answered call of a provider that swaps ANSWERED with CONNECTED. -/
def overtakenDraws : ScriptDraws where
  answer := 0
  talkTime := 120
  outOfOrder := 0
  swapIndex := 1
  duplicate := 0
  duplicateIndex := 0
  timestamp _ := 0

/-- The conversation that does not count. -/
theorem contacted_of_script_overtaken : ∃ w d b,
    Reachable (Policy.any (dialer {})) CallsWellFormed w
      ∧ OnTheLine "mock_a" "provider-call" w.st d b
      ∧ MockProviderBase.Answered MockProviderB.defaultBehaviour overtakenDraws
      ∧ ∃ b' ∈ (processAll {} 1 (fun _ => {}) (MockProviderBase.buildEventScript
          MockProviderB.defaultBehaviour "mock_a" "provider-call" overtakenDraws).events
          (w.st, 0)).1.borrowers.get d.borrowerId, b'.status ≠ .contacted := by
  obtain ⟨w, hw, htest⟩ := Reachable.of_play (Policy.any (dialer {}))
    oneAgent_fresh.noCalls.wellFormed oneDial
    (fun w => afterOrders [] []
      (fun s d _ _ => decide (rank d.state < rank .answered) && d.answeredAt.isNone
        && (MockProviderBase.buildEventScript MockProviderB.defaultBehaviour "mock_a"
          "provider-call" overtakenDraws).events.all
            fun e => decide (e.fileKey ∉ recorded s)) w.st)
    (by decide +kernel)
  obtain ⟨d, b, hline, -, htest⟩ := afterOrders_spec hw htest
  simp only [Bool.and_eq_true, decide_eq_true_eq, List.all_eq_true, Option.isNone_iff_eq_none]
    at htest
  obtain ⟨⟨hrank, hanswered⟩, hnew⟩ := htest
  have henv : ∀ n : Nat, ((fun _ => {} : Nat → Choice) n).fault = .none := fun _ => rfl
  obtain ⟨s', rfl, -, b', hb', -, hcontact⟩ :=
    contacted_of_script {} 1 0 henv hline hrank hanswered hnew
  refine ⟨w, d, b, hw, hline, by decide +kernel, b', hb', fun hstatus => ?_⟩
  exact (hcontact.mp hstatus).2 (by decide +kernel)

end SmartDialer
