import SmartDialer.Providers.MockBase

/-!
# What a mock provider can be relied on for

Two things the dialer takes from its providers: an event id stands for one event, and a call that
is reported as over is over. Neither is checked anywhere. Both hold of a mock provider whatever
happens to it, calls in flight when it is shut down included.

Ids come from a counter and from the index of the event in the script of its call; a disturbed
script has its events swapped or repeated, and no event changes its id on the way. A task is what
makes a call go on, and it has let go of its call before the provider says that the call is over.
-/

namespace SmartDialer

open Conc

/-! ## Ids -/

/-- What stands before the first `c` is determined, and so is what stands after it. -/
theorem append_cons_inj {α : Type} {c : α} {l l' r r' : List α} (hl : c ∉ l) (hl' : c ∉ l')
    (h : l ++ c :: r = l' ++ c :: r') : l = l' ∧ r = r' := by
  induction l generalizing l' with
  | nil =>
      cases l' with
      | nil => exact ⟨rfl, (List.cons.inj h).2⟩
      | cons x xs => exact absurd ((List.cons.inj h).1 ▸ List.mem_cons_self) hl'
  | cons x xs ih =>
      cases l' with
      | nil => exact absurd ((List.cons.inj h).1 ▸ List.mem_cons_self) hl
      | cons y ys =>
          obtain ⟨rfl, htail⟩ := List.cons.inj h
          obtain ⟨rfl, hr⟩ := ih (fun hc => hl (List.mem_cons_of_mem x hc))
            (fun hc => hl' (List.mem_cons_of_mem x hc)) htail
          exact ⟨rfl, hr⟩

theorem hyphen_notMem_repr (n : Nat) : '-' ∉ n.repr.toList := by
  intro h
  rw [Nat.toList_repr] at h
  have hdigit : ('-').isDigit = true := Nat.isDigit_of_mem_toDigits (by decide) (by decide) h
  cases hdigit

namespace MockProvider

theorem callId_inj {name : String} {m n : Nat} (h : callId name m = callId name n) : m = n := by
  rw [callId, callId, String.append_right_inj] at h
  exact repr_injective h

/-- An event id names the call and the place in its script. -/
theorem eventId_inj {name : String} {m n i j : Nat}
    (h : callId name m ++ "-" ++ i.repr = callId name n ++ "-" ++ j.repr) : m = n ∧ i = j := by
  simp only [callId, String.append_assoc, String.append_right_inj] at h
  have hlist : m.repr.toList ++ '-' :: i.repr.toList = n.repr.toList ++ '-' :: j.repr.toList := by
    simpa using congrArg String.toList h
  obtain ⟨hm, hi⟩ := append_cons_inj (hyphen_notMem_repr m) (hyphen_notMem_repr n) hlist
  exact ⟨repr_injective (String.toList_inj.mp hm), repr_injective (String.toList_inj.mp hi)⟩

end MockProvider

/-! ## Scripts -/

section

variable {α : Type}

theorem swapNext_perm (i : Nat) (xs : List α) : (swapNext i xs).Perm xs := by
  induction i, xs using swapNext.induct with
  | case1 x y xs => exact .swap x y xs
  | case2 i x xs ih => exact ih.cons x
  | case3 i xs hzero hsucc => rw [swapNext.eq_3 _ _ hzero hsucc]

/-- An item of the list, or a copy of one. -/
theorem mem_insertNext {f : α → α} {i : Nat} {xs : List α} {y : α}
    (h : y ∈ insertNext f i xs) : ∃ x ∈ xs, y = x ∨ y = f x := by
  induction i, xs using insertNext.induct with
  | case1 x xs =>
      rcases List.mem_cons.mp h with rfl | h
      · exact ⟨y, List.mem_cons_self, .inl rfl⟩
      · rcases List.mem_cons.mp h with rfl | h
        · exact ⟨x, List.mem_cons_self, .inr rfl⟩
        · exact ⟨y, List.mem_cons_of_mem x h, .inl rfl⟩
  | case2 i x xs ih =>
      rcases List.mem_cons.mp h with rfl | h
      · exact ⟨y, List.mem_cons_self, .inl rfl⟩
      · obtain ⟨x', hx', hy⟩ := ih h
        exact ⟨x', List.mem_cons_of_mem x hx', hy⟩
  | case3 i => cases i <;> cases h

theorem mem_insertNext_of_mem {f : α → α} {i : Nat} {xs : List α} {x : α} (h : x ∈ xs) :
    x ∈ insertNext f i xs := by
  induction i, xs using insertNext.induct with
  | case1 y xs =>
      rcases List.mem_cons.mp h with rfl | h
      · exact List.mem_cons_self
      · exact List.mem_cons_of_mem _ (List.mem_cons_of_mem _ h)
  | case2 i y xs ih =>
      rcases List.mem_cons.mp h with rfl | h
      · exact List.mem_cons_self
      · exact List.mem_cons_of_mem _ (ih h)
  | case3 i => cases h

end

namespace MockProviderBase

variable {behaviour : MockBehaviour} {name providerCallId : String} {draws : ScriptDraws}
  {e e' : ProviderEvent}

/-- The events of the script before it is disturbed. -/
def planned (behaviour : MockBehaviour) (name providerCallId : String) (draws : ScriptDraws) :
    List (ℚ × ProviderEvent) :=
  (steps behaviour (decide (draws.answer < behaviour.answerRate)) draws.talkTime).mapIdx
    fun index step =>
      (step.1, stepEvent name providerCallId draws.timestamp index step.2.1 step.2.2)

theorem applyOutOfOrder_perm (behaviour : MockBehaviour) (draws : ScriptDraws) {α : Type}
    (xs : List α) : (applyOutOfOrder behaviour draws xs).Perm xs := by
  rw [applyOutOfOrder]
  split
  · rfl
  · split
    · rfl
    · exact swapNext_perm _ xs

/-- A disturbed script has the events it was planned with. -/
theorem mem_events : e ∈ (buildEventScript behaviour name providerCallId draws).events
    ↔ e ∈ (planned behaviour name providerCallId draws).map Prod.snd := by
  have horder := (applyOutOfOrder_perm behaviour draws
    (planned behaviour name providerCallId draws)).map Prod.snd
  rw [← horder.mem_iff]
  change e ∈ (applyDuplication behaviour draws (applyOutOfOrder behaviour draws
    (planned behaviour name providerCallId draws))).map Prod.snd ↔ _
  generalize applyOutOfOrder behaviour draws (planned behaviour name providerCallId draws) = xs
  rw [applyDuplication]
  split
  · rfl
  · split
    · rfl
    · constructor
      · intro h
        obtain ⟨x, hx, rfl⟩ := List.mem_map.mp h
        obtain ⟨x', hx', rfl | rfl⟩ := mem_insertNext hx
        · exact List.mem_map_of_mem hx'
        · exact List.mem_map.mpr ⟨x', hx', rfl⟩
      · intro h
        obtain ⟨x, hx, rfl⟩ := List.mem_map.mp h
        exact List.mem_map_of_mem (mem_insertNext_of_mem hx)

/-- An event of a script is the event of one of its steps, wherever it stands and how often. -/
theorem stepEvent_of_mem
    (h : e ∈ (buildEventScript behaviour name providerCallId draws).events) :
    ∃ index step, (steps behaviour (decide (draws.answer < behaviour.answerRate))
        draws.talkTime)[index]? = some step
      ∧ e = stepEvent name providerCallId draws.timestamp index step.2.1 step.2.2 := by
  obtain ⟨x, hx, rfl⟩ := List.mem_map.mp (mem_events.mp h)
  obtain ⟨index, hlt, rfl⟩ := List.mem_mapIdx.mp hx
  exact ⟨index, _, List.getElem?_eq_getElem hlt, rfl⟩

/-- An event of a script is about its call. -/
theorem about_of_mem (h : e ∈ (buildEventScript behaviour name providerCallId draws).events) :
    e.providerName = name ∧ e.providerCallId = providerCallId := by
  obtain ⟨index, step, -, rfl⟩ := stepEvent_of_mem h
  exact ⟨rfl, rfl⟩

/-- Events of a script with one id are one event. -/
theorem eq_of_eventId (h : e ∈ (buildEventScript behaviour name providerCallId draws).events)
    (h' : e' ∈ (buildEventScript behaviour name providerCallId draws).events)
    (hid : e.providerEventId = e'.providerEventId) : e = e' := by
  obtain ⟨index, step, hstep, rfl⟩ := stepEvent_of_mem h
  obtain ⟨index', step', hstep', rfl⟩ := stepEvent_of_mem h'
  simp only [stepEvent, String.append_right_inj] at hid
  obtain rfl := repr_injective hid
  obtain rfl : step = step' := Option.some.inj (hstep.symm.trans hstep')
  rfl

end MockProviderBase

/-! ## One call -/

/-- The events of a call among what a provider let be seen. -/
def eventsOfCall (providerCallId : String) (out : List MockOutput) : List ProviderEvent :=
  out.filterMap fun
    | .event e => if e.providerCallId = providerCallId then some e else none
    | .answered _ => none

theorem eventsOfCall_append (c : String) (out out' : List MockOutput) :
    eventsOfCall c (out ++ out') = eventsOfCall c out ++ eventsOfCall c out' :=
  List.filterMap_append ..

namespace MockProvider

/-- A task delivers events of its own call. -/
def TasksOwn (p : MockProvider) : Prop :=
  ∀ c task, p.tasks.lookup c = some task → ∀ x ∈ task.scheduled, x.2.providerCallId = c

/-- What an action does to one call. -/
inductive CallStep (p : MockProvider) (a : MockAction) (p' : MockProvider)
    (new : List MockOutput) (c : String) : Prop
  | same (htask : p'.tasks.lookup c = p.tasks.lookup c)
      (hactive : c ∈ p'.activeCalls → c ∈ p.activeCalls)
      (hfinished : p'.finishedCalls.lookup c = p.finishedCalls.lookup c)
      (hnew : eventsOfCall c new = [])
  | accepted (draws : ScriptDraws) (hc : c = callId p.name (p.callCounter + 1))
      (hcount : p'.callCounter = p.callCounter + 1)
      (htask : p'.tasks.lookup c = some
        { scheduled :=
            (MockProviderBase.buildEventScript p.behaviour p.name c draws).scheduled
          finalStatus :=
            (MockProviderBase.buildEventScript p.behaviour p.name c draws).finalStatus })
      (hfinished : p'.finishedCalls.lookup c = p.finishedCalls.lookup c)
      (hnew : eventsOfCall c new = [])
  | emitted (delay : ℚ) (e : ProviderEvent) (rest : List (ℚ × ProviderEvent))
      (finalStatus : ProviderCallStatus)
      (hbefore : p.tasks.lookup c = some ⟨(delay, e) :: rest, finalStatus, false, false⟩)
      (htask : p'.tasks.lookup c = some ⟨rest, finalStatus, true, false⟩)
      (hactive : p'.activeCalls = p.activeCalls)
      (hfinished : p'.finishedCalls.lookup c = p.finishedCalls.lookup c)
      (hnew : eventsOfCall c new = [e])
  | resumed (scheduled : List (ℚ × ProviderEvent)) (finalStatus : ProviderCallStatus)
      (hbefore : p.tasks.lookup c = some ⟨scheduled, finalStatus, true, false⟩)
      (htask : p'.tasks.lookup c = some ⟨scheduled, finalStatus, false, false⟩)
      (hactive : p'.activeCalls = p.activeCalls)
      (hfinished : p'.finishedCalls.lookup c = p.finishedCalls.lookup c)
      (hnew : eventsOfCall c new = [])
  | finished (finalStatus : ProviderCallStatus)
      (hbefore : p.tasks.lookup c = some ⟨[], finalStatus, false, false⟩)
      (htask : p'.tasks.lookup c = none) (hactive : c ∉ p'.activeCalls)
      (hfinished : p'.finishedCalls.lookup c = some finalStatus)
      (hnew : eventsOfCall c new = [])
  | ended (htask : p'.tasks.lookup c = none) (hactive : c ∉ p'.activeCalls)
      (hfinished : p'.finishedCalls.lookup c = p.finishedCalls.lookup c)
      (hnew : eventsOfCall c new = [])
  | hungUp (ha : a = .hangupCall c) (hbefore : c ∈ p.activeCalls)
      (htask : p'.tasks.lookup c
        = (p.tasks.lookup c).map fun task => { task with cancelled := true })
      (hactive : c ∉ p'.activeCalls)
      (hfinished : p'.finishedCalls.lookup c = some .completed)
      (hnew : eventsOfCall c new = [])
  | cancelled (htask : p'.tasks.lookup c
        = (p.tasks.lookup c).map fun task => { task with cancelled := true })
      (hactive : p'.activeCalls = p.activeCalls)
      (hfinished : p'.finishedCalls.lookup c = p.finishedCalls.lookup c)
      (hnew : eventsOfCall c new = [])

variable {p p' : MockProvider} {a : MockAction} {new : List MockOutput} {c : String}

/-- The provider, as far as calls are concerned, is what it was. -/
theorem callStep_of_eq (htasks : p'.tasks = p.tasks) (hactive : p'.activeCalls = p.activeCalls)
    (hfinished : p'.finishedCalls = p.finishedCalls) (hnew : eventsOfCall c new = []) :
    CallStep p a p' new c :=
  .same (by rw [htasks]) (fun h => hactive ▸ h) (by rw [hfinished]) hnew

theorem callStep_originate {request : OriginateRequest} {now hangDraw latencyDraw : ℚ}
    (h : p.step (.originate request now hangDraw latencyDraw) = some (p', new)) :
    CallStep p a p' new c := by
  rw [step, originateCall] at h
  split at h
  · obtain ⟨rfl, rfl⟩ := Prod.mk.inj (Option.some.inj h)
    exact callStep_of_eq rfl rfl rfl rfl
  · obtain ⟨rfl, rfl⟩ := Prod.mk.inj (Option.some.inj h)
    exact callStep_of_eq rfl rfl rfl rfl

theorem callStep_answerOriginate {setups : List Setup} {startedAt now failureDraw : ℚ}
    {draws : ScriptDraws}
    (h : { p with setups := setups }.answerOriginate startedAt now failureDraw draws
      = (p', new)) :
    CallStep p a p' new c := by
  rw [answerOriginate] at h
  split at h
  · obtain ⟨rfl, rfl⟩ := Prod.mk.inj h
    exact callStep_of_eq rfl rfl rfl rfl
  · obtain ⟨rfl, rfl⟩ := Prod.mk.inj h
    by_cases hc : c = callId p.name (p.callCounter + 1)
    · subst hc
      exact .accepted draws rfl rfl (AList.lookup_insert _) rfl rfl
    · exact .same (AList.lookup_insert_ne hc)
        (fun hmem => (Finset.mem_insert.mp hmem).resolve_left hc) rfl rfl

theorem callStep_endTask {k : String} (hnew : eventsOfCall c new = []) :
    CallStep p a (p.endTask k) new c := by
  by_cases hc : c = k
  · subst hc
    exact .ended (AList.lookup_erase c _) (Finset.notMem_erase c _) rfl hnew
  · exact .same (AList.lookup_erase_ne hc) (fun hmem => Finset.mem_of_mem_erase hmem) rfl hnew

theorem callStep_hangupCall {k : String} : CallStep p (.hangupCall k) (p.hangupCall k) [] c := by
  rw [hangupCall]
  split
  · rename_i hk
    by_cases hc : c = k
    · subst hc
      refine .hungUp rfl hk ?_ (Finset.notMem_erase c _) (AList.lookup_insert _) rfl
      dsimp only
      cases htask : p.tasks.lookup c with
      | none => exact htask
      | some task => exact AList.lookup_insert _
    · refine .same ?_ (fun hmem => Finset.mem_of_mem_erase hmem) (AList.lookup_insert_ne hc) rfl
      dsimp only
      split
      · exact AList.lookup_insert_ne hc
      · rfl
  · exact callStep_of_eq rfl rfl rfl rfl

theorem lookup_cancelTasks (p : MockProvider) (c : String) : p.cancelTasks.tasks.lookup c
    = (p.tasks.lookup c).map fun task => { task with cancelled := true } :=
  List.dlookup_map₂ c

/-- **What an action does to a call.** -/
theorem callStep_of_step (hown : p.TasksOwn) (h : p.step a = some (p', new)) (c : String) :
    CallStep p a p' new c := by
  cases a with
  | originate request now hangDraw latencyDraw => exact callStep_originate h
  | timeOut i =>
      rw [step] at h
      split at h
      · obtain ⟨rfl, rfl⟩ := Prod.mk.inj (Option.some.inj h)
        exact callStep_of_eq rfl rfl rfl rfl
      · cases h
  | answer i now failureDraw draws =>
      rw [step] at h
      split at h
      · exact callStep_answerOriginate (Option.some.inj h)
      · cases h
  | abandon i =>
      rw [step] at h
      split at h
      · obtain ⟨rfl, rfl⟩ := Prod.mk.inj (Option.some.inj h)
        exact callStep_of_eq rfl rfl rfl rfl
      · cases h
  | emit k =>
      rw [step] at h
      split at h
      · rename_i delay e rest finalStatus htask
        obtain ⟨rfl, rfl⟩ := Prod.mk.inj (Option.some.inj h)
        have he : e.providerCallId = k := hown k _ htask _ List.mem_cons_self
        by_cases hc : c = k
        · subst hc
          exact .emitted delay e rest finalStatus htask (AList.lookup_insert _) rfl rfl
            (by simp [eventsOfCall, he])
        · exact .same (AList.lookup_insert_ne hc) id rfl
            (by simp [eventsOfCall, he, Ne.symm hc])
      · cases h
  | handled k raised =>
      rw [step] at h
      split at h
      · rename_i scheduled finalStatus htask
        split at h
        · obtain ⟨rfl, rfl⟩ := Prod.mk.inj (Option.some.inj h)
          exact callStep_endTask rfl
        · obtain ⟨rfl, rfl⟩ := Prod.mk.inj (Option.some.inj h)
          by_cases hc : c = k
          · subst hc
            exact .resumed scheduled finalStatus htask (AList.lookup_insert _) rfl rfl rfl
          · exact .same (AList.lookup_insert_ne hc) id rfl rfl
      · cases h
  | finish k =>
      rw [step] at h
      split at h
      · rename_i finalStatus htask
        obtain ⟨rfl, rfl⟩ := Prod.mk.inj (Option.some.inj h)
        by_cases hc : c = k
        · subst hc
          exact .finished finalStatus htask (AList.lookup_erase c _) (Finset.notMem_erase c _)
            (AList.lookup_insert _) rfl
        · exact .same (AList.lookup_erase_ne hc) (fun hmem => Finset.mem_of_mem_erase hmem)
            (AList.lookup_insert_ne hc) rfl
      · cases h
  | unwind k =>
      rw [step] at h
      split at h
      · obtain ⟨rfl, rfl⟩ := Prod.mk.inj (Option.some.inj h)
        exact callStep_endTask rfl
      · cases h
  | hangupCall k =>
      obtain ⟨rfl, rfl⟩ := Prod.mk.inj (Option.some.inj h)
      exact callStep_hangupCall
  | cancelTasks =>
      obtain ⟨rfl, rfl⟩ := Prod.mk.inj (Option.some.inj h)
      exact .cancelled (lookup_cancelTasks p c) rfl rfl rfl
  | clearCalls =>
      obtain ⟨rfl, rfl⟩ := Prod.mk.inj (Option.some.inj h)
      exact .same rfl (fun hmem => absurd hmem (Finset.notMem_empty c)) rfl rfl
  | forceOutage now seconds =>
      obtain ⟨rfl, rfl⟩ := Prod.mk.inj (Option.some.inj h)
      exact callStep_of_eq rfl rfl rfl rfl
  | clearOutage =>
      obtain ⟨rfl, rfl⟩ := Prod.mk.inj (Option.some.inj h)
      exact callStep_of_eq rfl rfl rfl rfl
  | behave behaviour =>
      obtain ⟨rfl, rfl⟩ := Prod.mk.inj (Option.some.inj h)
      exact callStep_of_eq rfl rfl rfl rfl

/-! ## What is known of a call -/

variable {name : String} {as : List MockAction} {emitted : List ProviderEvent}

/-- The call is made of one script, and nothing of it goes on once it is over. -/
structure CallInv (name : String) (as : List MockAction) (p : MockProvider) (c : String)
    (emitted : List ProviderEvent) : Prop where
  /-- What was emitted and what is still to come is the script. -/
  running : ∀ task, p.tasks.lookup c = some task → ∃ behaviour draws,
    emitted ++ task.scheduled.map Prod.snd
        = (MockProviderBase.buildEventScript behaviour name c draws).events
      ∧ task.finalStatus = (MockProviderBase.buildEventScript behaviour name c draws).finalStatus
  source : ∃ behaviour draws,
    emitted <+: (MockProviderBase.buildEventScript behaviour name c draws).events
  active : c ∈ p.activeCalls → (p.tasks.lookup c).isSome = true
  /-- A call that is over was hung up, or all of its events were emitted. -/
  concluded : ∀ status, p.finishedCalls.lookup c = some status → c ∉ p.activeCalls
    ∧ (∀ task, p.tasks.lookup c = some task → task.cancelled = true)
    ∧ (.hangupCall c ∈ as ∧ status = .completed ∨ ∃ behaviour draws,
      emitted = (MockProviderBase.buildEventScript behaviour name c draws).events
        ∧ status = (MockProviderBase.buildEventScript behaviour name c draws).finalStatus)
  /-- A call that anything is known of was issued. -/
  issued : (p.tasks.lookup c).isSome = true ∨ (p.finishedCalls.lookup c).isSome = true
    ∨ emitted ≠ [] → ∃ n < p.callCounter, c = callId name (n + 1)

theorem CallInv.tasksOwn (h : ∀ c, ∃ emitted, CallInv name as p c emitted) : p.TasksOwn := by
  intro c task htask x hx
  obtain ⟨emitted, hinv⟩ := h c
  obtain ⟨behaviour, draws, hscript, -⟩ := hinv.running task htask
  have hmem : x.2 ∈ (MockProviderBase.buildEventScript behaviour name c draws).events := by
    rw [← hscript]
    exact List.mem_append_right _ (List.mem_map_of_mem hx)
  exact (MockProviderBase.about_of_mem hmem).2

/-- Of a call that is still to be issued, nothing is known. -/
theorem CallInv.unissued (h : CallInv name as p (callId name (p.callCounter + 1)) emitted) :
    p.finishedCalls.lookup (callId name (p.callCounter + 1)) = none ∧ emitted = [] := by
  have hnot : ¬∃ n < p.callCounter,
      callId name (p.callCounter + 1) = callId name (n + 1) := by
    rintro ⟨n, hn, hid⟩
    have := callId_inj hid
    omega
  constructor
  · by_contra hsome
    exact hnot (h.issued (.inr (.inl (Option.isSome_iff_ne_none.mpr hsome))))
  · by_contra hemitted
    exact hnot (h.issued (.inr (.inr hemitted)))

/-- A call whose task is taken away, or is as good as away, and which is not said to be over. -/
theorem CallInv.of_silenced (h : CallInv name as p c emitted) (a : MockAction)
    (hcount : p.callCounter ≤ p'.callCounter)
    (htask : ∀ task, p'.tasks.lookup c = some task → ∃ task', p.tasks.lookup c = some task'
      ∧ task.scheduled = task'.scheduled ∧ task.finalStatus = task'.finalStatus
      ∧ (task'.cancelled = true → task.cancelled = true))
    (hactive : c ∈ p'.activeCalls → c ∈ p.activeCalls ∧ (p'.tasks.lookup c).isSome = true)
    (hfinished : p'.finishedCalls.lookup c = p.finishedCalls.lookup c) :
    CallInv name (as ++ [a]) p' c emitted where
  running task ht := by
    obtain ⟨task', ht', hscheduled, hstatus, -⟩ := htask task ht
    obtain ⟨behaviour, draws, hscript, hfinal⟩ := h.running task' ht'
    exact ⟨behaviour, draws, hscheduled ▸ hscript, hstatus.trans hfinal⟩
  source := h.source
  active hc := (hactive hc).2
  concluded status hstatus := by
    obtain ⟨hc, hcancelled, hwhy⟩ := h.concluded status (hfinished ▸ hstatus)
    refine ⟨fun hmem => hc (hactive hmem).1, fun task ht => ?_, ?_⟩
    · obtain ⟨task', ht', -, -, hkept⟩ := htask task ht
      exact hkept (hcancelled task' ht')
    · exact hwhy.imp_left fun hup => ⟨List.mem_append_left _ hup.1, hup.2⟩
  issued hsome := by
    have hbefore : ∃ n < p.callCounter, c = callId name (n + 1) := by
      refine h.issued (hsome.imp ?_ (Or.imp_left fun hf => hfinished ▸ hf))
      intro ht
      obtain ⟨task, ht⟩ := Option.isSome_iff_exists.mp ht
      obtain ⟨task', ht', -⟩ := htask task ht
      exact Option.isSome_of_eq_some ht'
    obtain ⟨n, hn, hc⟩ := hbefore
    exact ⟨n, hn.trans_le hcount, hc⟩

/-- **An action keeps what is known of a call.** -/
theorem CallInv.step (h : CallInv name as p c emitted) (hname : p.name = name)
    (hcount : p.callCounter ≤ p'.callCounter) (hs : CallStep p a p' new c) :
    CallInv name (as ++ [a]) p' c (emitted ++ eventsOfCall c new) := by
  cases hs with
  | same htask hactive hfinished hnew =>
      rw [hnew, List.append_nil]
      refine h.of_silenced a hcount (fun task ht => ⟨task, htask ▸ ht, rfl, rfl, id⟩) ?_ hfinished
      exact fun hmem => ⟨hactive hmem, htask ▸ h.active (hactive hmem)⟩
  | accepted draws hc hcount' htask hfinished hnew =>
      subst hname hc
      obtain ⟨hnone, rfl⟩ := h.unissued
      rw [hnew, List.append_nil]
      exact {
        running := by
          intro task ht
          obtain rfl := Option.some.inj (htask.symm.trans ht)
          exact ⟨p.behaviour, draws, rfl, rfl⟩
        source := h.source
        active := fun _ => Option.isSome_of_eq_some htask
        concluded := by
          intro status hstatus
          rw [hfinished, hnone] at hstatus
          cases hstatus
        issued := fun _ => ⟨_, hcount'.ge, rfl⟩ }
  | emitted delay e rest finalStatus hbefore htask hactive hfinished hnew =>
      obtain ⟨behaviour, draws, hscript, hfinal⟩ := h.running _ hbefore
      rw [hnew]
      have hscript' : (emitted ++ [e]) ++ rest.map Prod.snd
          = (MockProviderBase.buildEventScript behaviour name c draws).events := by
        rw [List.append_assoc]
        exact hscript
      exact {
        running := by
          intro task ht
          obtain rfl := Option.some.inj (htask.symm.trans ht)
          exact ⟨behaviour, draws, hscript', hfinal⟩
        source := ⟨behaviour, draws, rest.map Prod.snd, hscript'⟩
        active := fun _ => Option.isSome_of_eq_some htask
        concluded := by
          intro status hstatus
          have hcancelled := (h.concluded status (hfinished ▸ hstatus)).2.1 _ hbefore
          cases hcancelled
        issued := by
          intro _
          obtain ⟨n, hn, hc⟩ := h.issued (.inl (Option.isSome_of_eq_some hbefore))
          exact ⟨n, hn.trans_le hcount, hc⟩ }
  | resumed scheduled finalStatus hbefore htask hactive hfinished hnew =>
      rw [hnew, List.append_nil]
      refine h.of_silenced a hcount ?_ ?_ hfinished
      · intro task ht
        obtain rfl := Option.some.inj (htask.symm.trans ht)
        exact ⟨_, hbefore, rfl, rfl, id⟩
      · exact fun hmem => ⟨hactive ▸ hmem, Option.isSome_of_eq_some htask⟩
  | finished finalStatus hbefore htask hactive hfinished hnew =>
      obtain ⟨behaviour, draws, hscript, hfinal⟩ := h.running _ hbefore
      rw [hnew, List.append_nil]
      rw [List.map_nil, List.append_nil] at hscript
      exact {
        running := by
          intro task ht
          cases htask.symm.trans ht
        source := ⟨behaviour, draws, hscript ▸ List.prefix_rfl⟩
        active := fun hmem => absurd hmem hactive
        concluded := by
          intro status hstatus
          obtain rfl := Option.some.inj (hfinished.symm.trans hstatus)
          refine ⟨hactive, ?_, .inr ⟨behaviour, draws, hscript, hfinal⟩⟩
          intro task ht
          cases htask.symm.trans ht
        issued := by
          intro _
          obtain ⟨n, hn, hc⟩ := h.issued (.inl (Option.isSome_of_eq_some hbefore))
          exact ⟨n, hn.trans_le hcount, hc⟩ }
  | ended htask hactive hfinished hnew =>
      rw [hnew, List.append_nil]
      refine h.of_silenced a hcount ?_ (fun hmem => absurd hmem hactive) hfinished
      intro task ht
      cases htask.symm.trans ht
  | hungUp ha hbefore htask hactive hfinished hnew =>
      subst ha
      obtain ⟨task₀, htask₀⟩ := Option.isSome_iff_exists.mp (h.active hbefore)
      rw [htask₀, Option.map_some] at htask
      obtain ⟨behaviour, draws, hscript, hfinal⟩ := h.running _ htask₀
      rw [hnew, List.append_nil]
      exact {
        running := by
          intro task ht
          obtain rfl := Option.some.inj (htask.symm.trans ht)
          exact ⟨behaviour, draws, hscript, hfinal⟩
        source := h.source
        active := fun hmem => absurd hmem hactive
        concluded := by
          intro status hstatus
          obtain rfl := Option.some.inj (hfinished.symm.trans hstatus)
          refine ⟨hactive, fun task ht => ?_, .inl ⟨List.mem_append_right _ (by simp), rfl⟩⟩
          obtain rfl := Option.some.inj (htask.symm.trans ht)
          rfl
        issued := by
          intro _
          obtain ⟨n, hn, hc⟩ := h.issued (.inl (Option.isSome_of_eq_some htask₀))
          exact ⟨n, hn.trans_le hcount, hc⟩ }
  | cancelled htask hactive hfinished hnew =>
      rw [hnew, List.append_nil]
      refine h.of_silenced a hcount ?_ ?_ hfinished
      · intro task ht
        rw [htask] at ht
        obtain ⟨task', ht', rfl⟩ := Option.map_eq_some_iff.mp ht
        exact ⟨task', ht', rfl, rfl, fun _ => rfl⟩
      · intro hmem
        rw [hactive] at hmem
        refine ⟨hmem, ?_⟩
        rw [htask, Option.isSome_map]
        exact h.active hmem


/-! ## The books -/

/-- The ids of the calls a provider said it had accepted, in the order in which it said so. -/
def acceptedIds (out : List MockOutput) : List (Option String) :=
  out.filterMap fun
    | .answered (.result r) => if r.accepted then some r.providerCallId else none
    | _ => none

/-- The requests a provider turned down after their setup. -/
def refusals (out : List MockOutput) : List (Option String) :=
  out.filterMap fun
    | .answered (.result r) => if r.accepted then none else some r.errorCode
    | _ => none

/-- The requests a provider timed out on. -/
def timeouts (out : List MockOutput) : List Unit :=
  out.filterMap fun
    | .answered (.providerError .timeout) => some ()
    | _ => none

/-- The requests whose caller gave up. -/
def abandonments (as : List MockAction) : List Nat :=
  as.filterMap fun
    | .abandon i => some i
    | _ => none

/-- The counters say what was said and done. -/
structure Books (name : String) (as : List MockAction) (out : List MockOutput)
    (p : MockProvider) : Prop where
  named : p.name = name
  counted : p.callCounter = p.originateAccepted
  accepted : acceptedIds out
    = (List.range p.originateAccepted).map fun n => some (callId name (n + 1))
  rejected : (refusals out).length = p.originateRejected
  timedOut : (timeouts out).length = p.originateTimedOut
  /-- Every attempt was answered or given up, or is under way. -/
  attempts : p.originateAttempts = p.originateAccepted + p.originateRejected
    + p.originateTimedOut + p.setups.length + (abandonments as).length

variable {out : List MockOutput}

theorem books_initial (name : String) (behaviour : MockBehaviour) :
    Books name [] [] (initial name behaviour) :=
  ⟨rfl, rfl, rfl, rfl, rfl, rfl⟩

@[simp] theorem acceptedIds_append (out out' : List MockOutput) :
    acceptedIds (out ++ out') = acceptedIds out ++ acceptedIds out' := List.filterMap_append ..

@[simp] theorem refusals_append (out out' : List MockOutput) :
    refusals (out ++ out') = refusals out ++ refusals out' := List.filterMap_append ..

@[simp] theorem timeouts_append (out out' : List MockOutput) :
    timeouts (out ++ out') = timeouts out ++ timeouts out' := List.filterMap_append ..

@[simp] theorem abandonments_append (as as' : List MockAction) :
    abandonments (as ++ as') = abandonments as ++ abandonments as' := List.filterMap_append ..

/-- An action that moves no counter. -/
theorem Books.of_eq (h : Books name as out p) (hname : p'.name = p.name)
    (hcounter : p'.callCounter = p.callCounter)
    (hattempts : p'.originateAttempts = p.originateAttempts)
    (haccepted : p'.originateAccepted = p.originateAccepted)
    (hrejected : p'.originateRejected = p.originateRejected)
    (htimedOut : p'.originateTimedOut = p.originateTimedOut) (hsetups : p'.setups = p.setups)
    (ha : abandonments [a] = []) (hids : acceptedIds new = []) (href : refusals new = [])
    (htime : timeouts new = []) : Books name (as ++ [a]) (out ++ new) p' where
  named := hname.trans h.named
  counted := by rw [hcounter, haccepted, h.counted]
  accepted := by rw [acceptedIds_append, hids, List.append_nil, haccepted, h.accepted]
  rejected := by rw [refusals_append, href, List.append_nil, hrejected, h.rejected]
  timedOut := by rw [timeouts_append, htime, List.append_nil, htimedOut, h.timedOut]
  attempts := by
    rw [hattempts, haccepted, hrejected, htimedOut, hsetups, abandonments_append, ha,
      List.append_nil, h.attempts]

theorem Books.originate {request : OriginateRequest} {now hangDraw latencyDraw : ℚ}
    (h : Books name as out p)
    (hs : p.step (.originate request now hangDraw latencyDraw) = some (p', new)) :
    Books name (as ++ [.originate request now hangDraw latencyDraw]) (out ++ new) p' := by
  rw [MockProvider.step, originateCall] at hs
  split at hs
  · obtain ⟨rfl, rfl⟩ := Prod.mk.inj (Option.some.inj hs)
    exact h.of_eq rfl rfl rfl rfl rfl rfl rfl rfl rfl rfl rfl
  · obtain ⟨rfl, rfl⟩ := Prod.mk.inj (Option.some.inj hs)
    rw [List.append_nil]
    refine ⟨h.named, h.counted, h.accepted, h.rejected, h.timedOut, ?_⟩
    have hattempts := h.attempts
    rw [abandonments_append, List.length_append, List.length_append, List.length_singleton]
    dsimp only [abandonments, List.filterMap_cons, List.filterMap_nil, List.length_nil]
      at hattempts ⊢
    omega

/-- The answer to a request that was under way. -/
theorem Books.answer {i : Nat} {setup : Setup} {startedAt now failureDraw : ℚ}
    {draws : ScriptDraws} (h : Books name as out p) (hsetup : p.setups[i]? = some setup)
    (hs : { p with setups := p.setups.eraseIdx i }.answerOriginate startedAt now failureDraw draws
      = (p', new)) :
    Books name (as ++ [.answer i now failureDraw draws]) (out ++ new) p' := by
  have hlen : (p.setups.eraseIdx i).length + 1 = p.setups.length :=
    List.length_eraseIdx_add_one (List.getElem?_eq_some_iff.mp hsetup).1
  have hattempts := h.attempts
  have hrejected := h.rejected
  rw [answerOriginate] at hs
  split at hs
  · obtain ⟨rfl, rfl⟩ := Prod.mk.inj hs
    refine ⟨h.named, h.counted, ?_, ?_, ?_, ?_⟩
    · rw [acceptedIds_append, h.accepted]
      exact List.append_nil _
    · rw [refusals_append, List.length_append, hrejected]
      rfl
    · rw [timeouts_append, List.length_append, h.timedOut]
      rfl
    · rw [abandonments_append, List.length_append]
      dsimp only [abandonments, List.filterMap_cons, List.filterMap_nil, List.length_nil]
        at hattempts ⊢
      omega
  · obtain ⟨rfl, rfl⟩ := Prod.mk.inj hs
    refine ⟨h.named, congrArg (· + 1) h.counted, ?_, ?_, ?_, ?_⟩
    · rw [acceptedIds_append, h.accepted, List.range_succ, List.map_append]
      dsimp only
      rw [h.named, h.counted]
      rfl
    · rw [refusals_append, List.length_append, hrejected]
      rfl
    · rw [timeouts_append, List.length_append, h.timedOut]
      rfl
    · rw [abandonments_append, List.length_append]
      dsimp only [abandonments, List.filterMap_cons, List.filterMap_nil, List.length_nil]
        at hattempts ⊢
      omega

/-- **An action keeps the books.** -/
theorem Books.step (h : Books name as out p) (hs : p.step a = some (p', new)) :
    Books name (as ++ [a]) (out ++ new) p' := by
  have hattempts := h.attempts
  cases a with
  | originate request now hangDraw latencyDraw => exact h.originate hs
  | timeOut i =>
      rw [MockProvider.step] at hs
      split at hs
      · rename_i request hsetup
        have hlen : (p.setups.eraseIdx i).length + 1 = p.setups.length :=
          List.length_eraseIdx_add_one (List.getElem?_eq_some_iff.mp hsetup).1
        obtain ⟨rfl, rfl⟩ := Prod.mk.inj (Option.some.inj hs)
        refine ⟨h.named, h.counted, ?_, ?_, ?_, ?_⟩
        · rw [acceptedIds_append, h.accepted]
          exact List.append_nil _
        · rw [refusals_append, List.length_append, h.rejected]
          rfl
        · rw [timeouts_append, List.length_append, h.timedOut]
          rfl
        · rw [abandonments_append, List.length_append]
          dsimp only [abandonments, List.filterMap_cons, List.filterMap_nil, List.length_nil]
            at hattempts ⊢
          omega
      · cases hs
  | answer i now failureDraw draws =>
      rw [MockProvider.step] at hs
      split at hs
      · rename_i hsetup
        exact h.answer hsetup (Option.some.inj hs)
      · cases hs
  | abandon i =>
      rw [MockProvider.step] at hs
      split at hs
      · rename_i hlt
        have hlen : (p.setups.eraseIdx i).length + 1 = p.setups.length :=
          List.length_eraseIdx_add_one hlt
        obtain ⟨rfl, rfl⟩ := Prod.mk.inj (Option.some.inj hs)
        rw [List.append_nil]
        refine ⟨h.named, h.counted, h.accepted, h.rejected, h.timedOut, ?_⟩
        rw [abandonments_append, List.length_append]
        dsimp only [abandonments, List.filterMap_cons, List.filterMap_nil, List.length_cons,
          List.length_nil] at hattempts ⊢
        omega
      · cases hs
  | emit k =>
      rw [MockProvider.step] at hs
      split at hs
      · obtain ⟨rfl, rfl⟩ := Prod.mk.inj (Option.some.inj hs)
        exact h.of_eq rfl rfl rfl rfl rfl rfl rfl rfl rfl rfl rfl
      · cases hs
  | handled k raised =>
      rw [MockProvider.step] at hs
      split at hs
      · split at hs
        · obtain ⟨rfl, rfl⟩ := Prod.mk.inj (Option.some.inj hs)
          exact h.of_eq rfl rfl rfl rfl rfl rfl rfl rfl rfl rfl rfl
        · obtain ⟨rfl, rfl⟩ := Prod.mk.inj (Option.some.inj hs)
          exact h.of_eq rfl rfl rfl rfl rfl rfl rfl rfl rfl rfl rfl
      · cases hs
  | finish k =>
      rw [MockProvider.step] at hs
      split at hs
      · obtain ⟨rfl, rfl⟩ := Prod.mk.inj (Option.some.inj hs)
        exact h.of_eq rfl rfl rfl rfl rfl rfl rfl rfl rfl rfl rfl
      · cases hs
  | unwind k =>
      rw [MockProvider.step] at hs
      split at hs
      · obtain ⟨rfl, rfl⟩ := Prod.mk.inj (Option.some.inj hs)
        exact h.of_eq rfl rfl rfl rfl rfl rfl rfl rfl rfl rfl rfl
      · cases hs
  | hangupCall k =>
      obtain ⟨rfl, rfl⟩ := Prod.mk.inj (Option.some.inj hs)
      rw [hangupCall]
      split
      · exact h.of_eq rfl rfl rfl rfl rfl rfl rfl rfl rfl rfl rfl
      · exact h.of_eq rfl rfl rfl rfl rfl rfl rfl rfl rfl rfl rfl
  | cancelTasks | clearCalls | forceOutage now seconds | clearOutage | behave behaviour =>
      obtain ⟨rfl, rfl⟩ := Prod.mk.inj (Option.some.inj hs)
      exact h.of_eq rfl rfl rfl rfl rfl rfl rfl rfl rfl rfl rfl

/-! ## Every run -/

/-- What holds of a provider along a run. -/
structure MockInv (name : String) (as : List MockAction) (out : List MockOutput)
    (p : MockProvider) : Prop where
  books : Books name as out p
  call : ∀ c, CallInv name as p c (eventsOfCall c out)

theorem mockInv_initial (name : String) (behaviour : MockBehaviour) :
    MockInv name [] [] (initial name behaviour) where
  books := books_initial name behaviour
  call c := {
    running := nofun
    source := ⟨behaviour, ⟨0, 0, 0, 0, 0, 0, 0⟩, List.nil_prefix⟩
    active := fun h => absurd h (Finset.notMem_empty c)
    concluded := nofun
    issued := by
      rintro (h | h | h)
      · cases h
      · cases h
      · exact absurd rfl h }

/-- **An action keeps the invariant.** -/
theorem MockInv.step (h : MockInv name as out p) (hs : p.step a = some (p', new)) :
    MockInv name (as ++ [a]) (out ++ new) p' where
  books := h.books.step hs
  call c := by
    have hcount : p.callCounter ≤ p'.callCounter := by
      have hlen := congrArg List.length (h.books.step hs).accepted
      rw [acceptedIds_append, List.length_append, h.books.accepted, List.length_map,
        List.length_map, List.length_range, List.length_range] at hlen
      rw [h.books.counted, (h.books.step hs).counted]
      omega
    rw [eventsOfCall_append]
    exact (h.call c).step h.books.named hcount
      (callStep_of_step (CallInv.tasksOwn fun c => ⟨_, h.call c⟩) hs c)

variable {behaviour : MockBehaviour} {as' : List MockAction} {out' : List MockOutput}

theorem mockInv_run (h : machine.Run (initial name behaviour) as out p) :
    MockInv name as out p :=
  h.invariant (mockInv_initial name behaviour) fun _ _ _ _ _ _ hinv hs => hinv.step hs

/-- Nothing more happens to a call that is over. -/
theorem CallInv.over_step {status : ProviderCallStatus} {emitted : List ProviderEvent}
    (h : CallInv name as p c emitted) (hover : p.finishedCalls.lookup c = some status)
    (hs : CallStep p a p' new c) :
    p'.finishedCalls.lookup c = some status ∧ eventsOfCall c new = [] := by
  obtain ⟨hactive, hcancelled, -⟩ := h.concluded status hover
  cases hs with
  | same htask hactive' hfinished hnew => exact ⟨hfinished ▸ hover, hnew⟩
  | accepted draws hc hcount htask hfinished hnew => exact ⟨hfinished ▸ hover, hnew⟩
  | emitted delay e rest finalStatus hbefore htask hactive' hfinished hnew =>
      cases hcancelled _ hbefore
  | resumed scheduled finalStatus hbefore htask hactive' hfinished hnew =>
      exact ⟨hfinished ▸ hover, hnew⟩
  | finished finalStatus hbefore htask hactive' hfinished hnew => cases hcancelled _ hbefore
  | ended htask hactive' hfinished hnew => exact ⟨hfinished ▸ hover, hnew⟩
  | hungUp ha hbefore htask hactive' hfinished hnew => exact absurd hbefore hactive
  | cancelled htask hactive' hfinished hnew => exact ⟨hfinished ▸ hover, hnew⟩

theorem MockInv.over_run {status : ProviderCallStatus} (h : MockInv name as out p)
    (hover : p.finishedCalls.lookup c = some status) (hrun : machine.Run p as' out' p') :
    p'.finishedCalls.lookup c = some status ∧ c ∉ p'.activeCalls ∧ eventsOfCall c out' = [] := by
  have hkept : MockInv name (as ++ as') (out ++ out') p'
      ∧ p'.finishedCalls.lookup c = some status ∧ eventsOfCall c out' = [] := by
    refine hrun.invariant (I := fun as' out' p' => MockInv name (as ++ as') (out ++ out') p'
      ∧ p'.finishedCalls.lookup c = some status ∧ eventsOfCall c out' = []) ?_ ?_
    · rw [List.append_nil, List.append_nil]
      exact ⟨h, hover, rfl⟩
    · rintro as₁ out₁ p₁ a₁ p₂ new ⟨hinv, hover₁, hsilent⟩ hs
      have hcall := callStep_of_step (CallInv.tasksOwn fun c => ⟨_, hinv.call c⟩) hs c
      obtain ⟨hover₂, hnew⟩ := (hinv.call c).over_step hover₁ hcall
      rw [← List.append_assoc, ← List.append_assoc]
      refine ⟨hinv.step hs, hover₂, ?_⟩
      rw [eventsOfCall_append, hsilent, hnew, List.append_nil]
  exact ⟨hkept.2.1, ((hkept.1.call c).concluded status hkept.2.1).1, hkept.2.2⟩

theorem finished_of_status (h : p.getCallStatus c = .completed ∨ p.getCallStatus c = .failed) :
    p.finishedCalls.lookup c = some (p.getCallStatus c) := by
  by_cases hactive : c ∈ p.activeCalls
  · rw [getCallStatus, if_pos hactive] at h
    rcases h with h | h <;> cases h
  · rw [getCallStatus, if_neg hactive] at h ⊢
    cases hlookup : p.finishedCalls.lookup c with
    | none =>
        rw [hlookup] at h
        rcases h with h | h <;> cases h
    | some status => rfl

/-- **What a provider reports of a call that is over is the truth, and it is final.** The call was
hung up, or every event of its script was emitted and the status is the one of the script.
Whatever happens afterwards, the status stays and no event of the call is emitted. -/
theorem status_final {name : String} {behaviour : MockBehaviour} {as : List MockAction}
    {out : List MockOutput} {p : MockProvider}
    (h : machine.Run (initial name behaviour) as out p) {c : String}
    (hover : p.getCallStatus c = .completed ∨ p.getCallStatus c = .failed) :
    (.hangupCall c ∈ as ∧ p.getCallStatus c = .completed ∨ ∃ behaviour draws,
        eventsOfCall c out = (MockProviderBase.buildEventScript behaviour name c draws).events
          ∧ p.getCallStatus c
            = (MockProviderBase.buildEventScript behaviour name c draws).finalStatus)
      ∧ ∀ as' out' p', machine.Run p as' out' p' →
        p'.getCallStatus c = p.getCallStatus c ∧ eventsOfCall c out' = [] := by
  have hinv := mockInv_run h
  have hlookup := finished_of_status hover
  refine ⟨((hinv.call c).concluded _ hlookup).2.2, fun as' out' p' hrun => ?_⟩
  obtain ⟨hlookup', hactive, hsilent⟩ := hinv.over_run hlookup hrun
  refine ⟨?_, hsilent⟩
  rw [getCallStatus, if_neg hactive, hlookup']
  rfl

/-- A call that was accepted and then hung up. -/
theorem status_final_hungUp : ∃ p out,
    machine.Run (initial "mock_a" MockProviderA.defaultBehaviour)
      [.originate ⟨"call-1", "campaign-1", "+15550100", 5⟩ 0 (1 / 2) (1 / 2),
        .answer 0 (1 / 5) (1 / 2) ⟨0, 120, 1, 0, 1, 0, 0⟩, .hangupCall "mock_a-call-1"] out p
      ∧ p.getCallStatus "mock_a-call-1" = .completed
      ∧ ∀ as' out' p', machine.Run p as' out' p' →
        p'.getCallStatus "mock_a-call-1" = p.getCallStatus "mock_a-call-1"
          ∧ eventsOfCall "mock_a-call-1" out' = [] := by
  have hplay : ((machine.play (initial "mock_a" MockProviderA.defaultBehaviour)
      [.originate ⟨"call-1", "campaign-1", "+15550100", 5⟩ 0 (1 / 2) (1 / 2),
        .answer 0 (1 / 5) (1 / 2) ⟨0, 120, 1, 0, 1, 0, 0⟩,
        .hangupCall "mock_a-call-1"]).map fun x => x.1.getCallStatus "mock_a-call-1")
      = some .completed := by
    decide +kernel
  obtain ⟨⟨p, out⟩, hplay, hstatus⟩ := Option.map_eq_some_iff.mp hplay
  have hrun := Machine.Run.of_play hplay
  exact ⟨p, out, hrun, hstatus, (status_final hrun (.inl hstatus)).2⟩

theorem mem_eventsOfCall {e : ProviderEvent} (h : .event e ∈ out) :
    e ∈ eventsOfCall e.providerCallId out :=
  List.mem_filterMap.mpr ⟨_, h, if_pos rfl⟩

/-- An event comes out of the script of a call that was accepted. -/
theorem MockInv.source (h : MockInv name as out p) {e : ProviderEvent} (he : .event e ∈ out) :
    ∃ n < p.originateAccepted, e.providerCallId = callId name (n + 1) := by
  have hmem := mem_eventsOfCall he
  rw [← h.books.counted]
  exact (h.call e.providerCallId).issued (.inr (.inr (List.ne_nil_of_mem hmem)))

/-- Emitted events with one id are one event. -/
theorem MockInv.same (h : MockInv name as out p) {e e' : ProviderEvent} (he : .event e ∈ out)
    (he' : .event e' ∈ out) (hid : e.providerEventId = e'.providerEventId) : e = e' := by
  obtain ⟨m, -, hm⟩ := h.source he
  obtain ⟨n, -, hn⟩ := h.source he'
  obtain ⟨behaviour, draws, hpre⟩ := (h.call e.providerCallId).source
  obtain ⟨behaviour', draws', hpre'⟩ := (h.call e'.providerCallId).source
  have hscript := hpre.subset (mem_eventsOfCall he)
  have hscript' := hpre'.subset (mem_eventsOfCall he')
  have hcall : e.providerCallId = e'.providerCallId := by
    obtain ⟨i, step, -, heq⟩ := MockProviderBase.stepEvent_of_mem hscript
    obtain ⟨j, step', -, heq'⟩ := MockProviderBase.stepEvent_of_mem hscript'
    have hi := congrArg ProviderEvent.providerEventId heq
    have hj := congrArg ProviderEvent.providerEventId heq'
    dsimp only [MockProviderBase.stepEvent] at hi hj
    rw [hi, hj, hm, hn] at hid
    rw [hm, hn, (eventId_inj hid).1]
  exact MockProviderBase.eq_of_eventId hscript
    (hpre.subset (hcall ▸ mem_eventsOfCall he')) hid

/-- **A provider keeps its books.** Its calls are numbered as they are accepted and no id is given
twice; its snapshot counts what it answered, and every attempt was answered or given up, or is
under way. An event belongs to a call that was accepted, and two events with one id are one. -/
theorem books_kept {name : String} {behaviour : MockBehaviour} {as : List MockAction}
    {out : List MockOutput} {p : MockProvider}
    (h : machine.Run (initial name behaviour) as out p) (now : ℚ) :
    acceptedIds out = (List.range (p.healthSnapshot now).originateAccepted).map
        (fun n => some (callId name (n + 1)))
      ∧ (acceptedIds out).Nodup
      ∧ (refusals out).length = (p.healthSnapshot now).originateRejected
      ∧ (timeouts out).length = (p.healthSnapshot now).originateTimedOut
      ∧ (p.healthSnapshot now).originateAttempts = (p.healthSnapshot now).originateAccepted
        + (p.healthSnapshot now).originateRejected + (p.healthSnapshot now).originateTimedOut
        + p.setups.length + (abandonments as).length
      ∧ (∀ e, .event e ∈ out → some e.providerCallId ∈ acceptedIds out)
      ∧ ∀ e e', .event e ∈ out → .event e' ∈ out →
        e.providerEventId = e'.providerEventId → e = e' := by
  have hinv := mockInv_run h
  have hids := hinv.books.accepted
  refine ⟨hids, ?_, hinv.books.rejected, hinv.books.timedOut, hinv.books.attempts, ?_,
    fun e e' he he' => hinv.same he he'⟩
  · rw [hids]
    refine (List.nodup_range).map fun m n hmn => ?_
    have := callId_inj (Option.some.inj hmn)
    omega
  · intro e he
    obtain ⟨n, hn, hcall⟩ := hinv.source he
    rw [hids, hcall]
    exact List.mem_map_of_mem (List.mem_range.mpr hn)

/-- An accepted call, the first of whose events is out, and a request that is under way. -/
theorem books_kept_twoRequests : ∃ p out,
    machine.Run (initial "mock_a" MockProviderA.defaultBehaviour)
      [.originate ⟨"call-1", "campaign-1", "+15550100", 5⟩ 0 (1 / 2) (1 / 2),
        .answer 0 (1 / 5) (1 / 2) ⟨0, 120, 1, 0, 1, 0, 0⟩,
        .originate ⟨"call-2", "campaign-1", "+15550101", 5⟩ 1 (1 / 2) (1 / 2),
        .emit "mock_a-call-1"] out p
      ∧ acceptedIds out = [some "mock_a-call-1"] ∧ (acceptedIds out).Nodup := by
  have hplay : ((machine.play (initial "mock_a" MockProviderA.defaultBehaviour)
      [.originate ⟨"call-1", "campaign-1", "+15550100", 5⟩ 0 (1 / 2) (1 / 2),
        .answer 0 (1 / 5) (1 / 2) ⟨0, 120, 1, 0, 1, 0, 0⟩,
        .originate ⟨"call-2", "campaign-1", "+15550101", 5⟩ 1 (1 / 2) (1 / 2),
        .emit "mock_a-call-1"]).map fun x => acceptedIds x.2) = some [some "mock_a-call-1"] := by
    decide +kernel
  obtain ⟨⟨p, out⟩, hplay, hids⟩ := Option.map_eq_some_iff.mp hplay
  have hrun := Machine.Run.of_play hplay
  exact ⟨p, out, hrun, hids, (books_kept hrun 0).2.1⟩

end MockProvider

end SmartDialer
