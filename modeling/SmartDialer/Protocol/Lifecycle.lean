import SmartDialer.Protocol.Outline
import SmartDialer.Writes

/-!
# The life of a call

`transition_call` compares ranks. `CALL_TRANSITIONS` is a table, consulted by an
event processor against a state it read some time ago, and by nobody else. That the
first refines the second is a fact about runs: of the writers, only event
processors and the orphan sweep aim at states the table does not allow from
everywhere, and they aim at calls that had a provider call id when they were read.
Such a call has been INITIATED, and from there on the ranks are the table.
-/

namespace SmartDialer

open Store Conc

/-- The stored copies agree with the state, and an attached call was INITIATED. -/
structure Call.WellFormed (c : Call) : Prop where
  rank_eq : c.stateRank = rank c.state
  terminal_eq : c.terminal = isTerminal c.state
  /-- `ended_at` is set exactly on terminal calls. -/
  ended_eq : c.endedAt.isSome = c.terminal
  attached : c.providerCallId.isSome = true → 2 ≤ rank c.state
  /-- It is filed under the key of what it is for. -/
  key_eq : c.idempotencyKey
    = buildIdempotencyKey c.campaignId c.agentId c.borrowerId c.attempt

/-- What may become of a call in one step. -/
structure Call.Evolves (c c' : Call) : Prop where
  id : c'.id = c.id
  campaignId : c'.campaignId = c.campaignId
  agentId : c'.agentId = c.agentId
  borrowerId : c'.borrowerId = c.borrowerId
  providerName : c'.providerName = c.providerName
  idempotencyKey : c'.idempotencyKey = c.idempotencyKey
  createdByWorker : c'.createdByWorker = c.createdByWorker
  attempt : c'.attempt = c.attempt
  /-- A change of state is an edge of the table, and goes up in rank. -/
  state : c'.state = c.state
    ∨ c.state.canTransition c'.state = true ∧ rank c.state < rank c'.state
  /-- A provider call id is written once, on a call that was INITIATED. -/
  providerCallId : c'.providerCallId = c.providerCallId
    ∨ c.providerCallId = none ∧ 2 ≤ rank c.state ∧ c'.state = c.state

namespace Call

variable {c c' : Call}

theorem Evolves.refl (c : Call) : c.Evolves c := by
  constructor <;> first | rfl | exact .inl rfl

theorem Evolves.rank_le (h : c.Evolves c') : rank c.state ≤ rank c'.state := by
  rcases h.state with hs | ⟨-, hs⟩
  · rw [hs]
  · omega

/-- A terminal state is final. -/
theorem Evolves.terminal (h : c.Evolves c') (ht : isTerminal c.state = true) :
    c'.state = c.state := by
  rcases h.state with hs | ⟨-, hs⟩
  · exact hs
  · have := rank_le_six c'.state
    have := (isTerminal_iff_rank c.state).mp ht
    omega

/-- A provider call id, once written, stays. -/
theorem Evolves.attached (h : c.Evolves c') (ha : c.providerCallId.isSome = true) :
    c'.providerCallId = c.providerCallId := by
  rcases h.providerCallId with hp | ⟨hp, -⟩
  · exact hp
  · rw [hp] at ha
    simp at ha

end Call

/-- What may become of the calls in one step. -/
structure CallsEvolve (s s' : State) : Prop where
  /-- No call is lost, and every call evolves. -/
  kept : ∀ k c, s.calls.get k = some c → ∃ c', s'.calls.get k = some c' ∧ c.Evolves c'
  /-- A new call is queued, and no provider knows of it. -/
  created : ∀ k c', s.calls.get k = none → s'.calls.get k = some c' →
    c'.state = .queued ∧ c'.providerCallId = none

theorem CallsEvolve.of_calls_eq {s s' : State} (h : s'.calls = s.calls) : CallsEvolve s s' where
  kept k c hc := ⟨c, h ▸ hc, .refl c⟩
  created k c' hnone hc' := by
    rw [h, hnone] at hc'
    cases hc'

/-- The call has reached INITIATED. -/
def Launched (s : State) (callId : String) : Prop :=
  ∃ c, s.calls.get callId = some c ∧ 2 ≤ rank c.state

/-- Every stored call is well formed. -/
def CallsWellFormed (s : State) : Prop := ∀ k c, s.calls.get k = some c → c.WellFormed

/--
What the writers know when they write: a call is moved to a state that is legal from
everywhere below, or it has been INITIATED; and it is attached only when it has.
-/
def Op.Lawful (s : State) : Op → Prop
  | .transitionCall callId targetState _ =>
      targetState = .reserved ∨ targetState = .initiated ∨ targetState = .failed
        ∨ targetState = .cancelled ∨ Launched s callId
  | .attachProviderCallId callId _ => Launched s callId
  | _ => True

theorem Launched.mono {s s' : State} {callId : String} (h : Launched s callId)
    (hs : CallsEvolve s s') : Launched s' callId := by
  obtain ⟨c, hc, hrank⟩ := h
  obtain ⟨c', hc', hev⟩ := hs.kept _ _ hc
  exact ⟨c', hc', hrank.trans hev.rank_le⟩

/-! ## One step -/

/-- The rank decides, a terminal state having the highest there is. -/
theorem Call.WellFormed.advanceable_iff {c : Call} {t : CallState} (hw : c.WellFormed) :
    CallRepository.advanceable t c = true ↔ rank c.state < rank t := by
  rw [CallRepository.advanceable_iff, hw.terminal_eq, hw.rank_eq]
  refine ⟨And.right, fun hrank => ⟨?_, hrank⟩⟩
  exact (isTerminal_eq_false_iff_rank c.state).mpr (hrank.trans_le (rank_le_six t))

/-- The rank guard refines the table. -/
theorem canTransition_of_lawful {c : Call} {t : CallState} (hw : c.WellFormed)
    (hguard : CallRepository.advanceable t c = true)
    (hlaw : t = .reserved ∨ t = .initiated ∨ t = .failed ∨ t = .cancelled ∨ 2 ≤ rank c.state) :
    c.state.canTransition t = true ∧ rank c.state < rank t := by
  obtain ⟨hterm, -⟩ := CallRepository.advanceable_iff.mp hguard
  have hrank := hw.advanceable_iff.mp hguard
  rw [hw.terminal_eq, isTerminal_eq_false_iff_rank] at hterm
  refine ⟨?_, hrank⟩
  rcases hlaw with h | h | h | h | h
  · exact canTransition_setup (.inl h) hrank
  · exact canTransition_setup (.inr h) hrank
  · exact canTransition_failed (.inl h) hterm
  · exact canTransition_failed (.inr h) hterm
  · exact canTransition_of_rank h hrank

theorem advance_wellFormed {c : Call} (hw : c.WellFormed) (now : Time) (t : CallState)
    (reason : Option String) (hguard : CallRepository.advanceable t c = true) :
    ((CallRepository.advance now t reason).apply c).WellFormed where
  rank_eq := rfl
  terminal_eq := rfl
  ended_eq := by
    have hterm : c.terminal = false := (CallRepository.advanceable_iff.mp hguard).1
    have hended : c.endedAt.isSome = false := hw.ended_eq.trans hterm
    simp only [CallRepository.advance]
    cases isTerminal t with
    | true => rfl
    | false => exact hended
  attached h := (hw.attached h).trans (hw.advanceable_iff.mp hguard).le
  key_eq := hw.key_eq

/-- What a lawful write makes of a call. -/
theorem evolves_of_rewritten {o : Op} {ch : Choice} {s : State} {c c' : Call}
    (hlaw : o.Lawful s) (hc : s.calls.get c.id = some c) (hw : c.WellFormed)
    (h : Rewritten (o.callWrite ch) c c') : c.Evolves c' ∧ c'.WellFormed := by
  cases h with
  | same => exact ⟨.refl c, hw⟩
  | written v hv hk hp =>
      cases o, v, hv using Op.callWrite_cases with
      | transitionCall callId t reason =>
          obtain rfl : c.id = callId := hk
          -- the five ways in which a step is lawful
          have hreach : t = .reserved ∨ t = .initiated ∨ t = .failed ∨ t = .cancelled
              ∨ 2 ≤ rank c.state := by
            rcases hlaw with h | h | h | h | ⟨d, hd, hrank⟩
            · exact .inl h
            · exact .inr (.inl h)
            · exact .inr (.inr (.inl h))
            · exact .inr (.inr (.inr (.inl h)))
            · rw [hc] at hd
              obtain rfl := Option.some.inj hd
              exact .inr (.inr (.inr (.inr hrank)))
          have hedge := canTransition_of_lawful hw hp hreach
          refine ⟨?_, advance_wellFormed hw _ _ _ hp⟩
          constructor <;> first | rfl | exact .inl rfl | exact .inr hedge
      | attachProviderCallId callId providerCallId =>
          obtain rfl : c.id = callId := hk
          obtain ⟨d, hd, hrank⟩ := hlaw
          rw [hc] at hd
          obtain rfl := Option.some.inj hd
          have hnone : c.providerCallId = none := by
            simpa [CallRepository.attachable] using hp
          refine ⟨?_, ⟨hw.rank_eq, hw.terminal_eq, hw.ended_eq, fun _ => hrank, hw.key_eq⟩⟩
          constructor <;> first | rfl | exact .inl rfl | exact .inr ⟨hnone, hrank, rfl⟩

/-- What an inserted call looks like. -/
theorem callInsert_some {o : Op} {ch : Choice} {c : Call} (h : o.callInsert ch = some c) :
    c.WellFormed ∧ c.state = .queued ∧ c.providerCallId = none := by
  cases o, c, h using Op.callInsert_cases with
  | insertCall _ _ _ _ _ _ => exact ⟨⟨rfl, rfl, rfl, (fun h => by cases h), rfl⟩, rfl, rfl⟩

/-- A lawful operation lets every call evolve, and leaves well-formed calls behind. -/
theorem exec_evolve {o : Op} (i : Nat) (ch : Choice) {s : State} (hlaw : o.Lawful s)
    (hw : CallsWellFormed s) :
    CallsEvolve s (exec i o ch s).2 ∧ CallsWellFormed (exec i o ch s).2 := by
  refine ⟨⟨?_, ?_⟩, ?_⟩
  · intro k c hc
    obtain ⟨c', hc', hre⟩ := call_exec (i := i) (o := o) (c := ch) hc
    have hk : c.id = k := Collection.key_of_get hc
    exact ⟨c', hc', (evolves_of_rewritten hlaw (hk ▸ hc) (hw k c hc) hre).1⟩
  · intro k c' hnone hc'
    rcases call_of_exec hc' with ⟨hnew, -⟩ | ⟨c, hc, -⟩
    · exact (callInsert_some hnew).2
    · rw [hnone] at hc
      cases hc
  · intro k c' hc'
    rcases call_of_exec hc' with ⟨hnew, -⟩ | ⟨c, hc, hre⟩
    · exact (callInsert_some hnew).1
    · have hk : c.id = k := Collection.key_of_get hc
      exact (evolves_of_rewritten hlaw (hk ▸ hc) (hw k c hc) hre).2

/-- What is known, in every run, of the state and of what is awaited. -/
structure Sound (s : State) (o : Op) : Prop where
  wellFormed : CallsWellFormed s
  lawful : o.Lawful s

/-- A call found after an operation was inserted by it, or evolved from what was there. -/
theorem call_evolved {o : Op} {i : Nat} {ch : Choice} {s : State} {k : String} {c' : Call}
    (hs : Sound s o) (h : (exec i o ch s).2.calls.get k = some c') :
    (o.callInsert ch = some c' ∧ k = c'.id ∧ s.calls.get k = none ∧ KeyFree s c'.idempotencyKey)
      ∨ ∃ c, s.calls.get k = some c ∧ c.Evolves c' := by
  rcases call_of_exec h with hnew | ⟨c, hc, hre⟩
  · exact .inl hnew
  · have hk : c.id = k := Collection.key_of_get hc
    exact .inr ⟨c, hc, (evolves_of_rewritten hs.lawful (hk ▸ hc) (hs.wellFormed k c hc) hre).1⟩

/-! ## Calls under way -/

/-- A call is under way. -/
def Call.Active (d : Call) : Prop := isTerminal d.state = false ∧ d.state ≠ .queued

instance : DecidablePred Call.Active := fun _ => inferInstanceAs (Decidable (_ ∧ _))

/-- The operation puts the queued call `d` on its way. -/
def Op.Activates (s : State) (d : Call) : Op → Prop
  | .transitionCall callId targetState _ =>
      s.calls.get callId = some d ∧ d.state = .queued ∧ isTerminal targetState = false
  | _ => False

instance (s : State) (d : Call) (o : Op) : Decidable (o.Activates s d) := by
  unfold Op.Activates
  cases o <;> infer_instance

/-- Nothing outside a dial puts a call on its way: it would have to be launched already. -/
theorem not_activates_of_outside {o : Op} {s : State} {d : Call}
    (ho : o.Outside fun t => 3 ≤ rank t) (hsound : Sound s o) : ¬o.Activates s d := by
  cases o with
  | transitionCall callId t reason =>
      rintro ⟨hd, hq, hterm⟩
      have hrank : 3 ≤ rank t := ho
      rcases hsound.lawful with rfl | rfl | rfl | rfl | ⟨e, he, hlaunched⟩
      · revert hrank
        decide
      · revert hrank
        decide
      · cases hterm
      · cases hterm
      · obtain rfl : d = e := Option.some.inj (hd.symm.trans he)
        rw [hq] at hlaunched
        revert hlaunched
        decide
  | _ => exact fun h => h

/-- A call under way was under way before, or was put on its way. -/
theorem active_of_exec {o : Op} {i : Nat} {ch : Choice} {s : State} (hsound : Sound s o)
    {k : String} {d' : Call}
    (hd' : (exec i o ch s).2.calls.get k = some d') (hact : d'.Active) :
    ∃ d, s.calls.get k = some d ∧ d.Evolves d'
      ∧ (d.Active ∨ ch.performs o = true ∧ o.Activates s d ∧ d.state = .queued) := by
  rcases call_of_exec hd' with ⟨hnew, -⟩ | ⟨d, hd, hre⟩
  · exact absurd (callInsert_some hnew).2.1 hact.2
  have hkey : d.id = k := Collection.key_of_get hd
  have hev := (evolves_of_rewritten hsound.lawful (hkey ▸ hd) (hsound.wellFormed k d hd) hre).1
  refine ⟨d, hd, hev, ?_⟩
  cases hperf : ch.performs o with
  | false =>
      rw [exec_of_not_performs hperf] at hd'
      obtain rfl : d = d' := Option.some.inj (hd.symm.trans hd')
      exact .inl hact
  | true =>
      by_cases hq : d.state = .queued
      -- it was QUEUED, so the write is the one that puts it on its way
      · refine .inr ⟨rfl, ?_, hq⟩
        cases hre with
        | same => exact absurd hq hact.2
        | written v hv hk _ =>
            cases o, v, hv using Op.callWrite_cases with
            | transitionCall callId t reason =>
                obtain rfl : d.id = callId := hk
                exact ⟨hkey ▸ hd, hq, hact.1⟩
            | attachProviderCallId _ _ =>
                exact absurd hq hact.2
      · refine .inl ⟨?_, hq⟩
        have hle := hev.rank_le
        have hrank := (isTerminal_eq_false_iff_rank d'.state).mp hact.1
        exact (isTerminal_eq_false_iff_rank d.state).mpr (by omega)

/-! ## The logic -/

section

variable {cfg : Settings}

/-- Calls are well formed, and every operation is lawful. -/
def lifecycle (cfg : Settings) : Logic (Policy.any (dialer cfg)) Unit where
  Inv s := CallsWellFormed s.1
  Guar i s s' := CallsEvolve s.1 s'.1
    ∧ ∀ o r, s'.1.log = .answered i o r :: s.1.log → o.Lawful s.1

variable {i : Nat}

theorem launched_stable (callId : String) :
    (lifecycle cfg).Stable i fun s => Launched s.1 callId :=
  Logic.stable_of_step fun _ _ _ _ hg _ h => h.mono hg.1

/-- Whatever calls do when they evolve, `A` stays true. -/
def Persists (A : Assertion Unit) : Prop := ∀ s s', CallsEvolve s.1 s'.1 → A s → A s'

theorem Persists.stable {A : Assertion Unit} (h : Persists A) : (lifecycle cfg).Stable i A :=
  Logic.stable_of_step fun _ _ _ _ hg _ ha => h _ _ hg.1 ha

theorem persists_launched (callId : String) : Persists fun s => Launched s.1 callId :=
  fun _ _ hev h => h.mono hev

theorem persists_true : Persists fun _ => True := fun _ _ _ _ => trivial

/-- The triple of an operation that is known to be lawful. -/
theorem lawful_atomic {o : Op} {A : Assertion Unit} (hlaw : ∀ s, A s → o.Lawful s.1)
    {B : Except Exn (Ans o) → Assertion Unit}
    (hB : ∀ ch s, CallsWellFormed s.1 → A s → CallsEvolve s.1 (exec i o ch s.1).2 →
      B (exec i o ch s.1).1 ((exec i o ch s.1).2, ())) :
    (lifecycle cfg).Atomic i o A B := by
  intro s hinv hs ch _
  obtain ⟨hev, hwf⟩ := exec_evolve i ch (hlaw s hs) hinv
  refine ⟨(), hwf, ⟨hev, ?_⟩, hB ch s hinv hs hev⟩
  intro o' r hlog
  obtain rfl := answered_exec hlog
  exact hlaw s hs

/-- A lawful operation keeps what persists. -/
theorem lawful_keep {o : Op} {A : Assertion Unit} (hA : Persists A)
    (hlaw : ∀ s, A s → o.Lawful s.1) : (lifecycle cfg).Atomic i o A fun _ => A :=
  lawful_atomic hlaw fun _ _ _ hs hev => hA _ _ hev hs

/-- Outside dials, only the calls' own completions need to be looked at. -/
theorem outside_atomic {o : Op} (ho : Op.Outside (fun t => t = .failed ∨ t = .cancelled) o) :
    (lifecycle cfg).Atomic i o (fun _ => True) fun _ _ => True := by
  refine lawful_keep persists_true fun s _ => ?_
  cases o with
  | transitionCall callId t reason => exact .inr (.inr (ho.imp_right .inl))
  | attachProviderCallId _ _ => exact ho.elim
  | _ => trivial

/-! ## Dials -/

/-- From INITIATED on, a dial knows that its call is. -/
def lifecyclePoints : DialPoint → Assertion Unit
  | .initiated callId | .dialing callId | .bound callId | .accepted callId | .refused callId =>
      fun s => Launched s.1 callId
  | _ => fun _ => True

theorem persists_points (p : DialPoint) : Persists (lifecyclePoints p) := by
  cases p <;> first | exact persists_launched _ | exact persists_true

/-- A lawful operation leads to every point that asserts no more. -/
theorem lawful_next {o : Op} {p q : DialPoint} (hlaw : ∀ s, lifecyclePoints p s → o.Lawful s.1)
    (hpq : ∀ s, lifecyclePoints p s → lifecyclePoints q s) :
    (lifecycle cfg).Atomic i o (lifecyclePoints p)
      (Next lifecyclePoints fun _ => lifecyclePoints q) :=
  (lawful_keep (persists_points p) hlaw).mono (fun _ h => h)
    fun _ s h => next_of (fun _ _ => hpq s h) trivial

theorem lifecycle_dial (campaign : Campaign) (pair : ReservationPair) :
    DialOutline (lifecycle cfg) i campaign pair lifecyclePoints where
  stable p := (persists_points p).stable
  now := lawful_next (p := .held) (fun _ _ => trivial) fun _ h => h
  gate := lawful_next (p := .held) (fun _ _ => trivial) fun _ h => h
  abandon _ _ := trivial
  releaseAgent _ := lawful_next (p := .abandoned _) (fun _ _ => trivial) fun _ h => h
  releaseBorrower _ := lawful_next (p := .halfReleased _) (fun _ _ => trivial) fun _ h => h
  insert := Logic.Atomic.mono (lawful_keep persists_true fun _ _ => trivial) (fun _ h => h)
    fun _ _ _ => onInsert_of (fun call _ => onCall_of call (fun _ => trivial) fun _ => trivial)
      (fun _ => trivial) trivial
  existing := by
    refine Logic.Atomic.mono (lawful_keep persists_true fun _ _ => trivial) (fun _ h => h) ?_
    intro _ s _
    refine next_of (fun answer _ => ?_) trivial
    cases answer with
    | none => trivial
    | some call => exact onCall_of call (fun _ => trivial) fun _ => trivial
  reserve _ := lawful_next (p := .created _) (fun _ _ => .inl rfl) fun _ h => h
  initiate callId := by
    refine lawful_atomic ?_ ?_
    · exact fun _ _ => .inr (.inl rfl)
    intro ch s _ _ _
    refine next_of (fun answer heq => ?_) trivial
    cases answer with
    | none => trivial
    | some c' =>
        obtain ⟨c, -, -, rfl, hget⟩ := transitionCall_some heq
        -- from here on the call is launched, which makes every later step lawful
        exact ⟨_, hget, le_rfl⟩
  dialAgent _ := lawful_next (p := .initiated _) (fun _ _ => trivial) fun _ h => h
  bind _ := lawful_next (p := .dialing _) (fun _ _ => trivial) fun _ h => h
  originate callId := Logic.Atomic.mono
    (lawful_keep (persists_launched callId) fun _ _ => trivial) (fun _ h => h)
    fun _ _ h => onOriginate_of (fun _ => h) (fun _ => h) trivial
  attach callId _ := by
    refine Logic.Atomic.mono (lawful_keep (persists_launched callId) fun _ h => h)
      (fun _ h => h) ?_
    intro _ s h
    refine next_of (fun answer _ => ?_) trivial
    cases answer with
    | none => exact h
    | some _ => trivial
  hangup callId _ := Logic.Atomic.mono
    (lawful_keep (persists_launched callId) fun _ _ => trivial) (fun _ h => h)
    fun _ _ h => onHangup_of (fun _ => h) trivial
  fail _ _ := lawful_next (p := .refused _) (fun _ _ => .inr (.inr (.inl rfl))) fun _ _ => trivial
  compensateAgent := lawful_keep persists_true fun _ _ => trivial
  compensateBorrower := lawful_keep persists_true fun _ _ => trivial

theorem lifecycle_allocate (campaign : Campaign) (workerId : String) :
    AllocateOutline (lifecycle cfg) i campaign workerId (fun _ _ => True) (fun _ _ _ => True)
      fun _ _ => lifecyclePoints := by
  refine allocateOutline_of_dial ?_ (fun _ _ => trivial) (lifecycle_dial campaign) workerId
  intro o ho
  refine lawful_keep persists_true fun _ _ => ?_
  cases o with
  | transitionCall _ _ _ => exact ho.elim
  | attachProviderCallId _ _ => exact ho.elim
  | _ => trivial

/-! ## Event processors -/

theorem quiet_atomic {o : Op} (ho : o.Quiet) :
    (lifecycle cfg).Atomic i o (fun _ => True) fun _ _ => True :=
  outside_atomic ho.outside

/-- Where no call is moved, nothing needs to be looked at. -/
theorem still_atomic {o : Op} (ho : Op.Outside (fun _ => False) o) :
    (lifecycle cfg).Atomic i o (fun _ => True) fun _ _ => True := by
  refine outside_atomic ?_
  cases o with
  | transitionCall _ _ _ => exact ho.elim
  | _ => exact ho

/-- Whatever is found under a provider's id was INITIATED, and so an event about it is lawful. -/
theorem lifecycle_event (event : ProviderEvent) :
    EventOutline (lifecycle cfg) i event (fun callId s => Launched s.1 callId)
      (fun _ _ _ => True) fun _ _ _ => True where
  stable := launched_stable
  record := quiet_atomic trivial
  find := by
    refine lawful_atomic ?_ ?_
    · exact fun _ _ => trivial
    intro ch s hwf _ hev call hcall
    obtain ⟨hget, -, hid⟩ := findByProviderCallId_some hcall
    exact Launched.mono ⟨call, hget, (hwf _ _ hget).attached (by rw [hid]; rfl)⟩ hev
  move callId t reason := by
    refine lawful_atomic ?_ fun _ _ _ _ _ _ _ => trivial
    exact fun _ h => .inr (.inr (.inr (.inr h)))
  agent t call s _ := returns_of_anyhow (wp_all_anyhow
    (EventProcessor.applyAgentTransition_outside ..) fun _ => still_atomic) fun _ _ => trivial
  borrower t call s _ _ := wp_all_anyhow (EventProcessor.releaseBorrower_outside ..)
    fun _ => still_atomic
  finish _ _ := quiet_atomic trivial

/-! ## Recovery -/

/-- A stale call that has a provider call id was INITIATED, and stays so. -/
def AttachedLaunched (call : Call) : Assertion Unit :=
  fun s => call.providerCallId.isSome = true → Launched s.1 call.id

theorem persists_attachedLaunched (call : Call) : Persists (AttachedLaunched call) :=
  fun _ _ hev h ha => (h ha).mono hev

theorem lifecycle_reconcileCall (call : Call) {s : State × Unit} (hs : AttachedLaunched call s) :
    (lifecycle cfg).wp i (RecoveryWorker.reconcileCall cfg call) Anyhow s := by
  have hpersist := persists_attachedLaunched call
  refine Logic.wp_bind (Logic.wp_mono (Logic.wp_all_of_yields
    (R := fun o =>
      (lifecycle cfg).Atomic i o (AttachedLaunched call) fun _ => AttachedLaunched call)
    ?_ (RecoveryWorker.reconcileWithProvider_yields call) hpersist.stable (fun _ h => h) hs) ?_)
  · refine RecoveryWorker.reconcileWithProvider_all (fun _ _ => ?_) call
    exact lawful_keep hpersist fun _ _ => trivial
  intro r s₁ h
  cases r with
  | error e => trivial
  | ok targetState =>
      obtain ⟨hs₁, hstate⟩ := h
      have htransition : (lifecycle cfg).Atomic i
          (.transitionCall call.id targetState
            (if targetState = .failed then some "orphaned" else none))
          (AttachedLaunched call) Anyhow := by
        refine lawful_atomic ?_ fun _ _ _ _ _ => trivial
        intro s hs
        rcases hstate targetState rfl with h | ⟨-, hattached⟩
        · exact .inr (.inr (.inl h))
        · exact .inr (.inr (.inr (.inr (hs hattached))))
      refine wp_bind_anyhow (Logic.wp_perform hpersist.stable htransition hs₁) fun answer s₂ => ?_
      cases answer with
      | none => trivial
      | some finished =>
          exact wp_bind_anyhow (wp_all_anyhow (RecoveryWorker.releaseParties_outside ..)
            fun _ => still_atomic) fun _ _ => trivial

theorem lifecycle_sweepOrphanedCalls (now : Time) (s : State × Unit) :
    (lifecycle cfg).wp i (RecoveryWorker.sweepOrphanedCalls cfg now) Anyhow s := by
  have hfind : (lifecycle cfg).Atomic i
      (.findStaleCalls (now - seconds cfg.callStaleTimeoutSeconds) cfg.recoverySweepLimit)
      (fun _ => True)
      fun r s => ∀ calls, r = .ok calls → ∀ call ∈ calls, AttachedLaunched call s := by
    refine lawful_atomic ?_ ?_
    · exact fun _ _ => trivial
    intro ch s hwf _ hev calls hcalls call hmem hattached
    obtain ⟨hget, -⟩ := findStaleCalls_mem hcalls hmem
    exact Launched.mono ⟨call, hget, (hwf _ _ hget).attached hattached⟩ hev
  refine Logic.wp_bind (Logic.wp_mono (Logic.wp_perform Logic.stable_true hfind trivial) ?_)
  intro r s₁ hr
  cases r with
  | error e => trivial
  | ok calls =>
      have hpersist : Persists fun s => ∀ call ∈ calls, AttachedLaunched call s :=
        fun s s' hev h call hmem => persists_attachedLaunched call s s' hev (h call hmem)
      refine wp_anyhow (Logic.wp_count (A := fun s => ∀ call ∈ calls, AttachedLaunched call s)
        (E := fun _ _ => True) ?_ (hr calls rfl))
      intro call hmem s hs
      refine Logic.wp_mono (Logic.wp_frame hpersist.stable (fun _ _ hg => hpersist _ _ hg.1)
        (lifecycle_reconcileCall call (hs call hmem)) hs) ?_
      intro r s' h
      cases r with
      | ok _ => exact h.2
      | error _ => trivial

theorem lifecycle_runSweeps (s : State × Unit) :
    (lifecycle cfg).wp i (RecoveryWorker.runSweeps cfg) Anyhow s := by
  have hnow : Prog.All Op.Quiet (await .utcNow) := Prog.all_perform trivial
  refine wp_bind_anyhow (wp_all_anyhow hnow fun _ => quiet_atomic) fun now _ => ?_
  refine wp_bind_anyhow (wp_guarded (wp_all_anyhow
    (RecoveryWorker.sweepExpiredAgentLeases_outside (.inr rfl) ..) fun _ => outside_atomic))
    fun _ _ => ?_
  refine wp_bind_anyhow (wp_guarded (wp_all_anyhow
    (RecoveryWorker.sweepExpiredBorrowerLeases_outside ..) fun _ => still_atomic)) fun _ _ => ?_
  refine wp_bind_anyhow (wp_guarded (lifecycle_sweepOrphanedCalls now _)) fun _ _ => ?_
  refine wp_bind_anyhow (wp_guarded (wp_all_anyhow
    (RecoveryWorker.sweepHeartbeatTimeouts_outside (.inr rfl) ..) fun _ => outside_atomic))
    fun _ _ => ?_
  exact wp_guarded (wp_all_anyhow
    (RecoveryWorker.sweepStuckWrapUps_outside ..) fun _ => still_atomic)

/-! ## Every run -/

theorem lifecycle_task (t : Task) (i : Nat) (s : State × Unit) :
    (lifecycle cfg).wp i (t.program cfg) Anyhow s := by
  refine wp_task_of (T := fun _ => True) (fun _ => quiet_atomic) ?_ ?_
    (fun _ => lifecycle_runSweeps) t trivial s
  · intro campaign workerId _ approved s
    exact wp_anyhow ((lifecycle_allocate campaign workerId).wp_allocateLoop _ _ _ trivial)
  · exact fun event => (lifecycle_event event).wp_processEvent

theorem lifecycle_verified : (lifecycle cfg).Verified CallsWellFormed where
  init _ hs := ⟨(), hs⟩
  task t _ i s _ := lifecycle_task t i s
  crash i s hinv := by
    refine ⟨(), hinv, .of_calls_eq rfl, ?_⟩
    intro o r hlog
    cases (List.cons.inj hlog).1

/-- No calls yet. -/
def NoCalls (s : State) : Prop := s.calls.docs = []

theorem NoCalls.get {s : State} (h : NoCalls s) (k : String) : s.calls.get k = none := by
  rw [Collection.get, h]
  rfl

theorem NoCalls.wellFormed {s : State} (h : NoCalls s) : CallsWellFormed s := by
  intro k c hc
  rw [h.get] at hc
  cases hc

/-- Nothing has happened yet. -/
structure Fresh (s : State) : Prop where
  noCalls : NoCalls s
  log : s.log = []

/-- In a reachable world, calls are well formed, and what is awaited is lawful. -/
theorem lifecycle_reachable {w : World (dialer cfg)}
    (h : Reachable (Policy.any (dialer cfg)) CallsWellFormed w) :
    CallsWellFormed w.st ∧ ∀ i o, w.Awaits i o → o.Lawful w.st := by
  refine ⟨?_, ?_⟩
  · obtain ⟨_, hinv⟩ := lifecycle_verified.inv h
    exact hinv
  · intro i o hi
    obtain ⟨_, _, -, -, hlaw⟩ := lifecycle_verified.guar h (c := ({} : Choice)) hi trivial
    exact hlaw o _ (exec_log i o {} w.st)

/-- Runs may be taken to be sound, whatever the policy. -/
theorem sound_run {P : Policy (dialer cfg)} {Init : State → Prop}
    (hinit : ∀ s, Init s → CallsWellFormed s) {w : World (dialer cfg)} (h : Reachable P Init w) :
    Reachable (P.also Sound) Init w := by
  refine h.also fun w hw i o hi => ?_
  obtain ⟨hwf, hlaw⟩ := lifecycle_reachable (hw.unrestricted hinit)
  exact ⟨hwf, hlaw i o hi⟩

/-- One step of a run lets every call evolve. -/
theorem calls_step {w w' : World (dialer cfg)}
    (h : Reachable (Policy.any (dialer cfg)) CallsWellFormed w)
    (hs : Step (Policy.any (dialer cfg)) w w') :
    CallsEvolve w.st w'.st := by
  obtain ⟨hwf, hlaw⟩ := lifecycle_reachable h
  cases hs with
  | spawn t => exact .of_calls_eq rfl
  | run i o k ch hi _ => exact (exec_evolve i ch (hlaw i o ⟨k, hi⟩) hwf).1
  | crash i o k _ => exact .of_calls_eq rfl

/-- What a whole run does to the calls. -/
structure Call.Outlives (c c' : Call) : Prop where
  rank_le : rank c.state ≤ rank c'.state
  /-- A terminal state never changes again. -/
  terminal : isTerminal c.state = true → c'.state = c.state
  /-- A provider call id is never overwritten. -/
  attached : c.providerCallId.isSome = true → c'.providerCallId = c.providerCallId

theorem Call.Outlives.step {c c' c'' : Call} (h : c.Outlives c') (hev : c'.Evolves c'') :
    c.Outlives c'' where
  rank_le := h.rank_le.trans hev.rank_le
  terminal ht := by
    have heq := h.terminal ht
    rw [hev.terminal (heq ▸ ht), heq]
  attached ha := by
    have heq := h.attached ha
    rw [hev.attached (heq ▸ ha), heq]

/--
**The life of a call.** In every run, of any tasks in any interleaving, with failures,
cancellations and crashes anywhere: stored calls are well formed; every step takes a call
along an edge of the table, if it changes its state at all, and attaches it at most when
it has been INITIATED; and what is terminal or attached stays so.
-/
theorem call_life_cycle {w : World (dialer cfg)}
    (h : Reachable (Policy.any (dialer cfg)) CallsWellFormed w) :
    CallsWellFormed w.st
      ∧ (∀ w', Step (Policy.any (dialer cfg)) w w' → CallsEvolve w.st w'.st)
      ∧ ∀ w', Relation.ReflTransGen (Step (Policy.any (dialer cfg))) w w' →
        ∀ k c, w.st.calls.get k = some c →
          ∃ c', w'.st.calls.get k = some c' ∧ c.Outlives c' := by
  refine ⟨(lifecycle_reachable h).1, fun w' hs => calls_step h hs, ?_⟩
  intro w' hrun
  have hreach : Reachable (Policy.any (dialer cfg)) CallsWellFormed w' ∧ ∀ k c,
      w.st.calls.get k = some c → ∃ c', w'.st.calls.get k = some c' ∧ c.Outlives c' := by
    induction hrun with
    | refl => exact ⟨h, fun k c hc => ⟨c, hc, le_rfl, fun _ => rfl, fun _ => rfl⟩⟩
    | tail _ hs ih =>
        obtain ⟨hmid, hout⟩ := ih
        refine ⟨.tail hmid hs, ?_⟩
        intro k c hc
        obtain ⟨c', hc', hlife⟩ := hout k c hc
        obtain ⟨c'', hc'', hev⟩ := (calls_step hmid hs).kept k c' hc'
        exact ⟨c'', hc'', hlife.step hev⟩
  exact hreach.2

end

/-! ## A small run -/

/-- An agent that is AVAILABLE. -/
def idleAgent (id : String) : Agent where
  id := id
  campaignId := "campaign"
  state := .available
  stateChangedAt := 0

/-- A borrower that is PENDING. -/
def pendingBorrower (id : String) : Borrower where
  id := id
  campaignId := "campaign"
  phoneNumber := "+15550100"
  nextEligibleAt := 0

/-- Nothing has happened yet to these agents and borrowers. -/
def seed (agents : Collection Agent) (borrowers : Collection Borrower) : State where
  agents := agents
  borrowers := borrowers
  calls := .empty
  events := .empty
  log := []

theorem seed_fresh (agents : Collection Agent) (borrowers : Collection Borrower) :
    Fresh (seed agents borrowers) := ⟨rfl, rfl⟩

theorem nodup_agent : ([idleAgent "agent"].map key).Nodup := List.nodup_singleton _

theorem nodup_borrower : ([pendingBorrower "borrower"].map key).Nodup := List.nodup_singleton _

theorem nodup_borrowers :
    ([pendingBorrower "borrower", pendingBorrower "other"].map key).Nodup := by
  decide

theorem nodup_colleagues : ([idleAgent "agent", idleAgent "colleague"].map key).Nodup := by
  decide

/-- One agent, and two borrowers. -/
def oneAgent : State :=
  seed ⟨[idleAgent "agent"], nodup_agent⟩
    ⟨[pendingBorrower "borrower", pendingBorrower "other"], nodup_borrowers⟩

theorem oneAgent_fresh : Fresh oneAgent := seed_fresh _ _

/-- The provider accepts. -/
def accepted (now : Time) (providerCallId : String) : Choice where
  now := now
  originate := .result ⟨true, 1, some providerCallId, none⟩

/-- The operations of process `i`, an allocation of one call that goes well. -/
def dialSchedule (now : Time) (i : Nat) (callId providerCallId : String) :
    List (Label (dialer {})) :=
  List.replicate 4 (.run i { now := now }) ++ [.run i { now := now, newId := callId }]
    ++ List.replicate 4 (.run i { now := now })
    ++ [.run i (accepted now providerCallId), .run i { now := now }]

/-- A worker is started, to dial once. -/
def dialOnce : Label (dialer {}) := .spawn (.allocate { id := "campaign" } 1 "worker")

/-- One call. -/
def oneDial : List (Label (dialer {})) := dialOnce :: dialSchedule 0 0 "call" "provider-call"

/-- An event about that call. -/
def eventOf (eventType : String) : ProviderEvent where
  providerName := "mock_a"
  providerEventId := eventType
  providerCallId := "provider-call"
  eventType := eventType
  providerTimestamp := 0

/-- One call, which fails, and another. -/
def twoDials : List (Label (dialer {})) :=
  oneDial ++ .spawn (.processEvent (eventOf "FAILED")) :: List.replicate 7 (.run 1 {})
    ++ dialOnce :: dialSchedule 0 2 "second-call" "second-provider-call"

/-- Such a run, in which a call is launched and attached. -/
theorem call_life_cycle_oneDial :
    ∃ w, Reachable (Policy.any (dialer {})) CallsWellFormed w
      ∧ (w.st.calls.get "call").any (fun c => c.state == .initiated && c.providerCallId.isSome)
      ∧ CallsWellFormed w.st := by
  obtain ⟨w, hw, hcall⟩ := Reachable.of_play (Policy.any (dialer {}))
    oneAgent_fresh.noCalls.wellFormed oneDial
    (fun w => (w.st.calls.get "call").any
      (fun c => c.state == .initiated && c.providerCallId.isSome))
    (by decide +kernel)
  exact ⟨w, hw, hcall, (call_life_cycle hw).1⟩

end SmartDialer
