import SmartDialer.Protocol.Lifecycle

/-!
# The concurrency cap of a campaign

The safety controller reads how many calls a campaign has under way and approves what is
left up to `max_concurrent_calls`; the allocator then puts that many calls on their way
without looking again. Two ticks that both read before either dials each get all that is
left. So the cap is proved of the runs in which the ticks of the campaign take turns, from
the read of one to its end. The ghost state is what the tick in progress may still put on
its way.
-/

namespace SmartDialer

open Store Conc

/-! ## Statement -/

/-- The campaign's calls under way, as the safety controller counts them. -/
def activeCalls (campaignId : String) (s : State) : Nat :=
  s.calls.count fun d => d.campaignId == campaignId && activeCallStates.contains d.state

/-- What an answer says of a tick: its counts were read, or it is over. -/
def Op.phase (campaignId : String) : (o : Op) → Except Exn (Ans o) → Option Bool
  | .countCallsByState id, .ok _ => if id = campaignId then some true else none
  | .logEvent _ id, _ => if id = campaignId then some false else none
  | _, .error .cancelledError => some false
  | _, _ => none

/-- Process `i` has read the campaign's counts, and its tick is not over. -/
def ticking (campaignId : String) (i : Nat) (log : List Entry) : Bool :=
  engaged (Op.phase campaignId) i log

/-- The operation reads how many calls the campaign has under way. -/
def Op.readsCounts (campaignId : String) : Op → Bool
  | .countCallsByState id => id == campaignId
  | _ => false

/--
The runs in which a tick of the campaign reads the counts only when no other one is between
its own read and its end. All dialling is done by ticks, those of the campaign have one
`max_concurrent_calls`, and campaign ids are as `new_id` makes them.
-/
def takingTurns (campaignId : String) (m : Nat) (cfg : Settings) : Policy (dialer cfg) where
  task
    | .tick campaign _ _ =>
        ColonFree campaign.id ∧ (campaign.id = campaignId → campaign.maxConcurrentCalls = m)
    | .allocate .. => False
    | _ => True
  run i o _ s := o.readsCounts campaignId = true →
    ∀ e ∈ s.log, e.process ≠ i → ticking campaignId e.process s.log = false

/-- No call of the campaign is under way, and nothing has happened yet. -/
structure AtRest (campaignId : String) (s : State) : Prop where
  wellFormed : CallsWellFormed s
  ids : ∀ k d, s.calls.get k = some d → ColonFree d.campaignId
  none_active : activeCalls campaignId s = 0
  log : s.log = []

/-! ## The counts that are read -/

theorem contains_activeCallStates (t : CallState) :
    activeCallStates.contains t = true ↔ isTerminal t = false ∧ t ≠ .queued := by
  cases t <;> decide

/-- The safety controller counts what is under way. -/
theorem sum_countByState (campaignId : String) (calls : Collection Call) :
    (activeCallStates.map (CallRepository.countByState campaignId calls)).sum
      = calls.count fun d => d.campaignId == campaignId && activeCallStates.contains d.state := by
  simp only [activeCallStates, CallRepository.countByState, Collection.find, Collection.count,
    List.map_cons, List.map_nil, List.sum_cons, List.sum_nil]
  generalize calls.docs = docs
  induction docs with
  | nil => rfl
  | cons d ds ih =>
      simp only [List.filter_cons, List.countP_cons]
      rw [← ih]
      cases d.campaignId == campaignId with
      | false => simp
      | true => cases d.state <;> simp <;> omega

/-! ## The invariant -/

/-- What a process may still put on its way. -/
structure Quota where
  holder : Nat
  left : Nat

/-- The calls under way, and what may be put on its way, keep the cap. -/
structure CapInv (campaignId : String) (m : Nat) (s : State) (quota : Option Quota) : Prop where
  cap : activeCalls campaignId s + (quota.map Quota.left).getD 0 ≤ m
  ids : ∀ k d, s.calls.get k = some d → ColonFree d.campaignId

/-- A tick that reads the counts gets what is left. -/
def quotaAfter (campaignId : String) (m i : Nat) (s : State) (quota : Option Quota) :
    (o : Op) → Except Exn (Ans o) → Option Quota
  | .countCallsByState id, .ok _ =>
      if id = campaignId then some ⟨i, m - activeCalls campaignId s⟩ else quota
  | _, _ => quota

section

variable {campaignId : String} {m i : Nat} {o : Op} {ch : Choice} {s : State}

/-- Only a call that is put on its way raises the count. -/
theorem activeCalls_exec (hsound : Sound s o)
    (hact : ch.performs o = true → ∀ d, o.Activates s d → d.campaignId ≠ campaignId) :
    activeCalls campaignId (exec i o ch s).2 ≤ activeCalls campaignId s := by
  cases hperf : ch.performs o with
  | false => rw [exec_of_not_performs hperf]; exact le_rfl
  | true =>
      rcases exec_calls i o ch s with he | ⟨w, hw, he⟩ | ⟨d, hd, -, -, he⟩
      · rw [activeCalls, he]; exact le_rfl
      · rw [activeCalls, he]
        refine Collection.count_write_le fun d hd hp hactive => ?_
        simp only [Bool.and_eq_true, beq_iff_eq, contains_activeCallStates] at hactive ⊢
        cases o, w, hw using Op.callWrite_cases with
        | transitionCall callId t reason =>
            refine ⟨hactive.1, ?_, ?_⟩
            · have hwf := hsound.wellFormed _ _ hd
              rw [← hwf.terminal_eq]
              exact (CallRepository.advanceable_iff.mp hp).1
            · exact fun hq => hact hperf d ⟨hd, hq, hactive.2.1⟩ hactive.1
        | attachProviderCallId callId providerCallId => exact hactive
      · refine (Collection.count_insert he ?_).le
        rw [(callInsert_some hd).2.1]
        simp [activeCallStates]

/-- A call at most is put on its way. -/
theorem activeCalls_exec_le (campaignId : String) (i : Nat) (callId : String) (t : CallState)
    (reason : Option String) (ch : Choice) (s : State) :
    activeCalls campaignId (exec i (.transitionCall callId t reason) ch s).2
      ≤ activeCalls campaignId s + 1 := by
  rcases exec_calls i (.transitionCall callId t reason) ch s with he | ⟨w, -, he⟩ | ⟨d, hd, -⟩
  · rw [activeCalls, he]; exact Nat.le_succ _
  · rw [activeCalls, he]
    exact Collection.count_write_le_succ _ _ _
  · cases hd

/-- The campaigns of the calls stay what they are. -/
theorem ids_exec (i : Nat) (ch : Choice) (hsound : Sound s o)
    (hins : ∀ d, o.callInsert ch = some d → ColonFree d.campaignId)
    (h : ∀ k d, s.calls.get k = some d → ColonFree d.campaignId) :
    ∀ k d, (exec i o ch s).2.calls.get k = some d → ColonFree d.campaignId := by
  intro k d hd
  rcases call_evolved hsound hd with ⟨hnew, -⟩ | ⟨c, hc, hev⟩
  · exact hins d hnew
  · rw [hev.campaignId]
    exact h k c hc

end

/-! ## The logic -/

section

variable {cfg : Settings} {campaignId : String} {m i : Nat}

/-- The invariant, and that nobody touches the quota of a tick in progress. -/
def cap (campaignId : String) (m : Nat) (cfg : Settings) :
    Logic ((takingTurns campaignId m cfg).also Sound) (Option Quota) where
  Inv s := CapInv campaignId m s.1 s.2
  Guar i s s' := CallsEvolve s.1 s'.1
    ∧ (∀ j, j ≠ i → ticking campaignId j s'.1.log = ticking campaignId j s.1.log)
    ∧ ∀ j q, j ≠ i → ticking campaignId j s.1.log = true → s.2 = some ⟨j, q⟩ → s'.2 = some ⟨j, q⟩

/-- Process `i` may put `n` more calls on their way. -/
def Allowed (campaignId : String) (i n : Nat) : Assertion (Option Quota) := fun s =>
  ticking campaignId i s.1.log = true ∧ ∃ q, s.2 = some ⟨i, q⟩ ∧ n ≤ q

theorem Allowed.le {n n' : Nat} {s : State × Option Quota} (h : Allowed campaignId i n s)
    (hle : n' ≤ n) : Allowed campaignId i n' s := by
  obtain ⟨htick, q, hq, hn⟩ := h
  exact ⟨htick, q, hq, hle.trans hn⟩

theorem allowed_stable (n : Nat) :
    (cap campaignId m cfg).Stable i (Allowed campaignId i n) := by
  refine Logic.stable_of_step ?_
  rintro j s s' hj ⟨-, hticks, hquota⟩ - ⟨htick, q, hq, hn⟩
  exact ⟨(hticks i hj.symm).trans htick, q, hquota i q hj.symm htick hq, hn⟩

/-- Neither the start of a tick nor its end. -/
def Op.Neutral : Op → Prop
  | .countCallsByState _ | .logEvent .. => False
  | _ => True

theorem phase_of_neutral {o : Op} {r : Except Exn (Ans o)} (ho : o.Neutral)
    (hr : r ≠ .error .cancelledError) : o.phase campaignId r = none := by
  cases r with
  | ok a => cases o <;> first | rfl | exact ho.elim
  | error e => cases e <;> first | exact absurd rfl hr | (cases o <;> first | rfl | exact ho.elim)

theorem quotaAfter_of_neutral {o : Op} {s : State} {quota : Option Quota}
    {r : Except Exn (Ans o)} (ho : o.Neutral) : quotaAfter campaignId m i s quota o r = quota := by
  cases o <;> first | rfl | exact ho.elim

/-- An operation that is no end of a tick leaves the tick in progress. -/
theorem allowed_exec {o : Op} {n : Nat} {s : State × Option Quota} {ch : Choice} (ho : o.Neutral)
    (hr : (exec i o ch s.1).1 ≠ .error .cancelledError) (h : Allowed campaignId i n s) :
    Allowed campaignId i n ((exec i o ch s.1).2,
      quotaAfter campaignId m i s.1 s.2 o (exec i o ch s.1).1) := by
  obtain ⟨htick, hquota⟩ := h
  refine ⟨?_, ?_⟩
  · rw [ticking, engaged_exec, phase_of_neutral ho hr]
    exact htick
  · rw [quotaAfter_of_neutral ho]
    exact hquota

/-- **What an operation that puts no call of the campaign on its way does.** -/
theorem cap_step {o : Op} {s : State × Option Quota} {ch : Choice}
    (hc : ((takingTurns campaignId m cfg).also Sound).run i o ch s.1)
    (hact : ch.performs o = true → ∀ d, o.Activates s.1 d → d.campaignId ≠ campaignId)
    (hins : ∀ d, o.callInsert ch = some d → ColonFree d.campaignId)
    (hinv : (cap campaignId m cfg).Inv s) :
    (cap campaignId m cfg).Inv ((exec i o ch s.1).2,
        quotaAfter campaignId m i s.1 s.2 o (exec i o ch s.1).1)
      ∧ (cap campaignId m cfg).Guar i s ((exec i o ch s.1).2,
        quotaAfter campaignId m i s.1 s.2 o (exec i o ch s.1).1) := by
  obtain ⟨hcap, hids⟩ := hinv
  have hle := activeCalls_exec (i := i) hc.2 hact
  have hev := (exec_evolve i ch hc.2.lawful hc.2.wellFormed).1
  have hids' := ids_exec i ch hc.2 hins hids
  have hticks : ∀ j, j ≠ i → ticking campaignId j (exec i o ch s.1).2.log
      = ticking campaignId j s.1.log := fun j hj => engaged_exec_other hj o ch s.1
  by_cases hread : o.readsCounts campaignId = true
      ∧ quotaAfter campaignId m i s.1 s.2 o (exec i o ch s.1).1
        = some ⟨i, m - activeCalls campaignId s.1⟩
  · -- a tick begins; no other one is in progress
    obtain ⟨hread, hquota⟩ := hread
    rw [hquota]
    refine ⟨⟨?_, hids'⟩, hev, hticks, ?_⟩
    · change activeCalls campaignId (exec i o ch s.1).2 + (m - activeCalls campaignId s.1) ≤ m
      omega
    · intro j q hj htick _
      obtain ⟨e, he, rfl⟩ := mem_of_engaged htick
      rw [hc.1 hread e he hj] at htick
      cases htick
  · have hquota : quotaAfter campaignId m i s.1 s.2 o (exec i o ch s.1).1 = s.2 := by
      cases o with
      | countCallsByState id =>
          generalize (exec i (.countCallsByState id) ch s.1).1 = r at hread ⊢
          cases r with
          | ok counts =>
              rcases eq_or_ne id campaignId with rfl | hne
              · exact absurd ⟨beq_self_eq_true _, if_pos rfl⟩ hread
              · exact if_neg hne
          | error e => rfl
      | _ => rfl
    rw [hquota]
    refine ⟨⟨?_, hids'⟩, hev, hticks, fun _ _ _ _ hq => hq⟩
    dsimp only
    omega

/-- The triple of an operation that puts no call of the campaign on its way. -/
theorem cap_atomic {o : Op} {A : Assertion (Option Quota)}
    {B : Except Exn (Ans o) → Assertion (Option Quota)}
    (hact : ∀ s d, Sound s o → o.Activates s d → d.campaignId ≠ campaignId)
    (hins : ∀ ch d, o.callInsert ch = some d → ColonFree d.campaignId)
    (hB : ∀ ch s, A s → Sound s.1 o → CapInv campaignId m s.1 s.2 →
      CallsEvolve s.1 (exec i o ch s.1).2 → B (exec i o ch s.1).1
        ((exec i o ch s.1).2, quotaAfter campaignId m i s.1 s.2 o (exec i o ch s.1).1)) :
    (cap campaignId m cfg).Atomic i o A B := by
  intro s hinv hs ch hc
  obtain ⟨hinv', hguar⟩ := cap_step hc (fun _ d => hact s.1 d hc.2) (hins ch) hinv
  exact ⟨_, hinv', hguar, hB ch s hs hc.2 hinv hguar.1⟩

/-! ## Dials -/

/-- A tick of the campaign may put `n` more calls on their way. -/
def QuotaOf (campaignId : String) (campaign : Campaign) (i n : Nat) : Assertion (Option Quota) :=
  fun s => campaign.id = campaignId → 0 < n → Allowed campaignId i n s

variable {campaign : Campaign}

theorem QuotaOf.le {n n' : Nat} {s : State × Option Quota} (h : QuotaOf campaignId campaign i n s)
    (hle : n' ≤ n) : QuotaOf campaignId campaign i n' s :=
  fun hid hpos => (h hid (hpos.trans_le hle)).le hle

theorem quotaOf_stable (campaign : Campaign) (n : Nat) :
    (cap campaignId m cfg).Stable i (QuotaOf campaignId campaign i n) :=
  fun s s' hr h hid hpos => allowed_stable n s s' hr (h hid hpos)

/-- The call is one of the campaign `id`. -/
def InCampaign (callId id : String) (s : State) : Prop :=
  ∃ c, s.calls.get callId = some c ∧ c.campaignId = id

theorem InCampaign.mono {callId id : String} {s s' : State} (h : InCampaign callId id s)
    (hs : CallsEvolve s s') : InCampaign callId id s' := by
  obtain ⟨c, hc, hid⟩ := h
  obtain ⟨c', hc', hev⟩ := hs.kept _ _ hc
  exact ⟨c', hc', hev.campaignId.trans hid⟩

/-- The call is no longer QUEUED. -/
def Placed (callId : String) (s : State) : Prop :=
  ∃ c, s.calls.get callId = some c ∧ c.state ≠ .queued

theorem Placed.mono {callId : String} {s s' : State} (h : Placed callId s)
    (hs : CallsEvolve s s') : Placed callId s' := by
  obtain ⟨c, hc, hplaced⟩ := h
  obtain ⟨c', hc', hev⟩ := hs.kept _ _ hc
  refine ⟨c', hc', fun hq => hplaced ?_⟩
  have hle := hev.rank_le
  rw [hq, show rank CallState.queued = 0 from rfl] at hle
  exact (rank_eq_zero_iff c.state).mp (Nat.le_zero.mp hle)

/-- A call that may be put on its way, or has been. -/
def ToPlace (campaignId : String) (campaign : Campaign) (i n : Nat) (callId : String) :
    Assertion (Option Quota) := fun s =>
  InCampaign callId campaign.id s.1
    ∧ (Placed callId s.1 ∧ QuotaOf campaignId campaign i n s
      ∨ QuotaOf campaignId campaign i (n + 1) s)

theorem toPlace_stable (n : Nat) (callId : String) :
    (cap campaignId m cfg).Stable i (ToPlace campaignId campaign i n callId) := by
  have hev : ∀ s s', (cap campaignId m cfg).Rely i s s' →
      InCampaign callId campaign.id s.1 → InCampaign callId campaign.id s'.1 :=
    Logic.stable_of_step fun _ _ _ _ hg _ h => h.mono hg.1
  have hplaced : ∀ s s', (cap campaignId m cfg).Rely i s s' → Placed callId s.1 →
      Placed callId s'.1 := Logic.stable_of_step fun _ _ _ _ hg _ h => h.mono hg.1
  rintro s s' hr ⟨hin, hplace⟩
  refine ⟨hev s s' hr hin, ?_⟩
  rcases hplace with ⟨hp, hq⟩ | hq
  · exact .inl ⟨hplaced s s' hr hp, quotaOf_stable campaign n s s' hr hq⟩
  · exact .inr (quotaOf_stable campaign _ s s' hr hq)

/-- What is asserted at each point of a dial, after which `n` more may follow. -/
def capPoints (campaignId : String) (campaign : Campaign) (i n : Nat) :
    DialPoint → Assertion (Option Quota)
  | .held => QuotaOf campaignId campaign i (n + 1)
  | .created callId => ToPlace campaignId campaign i n callId
  | .aborted => fun _ => True
  | _ => QuotaOf campaignId campaign i n

theorem capPoints_stable (n : Nat) (p : DialPoint) :
    (cap campaignId m cfg).Stable i (capPoints campaignId campaign i n p) := by
  cases p with
  | held => exact quotaOf_stable campaign (n + 1)
  | created callId => exact toPlace_stable n callId
  | aborted => exact Logic.stable_true
  | _ => exact quotaOf_stable campaign n

/-- An operation that is no end of a tick leaves the quota. -/
theorem quotaOf_exec {o : Op} {n : Nat} {s : State × Option Quota} {ch : Choice} (ho : o.Neutral)
    (hr : (exec i o ch s.1).1 ≠ .error .cancelledError) (h : QuotaOf campaignId campaign i n s) :
    QuotaOf campaignId campaign i n ((exec i o ch s.1).2,
      quotaAfter campaignId m i s.1 s.2 o (exec i o ch s.1).1) :=
  fun hid hpos => allowed_exec ho hr (h hid hpos)

/-- An operation that is no end of a tick, and puts no call on its way. -/
def Op.Idle : Op → Prop
  | .transitionCall _ t _ => isTerminal t = true
  | .insertCall .. => False
  | o => o.Neutral

/-- Such an operation keeps the quota. -/
theorem idle_atomic {o : Op} (ho : o.Idle) (n : Nat) :
    (cap campaignId m cfg).Atomic i o (QuotaOf campaignId campaign i n)
      fun r s => r ≠ .error .cancelledError → QuotaOf campaignId campaign i n s := by
  refine cap_atomic ?_ ?_ ?_
  · intro s d _ hact
    cases o with
    | transitionCall callId t reason =>
        rw [Op.Idle, hact.2.2] at ho
        cases ho
    | _ => exact hact.elim
  · intro ch d hins
    cases o, d, hins using Op.callInsert_cases with
    | insertCall _ _ _ _ _ _ => exact ho.elim
  · intro ch s hs _ _ _ hr
    refine quotaOf_exec ?_ hr hs
    cases o with
    | transitionCall _ _ _ => trivial
    | insertCall _ _ _ _ _ _ => exact ho.elim
    | _ => exact ho

/-- Putting a call on its way takes one from the quota. -/
theorem place_atomic (callId : String) (n : Nat) {t : CallState}
    (ht : t = .reserved ∨ t = .initiated) (reason : Option String) :
    (cap campaignId m cfg).Atomic i (.transitionCall callId t reason)
      (ToPlace campaignId campaign i n callId)
      fun r s => (∃ answer, r = .ok answer) → ToPlace campaignId campaign i n callId s := by
  rintro s hinv ⟨hin, hplace⟩ ch hc
  have hev := (exec_evolve i ch hc.2.lawful hc.2.wellFormed).1
  have hneutral : (Op.transitionCall callId t reason).Neutral := trivial
  by_cases hact : ch.performs (.transitionCall callId t reason) = true ∧ campaign.id = campaignId
      ∧ ∃ d, (Op.transitionCall callId t reason).Activates s.1 d
  · -- the call is put on its way, and one is taken from the quota
    obtain ⟨hperf, hid, d, hd, hqueued, hterm⟩ := hact
    have hquota : QuotaOf campaignId campaign i (n + 1) s := by
      rcases hplace with ⟨⟨c, hcall, hplaced⟩, -⟩ | hquota
      · obtain rfl := Option.some.inj (hcall.symm.trans hd)
        exact absurd hqueued hplaced
      · exact hquota
    obtain ⟨htick, q, hq, hn⟩ := hquota hid n.succ_pos
    obtain ⟨hcap, hids⟩ := hinv
    have hids' := ids_exec i ch hc.2 (fun _ h => by cases h) hids
    have hle := activeCalls_exec_le campaignId i callId t reason ch s.1
    refine ⟨some ⟨i, q - 1⟩, ⟨?_, hids'⟩, ⟨hev, ?_, ?_⟩, ?_⟩
    · rw [hq] at hcap
      change activeCalls campaignId s.1 + q ≤ m at hcap
      change activeCalls campaignId (exec i _ ch s.1).2 + (q - 1) ≤ m
      omega
    · exact fun j hj => engaged_exec_other hj _ ch s.1
    · intro j q' hj _ hq'
      obtain ⟨rfl, -⟩ := Quota.mk.inj (Option.some.inj (hq.symm.trans hq'))
      exact absurd rfl hj
    · rintro ⟨answer, hr⟩
      refine ⟨hin.mono hev, .inl ⟨?_, fun _ _ => ⟨?_, q - 1, rfl, by omega⟩⟩⟩
      · have hwf := hc.2.wellFormed _ _ hd
        have hguard : CallRepository.advanceable t d = true := by
          rw [hwf.advanceable_iff, hqueued]
          rcases ht with rfl | rfl <;> decide
        refine ⟨_, transitionCall_get hr hd hguard, ?_⟩
        rcases ht with rfl | rfl <;> intro h <;> cases h
      · exact (allowed_exec (m := m) (n := 0) hneutral (by rw [hr]; intro h; cases h)
          ⟨htick, q, hq, Nat.zero_le q⟩).1
  · -- it was on its way already, or is no call of the campaign
    have hother : ch.performs (.transitionCall callId t reason) = true → ∀ d,
        (Op.transitionCall callId t reason).Activates s.1 d → d.campaignId ≠ campaignId := by
      intro hperf d hd hid
      obtain ⟨c, hcall, hcampaign⟩ := hin
      obtain rfl := Option.some.inj (hcall.symm.trans hd.1)
      exact hact ⟨hperf, hcampaign.symm.trans hid, c, hd⟩
    obtain ⟨hinv', hguar⟩ := cap_step hc hother (fun _ h => by cases h) hinv
    refine ⟨_, hinv', hguar, ?_⟩
    rintro ⟨answer, hr⟩
    have hr' : (exec i (.transitionCall callId t reason) ch s.1).1
        ≠ .error .cancelledError := by rw [hr]; intro h; cases h
    refine ⟨hin.mono hev, hplace.imp ?_ (quotaOf_exec hneutral hr')⟩
    exact fun h => ⟨h.1.mono hev, quotaOf_exec hneutral hr' h.2⟩

/-- Nothing outside a dial puts a call on its way. -/
theorem outside_keep {o : Op} (ho : o.Outside fun t => 3 ≤ rank t) :
    (cap campaignId m cfg).Atomic i o (fun _ => True) fun _ _ => True := by
  refine cap_atomic ?_ ?_ fun _ _ _ _ _ _ => trivial
  · exact fun s d hsound h => absurd h (not_activates_of_outside ho hsound)
  · intro ch d hins
    cases o, d, hins using Op.callInsert_cases with
    | insertCall _ _ _ _ _ _ => exact ho.elim

/-- An operation that leads from a point of the dial to one that asserts no more. -/
theorem idle_next {o : Op} (ho : o.Idle) {n k : Nat} (hle : k ≤ n) :
    (cap campaignId m cfg).Atomic i o (QuotaOf campaignId campaign i n)
      (Next (capPoints campaignId campaign i k) fun _ => QuotaOf campaignId campaign i k) := by
  refine Logic.Atomic.mono (idle_atomic ho n) (fun _ h => h) fun r s h => ?_
  refine next_of (fun a heq => ?_) trivial
  rw [heq] at h
  exact (h fun h => by cases h).le hle

theorem cap_dial (hid : ColonFree campaign.id) (n : Nat) (pair : ReservationPair) :
    DialOutline (cap campaignId m cfg) i campaign pair (capPoints campaignId campaign i n) where
  stable := capPoints_stable n
  now := Logic.Atomic.mono (idle_atomic (o := .utcNow) trivial (n + 1)) (fun _ h => h)
    fun r s h => next_of (fun a heq => by rw [heq] at h; exact h fun h => by cases h) trivial
  gate := Logic.Atomic.mono (idle_atomic (o := .shouldAllowRetry _) trivial (n + 1)) (fun _ h => h)
    fun r s h => next_of (fun a heq => by rw [heq] at h; exact h fun h => by cases h) trivial
  abandon _ h := h.le n.le_succ
  releaseAgent _ := idle_next (o := .releaseAgent _ _ _ _ _) trivial le_rfl
  releaseBorrower _ := idle_next (o := .releaseBorrower _ _ _ _ _ _) trivial le_rfl
  insert := by
    refine cap_atomic ?_ ?_ ?_
    · exact fun _ _ _ h => h.elim
    · intro ch d hins
      obtain rfl := Option.some.inj hins
      exact hid
    · intro ch s hs _ _ hev
      refine onInsert_of (fun call heq => onCall_of call (fun _ => ?_) fun _ => ?_) ?_ trivial
      · obtain ⟨hnew, -, -, hget⟩ := insertCall_ok heq
        refine ⟨⟨call, hget, by rw [hnew]; rfl⟩, .inr (quotaOf_exec trivial ?_ hs)⟩
        rw [heq]
        intro h
        cases h
      · refine QuotaOf.le (quotaOf_exec trivial ?_ hs) n.le_succ
        rw [heq]
        intro h
        cases h
      · exact fun hr => quotaOf_exec trivial hr hs
  existing := by
    refine cap_atomic ?_ ?_ ?_
    · exact fun _ _ _ h => h.elim
    · exact fun _ _ h => by cases h
    · intro ch s hs hsound hinv hev
      refine next_of (fun answer heq => ?_) trivial
      have hr : (exec i (.findByIdempotencyKey (buildIdempotencyKey campaign.id pair.agent.id
          pair.borrower.id (pair.borrower.attemptCount + 1))) ch s.1).1
            ≠ .error .cancelledError := by rw [heq]; intro h; cases h
      cases answer with
      | none => trivial
      | some call =>
          refine onCall_of call
            (fun _ => ⟨InCampaign.mono ?_ hev, .inr (quotaOf_exec trivial hr hs)⟩)
            fun _ => QuotaOf.le (quotaOf_exec trivial hr hs) n.le_succ
          -- the key says which campaign the call is of
          obtain ⟨hget, hkey⟩ := findByIdempotencyKey_some heq
          have hfiled := (hsound.wellFormed _ _ hget).key_eq
          rw [hkey] at hfiled
          simp only [buildIdempotencyKey, String.append_assoc] at hfiled
          exact ⟨call, hget, (hid.split (hinv.ids _ _ hget) hfiled).1.symm⟩
  reserve callId := Logic.Atomic.mono (place_atomic callId n (.inl rfl) none) (fun _ h => h)
    fun r s h => next_of (fun a heq => h ⟨a, heq⟩) trivial
  initiate callId := by
    refine Logic.Atomic.mono (place_atomic callId n (.inr rfl) none) (fun _ h => h) ?_
    intro r s h
    refine next_of (fun answer heq => ?_) trivial
    have hquota : QuotaOf campaignId campaign i n s := by
      rcases (h ⟨answer, heq⟩).2 with ⟨-, hq⟩ | hq
      · exact hq
      · exact hq.le n.le_succ
    cases answer with
    | none => exact hquota
    | some _ => exact hquota
  dialAgent _ := idle_next (o := .transitionAgent _ _ _ _) trivial le_rfl
  bind _ := idle_next (o := .bindCall _ _ _) trivial le_rfl
  originate _ := Logic.Atomic.mono (idle_atomic (o := .originateCall _ _ _) trivial n)
    (fun _ h => h) fun _ _ h => onOriginate_of h h trivial
  attach _ _ := by
    refine Logic.Atomic.mono (idle_atomic (o := .attachProviderCallId _ _) trivial n)
      (fun _ h => h) ?_
    intro r s h
    refine next_of (fun answer heq => ?_) trivial
    rw [heq] at h
    cases answer with
    | none => exact h fun h => by cases h
    | some _ => exact h fun h => by cases h
  hangup _ _ := Logic.Atomic.mono (idle_atomic (o := .hangupCall _ _) trivial n) (fun _ h => h)
    fun _ _ h => onHangup_of h trivial
  fail _ _ := idle_next (o := .transitionCall _ .failed _) (rfl : isTerminal .failed = true) le_rfl
  compensateAgent := outside_keep rfl
  compensateBorrower := outside_keep trivial

theorem cap_allocate (hid : ColonFree campaign.id) (workerId : String) :
    AllocateOutline (cap campaignId m cfg) i campaign workerId
      (fun n => QuotaOf campaignId campaign i n)
      (fun n _ => QuotaOf campaignId campaign i (n + 1))
      fun n _ => capPoints campaignId campaign i n where
  skip n _ h := h.le n.le_succ
  reserve n :=
    { stable_idle := quotaOf_stable campaign (n + 1)
      stable_claimed := fun _ => quotaOf_stable campaign (n + 1)
      findAgents := Logic.Atomic.mono (idle_atomic (o := .findClaimableAgents _ _) trivial (n + 1))
        (fun _ h => h) fun _ _ h => unless_of h
      claimAgent := fun _ => Logic.Atomic.mono
        (idle_atomic (o := .tryReserveAgent _ _ _ _) trivial (n + 1)) (fun _ h => h)
        fun _ _ h => onClaim_of (fun _ heq => h (by rw [heq]; intro h; cases h)) h
      findBorrowers := fun _ => Logic.Atomic.mono
        (idle_atomic (o := .findClaimableBorrowers _ _) trivial (n + 1)) (fun _ h => h)
        fun _ _ h => unless_of h
      claimBorrower := fun _ _ => Logic.Atomic.mono
        (idle_atomic (o := .tryReserveBorrower _ _ _ _) trivial (n + 1)) (fun _ h => h)
        fun _ _ h => onClaim_of (fun _ heq => h (by rw [heq]; intro h; cases h)) h
      giveBack := fun _ => Logic.Atomic.mono
        (idle_atomic (o := .releaseAgent _ _ _ _ _) trivial (n + 1)) (fun _ h => h)
        fun _ _ h => unless_of h }
  dial n pair := cap_dial hid n pair
  done _ _ _ h := h

/-! ## Evaluations -/

/-- An operation after the counts were read. -/
theorem wp_idle {α : Type} {o : Op} (ho : o.Idle) {n : Nat} {k : Ans o → Async α}
    {g : α → Assertion (Option Quota)} {s : State × Option Quota}
    (hs : QuotaOf campaignId campaign i n s)
    (hk : ∀ a s', QuotaOf campaignId campaign i n s' →
      (cap campaignId m cfg).wp i (k a) (Returns g) s') :
    (cap campaignId m cfg).wp i ((await o).bind k) (Returns g) s := by
  refine Logic.wp_bind (Logic.wp_mono
    (Logic.wp_perform (quotaOf_stable campaign n) (idle_atomic ho n) hs) ?_)
  intro r s' hr
  cases r with
  | ok a => exact hk a s' (hr fun h => by cases h)
  | error e => trivial

/-- What is read is a quota. -/
theorem countCalls_atomic (hm : campaign.id = campaignId → campaign.maxConcurrentCalls = m) :
    (cap campaignId m cfg).Atomic i (.countCallsByState campaign.id) (fun _ => True)
      (Returns fun counts => QuotaOf campaignId campaign i
        (campaign.maxConcurrentCalls - (activeCallStates.map counts).sum)) := by
  refine cap_atomic ?_ ?_ ?_
  · exact fun _ _ _ h => h.elim
  · exact fun _ _ h => by cases h
  · intro ch s _ _ _ _
    cases heq : (exec i (.countCallsByState campaign.id) ch s.1).1 with
    | error e => trivial
    | ok counts =>
        intro hid _
        refine ⟨?_, ?_⟩
        · rw [ticking, engaged_exec, heq, Op.phase, if_pos hid]
          rfl
        · obtain ⟨hcounts, -⟩ := exec_ok heq
          obtain rfl := Except.ok.inj hcounts
          refine ⟨_, if_pos hid, ?_⟩
          rw [sum_countByState, hm hid, hid]
          exact le_rfl

/-- An approval is not more than a constraint allows. -/
theorem approvedOf_le (requested : Int) (constraints : List SafetyConstraintResult)
    {x : SafetyConstraintResult} (hx : x ∈ constraints) :
    SafetyController.approvedOf requested constraints ≤ max 0 x.limit := by
  refine max_le_max le_rfl ?_
  have hmin : (requested :: constraints.map (·.limit)).min?
      = some ((constraints.map (·.limit)).foldl min requested) := List.min?_cons'
  exact (List.min?_eq_some_iff.mp hmin).2 _
    (List.mem_cons_of_mem _ (List.mem_map_of_mem hx))

theorem approved_le_quota (request : PacingRequest) (pacingDecisionId : Option String)
    (r : Readings) :
    (SafetyController.decisionOf cfg campaign request pacingDecisionId r).approved.toNat
      ≤ campaign.maxConcurrentCalls - r.reading.activeCalls := by
  have hle := approvedOf_le request.requested
    (SafetyController.constraintsOf cfg campaign request r)
    (List.mem_cons_of_mem _ List.mem_cons_self)
  change (SafetyController.approvedOf request.requested
    (SafetyController.constraintsOf cfg campaign request r)).toNat ≤ _
  dsimp only at hle
  omega

/-- An operation before the counts are read. -/
theorem wp_before {α : Type} {o : Op} (ho : o.Quiet) {k : Ans o → Async α}
    {g : α → Assertion (Option Quota)} {s : State × Option Quota}
    (hk : ∀ a s', (cap campaignId m cfg).wp i (k a) (Returns g) s') :
    (cap campaignId m cfg).wp i ((await o).bind k) (Returns g) s := by
  refine Logic.wp_bind (Logic.wp_mono
    (Logic.wp_perform Logic.stable_true (outside_keep ho.outside) trivial) ?_)
  intro r s' _
  cases r with
  | ok a => exact hk a s'
  | error e => trivial

theorem cap_readings (hm : campaign.id = campaignId → campaign.maxConcurrentCalls = m)
    (request : PacingRequest) (s : State × Option Quota) :
    (cap campaignId m cfg).wp i (SafetyController.readings cfg campaign request)
      (Returns fun r => QuotaOf campaignId campaign i
        (campaign.maxConcurrentCalls - r.reading.activeCalls)) s := by
  have hread : (cap campaignId m cfg).wp i (SafetyController.readCapacity cfg campaign)
      (Returns fun reading => QuotaOf campaignId campaign i
        (campaign.maxConcurrentCalls - reading.activeCalls)) s := by
    refine wp_before (o := .utcNow) trivial fun now s₁ => ?_
    refine wp_before (o := .countAgentsByState _) trivial fun agentCounts s₂ => ?_
    refine Logic.wp_bind (Logic.wp_mono
      (Logic.wp_perform Logic.stable_true (countCalls_atomic hm) trivial) ?_)
    intro r s₃ h
    -- the quota is taken when the calls are counted; what follows keeps it
    cases r with
    | error e => trivial
    | ok callCounts =>
        refine wp_idle (o := .countExpiredLeases _) trivial h fun _ s₄ h => ?_
        refine wp_idle (o := .outcomeCountsBetween _ _ _) trivial h fun _ s₅ h => ?_
        exact wp_idle (o := .getHealth _) trivial h fun _ s₆ h => h
  refine Logic.wp_bind (Logic.wp_mono hread ?_)
  intro r s₁ h
  cases r with
  | error e => trivial
  | ok reading =>
      have hage : (cap campaignId m cfg).wp i (SafetyController.snapshotAgeMs request)
          (Returns fun _ => QuotaOf campaignId campaign i
            (campaign.maxConcurrentCalls - reading.activeCalls)) s₁ :=
        wp_idle (o := .utcNow) trivial h fun _ _ h => h
      refine Logic.wp_bind (Logic.wp_mono hage ?_)
      intro r s₂ h
      cases r with
      | error e => trivial
      | ok age => exact wp_idle (o := .recordAvailable _ _) trivial h fun _ _ h => h

/-- **An evaluation approves no more than is left of the cap.** -/
theorem cap_evaluate (hm : campaign.id = campaignId → campaign.maxConcurrentCalls = m)
    (request : PacingRequest) (pacingDecisionId : Option String) (persist : Bool)
    (s : State × Option Quota) :
    (cap campaignId m cfg).wp i
      (SafetyController.evaluate cfg campaign request pacingDecisionId persist)
      (Returns fun decision => QuotaOf campaignId campaign i decision.approved.toNat) s := by
  have hdecide : (cap campaignId m cfg).wp i
      (SafetyController.decideOrReject cfg campaign request pacingDecisionId)
      (Returns fun decision => QuotaOf campaignId campaign i decision.approved.toNat) s := by
    refine Logic.wp_tryCatch (Logic.wp_bind (Logic.wp_mono (cap_readings hm request s) ?_))
    intro r s₁ h
    cases r with
    | ok readings => exact QuotaOf.le h (approved_le_quota request pacingDecisionId readings)
    | error e =>
        -- nothing is approved, and so nothing is asked for
        dsimp only
        split
        · exact fun _ hpos => absurd hpos (lt_irrefl 0)
        · trivial
  refine Logic.wp_bind (Logic.wp_mono hdecide ?_)
  intro r s₁ h
  cases r with
  | error e => trivial
  | ok decision =>
      have hpersist : (cap campaignId m cfg).wp i (SafetyController.persistDecision decision)
          (Returns fun _ => QuotaOf campaignId campaign i decision.approved.toNat) s₁ := by
        refine Logic.wp_tryCatch (Logic.wp_mono (Logic.wp_perform (quotaOf_stable campaign _)
          (idle_atomic (o := .recordSafetyDecision _) trivial _) h) ?_)
        intro r s₂ h
        cases r with
        | ok _ => exact h fun h => by cases h
        | error e =>
            dsimp only
            split
            · rename_i he
              exact h (by rintro ⟨⟩; cases he)
            · trivial
      dsimp only
      split
      · refine Logic.wp_bind (Logic.wp_mono hpersist ?_)
        intro r s₂ h
        cases r with
        | ok _ => exact h
        | error e => trivial
      · exact h

/-! ## Every run -/

theorem cap_verified : (cap campaignId m cfg).Verified (AtRest campaignId) where
  init s hs := ⟨none, by
    refine ⟨?_, hs.ids⟩
    change activeCalls campaignId s + 0 ≤ m
    rw [hs.none_active]
    exact Nat.zero_le m⟩
  task t ht i s _ := by
    have hquiet : ∀ o, Op.Quiet o →
        (cap campaignId m cfg).Atomic i o (fun _ => True) fun _ _ => True :=
      fun _ h => outside_keep h.outside
    have houtside : ∀ o, Op.Outside (fun t => 3 ≤ rank t) o →
        (cap campaignId m cfg).Atomic i o (fun _ => True) fun _ _ => True :=
      fun _ h => outside_keep h
    cases t with
    | tick campaign request workerId =>
        -- only the worker's own tick starts calls
        obtain ⟨hid, hm⟩ := ht
        refine wp_tick_of (F := fun approved => QuotaOf campaignId campaign i approved.toNat)
          hquiet campaign request workerId (cap_evaluate hm request) ?_ s
        exact fun approved s h =>
          wp_anyhow ((cap_allocate hid workerId).wp_allocateLoop _ _ _ h)
    | allocate campaign approved workerId => exact ht.elim
    | processEvent event =>
        exact wp_bind_anyhow (wp_all_anyhow
          (EventProcessor.processEvent_outside (fun _ h => h) cfg event) houtside)
          fun _ _ => trivial
    | runSweeps =>
        exact wp_bind_anyhow (wp_all_anyhow
          (RecoveryWorker.runSweeps_outside (fun _ h => h) cfg) houtside) fun _ _ => trivial
    | releaseFinishedWrapUps id =>
        exact wp_all_anyhow (DialerWorker.releaseFinishedWrapUps_quiet ..) hquiet
    | agentAction agentId action =>
        exact wp_all_anyhow (RoutesAgents.agentAction_quiet ..) hquiet
  crash i s hinv := by
    exact ⟨s.2, ⟨hinv.cap, hinv.ids⟩, .of_calls_eq rfl, fun j hj => engaged_crash_other hj s.1,
      fun _ _ _ _ h => h⟩

/--
**The cap holds where ticks take turns.** In every run in which the counts are read only
when no other tick of the campaign is between its own read and its end, from a state with
no call of the campaign under way: there are at most `m` of them at any time.
-/
theorem activeCalls_le_cap {w : World (dialer cfg)}
    (h : Reachable (takingTurns campaignId m cfg) (AtRest campaignId) w) :
    activeCalls campaignId w.st ≤ m := by
  obtain ⟨quota, hinv⟩ := cap_verified.inv (sound_run (fun _ hs => hs.wellFormed) h)
  exact (Nat.le_add_right _ _).trans hinv.cap

end

/-! ## Two ticks -/

/-- Two agents, and two borrowers. -/
def twoAgents : State :=
  seed ⟨[idleAgent "agent", idleAgent "colleague"], nodup_colleagues⟩
    ⟨[pendingBorrower "borrower", pendingBorrower "other"], nodup_borrowers⟩

theorem twoAgents_atRest (campaignId : String) : AtRest campaignId twoAgents where
  wellFormed := (seed_fresh _ _).noCalls.wellFormed
  ids k d h := by
    have hnone : twoAgents.calls.get k = none := (seed_fresh _ _).noCalls.get k
    cases hnone.symm.trans h
  none_active := rfl
  log := rfl

/-- One iteration of the dialer loop on a campaign that is to have one call at a time. -/
def tickOnce : Label (dialer {}) :=
  .spawn (.tick { id := "campaign", maxConcurrentCalls := 1 } ⟨1, .progressive, 0⟩ "worker")

/-- The operations of process `i` up to the end of the safety evaluation. -/
def evaluation (i : Nat) : List (Label (dialer {})) := List.replicate 10 (.run i {})

/-- The runs of ticks of the campaign, in which nothing fails. -/
def onlyTicks (campaignId : String) (m : Nat) (cfg : Settings) : Policy (dialer cfg) where
  task
    | .tick campaign _ _ => campaign.id = campaignId ∧ campaign.maxConcurrentCalls = m
    | _ => False
  run _ _ ch _ := ch.fault = .none

instance (campaignId : String) (m : Nat) (cfg : Settings) :
    (onlyTicks campaignId m cfg).Checkable where
  task t := by
    cases t with
    | tick _ _ _ => exact inferInstanceAs (Decidable (_ ∧ _))
    | _ => exact .isFalse id
  run _ _ ch _ := inferInstanceAs (Decidable (ch.fault = .none))

/-- Two ticks read the counts before either dials, and each dials the one call allowed. -/
theorem activeCalls_above_cap :
    ¬∀ w, Reachable (onlyTicks "campaign" 1 {}) (AtRest "campaign") w →
      activeCalls "campaign" w.st ≤ 1 := by
  intro hall
  obtain ⟨w, hw, htwo⟩ := Reachable.of_play (onlyTicks "campaign" 1 {})
    (twoAgents_atRest "campaign")
    ([tickOnce, tickOnce] ++ evaluation 0 ++ evaluation 1
      ++ dialSchedule 0 0 "call" "provider-call"
      ++ dialSchedule 0 1 "second-call" "second-provider-call")
    (fun w => activeCalls "campaign" w.st == 2) (by decide +kernel)
  have hle := hall w hw
  rw [beq_iff_eq.mp htwo] at hle
  exact absurd hle (by decide)

instance (campaignId : String) (m : Nat) (cfg : Settings) :
    (takingTurns campaignId m cfg).Checkable where
  task t := by
    cases t with
    | tick _ _ _ => exact inferInstanceAs (Decidable (_ ∧ (_ → _)))
    | allocate _ _ _ => exact .isFalse id
    | _ => exact .isTrue trivial
  run _ _ _ s := inferInstanceAs (Decidable (_ → ∀ e ∈ s.log, _))

/-- The two ticks, one after the other: the second is approved nothing. -/
theorem activeCalls_le_cap_oneCall :
    ∃ w, Reachable (takingTurns "campaign" 1 {}) (AtRest "campaign") w
      ∧ w.st.calls.docs.map (·.id) = ["call"] ∧ activeCalls "campaign" w.st ≤ 1 := by
  obtain ⟨w, hw, hcalls⟩ := Reachable.of_play (takingTurns "campaign" 1 {})
    (twoAgents_atRest "campaign")
    ([tickOnce, tickOnce] ++ evaluation 0 ++ dialSchedule 0 0 "call" "provider-call"
      ++ .run 0 {} :: evaluation 1 ++ List.replicate 3 (.run 1 {}))
    (fun w => w.st.calls.docs.map (·.id) == ["call"]) (by decide +kernel)
  exact ⟨w, hw, by simpa using hcalls, activeCalls_le_cap hw⟩

end SmartDialer
