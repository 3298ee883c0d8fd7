import Mathlib.Logic.Function.Basic
import SmartDialer.Protocol.Lifecycle

/-!
# At most one origination

Two workers may hold the same queued call: one was created it for, the other found it
under its key after a crash. What keeps them from both dialling is the conditional
update to INITIATED, which succeeds once in the life of a call. The process it succeeds
for holds the *permit* of the call — ghost state, a process number per call — and hands
it in with the request to the provider.
-/

namespace SmartDialer

open Store Conc

/-! ## What was originated -/

/-- A request to a provider, and the pair it was made for. -/
structure Origination where
  pair : ReservationPair
  request : OriginateRequest

/-- What a call is an instance of. -/
structure Attempt where
  campaignId : String
  agentId : String
  borrowerId : String
  number : Nat
  deriving DecidableEq, Repr

/-- The idempotency key of an attempt. -/
def Attempt.key (t : Attempt) : String :=
  buildIdempotencyKey t.campaignId t.agentId t.borrowerId t.number

/-- None of the ids of an attempt has a colon in it. -/
structure Attempt.ColonFree (t : Attempt) : Prop where
  campaignId : SmartDialer.ColonFree t.campaignId
  agentId : SmartDialer.ColonFree t.agentId
  borrowerId : SmartDialer.ColonFree t.borrowerId

/-- What an origination was for. -/
def Origination.attempt (x : Origination) : Attempt where
  campaignId := x.request.campaignId
  agentId := x.pair.agent.id
  borrowerId := x.pair.borrower.id
  number := x.pair.borrower.attemptCount + 1

/-- The origination an entry of the log reports; a request that failed is one, too. -/
def Entry.origination : Entry → Option Origination
  | .answered _ (.originateCall _ pair request) _ => some ⟨pair, request⟩
  | _ => none

/-- The originations so far, newest first. -/
def State.originations (s : State) : List Origination := s.log.filterMap Entry.origination

/-- The call is filed under this key. -/
def KeyedAs (s : State) (callId key : String) : Prop :=
  ∃ c, s.calls.get callId = some c ∧ c.idempotencyKey = key

theorem KeyedAs.mono {s s' : State} {callId key : String} (h : KeyedAs s callId key)
    (hs : CallsEvolve s s') : KeyedAs s' callId key := by
  obtain ⟨c, hc, hkey⟩ := h
  obtain ⟨c', hc', hev⟩ := hs.kept _ _ hc
  exact ⟨c', hc', hev.idempotencyKey.trans hkey⟩

theorem Attempt.key_inj {t t' : Attempt} (ht : t.ColonFree) (ht' : t'.ColonFree)
    (h : t.key = t'.key) : t = t' := by
  obtain ⟨hc, ha, hb, hn⟩ := buildIdempotencyKey_inj ht.campaignId ht'.campaignId ht.agentId
    ht'.agentId ht.borrowerId ht'.borrowerId h
  cases t
  cases t'
  simp_all

/-! ## The invariant -/

/-- Who may originate which call. -/
abbrev Permits : Type := String → Option Nat

/-- No two calls under one key. -/
def KeysUnique (s : State) : Prop :=
  ∀ k k' c c', s.calls.get k = some c → s.calls.get k' = some c' →
    c.idempotencyKey = c'.idempotencyKey → k = k'

structure OriginationInv (s : State) (permits : Permits) : Prop where
  /-- No call was originated twice. -/
  once : (s.originations.map (·.request.callId)).Nodup
  /-- The permit of an originated call is spent. -/
  spent : ∀ x ∈ s.originations, Launched s x.request.callId ∧ permits x.request.callId = none
  /-- It was originated for what it is filed under. -/
  keyed : ∀ x ∈ s.originations, KeyedAs s x.request.callId x.attempt.key
  /-- A permit is given out when the call is launched. -/
  launched : ∀ k j, permits k = some j → Launched s k
  keys : KeysUnique s

/-- The permits after process `i` was answered `r`. -/
def Permits.after (permits : Permits) (i : Nat) : (o : Op) → Except Exn (Ans o) → Permits
  | .transitionCall callId .initiated _, .ok (some _) => Function.update permits callId (some i)
  | .originateCall _ _ request, _ => Function.update permits request.callId none
  | _, _ => permits

/-- A request to a provider needs a permit. -/
def Permitted (i : Nat) (s : State) (permits : Permits) : Op → Prop
  | .originateCall _ pair request => permits request.callId = some i
      ∧ KeyedAs s request.callId (Origination.mk pair request).attempt.key
  | _ => True

/-! ## One step -/

section

variable {i : Nat} {o : Op} {ch : Choice} {s : State} {permits : Permits}

theorem keysUnique_exec (hsound : Sound s o) (h : KeysUnique s) :
    KeysUnique (exec i o ch s).2 := by
  intro k k' c c' hc hc' hkey
  rcases call_evolved hsound hc with ⟨hnew, hk, -, hfree⟩ | ⟨d, hd, hev⟩
  · rcases call_evolved hsound hc' with ⟨hnew', hk', -, -⟩ | ⟨d', hd', hev'⟩
    · rw [hnew] at hnew'
      rw [hk, hk', Option.some.inj hnew']
    · exact absurd (hev'.idempotencyKey.symm.trans hkey.symm) (hfree k' d' hd')
  · rcases call_evolved hsound hc' with ⟨hnew', hk', -, hfree'⟩ | ⟨d', hd', hev'⟩
    · exact absurd (hev.idempotencyKey.symm.trans hkey) (hfree' k d hd)
    · refine h k k' d d' hd hd' ?_
      rw [← hev.idempotencyKey, hkey, hev'.idempotencyKey]

theorem originations_exec (i : Nat) (o : Op) (ch : Choice) (s : State) :
    (exec i o ch s).2.originations
      = (Entry.origination (.answered i o (exec i o ch s).1)).toList ++ s.originations := by
  rw [State.originations, exec_log, List.filterMap_cons]
  cases Entry.origination (.answered i o (exec i o ch s).1) <;> rfl

/-- A call that went to INITIATED had not been there. -/
theorem not_launched_of_initiated {callId : String} {reason : Option String} {c : Call}
    (hwf : CallsWellFormed s)
    (h : (exec i (.transitionCall callId .initiated reason) ch s).1 = .ok (some c)) :
    ¬Launched s callId := by
  obtain ⟨d, hd, hguard, -⟩ := transitionCall_some h
  rintro ⟨d', hd', hrank⟩
  rw [hd] at hd'
  obtain rfl := Option.some.inj hd'
  exact absurd ((hwf _ _ hd).advanceable_iff.mp hguard) (Nat.not_lt.mpr hrank)

/-- An operation that neither launches nor originates leaves the permits alone. -/
theorem originationInv_keep (hsound : Sound s o) (hinv : OriginationInv s permits)
    (hnone : Entry.origination (.answered i o (exec i o ch s).1) = none) :
    OriginationInv (exec i o ch s).2 permits := by
  have hev := (exec_evolve i ch hsound.lawful hsound.wellFormed).1
  have hsame : (exec i o ch s).2.originations = s.originations := by
    rw [originations_exec, hnone]
    rfl
  constructor
  · rw [hsame]
    exact hinv.once
  · intro x hx
    rw [hsame] at hx
    exact ⟨(hinv.spent x hx).1.mono hev, (hinv.spent x hx).2⟩
  · intro x hx
    rw [hsame] at hx
    exact (hinv.keyed x hx).mono hev
  · exact fun k j hk => (hinv.launched k j hk).mono hev
  · exact keysUnique_exec hsound hinv.keys

/-- The launch of a call gives its permit out. -/
theorem originationInv_launch {callId : String} {reason : Option String} {c : Call}
    (hsound : Sound s (.transitionCall callId .initiated reason))
    (hinv : OriginationInv s permits)
    (h : (exec i (.transitionCall callId .initiated reason) ch s).1 = .ok (some c)) :
    OriginationInv (exec i (.transitionCall callId .initiated reason) ch s).2
      (Function.update permits callId (some i)) := by
  have hnew := not_launched_of_initiated hsound.wellFormed h
  obtain ⟨d, -, -, hc, hget⟩ := transitionCall_some h
  have hkeep : OriginationInv (exec i (.transitionCall callId .initiated reason) ch s).2 permits :=
    originationInv_keep hsound hinv rfl
  have hsame : (exec i (.transitionCall callId .initiated reason) ch s).2.originations
      = s.originations := by
    rw [originations_exec]
    rfl
  refine ⟨hkeep.once, ?_, hkeep.keyed, ?_, hkeep.keys⟩
  · intro x hx
    refine ⟨(hkeep.spent x hx).1, ?_⟩
    rw [hsame] at hx
    rw [Function.update_of_ne]
    · exact (hinv.spent x hx).2
    · exact fun heq => hnew (heq ▸ (hinv.spent x hx).1)
  · intro k j hk
    rcases eq_or_ne k callId with rfl | hne
    · exact ⟨c, hget, by rw [hc]; exact le_rfl⟩
    · rw [Function.update_of_ne hne] at hk
      exact hkeep.launched k j hk

/-- An origination spends the permit of its call. -/
theorem originationInv_originate {providerName : String} {pair : ReservationPair}
    {request : OriginateRequest} (hsound : Sound s (.originateCall providerName pair request))
    (hinv : OriginationInv s permits)
    (hpermit : Permitted i s permits (.originateCall providerName pair request)) :
    OriginationInv (exec i (.originateCall providerName pair request) ch s).2
      (Function.update permits request.callId none) := by
  obtain ⟨hmine, hkeyed⟩ := hpermit
  have hev := (exec_evolve i ch hsound.lawful hsound.wellFormed).1
  have hsame : (exec i (.originateCall providerName pair request) ch s).2.originations
      = ⟨pair, request⟩ :: s.originations := by
    rw [originations_exec]
    rfl
  constructor
  · rw [hsame, List.map_cons, List.nodup_cons]
    refine ⟨?_, hinv.once⟩
    intro hmem
    -- a call asked for before has no permit left
    obtain ⟨x, hx, hcall⟩ := List.mem_map.mp hmem
    rw [← hcall, (hinv.spent x hx).2] at hmine
    cases hmine
  · intro x hx
    rw [hsame] at hx
    rcases List.mem_cons.mp hx with rfl | hx
    · exact ⟨(hinv.launched _ _ hmine).mono hev, Function.update_self ..⟩
    · refine ⟨(hinv.spent x hx).1.mono hev, ?_⟩
      rcases eq_or_ne x.request.callId request.callId with heq | hne
      · rw [heq, Function.update_self]
      · rw [Function.update_of_ne hne]
        exact (hinv.spent x hx).2
  · intro x hx
    rw [hsame] at hx
    rcases List.mem_cons.mp hx with rfl | hx
    · exact hkeyed.mono hev
    · exact (hinv.keyed x hx).mono hev
  · intro k j hk
    rcases eq_or_ne k request.callId with rfl | hne
    · rw [Function.update_self] at hk
      cases hk
    · rw [Function.update_of_ne hne] at hk
      exact (hinv.launched k j hk).mono hev
  · exact keysUnique_exec hsound hinv.keys

/-- **A permitted operation keeps the invariant**, and the permits of others. -/
theorem originationInv_exec (ch : Choice) (hsound : Sound s o) (hinv : OriginationInv s permits)
    (hpermit : Permitted i s permits o) :
    OriginationInv (exec i o ch s).2 (permits.after i o (exec i o ch s).1)
      ∧ ∀ k j, j ≠ i → permits k = some j → permits.after i o (exec i o ch s).1 k = some j := by
  cases o with
  | originateCall providerName pair request =>
      refine ⟨originationInv_originate hsound hinv hpermit, ?_⟩
      intro k j hj hk
      refine (Function.update_of_ne ?_ _ _).trans hk
      rintro rfl
      rw [hpermit.1] at hk
      exact hj (Option.some.inj hk).symm
  | transitionCall callId t reason =>
      have hkeep : OriginationInv (exec i (.transitionCall callId t reason) ch s).2 permits :=
        originationInv_keep hsound hinv rfl
      rcases eq_or_ne t .initiated with rfl | hne
      · generalize hr : (exec i (.transitionCall callId .initiated reason) ch s).1 = r
        match r, hr with
        | .ok (some c), hr =>
            refine ⟨originationInv_launch hsound hinv hr, ?_⟩
            intro k j _ hk
            refine (Function.update_of_ne ?_ _ _).trans hk
            rintro rfl
            -- a call that is made INITIATED now was not launched, so nobody had its permit
            exact not_launched_of_initiated hsound.wellFormed hr (hinv.launched _ _ hk)
        | .ok none, hr => exact ⟨hkeep, fun _ _ _ hk => hk⟩
        | .error e, hr => exact ⟨hkeep, fun _ _ _ hk => hk⟩
      · have hafter : ∀ r, permits.after i (.transitionCall callId t reason) r = permits := by
          intro r
          cases t <;> first | exact absurd rfl hne | rfl
        rw [hafter]
        exact ⟨hkeep, fun _ _ _ hk => hk⟩
  | _ => exact ⟨originationInv_keep hsound hinv rfl, fun _ _ _ hk => hk⟩

end

/-! ## The logic -/

section

variable {cfg : Settings} {i : Nat}

/-- The invariant, and that nobody touches the permits of others. -/
def origination (cfg : Settings) : Logic ((Policy.any (dialer cfg)).also Sound) Permits where
  Inv s := OriginationInv s.1 s.2
  Guar i s s' := CallsEvolve s.1 s'.1 ∧ ∀ k j, j ≠ i → s.2 k = some j → s'.2 k = some j

/-- The triple of a permitted operation. -/
theorem permitted_atomic {o : Op} {A : Assertion Permits}
    {B : Except Exn (Ans o) → Assertion Permits}
    (hpermit : ∀ s, A s → Permitted i s.1 s.2 o)
    (hB : ∀ ch s, Sound s.1 o → A s → CallsEvolve s.1 (exec i o ch s.1).2 →
      B (exec i o ch s.1).1 ((exec i o ch s.1).2, s.2.after i o (exec i o ch s.1).1)) :
    (origination cfg).Atomic i o A B := by
  intro s hinv hs ch hc
  obtain ⟨hinv', hothers⟩ := originationInv_exec ch hc.2 hinv (hpermit s hs)
  have hev := (exec_evolve i ch hc.2.lawful hc.2.wellFormed).1
  exact ⟨_, hinv', ⟨hev, hothers⟩, hB ch s hc.2 hs hev⟩

/-- What is asserted at each point of a dial for the attempt `t`. -/
def originationPoints (i : Nat) (t : Attempt) : DialPoint → Assertion Permits
  | .created callId => fun s => KeyedAs s.1 callId t.key
  | .initiated callId | .dialing callId | .bound callId =>
      fun s => s.2 callId = some i ∧ KeyedAs s.1 callId t.key
  | _ => fun _ => True

theorem originationPoints_stable (t : Attempt) (p : DialPoint) :
    (origination cfg).Stable i (originationPoints i t p) := by
  refine Logic.stable_of_step fun j s s' hj hg _ h => ?_
  have hpermit : ∀ callId, (s.2 callId = some i ∧ KeyedAs s.1 callId t.key) →
      s'.2 callId = some i ∧ KeyedAs s'.1 callId t.key :=
    fun callId h => ⟨hg.2 callId i hj.symm h.1, h.2.mono hg.1⟩
  cases p with
  | created callId => exact KeyedAs.mono h hg.1
  | initiated callId => exact hpermit callId h
  | dialing callId => exact hpermit callId h
  | bound callId => exact hpermit callId h
  | _ => trivial

/-- Where nothing is asserted afterwards, being permitted is enough. -/
theorem permitted_next {o : Op} {t : Attempt} {A : Assertion Permits} {p : DialPoint}
    (hpermit : ∀ s, A s → Permitted i s.1 s.2 o)
    (hp : ∀ s, originationPoints i t p s) :
    (origination cfg).Atomic i o A
      (Next (originationPoints i t) fun _ => originationPoints i t p) :=
  permitted_atomic hpermit fun _ _ _ _ _ => next_of (fun _ _ => hp _) trivial

/-- A permit, once obtained, is kept until the request. -/
theorem permit_next {o : Op} {t : Attempt} {callId : String} {p : DialPoint}
    (hpermit : ∀ s permits, Permitted i s permits o)
    (hafter : ∀ permits r, Permits.after permits i o r = permits)
    (hp : ∀ s, (s.2 callId = some i ∧ KeyedAs s.1 callId t.key) → originationPoints i t p s) :
    (origination cfg).Atomic i o (fun s => s.2 callId = some i ∧ KeyedAs s.1 callId t.key)
      (Next (originationPoints i t) fun _ => originationPoints i t p) := by
  refine permitted_atomic (fun s _ => hpermit s.1 s.2) fun ch s _ h hev => ?_
  refine next_of (fun _ _ => hp _ ?_) trivial
  rw [hafter]
  exact ⟨h.1, h.2.mono hev⟩

theorem origination_dial (campaign : Campaign) (pair : ReservationPair) :
    DialOutline (origination cfg) i campaign pair (originationPoints i
      ⟨campaign.id, pair.agent.id, pair.borrower.id, pair.borrower.attemptCount + 1⟩) where
  stable := originationPoints_stable _
  now := permitted_next (p := .held) (fun _ _ => trivial) fun _ => trivial
  gate := permitted_next (p := .held) (fun _ _ => trivial) fun _ => trivial
  abandon _ _ := trivial
  releaseAgent _ := permitted_next (p := .halfReleased _) (fun _ _ => trivial) fun _ => trivial
  releaseBorrower _ := permitted_next (p := .done) (fun _ _ => trivial) fun _ => trivial
  insert := by
    refine permitted_atomic ?_ ?_
    · exact fun _ _ => trivial
    intro ch s _ _ _
    refine onInsert_of (fun call heq => onCall_of call (fun _ => ?_) fun _ => trivial)
      (fun _ => trivial) trivial
    obtain ⟨hnew, -, -, hget⟩ := insertCall_ok heq
    exact ⟨call, hget, by rw [hnew]; rfl⟩
  existing := by
    refine permitted_atomic ?_ ?_
    · exact fun _ _ => trivial
    intro ch s _ _ hev
    refine next_of (fun answer heq => ?_) trivial
    cases answer with
    | none => trivial
    | some call =>
        refine onCall_of call (fun _ => ?_) fun _ => trivial
        obtain ⟨hget, hkey⟩ := findByIdempotencyKey_some heq
        -- found under the key of the attempt, and keys do not change
        exact KeyedAs.mono ⟨call, hget, hkey⟩ hev
  reserve callId := by
    refine permitted_atomic ?_ ?_
    · exact fun _ _ => trivial
    exact fun ch s _ h hev => next_of (fun _ _ => KeyedAs.mono h hev) trivial
  initiate callId := by
    refine permitted_atomic ?_ ?_
    · exact fun _ _ => trivial
    intro ch s _ h hev
    refine next_of (fun answer heq => ?_) trivial
    cases answer with
    | none => trivial
    | some c =>
        refine ⟨?_, KeyedAs.mono h hev⟩
        rw [heq]
        exact Function.update_self ..
  dialAgent _ := permit_next (p := .dialing _) (fun _ _ => trivial) (fun _ _ => rfl) fun _ h => h
  bind _ := permit_next (p := .bound _) (fun _ _ => trivial) (fun _ _ => rfl) fun _ h => h
  originate callId := by
    refine permitted_atomic ?_ ?_
    · exact fun _ h => h
    exact fun _ _ _ _ _ => onOriginate_of (fun _ => trivial) (fun _ => trivial) trivial
  attach _ _ := by
    refine permitted_atomic ?_ ?_
    · exact fun _ _ => trivial
    intro _ _ _ _ _
    exact next_of (fun answer _ => by cases answer <;> trivial) trivial
  hangup _ _ := by
    refine permitted_atomic ?_ ?_
    · exact fun _ _ => trivial
    exact fun _ _ _ _ _ => onHangup_of (fun _ => trivial) trivial
  fail _ _ := permitted_next (p := .abandoned .retry) (fun _ _ => trivial) fun _ => trivial
  compensateAgent := by
    refine permitted_atomic ?_ fun _ _ _ _ _ => trivial
    exact fun _ _ => trivial
  compensateBorrower := by
    refine permitted_atomic ?_ fun _ _ _ _ _ => trivial
    exact fun _ _ => trivial

/-- Whatever is no request to a provider is permitted, in any state. -/
theorem unasked_atomic {o : Op} (ho : ∀ s permits, Permitted i s permits o) :
    (origination cfg).Atomic i o (fun _ => True) fun _ _ => True := by
  refine permitted_atomic ?_ fun _ _ _ _ _ => trivial
  exact fun s _ => ho s.1 s.2

theorem origination_allocate (campaign : Campaign) (workerId : String) :
    AllocateOutline (origination cfg) i campaign workerId (fun _ _ => True) (fun _ _ _ => True)
      fun _ pair => originationPoints i
        ⟨campaign.id, pair.agent.id, pair.borrower.id, pair.borrower.attemptCount + 1⟩ := by
  refine allocateOutline_of_dial ?_ (fun _ _ => trivial) (origination_dial campaign) workerId
  intro o ho
  refine unasked_atomic fun _ _ => ?_
  cases o with
  | originateCall _ _ _ => exact ho.elim
  | _ => trivial

/-! ## Every run -/

theorem origination_verified : (origination cfg).Verified Fresh where
  init s hs := by
    have horig : s.originations = [] := by
      rw [State.originations, hs.log]
      rfl
    refine ⟨fun _ => none, ?_, ?_, ?_, (fun _ _ h => by cases h), ?_⟩
    · rw [horig]
      exact List.nodup_nil
    · rw [horig]
      exact fun _ h => by cases h
    · rw [horig]
      exact fun _ h => by cases h
    · intro k k' c c' hc
      rw [hs.noCalls.get] at hc
      cases hc
  task t _ i s _ := by
    refine wp_program ?_ (fun campaign workerId =>
      ⟨_, _, origination_allocate campaign workerId⟩) t s
    intro o ho
    refine unasked_atomic fun _ _ => ?_
    cases o with
    | originateCall _ _ _ => exact ho.elim
    | _ => trivial
  crash i s hinv := by
    refine ⟨s.2, ?_, .of_calls_eq rfl, fun _ _ _ h => h⟩
    exact ⟨hinv.once, hinv.spent, hinv.keyed, hinv.launched, hinv.keys⟩

/--
**At most one origination.** In every run, whatever is dialled, retried, cancelled or
crashes: no call is originated twice, and nothing is attempted twice. What is originated
is the one call that is filed under the key of the attempt; and attempts whose ids have no
colon in them are told apart by their keys.
-/
theorem originates_at_most_once {w : World (dialer cfg)}
    (h : Reachable (Policy.any (dialer cfg)) Fresh w) :
    (w.st.originations.map (·.request.callId)).Nodup
      ∧ (w.st.originations.map Origination.attempt).Nodup
      ∧ (∀ x ∈ w.st.originations, ∀ k c, w.st.calls.get k = some c →
        (c.idempotencyKey = x.attempt.key ↔ k = x.request.callId))
      ∧ ∀ t t' : Attempt, t.ColonFree → t'.ColonFree → t.key = t'.key → t = t' := by
  have hsound := sound_run (fun _ hs => hs.noCalls.wellFormed) h
  obtain ⟨permits, hinv⟩ := origination_verified.inv hsound
  have hkey : ∀ x ∈ w.st.originations, ∀ k c, w.st.calls.get k = some c →
      (c.idempotencyKey = x.attempt.key ↔ k = x.request.callId) := by
    intro x hx k c hc
    obtain ⟨d, hd, hdkey⟩ := hinv.keyed x hx
    constructor
    · exact fun heq => hinv.keys k _ c d hc hd (heq.trans hdkey.symm)
    · rintro rfl
      rw [hc] at hd
      rw [Option.some.inj hd, hdkey]
  refine ⟨hinv.once, ?_, hkey, fun t t' => Attempt.key_inj⟩
  -- Equal attempts have one key, and so one call.
  have honce := hinv.once
  rw [List.Nodup, List.pairwise_map] at honce ⊢
  refine honce.imp_of_mem ?_
  intro x y hx hy hne heq
  obtain ⟨c, hc, hckey⟩ := hinv.keyed x hx
  exact hne ((hkey y hy _ c hc).mp (hckey.trans (congrArg Attempt.key heq)))

end

theorem originates_at_most_once_oneDial :
    ∃ w, Reachable (Policy.any (dialer {})) Fresh w
      ∧ w.st.originations.map (·.request.callId) = ["call"]
      ∧ (w.st.originations.map Origination.attempt).Nodup := by
  obtain ⟨w, hw, hcall⟩ := Reachable.of_play (Policy.any (dialer {})) oneAgent_fresh oneDial
    (fun w => w.st.originations.map (·.request.callId) == ["call"]) (by decide +kernel)
  exact ⟨w, hw, by simpa using hcall, (originates_at_most_once hw).2.1⟩

end SmartDialer
