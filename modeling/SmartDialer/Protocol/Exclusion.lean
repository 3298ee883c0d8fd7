import SmartDialer.Protocol.Lifecycle

/-!
# One call at a time

Agents and borrowers are held by their state and told apart in time by their version: a
reservation raises the version, and so does everything that happens to it afterwards. Two
things have to go right for no two calls to use one of them at a time. What a call uses
must not be given away while the call is alive; and a dial must not put its call on its
way after it has lost what it reserved. The source checks neither, so both are asked of
the run.

Agents and borrowers are alike in this, and are two instances of a `Party`. The ghost
state is a *token* for each party: who made its current reservation, and the call that
was put on its way under it.
-/

namespace SmartDialer

open Store Conc

/-! ## Parties -/

/-- What a document says of the reservation of its party. -/
structure Hold where
  version : Nat
  /-- A reservation is in use. -/
  held : Bool
  /-- A reservation was made, and nothing has happened to it since. -/
  reserved : Bool
  deriving DecidableEq

/-- What one operation may do to a reservation. -/
inductive Hold.Step (h : Hold) : Hold → Prop where
  | same : Step h h
  /-- A new one is made, of what was free. -/
  | reserve (hfree : h.held = false) : Step h ⟨h.version + 1, true, true⟩
  /-- It goes on, or comes to an end. -/
  | move (held : Bool) (hheld : held = true → h.held = true) : Step h ⟨h.version + 1, held, false⟩

theorem Hold.Step.version_le {h h' : Hold} (hs : h.Step h') : h.version ≤ h'.version := by
  cases hs with
  | same => exact le_rfl
  | reserve _ => exact Nat.le_succ _
  | move _ _ => exact Nat.le_succ _

/-- A reservation that is still what it was has its version. -/
theorem Hold.Step.eq_of_version {h h' : Hold} (hs : h.Step h') (hv : h'.version = h.version) :
    h' = h := by
  cases hs with
  | same => rfl
  | reserve _ => exact absurd hv (Nat.succ_ne_self _)
  | move _ _ => exact absurd hv (Nat.succ_ne_self _)

/-- A change of an agent that its state machine allows outside a reservation. -/
def Op.Steady : Op → Prop
  | .transitionAgent _ fromState toState _ =>
      toState ≠ .reserved ∧ (toState.held = true → fromState.held = true)
  | .releaseAgent _ _ target _ _ => target.held = false
  | _ => True

/-- One of the two parties of a call, as far as its reservation goes. -/
structure Party where
  /-- The party a call names. -/
  named : Call → String
  hold : State → String → Option Hold
  /-- The operation ends the reservation of this party. -/
  frees : Choice → State → String → Op → Bool
  /-- The reservation an entry of the log reports: whose, of whom, and its version. -/
  reservation : Entry → Option (Nat × String × Nat)
  /-- The party of a pair, and the version of its reservation. -/
  part : ReservationPair → String × Nat
  /-- The operation does not write to documents of this kind. -/
  Inert : Op → Prop
  named_evolves : ∀ {c c' : Call}, c.Evolves c' → named c' = named c
  hold_exec : ∀ i {o} ch {s k h}, Op.Steady o → hold s k = some h →
    ∃ h', hold (exec i o ch s).2 k = some h' ∧ h.Step h'
      ∧ (h.held = true → h'.held = false → frees ch s k o = true)
  hold_record : ∀ {s e k}, hold (s.record e) k = hold s k
  hold_inert : ∀ {i o ch s k}, Inert o → hold (exec i o ch s).2 k = hold s k
  reservation_inert : ∀ {i o r}, Inert o → reservation (.answered i o r) = none
  reservation_crashed : ∀ i, reservation (.crashed i) = none
  /-- A reservation that is reported was just made. -/
  reservation_exec : ∀ {i o ch s j k v},
    reservation (.answered i o (exec i o ch s).1) = some (j, k, v) →
      j = i ∧ hold (exec i o ch s).2 k = some ⟨v, true, true⟩
        ∧ ∃ h, hold s k = some h ∧ h.held = false ∧ v = h.version + 1
  inert_onCalls : ∀ {o : Op}, o.OnCalls → Inert o

namespace Party

variable (V : Party)

/-- The last reservation of process `i`. -/
def lastReservation (s : State) (i : Nat) : Option (String × Nat) :=
  s.log.findSome? fun e => (V.reservation e).bind fun r =>
    if r.1 = i then some r.2 else none

/-- The call names what process `i` last reserved, and nothing happened to it since. -/
def StillHolds (s : State) (i : Nat) (d : Call) : Prop :=
  ∃ r ∈ V.lastReservation s i, r.1 = V.named d ∧ V.hold s (V.named d) = some ⟨r.2, true, true⟩

instance (s : State) (i : Nat) (d : Call) : Decidable (V.StillHolds s i d) := by
  unfold StillHolds
  infer_instance

/--
The runs in which what a call uses is not given away while the call is under way, and a
dial puts its call on its way only while it still holds what it reserved.
-/
def undisturbed (cfg : Settings) : Policy (dialer cfg) where
  task _ := True
  run i o ch s := ch.performs o = true →
    ∀ d ∈ s.calls.docs, (d.Active → V.frees ch s (V.named d) o = false)
      ∧ (o.Activates s d → V.StillHolds s i d)

instance (cfg : Settings) : (V.undisturbed cfg).Checkable where
  task _ := .isTrue trivial
  run _ _ _ s := inferInstanceAs (Decidable (_ → ∀ d ∈ s.calls.docs, _))

end Party

/-! ## The invariant -/

/-- Who made the current reservation, and which call was put on its way under it. -/
structure Token where
  holder : Option Nat
  call : Option String

abbrev Tokens : Type := String → Token

/-- What every call under way uses is held, and held for it. -/
def ExclusionInv (V : Party) (s : State) (tokens : Tokens) : Prop :=
  ∀ k d, s.calls.get k = some d → d.Active →
    (∃ h, V.hold s (V.named d) = some h ∧ h.held = true)
      ∧ (tokens (V.named d)).call = some k

/-- A new reservation has a new token. -/
def Tokens.after (V : Party) (i : Nat) (s s' : State) (tokens : Tokens) : Tokens := fun k =>
  if V.hold s' k = V.hold s k ∨ (V.hold s k).any Hold.held = true then tokens k
  else ⟨some i, none⟩

section

variable {V : Party} {i : Nat} {o : Op} {ch : Choice} {s : State} {tokens : Tokens}

/-- What is in use stays held, and its token stays. -/
theorem hold_of_active (i : Nat) (tokens : Tokens) (hsteady : o.Steady)
    (hfree : ch.performs o = true → ∀ k d, s.calls.get k = some d → d.Active →
      V.frees ch s (V.named d) o = false)
    {k : String} {d : Call} (hd : s.calls.get k = some d) (hact : d.Active)
    (hheld : ∃ h, V.hold s (V.named d) = some h ∧ h.held = true) :
    (∃ h, V.hold (exec i o ch s).2 (V.named d) = some h ∧ h.held = true)
      ∧ tokens.after V i s (exec i o ch s).2 (V.named d) = tokens (V.named d) := by
  obtain ⟨h, hh, hheld⟩ := hheld
  refine ⟨?_, if_pos (.inr ?_)⟩
  · cases hperf : ch.performs o with
    | false =>
        rw [exec_of_not_performs hperf, V.hold_record]
        exact ⟨h, hh, hheld⟩
    | true =>
        obtain ⟨h', hh', -, hfrees⟩ := V.hold_exec i ch hsteady hh
        refine ⟨h', hh', ?_⟩
        by_contra hnot
        have hfreed := hfrees hheld (by simpa using hnot)
        rw [hfree hperf k d hd hact] at hfreed
        cases hfreed
  · rw [hh]
    exact hheld

/-- **An operation that puts no call on its way keeps the invariant.** -/
theorem exclusionInv_exec (hsound : Sound s o) (hsteady : o.Steady)
    (hfree : ch.performs o = true → ∀ k d, s.calls.get k = some d → d.Active →
      V.frees ch s (V.named d) o = false)
    (hstill : ch.performs o = true → ∀ d, ¬o.Activates s d) (hinv : ExclusionInv V s tokens) :
    ExclusionInv V (exec i o ch s).2 (tokens.after V i s (exec i o ch s).2) := by
  intro k d' hd' hact'
  obtain ⟨d, hd, hev, hact | ⟨hperf, hact, -⟩⟩ := active_of_exec hsound hd' hact'
  · obtain ⟨hheld, hcall⟩ := hinv k d hd hact
    obtain ⟨hheld', htoken⟩ :=
      hold_of_active i tokens hsteady hfree hd hact hheld
    rw [V.named_evolves hev, htoken]
    exact ⟨hheld', hcall⟩
  · exact absurd hact (hstill hperf d)

/-- **So does one that puts a call on its way, if nobody else's was.** -/
theorem exclusionInv_activate {callId : String} {t : CallState} {reason : Option String} {d : Call}
    (hsound : Sound s (.transitionCall callId t reason))
    (hact : Op.Activates s d (.transitionCall callId t reason))
    (hheld : ∃ h, V.hold s (V.named d) = some h ∧ h.held = true)
    (hcall : (tokens (V.named d)).call = none ∨ (tokens (V.named d)).call = some callId)
    (hinv : ExclusionInv V s tokens) :
    ExclusionInv V (exec i (.transitionCall callId t reason) ch s).2
      (Function.update tokens (V.named d) ⟨(tokens (V.named d)).holder, some callId⟩) := by
  intro k e' he' hact'
  have hinert := V.inert_onCalls (o := .transitionCall callId t reason) trivial
  obtain ⟨e, he, hev, hact₁⟩ := active_of_exec hsound he' hact'
  rw [V.named_evolves hev, V.hold_inert hinert]
  rcases hact₁ with hact₁ | ⟨-, hact₁, -⟩
  · obtain ⟨hheld₁, hcall₁⟩ := hinv k e he hact₁
    refine ⟨hheld₁, ?_⟩
    rcases eq_or_ne (V.named e) (V.named d) with heq | hne
    · -- the call under way would have the token
      rw [heq] at hcall₁ ⊢
      rw [Function.update_self]
      rcases hcall with hcall | hcall
      · rw [hcall] at hcall₁
        cases hcall₁
      · exact hcall.symm.trans hcall₁
    · rw [Function.update_of_ne hne]
      exact hcall₁
  · -- it is the call itself
    obtain ⟨hd, -, -⟩ := hact
    obtain ⟨he₁, -, -⟩ := hact₁
    obtain rfl : d = e := Option.some.inj (hd.symm.trans he₁)
    have hk : callId = k := (Collection.key_of_get hd).symm.trans (Collection.key_of_get he)
    rw [Function.update_self, hk]
    exact ⟨hheld, rfl⟩

end

/-! ## The logic -/

section

variable {cfg : Settings} {V : Party} {i : Nat}

/-- The invariant, and what a process may do to the reservations of others. -/
def exclusion (V : Party) (cfg : Settings) : Logic ((V.undisturbed cfg).also Sound) Tokens where
  Inv s := ExclusionInv V s.1 s.2
  Guar i s s' :=
    (∀ k h, V.hold s.1 k = some h → ∃ h', V.hold s'.1 k = some h' ∧ h.version ≤ h'.version
      ∧ (h'.version = h.version → (s.2 k).holder ≠ some i → s'.2 k = s.2 k))
    ∧ ∀ j, j ≠ i → V.lastReservation s'.1 j = V.lastReservation s.1 j

theorem lastReservation_exec (o : Op) (ch : Choice) (s : State) (j : Nat) :
    V.lastReservation (exec i o ch s).2 j
      = (((V.reservation (.answered i o (exec i o ch s).1)).bind fun r =>
          if r.1 = j then some r.2 else none).or (V.lastReservation s j)) := by
  rw [Party.lastReservation, exec_log, List.findSome?_cons]
  cases (V.reservation (.answered i o (exec i o ch s).1)).bind fun r =>
    if r.1 = j then some r.2 else none <;> rfl

/-- An operation leaves the last reservations of others alone. -/
theorem lastReservation_other (o : Op) (ch : Choice) (s : State) {j : Nat} (hj : j ≠ i) :
    V.lastReservation (exec i o ch s).2 j = V.lastReservation s j := by
  rw [lastReservation_exec]
  cases hr : V.reservation (.answered i o (exec i o ch s).1) with
  | none => rfl
  | some r =>
      obtain ⟨j', k, v⟩ := r
      obtain ⟨rfl, -⟩ := V.reservation_exec hr
      rw [Option.bind_some, if_neg (Ne.symm hj), Option.none_or]

/-- The guarantee of an operation that puts no call on its way. -/
theorem guar_after {o : Op} (hsteady : o.Steady) (ch : Choice) (s : State × Tokens) :
    (exclusion V cfg).Guar i s
      ((exec i o ch s.1).2, s.2.after V i s.1 (exec i o ch s.1).2) := by
  refine ⟨?_, fun j hj => lastReservation_other o ch s.1 hj⟩
  intro k h hk
  obtain ⟨h', hk', hstep, -⟩ := V.hold_exec i ch hsteady hk
  refine ⟨h', hk', hstep.version_le, fun hv _ => if_pos (.inl ?_)⟩
  rw [hk', hk, hstep.eq_of_version hv]

/-- The triple of an operation that puts no call on its way. -/
theorem steady_atomic {o : Op} {A : Assertion Tokens} {B : Except Exn (Ans o) → Assertion Tokens}
    (hsteady : o.Steady) (hstill : ∀ s d, Sound s o → ¬o.Activates s d)
    (hB : ∀ ch s, A s → B (exec i o ch s.1).1
      ((exec i o ch s.1).2, s.2.after V i s.1 (exec i o ch s.1).2)) :
    (exclusion V cfg).Atomic i o A B := by
  intro s hinv hs ch hc
  refine ⟨_, ?_, guar_after hsteady ch s, hB ch s hs⟩
  exact exclusionInv_exec hc.2 hsteady
    (fun hperf k d hd => (hc.1 hperf d (Collection.mem_of_get hd)).1)
    (fun _ d => hstill s.1 d hc.2) hinv

/-- Process `i` reserved the party `k` at version `v`, and may put `call` on its way. -/
def Mine (V : Party) (i : Nat) (k : String) (v : Nat) (call : Option String) :
    Assertion Tokens := fun s =>
  V.lastReservation s.1 i = some (k, v)
    ∧ ∃ h, V.hold s.1 k = some h ∧ v ≤ h.version
      ∧ (h.version = v → (s.2 k).holder = some i
        ∧ ((s.2 k).call = none ∨ (s.2 k).call = call))

theorem mine_stable (k : String) (v : Nat) (call : Option String) :
    (exclusion V cfg).Stable i (Mine V i k v call) := by
  refine Logic.stable_of_step ?_
  rintro j s s' hj ⟨hholds, hlast⟩ - ⟨hmine, h, hk, hle, htoken⟩
  refine ⟨(hlast i hj.symm).trans hmine, ?_⟩
  obtain ⟨h', hk', hle', hsame⟩ := hholds k h hk
  refine ⟨h', hk', hle.trans hle', fun hv => ?_⟩
  have hold : h.version = v := le_antisymm (hle'.trans hv.le) hle
  obtain ⟨hholder, hcall⟩ := htoken hold
  have hkept : s'.2 k = s.2 k := by
    refine hsame (hv.trans hold.symm) ?_
    rw [hholder]
    exact fun heq => hj (Option.some.inj heq).symm
  rw [hkept]
  exact ⟨hholder, hcall⟩

theorem Mine.weaken {k : String} {v : Nat} {s : State × Tokens} (h : Mine V i k v none s)
    (call : Option String) : Mine V i k v call s := by
  obtain ⟨hmine, h, hk, hle, htoken⟩ := h
  refine ⟨hmine, h, hk, hle, fun hv => ?_⟩
  obtain ⟨hholder, hcall | hcall⟩ := htoken hv
  · exact ⟨hholder, .inl hcall⟩
  · exact ⟨hholder, .inl hcall⟩

/-- An operation that does not write to the parties leaves what process `i` has. -/
theorem mine_inert {o : Op} (ho : V.Inert o) (ch : Choice) {s : State × Tokens} {k : String}
    {v : Nat} {call : Option String} (h : Mine V i k v call s) :
    Mine V i k v call ((exec i o ch s.1).2, s.2.after V i s.1 (exec i o ch s.1).2) := by
  obtain ⟨hmine, h, hk, hle, htoken⟩ := h
  have hsame : ∀ k, V.hold (exec i o ch s.1).2 k = V.hold s.1 k := fun k => V.hold_inert ho
  refine ⟨?_, h, (hsame k).trans hk, hle, fun hv => ?_⟩
  · rw [lastReservation_exec, V.reservation_inert ho]
    exact hmine
  · have htokens : s.2.after V i s.1 (exec i o ch s.1).2 k = s.2 k := if_pos (.inl (hsame k))
    dsimp only
    rw [htokens]
    exact htoken hv

/-- A reservation that is answered belongs to the process it is answered to. -/
theorem mine_reserve {o : Op} {ch : Choice} {s : State × Tokens} {j : Nat} {k : String} {v : Nat}
    (hr : V.reservation (.answered i o (exec i o ch s.1).1) = some (j, k, v)) :
    Mine V i k v none ((exec i o ch s.1).2, s.2.after V i s.1 (exec i o ch s.1).2) := by
  obtain ⟨hj, hk, h, hh, hfree, hv⟩ := V.reservation_exec hr
  subst hj
  refine ⟨?_, _, hk, le_rfl, fun _ => ?_⟩
  · rw [lastReservation_exec, hr, Option.bind_some, if_pos rfl, Option.some_or]
  · have hnew : s.2.after V j s.1 (exec j o ch s.1).2 k = ⟨some j, none⟩ := by
      refine if_neg ?_
      rw [hk, hh]
      simp only [Option.some.injEq, Option.any_some, hfree, Bool.false_eq_true, or_false]
      rintro rfl
      cases hfree
    dsimp only
    rw [hnew]
    exact ⟨rfl, .inl rfl⟩

/-! ## Dials -/

/-- Until its call is on its way, a dial has what it reserved. -/
def exclusionPoints (V : Party) (i : Nat) (pair : ReservationPair) : DialPoint → Assertion Tokens
  | .held => Mine V i (V.part pair).1 (V.part pair).2 none
  | .created callId => Mine V i (V.part pair).1 (V.part pair).2 (some callId)
  | _ => fun _ => True

theorem exclusionPoints_stable (pair : ReservationPair) (p : DialPoint) :
    (exclusion V cfg).Stable i (exclusionPoints V i pair p) := by
  cases p with
  | held => exact mine_stable _ _ _
  | created callId => exact mine_stable _ _ _
  | _ => exact Logic.stable_true

/-- The triple of the two operations that may put a call on its way. -/
theorem activate_atomic {pair : ReservationPair} {callId : String} {t : CallState} :
    (exclusion V cfg).Atomic i (.transitionCall callId t none)
      (exclusionPoints V i pair (.created callId))
      (fun _ => exclusionPoints V i pair (.created callId)) := by
  intro s hinv hs ch hc
  have hinert := V.inert_onCalls (o := .transitionCall callId t none) trivial
  by_cases hact : ch.performs (.transitionCall callId t none) = true
      ∧ ∃ d, Op.Activates s.1 d (.transitionCall callId t none)
  · -- the policy says the reservation still stands, and the assertion whose token it is
    obtain ⟨hperf, d, hact⟩ := hact
    obtain ⟨⟨k, v⟩, hlast, rfl, hhold⟩ :=
      (hc.1 hperf d (Collection.mem_of_get hact.1)).2 hact
    obtain ⟨hmine, h, hk, hle, htoken⟩ := hs
    have hpart : V.part pair = (V.named d, v) := Option.some.inj (hmine.symm.trans hlast)
    rw [hpart] at hk hle htoken
    obtain rfl : h = ⟨v, true, true⟩ := Option.some.inj (hk.symm.trans hhold)
    obtain ⟨hholder, hcall⟩ := htoken rfl
    refine ⟨_, exclusionInv_activate hc.2 hact ⟨_, hhold, rfl⟩ hcall hinv, ⟨?_, ?_⟩, ?_, ?_⟩
    · intro k h' hk'
      refine ⟨h', (V.hold_inert hinert).trans hk', le_rfl, fun _ hne => ?_⟩
      refine Function.update_of_ne ?_ _ _
      rintro rfl
      exact hne hholder
    · exact fun j hj => lastReservation_other _ ch s.1 hj
    · rw [lastReservation_exec, V.reservation_inert hinert]
      exact hmine
    · rw [hpart]
      refine ⟨_, (V.hold_inert hinert).trans hhold, le_rfl, fun _ => ?_⟩
      dsimp only
      rw [Function.update_self]
      exact ⟨hholder, .inr rfl⟩
  · have hsteady : Op.Steady (.transitionCall callId t none) := trivial
    refine ⟨_, ?_, guar_after hsteady ch s, mine_inert hinert ch hs⟩
    exact exclusionInv_exec hc.2 hsteady
      (fun hperf k d hd => (hc.1 hperf d (Collection.mem_of_get hd)).1)
      (fun hperf d hact₁ => hact ⟨hperf, d, hact₁⟩) hinv

/-- The triple of an operation that nothing is asserted of. -/
theorem plain_atomic {o : Op} {A : Assertion Tokens} (hsteady : o.Steady)
    (hstill : ∀ s d, ¬o.Activates s d) : (exclusion V cfg).Atomic i o A fun _ _ => True :=
  steady_atomic hsteady (fun s d _ => hstill s d) fun _ _ _ => trivial

theorem plain_next {pair : ReservationPair} {o : Op} {A : Assertion Tokens} {p : DialPoint}
    (hsteady : o.Steady) (hstill : ∀ s d, ¬o.Activates s d)
    (hp : ∀ s, exclusionPoints V i pair p s) :
    (exclusion V cfg).Atomic i o A
      (Next (exclusionPoints V i pair) fun _ => exclusionPoints V i pair p) :=
  (plain_atomic hsteady hstill).mono (fun _ h => h)
    fun _ s _ => next_of (fun _ _ => hp s) trivial

/-- What happens on the way to a call leaves the reservation as it is. -/
theorem held_atomic {pair : ReservationPair} {o : Op} (ho : o.OnCalls)
    (hstill : ∀ s d, ¬o.Activates s d) {B : Except Exn (Ans o) → Assertion Tokens}
    (hB : ∀ r s, exclusionPoints V i pair .held s → B r s) :
    (exclusion V cfg).Atomic i o (exclusionPoints V i pair .held) B := by
  refine steady_atomic ?_ (fun s d _ => hstill s d) ?_
  · cases o with
    | transitionAgent _ _ _ _ => exact ho.elim
    | releaseAgent _ _ _ _ _ => exact ho.elim
    | _ => trivial
  · exact fun ch s hs => hB _ _ (mine_inert (V.inert_onCalls ho) ch hs)

theorem exclusion_dial (campaign : Campaign) (pair : ReservationPair) :
    DialOutline (exclusion V cfg) i campaign pair (exclusionPoints V i pair) where
  stable := exclusionPoints_stable pair
  now := held_atomic (o := .utcNow) trivial (fun _ _ h => h)
    fun _ _ h => next_of (fun _ _ => h) trivial
  gate := held_atomic (o := .shouldAllowRetry _) trivial (fun _ _ h => h)
    fun _ _ h => next_of (fun _ _ => h) trivial
  abandon _ _ := trivial
  releaseAgent _ := plain_next (p := .halfReleased _) rfl (fun _ _ h => h) fun _ => trivial
  releaseBorrower _ := plain_next (p := .done) trivial (fun _ _ h => h) fun _ => trivial
  insert := by
    refine held_atomic ?_ ?_ ?_
    · trivial
    · exact fun _ _ h => h
    · intro _ _ h
      exact onInsert_of (fun call _ => onCall_of call (fun _ => h.weaken _) fun _ => trivial)
        (fun _ => h) trivial
  existing := by
    refine held_atomic ?_ ?_ ?_
    · trivial
    · exact fun _ _ h => h
    · intro _ _ h
      refine next_of (fun answer _ => ?_) trivial
      cases answer with
      | none => trivial
      | some call => exact onCall_of call (fun _ => h.weaken _) fun _ => trivial
  -- the one step that puts a call on its way
  reserve _ := activate_atomic.mono (fun _ h => h) fun _ _ h => next_of (fun _ _ => h) trivial
  initiate _ := activate_atomic.mono (fun _ h => h) fun _ _ _ =>
    next_of (fun answer _ => by cases answer <;> trivial) trivial
  dialAgent _ := plain_next (p := .dialing _) ⟨by decide, fun _ => rfl⟩ (fun _ _ h => h)
    fun _ => trivial
  bind _ := plain_next (p := .bound _) trivial (fun _ _ h => h) fun _ => trivial
  originate _ := Logic.Atomic.mono (plain_atomic trivial fun _ _ h => h) (fun _ h => h)
    fun _ _ _ => onOriginate_of (fun _ => trivial) (fun _ => trivial) trivial
  attach _ _ := Logic.Atomic.mono (plain_atomic trivial fun _ _ h => h) (fun _ h => h)
    fun _ _ _ => next_of (fun answer _ => by cases answer <;> trivial) trivial
  hangup _ _ := Logic.Atomic.mono (plain_atomic trivial fun _ _ h => h) (fun _ h => h)
    fun _ _ _ => onHangup_of (fun _ => trivial) trivial
  fail _ _ := plain_next (p := .abandoned .retry) trivial (fun _ _ h => by cases h.2.2)
    fun _ => trivial
  compensateAgent := plain_atomic rfl fun _ _ h => h
  compensateBorrower := plain_atomic trivial fun _ _ h => h

/-! ## Every run -/

theorem steady_of_outside {T : CallState → Prop} {o : Op} (h : o.Outside T) : o.Steady := by
  cases o with
  | transitionAgent _ _ _ _ => exact ⟨h.1, h.2.2.1⟩
  | releaseAgent _ _ _ _ _ => exact h
  | _ => trivial

/-- Every task obeys the logic, once the reservation of a pair does. -/
theorem exclusion_verified
    (halloc : ∀ i campaign workerId, ∃ claimed at_, AllocateOutline (exclusion V cfg) i campaign
      workerId (fun _ _ => True) claimed at_) : (exclusion V cfg).Verified NoCalls where
  init s hs := by
    refine ⟨fun _ => ⟨none, none⟩, fun k d hd => ?_⟩
    -- there is no call yet to hold anyone
    rw [hs.get] at hd
    cases hd
  task t _ i s _ := by
    refine wp_program ?_ (halloc i) t s
    intro o ho
    exact steady_atomic (steady_of_outside ho) (fun _ _ => not_activates_of_outside ho)
      fun _ _ _ => trivial
  crash i s hinv := by
    refine ⟨s.2, ?_, ⟨?_, ?_⟩⟩
    · intro k d hd hact
      obtain ⟨⟨h, hh, hheld⟩, hcall⟩ := hinv k d hd hact
      exact ⟨⟨h, V.hold_record.trans hh, hheld⟩, hcall⟩
    · exact fun k h hk => ⟨h, V.hold_record.trans hk, le_rfl, fun _ _ => rfl⟩
    · intro j _
      simp only [Party.lastReservation, crash, State.record, List.findSome?_cons,
        V.reservation_crashed, Option.bind_none]

/-- **Exclusion.** No two calls under way name one party. -/
theorem exclusive_of_verified (hv : (exclusion V cfg).Verified NoCalls) {w : World (dialer cfg)}
    (h : Reachable (V.undisturbed cfg) NoCalls w) {k k' : String} {d d' : Call}
    (hd : w.st.calls.get k = some d) (hd' : w.st.calls.get k' = some d')
    (hact : d.Active) (hact' : d'.Active) (heq : V.named d = V.named d') : k = k' := by
  -- both calls hold the token of the one party
  obtain ⟨tokens, hinv⟩ := hv.inv (sound_run (fun _ => NoCalls.wellFormed) h)
  have hcall := (hinv k d hd hact).2
  have hcall' := (hinv k' d' hd' hact').2
  rw [heq, hcall'] at hcall
  exact (Option.some.inj hcall).symm

end

end SmartDialer
