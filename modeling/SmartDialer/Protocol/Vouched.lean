import SmartDialer.Protocol.Lifecycle

/-!
# What a dial knows of its call

From `create_call` on, a dial has the id of a call, and never reads the call again. What it
relies on later, when it binds the call to its agent and asks the provider for it, is what
was so when `create_call` answered: of a call it inserted, because of what it inserted; of a
call that had the key already, because of nothing but what the run is like. A property of
calls that evolution keeps is carried from there to the provider request.
-/

namespace SmartDialer

open Store Conc

/-! ## Whom a process dials for -/

/-- The worker an operation claims a borrower for. -/
def Op.claimsFor : Op → Option String
  | .tryReserveBorrower _ _ workerId _ => some workerId
  | _ => none

/-- The worker an entry claims a borrower for, if process `i` does. -/
def Entry.claimsFor (i : Nat) : Entry → Option String
  | .answered j o _ => if j = i then o.claimsFor else none
  | .crashed _ => none

/-- The worker process `i` last claimed a borrower for. -/
def claimant (i : Nat) (log : List Entry) : Option String := log.findSome? (Entry.claimsFor i)

section

variable {i : Nat} {o : Op} {ch : Choice} {s : State}

theorem claimant_exec_other {j : Nat} (hj : j ≠ i) :
    claimant j (exec i o ch s).2.log = claimant j s.log :=
  findSome?_exec (if_neg (Ne.symm hj))

theorem claimant_exec : claimant i (exec i o ch s).2.log = o.claimsFor.or (claimant i s.log) := by
  rw [exec_log, claimant, List.findSome?_cons, Entry.claimsFor, if_pos rfl]
  cases o.claimsFor with
  | none => rfl
  | some w => rfl

theorem claimant_crash (j : Nat) : claimant j (crash i s).log = claimant j s.log := rfl

end

/-! ## The logic -/

/-- A stored call has the property. -/
def Known (V : String → Call → Prop) (workerId callId : String) (s : State) : Prop :=
  ∃ d, s.calls.get callId = some d ∧ V workerId d

/-- A call is bound to an agent, and asked of a provider, only if it has the property. -/
def Op.Vouched (V : String → Call → Prop) (s : State) : Op → Prop
  | .bindCall _ workerId callId => Known V workerId callId s
  | .originateCall _ pair request => Known V pair.workerId request.callId s
  | _ => True

/-- What a property of the calls a worker dials needs, for the worker to rely on it. -/
structure Vouchable {cfg : Settings} (P : Policy (dialer cfg)) (V : String → Call → Prop) :
    Prop where
  kept : ∀ {workerId d d'}, d.Evolves d' → V workerId d → V workerId d'
  new : ∀ (c : Choice) campaignId agentId borrowerId providerName workerId attempt,
    V workerId (c.newCall campaignId agentId borrowerId providerName workerId attempt)
  /-- A queued call that has the key already. -/
  found : ∀ {i idempotencyKey c s workerId d}, P.run i (.findByIdempotencyKey idempotencyKey) c s →
    claimant i s.log = some workerId →
    CallRepository.findByIdempotencyKey idempotencyKey s.calls = some d → d.state = .queued →
    V workerId d

section

variable {cfg : Settings} {P : Policy (dialer cfg)} {V : String → Call → Prop}

theorem Known.mono (hV : Vouchable P V) {workerId callId : String} {s s' : State}
    (h : Known V workerId callId s) (hs : CallsEvolve s s') : Known V workerId callId s' := by
  obtain ⟨d, hd, hv⟩ := h
  obtain ⟨d', hd', hev⟩ := hs.kept _ _ hd
  exact ⟨d', hd', hV.kept hev hv⟩

/-- Calls evolve, nobody claims for another process, and what is dialed has the property. -/
def vouching (P : Policy (dialer cfg)) (V : String → Call → Prop) :
    Logic (P.also Sound) Unit where
  Inv _ := True
  Guar i s s' := CallsEvolve s.1 s'.1
    ∧ (∀ j, j ≠ i → claimant j s'.1.log = claimant j s.1.log)
    ∧ ∀ o r, s'.1.log = .answered i o r :: s.1.log → o.Vouched V s.1

variable {i : Nat}

/-- What only depends on the calls, and on whom the process dials for. -/
def Enduring (i : Nat) (A : Assertion Unit) : Prop :=
  ∀ s s', CallsEvolve s.1 s'.1 → claimant i s'.1.log = claimant i s.1.log → A s → A s'

theorem Enduring.stable {A : Assertion Unit} (h : Enduring i A) : (vouching P V).Stable i A :=
  Logic.stable_of_step fun _ s s' hj hg _ ha => h s s' hg.1 (hg.2.1 i hj.symm) ha

/-- The triple of an operation that is known to be vouched for. -/
theorem vouched_atomic {o : Op} {A : Assertion Unit} (hv : ∀ s, A s → o.Vouched V s.1)
    {B : Except Exn (Ans o) → Assertion Unit}
    (hB : ∀ ch s, P.run i o ch s.1 → A s → CallsEvolve s.1 (exec i o ch s.1).2 →
      B (exec i o ch s.1).1 ((exec i o ch s.1).2, ())) :
    (vouching P V).Atomic i o A B := by
  intro s _ hs ch hc
  have hev := (exec_evolve i ch hc.2.lawful hc.2.wellFormed).1
  refine ⟨(), trivial, ⟨hev, fun j hj => claimant_exec_other hj, ?_⟩, hB ch s hc.1 hs hev⟩
  intro o' r hlog
  obtain rfl := answered_exec hlog
  exact hv s hs

/-- An operation that claims nobody keeps what endures. -/
theorem vouched_keep {o : Op} {A : Assertion Unit} (hA : Enduring i A) (ho : o.claimsFor = none)
    (hv : ∀ s, A s → o.Vouched V s.1) : (vouching P V).Atomic i o A fun _ => A := by
  refine vouched_atomic hv fun ch s _ hs hev => hA s _ hev ?_ hs
  rw [claimant_exec, ho]
  rfl

/-- Outside dials, nothing is bound and nothing asked of a provider. -/
theorem vouched_outside {T : CallState → Prop} {o : Op} (ho : Op.Outside T o) :
    (vouching P V).Atomic i o (fun _ => True) fun _ _ => True := by
  refine vouched_atomic (fun _ _ => ?_) fun _ _ _ _ _ => trivial
  cases o with
  | bindCall _ _ _ => exact ho.elim
  | originateCall _ _ _ => exact ho.elim
  | _ => trivial

theorem vouched_reserving {o : Op} (ho : o.Reserving) :
    (vouching P V).Atomic i o (fun _ => True) fun _ _ => True := by
  refine vouched_atomic (fun _ _ => ?_) fun _ _ _ _ _ => trivial
  cases o with
  | bindCall _ _ _ => exact ho.elim
  | originateCall _ _ _ => exact ho.elim
  | _ => trivial

/-! ## Dials -/

/-- Until it has a call, a dial knows its worker; until it has asked for it, that call. -/
def vouchedPoints (V : String → Call → Prop) (i : Nat) (workerId : String) :
    DialPoint → Assertion Unit
  | .held => fun s => claimant i s.1.log = some workerId
  | .created callId | .initiated callId | .dialing callId | .bound callId =>
      fun s => Known V workerId callId s.1
  | _ => fun _ => True

theorem enduring_points (hV : Vouchable P V) (workerId : String) (p : DialPoint) :
    Enduring i (vouchedPoints V i workerId p) := by
  intro s s' hev hsame h
  cases p with
  | held => exact hsame.trans h
  | created _ => exact h.mono hV hev
  | initiated _ => exact h.mono hV hev
  | dialing _ => exact h.mono hV hev
  | bound _ => exact h.mono hV hev
  | _ => trivial

/-- An operation leads to every point that asserts no more. -/
theorem vouched_next (hV : Vouchable P V) {workerId : String} {o : Op} {p q : DialPoint}
    (ho : o.claimsFor = none) (hv : ∀ s, vouchedPoints V i workerId p s → o.Vouched V s.1)
    (hpq : ∀ s, vouchedPoints V i workerId p s → vouchedPoints V i workerId q s) :
    (vouching P V).Atomic i o (vouchedPoints V i workerId p)
      (Next (vouchedPoints V i workerId) fun _ => vouchedPoints V i workerId q) :=
  (vouched_keep (enduring_points hV workerId p) ho hv).mono (fun _ h => h)
    fun _ s h => next_of (fun _ _ => hpq s h) trivial

theorem vouched_dial (hV : Vouchable P V) (campaign : Campaign) (pair : ReservationPair) :
    DialOutline (vouching P V) i campaign pair (vouchedPoints V i pair.workerId) where
  stable p := (enduring_points hV pair.workerId p).stable
  now := vouched_next hV (p := .held) rfl (fun _ _ => trivial) fun _ h => h
  gate := vouched_next hV (p := .held) rfl (fun _ _ => trivial) fun _ h => h
  abandon _ _ := trivial
  releaseAgent _ := vouched_next hV (p := .abandoned _) rfl (fun _ _ => trivial) fun _ h => h
  releaseBorrower _ := vouched_next hV (p := .halfReleased _) rfl (fun _ _ => trivial) fun _ h => h
  insert := by
    refine vouched_atomic ?_ ?_
    · exact fun _ _ => trivial
    intro ch s _ hs hev
    refine onInsert_of (fun call hcall => ?_) (fun _ => ?_) trivial
    · -- what was inserted is what the worker wanted
      obtain ⟨rfl, -, -, hget⟩ := insertCall_ok hcall
      exact onCall_of _ (fun _ => ⟨_, hget, hV.new ..⟩) fun _ => trivial
    · exact enduring_points hV pair.workerId .held s _ hev (claimant_exec.trans rfl) hs
  existing := by
    refine vouched_atomic ?_ ?_
    · exact fun _ _ => trivial
    intro ch s hc hs hev
    refine next_of (fun answer hanswer => ?_) trivial
    cases answer with
    | none => trivial
    | some call =>
        refine onCall_of call (fun hqueued => ?_) fun _ => trivial
        have hfound := Except.ok.inj (exec_ok hanswer).1
        have hknown : Known V pair.workerId call.id s.1 :=
          ⟨call, (findByIdempotencyKey_some hanswer).1, hV.found hc hs hfound hqueued⟩
        exact hknown.mono hV hev
  reserve _ := vouched_next hV (p := .created _) rfl (fun _ _ => trivial) fun _ h => h
  initiate callId := by
    refine Logic.Atomic.mono (vouched_keep (enduring_points hV pair.workerId (.created callId))
      rfl fun _ _ => trivial) (fun _ h => h) ?_
    intro _ s h
    refine next_of (fun answer _ => ?_) trivial
    cases answer with
    | none => trivial
    | some _ => exact h
  dialAgent _ := vouched_next hV (p := .initiated _) rfl (fun _ _ => trivial) fun _ h => h
  bind _ := vouched_next hV (p := .dialing _) rfl (fun _ h => h) fun _ h => h
  originate callId := Logic.Atomic.mono
    (vouched_keep (enduring_points hV pair.workerId (.bound callId)) rfl fun _ h => h)
    (fun _ h => h) fun _ _ _ => onOriginate_of (fun _ => trivial) (fun _ => trivial) trivial
  attach callId _ := by
    refine Logic.Atomic.mono (vouched_keep (enduring_points hV pair.workerId (.accepted callId))
      rfl fun _ _ => trivial) (fun _ h => h) ?_
    intro _ s _
    refine next_of (fun answer _ => ?_) trivial
    cases answer with
    | none => trivial
    | some _ => trivial
  hangup callId _ := Logic.Atomic.mono
    (vouched_keep (enduring_points hV pair.workerId (.refused callId)) rfl fun _ _ => trivial)
    (fun _ h => h) fun _ _ _ => onHangup_of (fun _ => trivial) trivial
  fail _ _ := vouched_next hV (p := .refused _) rfl (fun _ _ => trivial) fun _ _ => trivial
  compensateAgent :=
    vouched_keep (enduring_points hV pair.workerId .aborted) rfl fun _ _ => trivial
  compensateBorrower :=
    vouched_keep (enduring_points hV pair.workerId .aborted) rfl fun _ _ => trivial

/-- Whoever has a pair claimed its borrower last. -/
theorem vouched_allocate (hV : Vouchable P V) (campaign : Campaign) (workerId : String) :
    AllocateOutline (vouching P V) i campaign workerId (fun _ _ => True) (fun _ _ _ => True)
      fun _ pair => vouchedPoints V i pair.workerId where
  skip _ _ _ := trivial
  reserve _ :=
    { stable_idle := Logic.stable_true
      stable_claimed := fun _ => Logic.stable_true
      findAgents := Logic.Atomic.mono (vouched_reserving trivial) (fun _ h => h)
        fun _ _ h => unless_of fun _ => h
      claimAgent := fun _ => Logic.Atomic.mono (vouched_reserving trivial) (fun _ h => h)
        fun _ _ h => onClaim_of (fun _ _ => trivial) fun _ => h
      findBorrowers := fun _ => Logic.Atomic.mono (vouched_reserving trivial) (fun _ h => h)
        fun _ _ h => unless_of fun _ => h
      claimBorrower := fun agent borrowerId => by
        refine vouched_atomic ?_ ?_
        · exact fun _ _ => trivial
        intro ch s _ _ _
        exact onClaim_of (fun _ _ => claimant_exec.trans rfl) fun _ => trivial
      giveBack := fun _ => Logic.Atomic.mono (vouched_reserving trivial) (fun _ h => h)
        fun _ _ h => unless_of fun _ => h }
  dial _ := vouched_dial hV campaign
  done _ _ _ _ := trivial

/-- Every task binds and asks for what it may vouch for. -/
theorem vouching_verified (hV : Vouchable P V) : (vouching P V).Verified fun _ => True where
  init _ _ := ⟨(), trivial⟩
  task t _ i s _ := wp_program (fun _ => vouched_outside)
    (fun campaign workerId => ⟨_, _, vouched_allocate hV campaign workerId⟩) t s
  crash i s _ := by
    refine ⟨(), trivial, .of_calls_eq rfl, fun j _ => claimant_crash j, ?_⟩
    intro o r hlog
    cases (List.cons.inj hlog).1

/--
**What a worker dials, it may vouch for.** In every run of the policy, of any tasks in any
interleaving: a call that is bound to an agent, or asked of a provider, is stored and has the
property.
-/
theorem vouched_reachable (hV : Vouchable P V) {Init : State → Prop}
    (hinit : ∀ s, Init s → CallsWellFormed s) {w : World (dialer cfg)} (h : Reachable P Init w)
    {o : Op} {c : Choice} (ho : w.Awaits i o) (hc : P.run i o c w.st) : o.Vouched V w.st := by
  have hsound := sound_run hinit h
  obtain ⟨hwf, hlaw⟩ := lifecycle_reachable (h.unrestricted hinit)
  have hv : (vouching P V).Verified Init := ⟨fun _ _ => ⟨(), trivial⟩,
    (vouching_verified hV).task, (vouching_verified hV).crash⟩
  obtain ⟨_, _, -, hguar⟩ := hv.guar hsound ho ⟨hc, hwf, hlaw i o ho⟩
  exact hguar.2.2 o _ (exec_log i o c w.st)

end

end SmartDialer
