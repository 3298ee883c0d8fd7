import SmartDialer.Protocol.Handover

/-!
# A borrower who was reached

That a borrower was reached is recorded twice: by the call, which is COMPLETED and was
answered, and by the borrower, which is CONTACTED. The second write is a step of its own, and
two sweeps may take its place: one reclaims a borrower's lease whatever became of the call,
and the other, when it reconciles a call to COMPLETED, releases the borrower for a retry. Nor
does anybody look for the other dial that is on its way when a call to a borrower completes.

So the condition of the main theorem is about these two moments, and who is on the way to an
originate is read off the log, as in the chapter on what a provider is asked to call: a
process that is about to ask for a call has the borrower in what it sets up
(`settingUp_of_originate`). That holds of all runs; the rest is an invariant of the documents.
-/

namespace SmartDialer

open Store Conc

/-! ## Statement -/

/-- The borrower was reached: the call is COMPLETED, and was answered. -/
def Call.Reached (d : Call) : Prop := d.state = .completed ∧ d.answeredAt.isSome = true

instance (d : Call) : Decidable d.Reached := inferInstanceAs (Decidable (_ ∧ _))

/-- The borrower has a call that reached it. -/
def Contacted (borrowerId : String) (s : State) : Prop :=
  ∃ k d, s.calls.get k = some d ∧ d.borrowerId = borrowerId ∧ d.Reached

/-- No process is about to originate a call to the borrower, and none can reserve it. -/
structure NotRedialled {cfg : Settings} (borrowerId : String) (w : World (dialer cfg)) : Prop where
  originated : ∀ i providerName pair request,
    w.Awaits i (.originateCall providerName pair request) → pair.borrower.id ≠ borrowerId
  /-- Whatever the clock says, the filter of the reservation does not hold. -/
  reserved : ∀ b, w.st.borrowers.get borrowerId = some b → ∀ campaignId now,
    BorrowerRepository.claimable campaignId now b = false

/-- The borrower is PENDING. -/
def State.pending (s : State) (borrowerId : String) : Bool :=
  (s.borrowers.get borrowerId).any fun b => b.status == .pending

/-- The borrower whose answered call the operation moves to COMPLETED. -/
def Op.reaches (s : State) : Op → Option String
  | .transitionCall callId .completed _ =>
      ((s.calls.get callId).filter fun d =>
        CallRepository.advanceable .completed d && d.answeredAt.isSome).map Call.borrowerId
  | _ => none

/-- The operation makes the borrower PENDING. -/
def Op.reopens (ch : Choice) (s : State) (borrowerId : String) (o : Op) : Bool :=
  (o.borrowerWrite ch).any fun w => w.target == borrowerId &&
    (s.borrowers.get borrowerId).any fun b => w.filter b && (w.update.apply b).status == .pending

/--
The runs in which an answered call is moved to COMPLETED only while its borrower is not
PENDING and nobody is setting up a call to it, and no borrower who was reached is made
PENDING again.
-/
def contactHeeded (cfg : Settings) : Policy (dialer cfg) where
  task _ := True
  run _ o ch s := ch.performs o = true →
    (∀ k ∈ o.reaches s, s.pending k = false
      ∧ ∀ e ∈ s.log, (settingUp e.process s.log).borrowerId ≠ some k)
    ∧ ∀ d ∈ s.calls.docs, d.Reached → o.reopens ch s d.borrowerId = false

instance (cfg : Settings) : (contactHeeded cfg).Checkable where
  task _ := .isTrue trivial
  run _ o _ s := inferInstanceAs (Decidable (_ → (∀ k ∈ o.reaches s, _) ∧ _))

/-- Nothing has happened yet, and no borrower who was reached is PENDING. -/
structure ContactsKept (s : State) : Prop where
  log : s.log = []
  wellFormed : CallsWellFormed s
  kept : ∀ k, Contacted k s → s.pending k = false

/-! ## Who is on the way to an originate -/

section

variable {cfg : Settings} {i : Nat} {o : Op}

/-- The borrower of an originate request is being set up by the process that makes it. -/
def Op.SetUpBy (i : Nat) (s : State) : Op → Prop
  | .originateCall _ pair _ => (settingUp i s.log).borrowerId = some pair.borrower.id
  | _ => True

/-- Nobody has a hand in what others set up, and requests are made for what was set up. -/
def settingUpLogic (cfg : Settings) : Logic (Policy.any (dialer cfg)) Unit where
  Inv _ := True
  Guar i s s' := (∀ j, j ≠ i → settingUp j s'.1.log = settingUp j s.1.log)
    ∧ ∀ o r, s'.1.log = .answered i o r :: s.1.log → o.SetUpBy i s.1

/-- The triple of an operation; only an originate request has something to show for. -/
theorem settingUp_atomic {A : Assertion Unit} {B : Except Exn (Ans o) → Assertion Unit}
    (hset : ∀ s, A s → o.SetUpBy i s.1)
    (hB : ∀ ch s, A s → B (exec i o ch s.1).1 ((exec i o ch s.1).2, ())) :
    (settingUpLogic cfg).Atomic i o A B := by
  intro s _ hs ch _
  refine ⟨(), trivial, ⟨fun j hj => settingUp_other hj o ch s.1, ?_⟩, hB ch s hs⟩
  intro o' r hlog
  rw [exec_log] at hlog
  obtain ⟨-, rfl, -⟩ := Entry.answered.inj (List.cons.inj hlog).1
  exact hset s hs

/-- Process `i` is setting up a call to the borrower. -/
def SetsUp (i : Nat) (borrowerId : String) : Assertion Unit := fun s =>
  (settingUp i s.1.log).borrowerId = some borrowerId

theorem setsUp_stable (borrowerId : String) :
    (settingUpLogic cfg).Stable i (SetsUp i borrowerId) := by
  refine Logic.stable_of_step fun j s s' hj hg _ h => ?_
  rw [SetsUp, hg.1 i hj.symm]
  exact h

/-- An answer that changes nothing of what is set up. -/
theorem setsUp_exec {borrowerId : String} {ch : Choice} {s : State × Unit}
    (hafter : (settingUp i s.1.log).after o (exec i o ch s.1).1 = settingUp i s.1.log)
    (h : SetsUp i borrowerId s) : SetsUp i borrowerId ((exec i o ch s.1).2, ()) := by
  rw [SetsUp, settingUp_self, hafter]
  exact h

/-- Until the request, a dial is setting up a call to its borrower. -/
def setUpPoints (i : Nat) (pair : ReservationPair) : DialPoint → Assertion Unit
  | .held | .created _ | .initiated _ | .dialing _ | .bound _ => SetsUp i pair.borrower.id
  | _ => fun _ => True

variable {pair : ReservationPair}

theorem setUpPoints_stable (p : DialPoint) :
    (settingUpLogic cfg).Stable i (setUpPoints i pair p) := by
  cases p <;> first | exact setsUp_stable _ | exact Logic.stable_true

/-- The triple of an operation that a dial goes on after. -/
theorem setsUp_next (o : Op) (ho : ∀ s : State, o.SetUpBy i s)
    (hafter : ∀ (u : SettingUp) (a : Ans o), u.after o (.ok a) = u)
    {f : Ans o → Assertion Unit} (hf : ∀ a s, SetsUp i pair.borrower.id s → f a s) :
    (settingUpLogic cfg).Atomic i o (SetsUp i pair.borrower.id) (Next (setUpPoints i pair) f) := by
  refine settingUp_atomic (fun s _ => ho s.1) fun ch s hs => ?_
  refine next_of (fun a heq => hf a _ (setsUp_exec ?_ hs)) trivial
  rw [heq]
  exact hafter _ a

/-- Where nothing is asserted any more. -/
theorem settled_next (ho : ∀ s : State, o.SetUpBy i s) {p q : DialPoint}
    (hq : ∀ s, setUpPoints i pair q s) :
    (settingUpLogic cfg).Atomic i o (setUpPoints i pair p)
      (Next (setUpPoints i pair) fun _ => setUpPoints i pair q) :=
  settingUp_atomic (fun s _ => ho s.1) fun _ _ _ => next_of (fun _ _ => hq _) trivial

theorem setUp_dial (campaign : Campaign) (pair : ReservationPair) :
    DialOutline (settingUpLogic cfg) i campaign pair (setUpPoints i pair) where
  stable := setUpPoints_stable
  now := setsUp_next .utcNow (fun _ => trivial) (fun _ _ => rfl) fun _ _ h => h
  gate := setsUp_next (.shouldAllowRetry _) (fun _ => trivial) (fun _ _ => rfl) fun _ _ h => h
  abandon _ _ := trivial
  releaseAgent _ := settled_next (o := .releaseAgent _ _ _ _ _) (q := .halfReleased _)
    (fun _ => trivial) fun _ => trivial
  releaseBorrower _ := settled_next (o := .releaseBorrower _ _ _ _ _ _) (q := .done)
    (fun _ => trivial) fun _ => trivial
  insert := by
    refine settingUp_atomic (fun _ _ => trivial) fun ch s hs => ?_
    cases heq : (exec i (.insertCall campaign.id pair.agent.id pair.borrower.id
        campaign.providerName pair.workerId (pair.borrower.attemptCount + 1)) ch s.1).1 with
    | ok call =>
        refine onCall_of call (fun _ => setsUp_exec ?_ hs) fun _ => trivial
        rw [heq]
        rfl
    | error e =>
        cases e with
        -- the refused insertion is followed by the look-up, and the borrower stays set up
        | duplicateKeyError =>
            refine setsUp_exec ?_ hs
            rw [heq]
            rfl
        | _ => exact fun _ => trivial
  existing := setsUp_next (.findByIdempotencyKey _) (fun _ => trivial) (fun _ _ => rfl)
    fun answer _ h => match answer with
    | none => trivial
    | some call => onCall_of call (fun _ => h) fun _ => trivial
  reserve _ := setsUp_next (.transitionCall _ _ _) (fun _ => trivial) (fun _ _ => rfl)
    fun _ _ h => h
  initiate _ := setsUp_next (.transitionCall _ _ _) (fun _ => trivial) (fun _ _ => rfl)
    fun answer _ h => match answer with
    | none => trivial
    | some _ => h
  dialAgent _ := setsUp_next (.transitionAgent _ _ _ _) (fun _ => trivial) (fun _ _ => rfl)
    fun _ _ h => h
  bind _ := setsUp_next (.bindCall _ _ _) (fun _ => trivial) (fun _ _ => rfl) fun _ _ h => h
  originate _ := by
    refine settingUp_atomic (fun _ h => h) fun _ _ _ => ?_
    exact onOriginate_of (fun _ => trivial) (fun _ => trivial) trivial
  attach _ _ := by
    refine settingUp_atomic (fun _ _ => trivial) fun _ _ _ => ?_
    exact next_of (fun answer _ => by cases answer <;> trivial) trivial
  hangup _ _ := by
    refine settingUp_atomic (fun _ _ => trivial) fun _ _ _ => ?_
    exact onHangup_of (fun _ => trivial) trivial
  fail _ _ := settled_next (o := .transitionCall _ _ _) (q := .abandoned .retry)
    (fun _ => trivial) fun _ => trivial
  compensateAgent := settingUp_atomic (fun _ _ => trivial) fun _ _ _ => trivial
  compensateBorrower := settingUp_atomic (fun _ _ => trivial) fun _ _ _ => trivial

/-- Whatever is no originate request may happen at any time. -/
theorem settingUp_any (ho : ∀ s : State, o.SetUpBy i s) :
    (settingUpLogic cfg).Atomic i o (fun _ => True) fun _ _ => True :=
  settingUp_atomic (fun s _ => ho s.1) fun _ _ _ => trivial

theorem setUp_allocate (campaign : Campaign) (workerId : String) :
    AllocateOutline (settingUpLogic cfg) i campaign workerId (fun _ _ => True)
      (fun _ _ _ => True) fun _ pair => setUpPoints i pair where
  skip _ _ _ := trivial
  reserve _ :=
    { stable_idle := Logic.stable_true
      stable_claimed := fun _ => Logic.stable_true
      findAgents := Logic.Atomic.mono
        (settingUp_any (o := .findClaimableAgents _ _) fun _ => trivial) (fun _ h => h)
        fun _ _ h => unless_of fun _ => h
      claimAgent := fun _ => Logic.Atomic.mono
        (settingUp_any (o := .tryReserveAgent _ _ _ _) fun _ => trivial) (fun _ h => h)
        fun _ _ h => onClaim_of (fun _ _ => trivial) fun _ => h
      findBorrowers := fun _ => Logic.Atomic.mono
        (settingUp_any (o := .findClaimableBorrowers _ _) fun _ => trivial) (fun _ h => h)
        fun _ _ h => unless_of fun _ => h
      claimBorrower := by
        intro agent borrowerId
        refine settingUp_atomic (fun _ _ => trivial) fun ch s _ => ?_
        refine onClaim_of (fun borrower heq => ?_) fun _ => trivial
        change SetsUp i borrower.id _
        rw [SetsUp, settingUp_self, heq]
        rfl
      giveBack := fun _ => Logic.Atomic.mono
        (settingUp_any (o := .releaseAgent _ _ _ _ _) fun _ => trivial)
        (fun _ _ => trivial) fun _ _ h => unless_of fun _ => h }
  dial _ := setUp_dial campaign
  done _ _ _ _ := trivial

theorem settingUp_verified : (settingUpLogic cfg).Verified fun _ => True where
  init _ _ := ⟨(), trivial⟩
  task t _ i s _ := by
    refine wp_program ?_ (fun campaign workerId =>
      ⟨_, _, setUp_allocate campaign workerId⟩) t s
    intro o ho
    refine settingUp_any fun _ => ?_
    cases o with
    | originateCall _ _ _ => exact ho.elim
    | _ => trivial
  crash i s _ := by
    refine ⟨(), trivial, fun j hj => if_neg (Ne.symm hj), ?_⟩
    intro o r hlog
    cases (List.cons.inj hlog).1

/-- **Whoever is about to ask for a call to a borrower is setting it up.** -/
theorem settingUp_of_originate {w : World (dialer cfg)}
    (h : Reachable (Policy.any (dialer cfg)) (fun _ => True) w) {providerName : String}
    {pair : ReservationPair} {request : OriginateRequest}
    (hi : w.Awaits i (.originateCall providerName pair request)) :
    (settingUp i w.st.log).borrowerId = some pair.borrower.id := by
  obtain ⟨_, _, -, -, hset⟩ := settingUp_verified.guar h (c := ({} : Choice)) hi trivial
  exact hset _ _ (exec_log ..)

end

/-! ## What one operation does -/

section

variable {i : Nat} {o : Op} {ch : Choice} {s : State} {k : String}

/-- A borrower who was reached was so before, or the operation is what reached it. -/
theorem contacted_of_exec (h : Contacted k (exec i o ch s).2) :
    Contacted k s ∨ ch.performs o = true ∧ o.reaches s = some k := by
  obtain ⟨callId, d', hd', hk, hreached⟩ := h
  cases hperf : ch.performs o with
  | false =>
      rw [exec_of_not_performs hperf] at hd'
      exact .inl ⟨callId, d', hd', hk, hreached⟩
  | true =>
      rcases call_of_exec hd' with ⟨hins, -⟩ | ⟨d, hd, hre⟩
      · -- a new call is queued
        cases o, d', hins using Op.callInsert_cases with
        | insertCall _ _ _ _ _ _ => cases hreached.1
      · cases hre with
        | same => exact .inl ⟨callId, d', hd, hk, hreached⟩
        | written w hw hkey hp =>
            cases o, w, hw using Op.callWrite_cases with
            | attachProviderCallId _ _ => exact .inl ⟨callId, d, hd, hk, hreached⟩
            | transitionCall target t reason =>
                obtain rfl : t = .completed := hreached.1
                obtain rfl : target = callId := hkey.symm.trans (Collection.key_of_get hd)
                have hanswered : d.answeredAt.isSome = true := hreached.2
                have hp' : CallRepository.advanceable .completed d = true := hp
                refine .inr ⟨rfl, ?_⟩
                rw [Op.reaches, hd, Option.filter_some, if_pos]
                · exact congrArg some hk
                · rw [hp', hanswered]
                  rfl

/-- A PENDING borrower was so before, or the operation is what made it so. -/
theorem pending_of_exec (h : (exec i o ch s).2.pending k = true) :
    s.pending k = true ∨ ch.performs o = true ∧ o.reopens ch s k = true := by
  obtain ⟨b', hb', hstatus⟩ := Option.any_eq_true _ _ |>.mp h
  cases hperf : ch.performs o with
  | false =>
      rw [exec_of_not_performs hperf] at hb'
      exact .inl (Option.any_eq_true _ _ |>.mpr ⟨b', hb', hstatus⟩)
  | true =>
      obtain ⟨b, hb, hre⟩ := borrower_of_exec hb'
      cases hre with
      | same => exact .inl (Option.any_eq_true _ _ |>.mpr ⟨b', hb, hstatus⟩)
      | written w hw hkey hp =>
          have hid : w.target = k := hkey.symm.trans (Collection.key_of_get hb)
          refine .inr ⟨rfl, ?_⟩
          rw [Op.reopens, hw, Option.any_some, hid, hb, Option.any_some, hp, hstatus]
          simp

/-- A borrower that is being set up was so before, or was PENDING. -/
theorem settingUp_of_exec {j : Nat}
    (h : (settingUp j (exec i o ch s).2.log).borrowerId = some k) :
    (settingUp j s.log).borrowerId = some k ∨ s.pending k = true := by
  rcases eq_or_ne j i with rfl | hj
  · rw [settingUp_self] at h
    generalize hans : (exec j o ch s).1 = r at h
    cases r with
    | error e =>
        by_cases he : o.survives e = true
        · rw [after_error he] at h
          exact .inl h
        · have hnone : ((settingUp j s.log).after o (.error e)).borrowerId = none := by
            cases o <;> first | rfl | exact congrArg SettingUp.borrowerId (if_neg he)
          rw [hnone] at h
          cases h
    | ok answer =>
        cases o with
        | tryReserveAgent _ _ _ _ =>
            cases answer with
            | none => exact .inl h
            | some a => cases h
        | tryReserveBorrower campaignId borrowerId workerId ttlSeconds =>
            cases answer with
            | none => exact .inl h
            | some b' =>
                -- the filter of the reservation held
                obtain ⟨b, hb, hp, -⟩ := tryReserveBorrower_some hans
                obtain rfl : b'.id = k := Option.some.inj h
                obtain ⟨-, hpending, -⟩ := BorrowerRepository.claimable_iff.mp hp
                exact .inr (Option.any_eq_true _ _ |>.mpr ⟨b, hb, beq_iff_eq.mpr hpending⟩)
        | releaseAgent _ _ _ _ _ => cases h
        | originateCall _ _ _ => cases h
        | _ => exact .inl h
  · rw [settingUp_other hj] at h
    exact .inl h

/-- An operation that reaches a borrower does not write to borrowers. -/
theorem not_reopens_of_reaches (h : o.reaches s = some k) (k' : String) :
    o.reopens ch s k' = false := by
  cases o with
  | transitionCall _ _ _ => rfl
  | _ => cases h

/-- No borrower who was reached is PENDING, or being set up. -/
def ContactSafe (s : State) : Prop :=
  ∀ k, Contacted k s → s.pending k = false
    ∧ ∀ j, (settingUp j s.log).borrowerId ≠ some k

/-- **One operation** that meets the condition. -/
theorem contactSafe_exec {cfg : Settings} (hc : (contactHeeded cfg).run i o ch s)
    (h : ContactSafe s) : ContactSafe (exec i o ch s).2 := by
  intro k hcontacted
  -- before the operation the borrower is neither PENDING nor being set up
  have hbefore : s.pending k = false ∧ ∀ j, (settingUp j s.log).borrowerId ≠ some k := by
    rcases contacted_of_exec hcontacted with hold | ⟨hperf, hreaches⟩
    · exact h k hold
    · obtain ⟨hpending, hnobody⟩ := (hc hperf).1 k hreaches
      refine ⟨hpending, fun j hj => ?_⟩
      obtain ⟨e, he, rfl⟩ := mem_of_settingUp (.inr (Option.ne_none_iff_exists'.mpr ⟨k, hj⟩))
      exact hnobody e he hj
  refine ⟨?_, fun j hj => ?_⟩
  · by_contra hpending
    rw [Bool.not_eq_false] at hpending
    rcases pending_of_exec hpending with hold | ⟨hperf, hreopens⟩
    · cases hbefore.1.symm.trans hold
    · rcases contacted_of_exec hcontacted with ⟨callId, d, hd, rfl, hreached⟩ | ⟨-, hreaches⟩
      · have hnot := (hc hperf).2 d (Collection.mem_of_get hd) hreached
        cases hnot.symm.trans hreopens
      · cases (not_reopens_of_reaches hreaches k).symm.trans hreopens
  · rcases settingUp_of_exec hj with hold | hpending
    · exact hbefore.2 j hold
    · cases hbefore.1.symm.trans hpending

theorem contactSafe_crash (h : ContactSafe s) : ContactSafe (crash i s) := by
  intro k hcontacted
  obtain ⟨hpending, hnobody⟩ := h k hcontacted
  refine ⟨hpending, fun j hj => ?_⟩
  change (if i = j then ({} : SettingUp) else settingUp j s.log).borrowerId = some k at hj
  split at hj
  · cases hj
  · exact hnobody j hj

end

/-! ## Every run -/

variable {cfg : Settings}

theorem contactSafe_reachable {w : World (dialer cfg)}
    (h : Reachable (contactHeeded cfg) ContactsKept w) : ContactSafe w.st := by
  refine h.invariant (I := ContactSafe) (R := fun _ => True)
    (fun t _ => Prog.all_of_forall (fun _ => trivial) _) (fun s hs k hk => ?_)
    (fun i o c s _ hc hs => contactSafe_exec hc hs) (fun i s hs => contactSafe_crash hs)
  refine ⟨hs.kept k hk, fun j hj => ?_⟩
  rw [hs.log] at hj
  cases hj

theorem contacted_exec {i : Nat} {o : Op} {ch : Choice} {s : State} {k : String}
    (hwf : CallsWellFormed s) (h : Contacted k s) : Contacted k (exec i o ch s).2 := by
  obtain ⟨callId, d, hd, hk, hreached⟩ := h
  obtain ⟨d', hd', hre⟩ := call_exec (i := i) (o := o) (c := ch) hd
  cases hre with
  | same => exact ⟨callId, d, hd', hk, hreached⟩
  | written w hw hkey hp =>
      cases o, w, hw using Op.callWrite_cases with
      | attachProviderCallId _ _ =>
          exact ⟨callId, _, hd', hk, hreached⟩
      | transitionCall target t reason =>
          -- the call has ended
          have hterm : d.terminal = true := by
            rw [(hwf callId d hd).terminal_eq, hreached.1]
            rfl
          cases hterm.symm.trans (CallRepository.advanceable_iff.mp hp).1

/-- A borrower who was reached stays so. -/
theorem contacted_steps {P : Policy (dialer cfg)} {Init : State → Prop}
    (hinit : ∀ s, Init s → CallsWellFormed s) {w w' : World (dialer cfg)}
    (h : Reachable P Init w) (hlater : Relation.ReflTransGen (Step P) w w') {k : String}
    (hk : Contacted k w.st) : Contacted k w'.st := by
  induction hlater with
  | refl => exact hk
  | tail hrun hs ih =>
      have hwf := (lifecycle_reachable ((h.steps hrun).unrestricted hinit)).1
      cases hs with
      | spawn t _ => exact ih
      | run i o k c _ _ => exact contacted_exec hwf ih
      | crash i o k _ => exact ih

/--
**Nobody who was reached is called again**, in every run in which an answered call is moved to
COMPLETED only while its borrower is not PENDING and nobody is setting up a call to it, and no
borrower who was reached is made PENDING again: once a borrower has a COMPLETED call that was
answered, no step from then on reserves it, or originates a call to it.
-/
theorem contacted_not_redialled {w w' : World (dialer cfg)}
    (h : Reachable (contactHeeded cfg) ContactsKept w) {k : String} (hk : Contacted k w.st)
    (hlater : Relation.ReflTransGen (Step (contactHeeded cfg)) w w') : NotRedialled k w' := by
  have hsafe := contactSafe_reachable (h.steps hlater)
  have hkept := contacted_steps (fun _ hs => hs.wellFormed) h hlater hk
  refine ⟨?_, ?_⟩
  · rintro i providerName pair request hi rfl
    have hset := settingUp_of_originate ((h.steps hlater).unrestricted fun _ _ => trivial) hi
    exact (hsafe _ hkept).2 i hset
  · intro b hb campaignId now
    have hpending := (hsafe k hkept).1
    rw [State.pending, hb, Option.any_some] at hpending
    rw [BorrowerRepository.claimable, hpending]
    simp

/-! ## A crash between the two writes -/

theorem nodup_substitutes : ([idleAgent "agent", idleAgent "substitute"].map key).Nodup := by
  decide

/-- Two agents, and one borrower. -/
def oneBorrower : State :=
  seed ⟨[idleAgent "agent", idleAgent "substitute"], nodup_substitutes⟩
    ⟨[pendingBorrower "borrower"], nodup_borrower⟩

theorem oneBorrower_contactsKept : ContactsKept oneBorrower where
  log := rfl
  wellFormed := (seed_fresh _ _).noCalls.wellFormed
  kept k h := by
    obtain ⟨callId, d, hd, -⟩ := h
    cases hd

/-- The call "call" has reached the borrower. -/
def reachedBy (callId borrowerId : String) (s : State) : Bool :=
  (s.calls.get callId).any fun d => d.borrowerId == borrowerId && decide d.Reached

theorem contacted_of_reachedBy {callId borrowerId : String} {s : State}
    (h : reachedBy callId borrowerId s = true) : Contacted borrowerId s := by
  obtain ⟨d, hd, htest⟩ := Option.any_eq_true _ _ |>.mp h
  rw [Bool.and_eq_true, beq_iff_eq, decide_eq_true_eq] at htest
  exact ⟨callId, d, hd, htest⟩

/-- Process `i` is about to originate a call to the borrower. -/
def dials (i : Nat) (borrowerId : String) (w : World (dialer {})) : Bool :=
  match w.awaited i with
  | some (.originateCall _ pair _) => pair.borrower.id == borrowerId
  | _ => false

theorem redialled_of_dials {i : Nat} {borrowerId : String} {w : World (dialer {})}
    (h : dials i borrowerId w = true) : ¬NotRedialled borrowerId w := by
  intro hnot
  rw [dials] at h
  split at h
  · rename_i providerName pair request hi
    exact hnot.originated i providerName pair request (awaits_of_awaited hi) (beq_iff_eq.mp h)
  · cases h

/-- The call is answered and completed, and the processor of the second event dies. -/
def completedThenCrash : List (Label (dialer {})) :=
  oneDial ++ .spawn (.processEvent (eventOf "ANSWERED")) :: List.replicate 6 (.run 1 {})
    ++ .spawn (.processEvent (eventOf "COMPLETED")) :: List.replicate 3 (.run 2 {}) ++ [.crash 2]

/-- The leases of both run out, and the borrower is dialled again with the other agent. -/
def sweptAndRedialled : List (Label (dialer {})) :=
  .spawn .runSweeps :: List.replicate 6 (.run 3 { now := 31000 })
    ++ dialOnce :: (dialSchedule 31000 4 "second-call" "second-provider-call").take 9

/-- A borrower who was reached is called again. -/
theorem contacted_redialled :
    ¬∀ w w' : World (dialer {}), Reachable (Policy.any (dialer {})) Fresh w → ∀ k,
      Contacted k w.st → Relation.ReflTransGen (Step (Policy.any (dialer {}))) w w' →
        NotRedialled k w' := by
  intro hall
  obtain ⟨w, hw, htest⟩ := Reachable.of_play (Policy.any (dialer {})) (s := oneBorrower)
    (seed_fresh _ _) completedThenCrash (fun w => reachedBy "call" "borrower" w.st
      && (w.play (Policy.any (dialer {})) sweptAndRedialled).any (dials 4 "borrower"))
    (by decide +kernel)
  rw [Bool.and_eq_true] at htest
  obtain ⟨w', hw', hdials⟩ := Option.any_eq_true _ _ |>.mp htest.2
  exact redialled_of_dials hdials
    (hall w w' hw "borrower" (contacted_of_reachedBy htest.1) (steps_of_play hw'))

/-- A call that is answered and completed, and the next allocation, which finds nobody. -/
theorem contacted_not_redialled_oneCall :
    ∃ w w' : World (dialer {}), Reachable (contactHeeded {}) ContactsKept w
      ∧ Contacted "borrower" w.st
      ∧ Relation.ReflTransGen (Step (contactHeeded {})) w w'
      ∧ w'.procs.length = 4 ∧ NotRedialled "borrower" w' := by
  obtain ⟨w, hw, htest⟩ := Reachable.of_play (contactHeeded {}) (s := oneBorrower)
    oneBorrower_contactsKept (completedThenCrash.dropLast) (fun w =>
      reachedBy "call" "borrower" w.st && (w.play (contactHeeded {})
        (List.replicate 4 (.run 2 {}) ++ dialOnce :: List.replicate 4 (.run 3 {}))).any
          fun w' => w'.procs.length == 4)
    (by decide +kernel)
  rw [Bool.and_eq_true] at htest
  obtain ⟨w', hw', hlen⟩ := Option.any_eq_true _ _ |>.mp htest.2
  have hk := contacted_of_reachedBy htest.1
  have hlater := steps_of_play hw'
  exact ⟨w, w', hw, hk, hlater, beq_iff_eq.mp hlen, contacted_not_redialled hw hk hlater⟩

end SmartDialer
