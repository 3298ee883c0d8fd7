import SmartDialer.Protocol.Discipline
import SmartDialer.Protocol.Lifecycle

/-!
# Borrowers and their attempts

A borrower carries a status, a count of attempts and a lease, and five updates write to
them: the reservation, the three outcomes of a release, and the reclaim of an expired lease.
The filters see only the status, the worker and the lease; that the count agrees is an
invariant, and the retry update needs it, since it compares what it has just written with
the number of attempts allowed.
-/

namespace SmartDialer

open Store Conc

/-! ## Statement -/

/-- Nobody is to dial this borrower again. -/
def BorrowerStatus.closed : BorrowerStatus → Bool
  | .contacted | .exhausted | .failed | .dnc => true
  | _ => false

/-- The status of a borrower agrees with the lease and with the number of attempts. -/
structure Borrower.Consistent (m : Int) (b : Borrower) : Prop where
  /-- Who is RESERVED, and nobody else, has a worker. -/
  worker : b.reservedBy.isSome = true ↔ b.status = .reserved
  /-- Who is RESERVED, and nobody else, has a lease. -/
  lease : b.leaseExpiresAt.isSome = true ↔ b.status = .reserved
  /-- Who may still be dialled has attempts left. -/
  below : b.status = .pending ∨ b.status = .reserved → (b.attemptCount : Int) < m
  /-- Who is EXHAUSTED has used all of them. -/
  exhausted : b.status = .exhausted → (b.attemptCount : Int) = m
  /-- There are no more attempts than allowed. -/
  count_le : (b.attemptCount : Int) ≤ m

/-- What may become of a borrower. -/
structure Borrower.Advances (b b' : Borrower) : Prop where
  /-- Attempts are never forgotten. -/
  attempts : b.attemptCount ≤ b'.attemptCount
  /-- Who is not to be dialled again stays so. -/
  closed : b.status.closed = true → b'.status = b.status ∧ b'.attemptCount = b.attemptCount

/-- All borrowers are consistent. -/
def BorrowersConsistent (m : Int) (s : State) : Prop :=
  ∀ k b, s.borrowers.get k = some b → b.Consistent m

/-- Nobody was dialled yet. -/
def Unattempted (s : State) : Prop :=
  ∀ k b, s.borrowers.get k = some b → b.status = .pending ∧ b.attemptCount = 0
    ∧ b.reservedBy = none ∧ b.leaseExpiresAt = none

/-! ## One write -/

theorem Borrower.Advances.refl (b : Borrower) : b.Advances b where
  attempts := le_rfl
  closed _ := ⟨rfl, rfl⟩

theorem Borrower.Advances.trans {b b' b'' : Borrower} (h : b.Advances b')
    (h' : b'.Advances b'') : b.Advances b'' where
  attempts := h.attempts.trans h'.attempts
  closed hc := by
    obtain ⟨hstatus, hcount⟩ := h.closed hc
    obtain ⟨hstatus', hcount'⟩ := h'.closed (by rw [hstatus]; exact hc)
    exact ⟨hstatus'.trans hstatus, hcount'.trans hcount⟩

/-- Whom a write frees was RESERVED, if they were consistent. -/
theorem reserved_of_releasable {m : Int} {b : Borrower} {workerId : String}
    (h : b.Consistent m) (hp : BorrowerRepository.releasable workerId b = true) :
    b.status = .reserved := by
  refine h.worker.mp ?_
  rw [(BorrowerRepository.releasable_iff.mp hp).1]
  rfl

theorem reserved_of_leaseUnchanged {m : Int} {b candidate : Borrower} {now : Time}
    (h : b.Consistent m) (hp : BorrowerRepository.leaseUnchanged candidate now b = true) :
    b.status = .reserved := by
  obtain ⟨-, -, hexpired⟩ := BorrowerRepository.leaseUnchanged_iff.mp hp
  obtain ⟨t, ht, -⟩ := AgentRepository.leaseExpired_iff.mp hexpired
  exact h.lease.mp (Option.isSome_iff_exists.mpr ⟨t, ht⟩)

/-- The retry update compares the count it has just raised: it closes on the last attempt. -/
theorem buildRetryUpdate_consistent {m : Int} {b : Borrower} (h : (b.attemptCount : Int) < m)
    (now : Time) (backoffBaseSeconds : Int) :
    (BorrowerRepository.buildRetryUpdate now m backoffBaseSeconds b).Consistent m := by
  have hcount : ((BorrowerRepository.buildRetryUpdate now m backoffBaseSeconds b).attemptCount
      : Int) = b.attemptCount + 1 := by
    simp [BorrowerRepository.buildRetryUpdate]
  have hstatus : (BorrowerRepository.buildRetryUpdate now m backoffBaseSeconds b).status
      = if m ≤ (b.attemptCount : Int) + 1 then .exhausted else .pending := by
    simp [BorrowerRepository.buildRetryUpdate]
  have hopen : (BorrowerRepository.buildRetryUpdate now m backoffBaseSeconds b).status
      ≠ .reserved := by
    rw [hstatus]
    split <;> intro h <;> cases h
  refine ⟨iff_of_false Bool.false_ne_true hopen, iff_of_false Bool.false_ne_true hopen, ?_, ?_,
    by omega⟩
  · intro hs
    rw [hcount]
    by_contra hle
    rw [hstatus, if_pos (by omega)] at hs
    exact hs.elim (fun h => by cases h) fun h => by cases h
  · intro hs
    rw [hcount]
    by_contra hne
    rw [hstatus, if_neg (by omega)] at hs
    cases hs

/-- **What a write makes of a consistent borrower.** -/
theorem consistent_of_rewritten {cfg : Settings} {o : Op} {ch : Choice} {b b' : Borrower}
    (hd : o.Disciplined cfg) (h : b.Consistent cfg.maxCallAttempts)
    (hre : Rewritten (o.borrowerWrite ch) b b') :
    b'.Consistent cfg.maxCallAttempts ∧ b.Advances b' := by
  cases hre with
  | same => exact ⟨h, .refl b⟩
  | written w hw hk hp =>
      cases o, w, hw using Op.borrowerWrite_cases with
      | tryReserveBorrower campaignId borrowerId workerId ttlSeconds =>
          have hpending : b.status = .pending := (BorrowerRepository.claimable_iff.mp hp).2.1
          have hbelow := h.below (.inl hpending)
          refine ⟨⟨?_, ?_, fun _ => hbelow, (fun h => by cases h), h.count_le⟩, le_rfl, ?_⟩
          · simp [BorrowerRepository.reserve]
          · simp [BorrowerRepository.reserve]
          · rw [hpending]
            intro h
            cases h
      | releaseBorrower borrowerId workerId outcome maxAttempts backoffBaseSeconds shielded =>
          obtain rfl : maxAttempts = cfg.maxCallAttempts := hd
          have hreserved := reserved_of_releasable h hp
          have hbelow := h.below (.inr hreserved)
          -- a borrower that is released was RESERVED, so nothing is said of a closed one
          have hopen : b.status.closed = true → False := by
            rw [hreserved]
            intro h
            cases h
          cases outcome with
          | released =>
              refine ⟨⟨?_, ?_, fun _ => hbelow, (fun h => by cases h), h.count_le⟩, le_rfl,
                fun hc => (hopen hc).elim⟩
              · simp [BorrowerRepository.release]
              · simp [BorrowerRepository.release]
          | contacted =>
              refine ⟨⟨?_, ?_, ?_, (fun h => by cases h), hbelow⟩, Nat.le_succ _,
                fun hc => (hopen hc).elim⟩
              · simp [BorrowerRepository.release]
              · simp [BorrowerRepository.release]
              · simp [BorrowerRepository.release]
          | retry =>
              exact ⟨buildRetryUpdate_consistent hbelow .., Nat.le_succ _,
                fun hc => (hopen hc).elim⟩
      | reclaimExpiredBorrowerLease candidate now =>
          have hreserved := reserved_of_leaseUnchanged h hp
          have hbelow := h.below (.inr hreserved)
          refine ⟨⟨?_, ?_, fun _ => hbelow, (fun h => by cases h), h.count_le⟩, le_rfl, ?_⟩
          · simp [BorrowerRepository.reclaim]
          · simp [BorrowerRepository.reclaim]
          · rw [hreserved]
            intro h
            cases h

/-! ## Every run -/

variable {cfg : Settings}

theorem borrowersConsistent_exec {i : Nat} {o : Op} {ch : Choice} {s : State}
    (hd : o.Disciplined cfg) (h : BorrowersConsistent cfg.maxCallAttempts s) :
    BorrowersConsistent cfg.maxCallAttempts (exec i o ch s).2 := by
  intro k b' hb'
  obtain ⟨b, hb, hre⟩ := borrower_of_exec hb'
  exact (consistent_of_rewritten hd (h k b hb) hre).1

theorem Unattempted.consistent {m : Int} {s : State} (hm : 1 ≤ m) (h : Unattempted s) :
    BorrowersConsistent m s := by
  intro k b hb
  obtain ⟨hstatus, hcount, hworker, hlease⟩ := h k b hb
  refine ⟨?_, ?_, fun _ => ?_, ?_, ?_⟩
  · simp [hworker, hstatus]
  · simp [hlease, hstatus]
  · rw [hcount]
    exact hm
  · rw [hstatus]
    intro h
    cases h
  · omega

theorem borrowersConsistent_reachable {P : Policy (dialer cfg)} {Init : State → Prop}
    (hinit : ∀ s, Init s → BorrowersConsistent cfg.maxCallAttempts s)
    {w : World (dialer cfg)} (h : Reachable P Init w) :
    BorrowersConsistent cfg.maxCallAttempts w.st :=
  h.invariant (I := BorrowersConsistent cfg.maxCallAttempts) (R := Op.Disciplined cfg)
    (fun t _ => Task.program_disciplined t) hinit
    (fun _ _ _ _ hd _ hs => borrowersConsistent_exec hd hs) fun _ _ hs => hs

/-- **One step** lets every borrower advance, and loses none. -/
theorem borrowers_step {P : Policy (dialer cfg)} {w w' : World (dialer cfg)}
    (hcons : BorrowersConsistent cfg.maxCallAttempts w.st)
    (hall : ∀ i o, w.Awaits i o → Op.Disciplined cfg o) (hs : Step P w w') :
    ∀ k b, w.st.borrowers.get k = some b →
      ∃ b', w'.st.borrowers.get k = some b' ∧ b.Advances b' := by
  intro k b hb
  cases hs with
  | spawn t _ => exact ⟨b, hb, .refl b⟩
  | run i o k' ch hi _ =>
      obtain ⟨b', hb', hre⟩ := borrower_exec (i := i) (o := o) (c := ch) hb
      exact ⟨b', hb', (consistent_of_rewritten (hall i o ⟨k', hi⟩) (hcons k b hb) hre).2⟩
  | crash i o k' _ => exact ⟨b, hb, .refl b⟩

/--
**The retry policy.** In every run, of any tasks in any interleaving, with failures,
cancellations and crashes anywhere, from a state in which nobody was dialled: every borrower
is consistent; and whatever the run goes on to do, no borrower loses an attempt, and one
that is not to be dialled again keeps its status and its count.
-/
theorem borrower_retry_policy (hm : 1 ≤ cfg.maxCallAttempts) {w : World (dialer cfg)}
    (h : Reachable (Policy.any (dialer cfg)) Unattempted w) :
    BorrowersConsistent cfg.maxCallAttempts w.st
      ∧ ∀ w', Relation.ReflTransGen (Step (Policy.any (dialer cfg))) w w' →
        ∀ k b, w.st.borrowers.get k = some b →
          ∃ b', w'.st.borrowers.get k = some b' ∧ b.Advances b' := by
  have hcons : ∀ w', Reachable (Policy.any (dialer cfg)) Unattempted w' →
      BorrowersConsistent cfg.maxCallAttempts w'.st :=
    fun w' hw' => borrowersConsistent_reachable (fun s hs => hs.consistent hm) hw'
  refine ⟨hcons w h, ?_⟩
  intro w' hrun
  have hboth : Reachable (Policy.any (dialer cfg)) Unattempted w' ∧
      ∀ k b, w.st.borrowers.get k = some b →
        ∃ b', w'.st.borrowers.get k = some b' ∧ b.Advances b' := by
    induction hrun with
    | refl => exact ⟨h, fun k b hb => ⟨b, hb, .refl b⟩⟩
    | tail _ hs ih =>
        obtain ⟨hmid, hadv⟩ := ih
        refine ⟨.tail hmid hs, ?_⟩
        intro k b hb
        obtain ⟨b', hb', h'⟩ := hadv k b hb
        have hall := fun i o => hmid.awaits (i := i) (o := o) (R := Op.Disciplined cfg)
          fun t _ => Task.program_disciplined t
        obtain ⟨b'', hb'', h''⟩ := borrowers_step (hcons _ hmid) hall hs k b' hb'
        exact ⟨b'', hb'', h'.trans h''⟩
  exact hboth.2

theorem oneAgent_unattempted : Unattempted oneAgent := by
  intro k b hb
  rcases List.mem_pair.mp (Collection.mem_of_get hb) with rfl | rfl <;> exact ⟨rfl, rfl, rfl, rfl⟩

/-- Such a run, in which a dial fails and the borrower is PENDING again. -/
theorem borrower_retry_policy_oneFailure :
    ∃ w, Reachable (Policy.any (dialer {})) Unattempted w
      ∧ (w.st.borrowers.get "borrower").any
        (fun b => b.status == .pending && b.attemptCount == 1)
      ∧ BorrowersConsistent 3 w.st := by
  obtain ⟨w, hw, hcount⟩ := Reachable.of_play (Policy.any (dialer {})) oneAgent_unattempted
    (oneDial ++ .spawn (.processEvent (eventOf "FAILED")) :: List.replicate 7 (.run 1 {}))
    (fun w => (w.st.borrowers.get "borrower").any
      (fun b => b.status == .pending && b.attemptCount == 1))
    (by decide +kernel)
  exact ⟨w, hw, hcount, (borrower_retry_policy (by decide) hw).1⟩

end SmartDialer
