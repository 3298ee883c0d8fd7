import SmartDialer.Protocol.Contact
import SmartDialer.Protocol.Repertoire

/-!
# A backoff is waited out

A release as RETRY writes down when the borrower is eligible again. Two other updates write to
that field or make the borrower PENDING without looking at it: the reclaim of an expired lease,
and a release as RELEASED. Neither can come in between. Both are for a borrower who is held, and
who waits is held by nobody: there is no worker on record, and no lease that could expire. So
what the retry wrote stays until a clock has read that much, and it is there to be compared
when somebody tries to reserve the borrower.
-/

namespace SmartDialer

open Store Conc

/-! ## Statement -/

section

variable {cfg : Settings}

/-- The operation released the borrower as RETRY, as attempt number `k`. -/
def Retried (m : Moment (dialer cfg)) (borrowerId : String) (k : Nat) : Prop :=
  ∃ workerId maxAttempts backoffBaseSeconds shielded, ∃ b b' : Borrower,
    m.op = .releaseBorrower borrowerId workerId .retry maxAttempts backoffBaseSeconds shielded
      ∧ m.before.borrowers.get borrowerId = some b
      ∧ m.after.borrowers.get borrowerId = some b'
      ∧ b' ≠ b ∧ k = b'.attemptCount

/-- The operation reserved the borrower. -/
def ReservedBorrower (m : Moment (dialer cfg)) (borrowerId : String) : Prop :=
  ∃ campaignId workerId ttlSeconds,
    m.op = .tryReserveBorrower campaignId borrowerId workerId ttlSeconds
      ∧ m.after.borrowers.get borrowerId ≠ m.before.borrowers.get borrowerId

/-- When a borrower released as RETRY at `t`, as attempt number `k`, is to be dialled again. -/
def backoffUntil (cfg : Settings) (t : Time) (k : Nat) : Time :=
  t + seconds (cfg.retryBackoffBaseSeconds * 2 ^ (k - 1))

/-- The borrower waits until `until_`, and nobody holds them. -/
def WaitsUntil (until_ : Time) (borrowerId : String) (s : State) : Prop :=
  ∃ b, s.borrowers.get borrowerId = some b ∧ b.nextEligibleAt = until_ ∧ b.reservedBy = none
    ∧ b.leaseExpiresAt = none

/-! ## One operation -/

/-- A retry makes the borrower wait. -/
theorem waitsUntil_of_retried {m : Moment (dialer cfg)} {borrowerId : String} {k : Nat}
    (ho : m.op.Issued cfg) (h : Retried m borrowerId k) :
    WaitsUntil (backoffUntil cfg m.choice.now k) borrowerId m.after := by
  obtain ⟨workerId, maxAttempts, backoffBaseSeconds, shielded, b, b', hop, hb, hb', hne, rfl⟩ := h
  obtain ⟨i, o, c, s⟩ := m
  obtain rfl : o = _ := hop
  obtain ⟨actor, past, -, rfl⟩ := ho
  obtain ⟨b₁, hb₁, hre⟩ := borrower_of_exec hb'
  obtain rfl : b = b₁ := Option.some.inj (hb.symm.trans hb₁)
  cases hre with
  | same => exact absurd rfl hne
  | written w hw _ _ =>
      obtain rfl := Option.some.inj hw
      exact ⟨_, hb', rfl, rfl, rfl⟩

/-- Who waits goes on waiting, unless it is time. -/
theorem waitsUntil_exec {until_ : Time} {borrowerId : String} {i : Nat} {o : Op} {c : Choice}
    {s : State} (h : WaitsUntil until_ borrowerId s) :
    WaitsUntil until_ borrowerId (exec i o c s).2 ∨ until_ ≤ c.now := by
  obtain ⟨b, hb, rfl, hfree, hlease⟩ := h
  obtain ⟨b', hb', hre⟩ := borrower_exec (i := i) (o := o) (c := c) hb
  cases hre with
  | same => exact .inl ⟨b, hb', rfl, hfree, hlease⟩
  | written w hw _ hp =>
      cases o, w, hw using Op.borrowerWrite_cases with
      | tryReserveBorrower campaignId _ workerId ttlSeconds =>
          exact .inr (BorrowerRepository.claimable_iff.mp hp).2.2
      | releaseBorrower _ workerId outcome maxAttempts backoffBaseSeconds shielded =>
          cases hfree.symm.trans (BorrowerRepository.releasable_iff.mp hp).1
      | reclaimExpiredBorrowerLease candidate now =>
          obtain ⟨-, -, hexpired⟩ := BorrowerRepository.leaseUnchanged_iff.mp hp
          obtain ⟨t, ht, -⟩ := AgentRepository.leaseExpired_iff.mp hexpired
          cases hlease.symm.trans ht

/-- Nobody who waits is reserved before it is time. -/
theorem until_le_of_reserved {until_ : Time} {m : Moment (dialer cfg)} {borrowerId : String}
    (h : WaitsUntil until_ borrowerId m.before) (hres : ReservedBorrower m borrowerId) :
    until_ ≤ m.choice.now := by
  obtain ⟨campaignId, workerId, ttlSeconds, hop, hne⟩ := hres
  obtain ⟨i, o, c, s⟩ := m
  obtain rfl : o = _ := hop
  obtain ⟨b, hb, rfl, -, -⟩ := h
  obtain ⟨b', hb', hre⟩ := borrower_exec (i := i)
    (o := .tryReserveBorrower campaignId borrowerId workerId ttlSeconds) (c := c) hb
  cases hre with
  | same => exact absurd (hb'.trans hb.symm) hne
  | written w hw _ hp =>
      obtain rfl := Option.some.inj hw
      exact (BorrowerRepository.claimable_iff.mp hp).2.2

/-! ## Every run -/

variable {Init : State → Prop} {w : World (dialer cfg).recorded}

/-- What a retry has written stays, until a clock has read that much. -/
theorem waits_or_passed
    (h : Reachable ((Policy.any (dialer cfg)).clocked Choice.now) (Blank Init) w)
    {m : Moment (dialer cfg)} (hm : m ∈ w.st.2) {borrowerId : String} {k : Nat}
    (hretry : Retried m borrowerId k) :
    (∃ m' ∈ w.st.2, backoffUntil cfg m.choice.now k ≤ m'.choice.now)
      ∨ WaitsUntil (backoffUntil cfg m.choice.now k) borrowerId w.st.1 := by
  induction h with
  | init h =>
      rw [h.2] at hm
      cases hm
  | @tail w w' h hs ih =>
      cases hs with
      | spawn _ _ => exact ih hm
      | crash j _ _ _ => exact ih hm
      | run j o k' c hj _ =>
          rcases List.mem_cons.mp hm with rfl | hm
          · have hissued : Op.Issued cfg o :=
              h.awaits (R := Op.Issued cfg) (fun t _ => Task.program_issued t) ⟨k', hj⟩
            exact .inr (waitsUntil_of_retried hissued hretry)
          · rcases ih hm with ⟨m', hm', hle⟩ | hwaits
            · exact .inl ⟨m', List.mem_cons_of_mem _ hm', hle⟩
            · rcases waitsUntil_exec (i := j) (o := o) (c := c) hwaits with hwaits | hle
              · exact .inr hwaits
              · exact .inl ⟨_, List.mem_cons_self, hle⟩

/--
**A backoff is waited out.** In every run of any tasks, in any interleaving, with failures,
cancellations and crashes anywhere and a clock that does not go back: if a borrower is released
as RETRY, with the clock at `t` and as attempt number `k`, whoever reserves the borrower later
reads `t + base * 2 ^ (k - 1)` at least. And until the clock reads that much, that is what the
borrower's `next_eligible_at` says, whatever is done in the meantime.
-/
theorem backoff_honoured
    (h : Reachable ((Policy.any (dialer cfg)).clocked Choice.now) (Blank Init) w) :
    (w.st.2.Pairwise fun later earlier => ∀ borrowerId k, Retried earlier borrowerId k →
        ReservedBorrower later borrowerId →
        earlier.choice.now + seconds (cfg.retryBackoffBaseSeconds * 2 ^ (k - 1))
          ≤ later.choice.now)
      ∧ ∀ m ∈ w.st.2, ∀ borrowerId k, Retried m borrowerId k →
          (∀ m' ∈ w.st.2, m'.choice.now
            < m.choice.now + seconds (cfg.retryBackoffBaseSeconds * 2 ^ (k - 1))) →
          ∃ b, w.st.1.borrowers.get borrowerId = some b ∧ b.nextEligibleAt
            = m.choice.now + seconds (cfg.retryBackoffBaseSeconds * 2 ^ (k - 1)) := by
  constructor
  · rw [List.pairwise_iff_forall_sublist]
    intro later earlier hsub borrowerId k hretry hres
    obtain ⟨past, hsuffix, hearlier⟩ := exists_suffix_of_sublist hsub
    obtain ⟨w', hw', hst, -, hclock⟩ := h.rewind hsuffix
    have hmem : earlier ∈ w'.st.2 := by
      rw [hst]
      exact List.singleton_sublist.mp hearlier
    rcases waits_or_passed hw' hmem hretry with ⟨m', hm', hle⟩ | hwaits
    · exact Int.le_trans hle (hclock.2 m' hm')
    · rw [hst] at hwaits
      exact until_le_of_reserved hwaits hres
  · intro m hm borrowerId k hretry hbefore
    rcases waits_or_passed h hm hretry with ⟨m', hm', hle⟩ | ⟨b, hb, huntil, -, -⟩
    · exact absurd (hbefore m' hm') (Int.not_lt.mpr hle)
    · exact ⟨b, hb, huntil⟩

end

/-- One call, which fails at 1 s, and 60 s later the borrower is reserved again. -/
def redial : List (Label (dialer {})) :=
  oneDial ++ .spawn (.processEvent (eventOf "FAILED")) :: List.replicate 7 (.run 1 { now := 1000 })
    ++ dialOnce :: List.replicate 4 (.run 2 { now := 61000 })

/-- Such a run, in which a borrower is reserved the moment the backoff is over. -/
theorem backoff_honoured_redial :
    ∃ w, Reachable ((Policy.any (dialer {})).clocked Choice.now) (Blank (· = oneBorrower)) w
      ∧ (w.st.1.borrowers.get "borrower").any (fun b => b.status == .reserved
          && b.attemptCount == 1 && b.nextEligibleAt == 61000 && b.reservedAt == some 61000)
      ∧ w.st.2.Pairwise fun later earlier => ∀ borrowerId k, Retried earlier borrowerId k →
          ReservedBorrower later borrowerId →
          earlier.choice.now + seconds (60 * 2 ^ (k - 1)) ≤ later.choice.now := by
  obtain ⟨w, hw, hend⟩ := Reachable.of_play ((Policy.any (dialer {})).clocked Choice.now)
    (show Blank (M := dialer {}) (· = oneBorrower) (oneBorrower, []) from ⟨rfl, rfl⟩)
    (redial.map Label.recorded)
    (fun w => (w.st.1.borrowers.get "borrower").any fun b => b.status == .reserved
      && b.attemptCount == 1 && b.nextEligibleAt == 61000 && b.reservedAt == some 61000)
    (by decide +kernel)
  exact ⟨w, hw, hend, (backoff_honoured hw).1⟩

end SmartDialer
