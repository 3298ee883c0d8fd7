import SmartDialer.Protocol.AttemptCap
import SmartDialer.Protocol.Inherited
import SmartDialer.Protocol.Origination

/-!
# Attempts are used up

A call is filed under a key that has the number of the attempt in it, one more than the
borrower's `attempt_count`. A borrower who is PENDING again with the count they had is in the
way: the next dial of the same pair finds its key taken, and gives the pair back as it is. So
whoever makes a borrower PENDING should count the attempt that a call was created for. A
release for a retry does. A release as RELEASED and the reclaim of a lease do not, whatever
has become of the dial.

What is asked of a run is said in terms of what was done: calls of the next attempt are created
only by a process that still holds its reservation of the borrower, and the two writes that
count nothing end only a reservation under which no call was created. That the keys are fresh
follows from it.
-/

namespace SmartDialer

open Store Conc

/-! ## Keys -/

instance (s : State) (idempotencyKey : String) : Decidable (KeyFree s idempotencyKey) :=
  decidable_of_iff (∀ d ∈ s.calls.docs, d.idempotencyKey ≠ idempotencyKey)
    ⟨fun h _ d hd => h d (Collection.mem_of_get hd), fun h _ hd => h _ _ (Collection.get_of_mem hd)⟩

/-- The next attempt to call the borrower, by that agent. -/
def Borrower.nextAttempt (b : Borrower) (agentId : String) : Attempt :=
  ⟨b.campaignId, agentId, b.id, b.attemptCount + 1⟩

/-- No call is filed under a key of the borrower's next attempt, by any agent of the campaign. -/
def Borrower.Unused (b : Borrower) (s : State) : Prop :=
  ∀ a ∈ s.agents.docs, a.campaignId = b.campaignId → KeyFree s (b.nextAttempt a.id).key

instance (b : Borrower) (s : State) : Decidable (b.Unused s) :=
  inferInstanceAs (Decidable (∀ a ∈ s.agents.docs, _))

/-- The keys of the next attempts of PENDING borrowers are free. -/
def FreshKeys (s : State) : Prop := ∀ b ∈ s.borrowers.docs, b.status = .pending → b.Unused s

/-! ## The runs -/

/-- The operation creates a call of the borrower's next attempt. -/
def Op.createsNext (b : Borrower) (s : State) : Op → Bool
  | .insertCall campaignId agentId borrowerId _ _ attempt =>
      borrowerId == b.id && attempt == b.attemptCount + 1
        && decide (KeyFree s (buildIdempotencyKey campaignId agentId borrowerId attempt))
  | _ => false

/--
The runs in which a call of a borrower's next attempt is created only by a process that still
holds its reservation of the borrower, and a reservation is ended by a release as RELEASED or
by a lease reclaim only if no call that was inserted under it is stored.
-/
def usingUp (cfg : Settings) : Policy (dialer cfg) where
  task _ := True
  run i o ch s := ch.performs o = true → ∀ b ∈ s.borrowers.docs,
    (o.createsNext b s = true → HoldsTaken i b.id s)
      ∧ (o.forgets b.id s = true →
        ∀ idempotencyKey ∈ keysUnder b.edition s.log, KeyFree s idempotencyKey)

instance (cfg : Settings) : (usingUp cfg).Checkable where
  task _ := .isTrue trivial
  run _ _ _ s := inferInstanceAs (Decidable (_ → ∀ b ∈ s.borrowers.docs, _))

/-- Nothing is under way: every attempt that has a call is in the count. -/
structure AllCounted (s : State) : Prop where
  log : s.log = []
  calls : CallsWellFormed s
  /-- Ids are as `new_id` makes them. -/
  borrowers : ∀ k b, s.borrowers.get k = some b → ColonFree k
  borrowerIds : ∀ k d, s.calls.get k = some d → ColonFree d.borrowerId
  counted : ∀ k d, s.calls.get k = some d → ∀ b ∈ s.borrowers.get d.borrowerId,
    d.attempt ≤ b.attemptCount

/-! ## The invariant -/

/-- The attempt of a call is in the count, or the call was inserted under the reservation. -/
def Call.Counted (d : Call) (b : Borrower) (log : List Entry) : Prop :=
  d.attempt ≤ b.attemptCount
    ∨ d.attempt = b.attemptCount + 1 ∧ b.status = .reserved
      ∧ d.idempotencyKey ∈ keysUnder b.edition log

/-- Calls that are not counted were inserted under the reservation in force. -/
structure Numbered (s : State) : Prop where
  borrowers : ∀ k b, s.borrowers.get k = some b → ColonFree k
  borrowerIds : ∀ k d, s.calls.get k = some d → ColonFree d.borrowerId
  counted : ∀ k d, s.calls.get k = some d → ∀ b ∈ s.borrowers.get d.borrowerId,
    d.Counted b s.log

theorem AllCounted.numbered {s : State} (h : AllCounted s) : Numbered s :=
  ⟨h.borrowers, h.borrowerIds, fun k d hd b hb => .inl (h.counted k d hd b hb)⟩

section

variable {i : Nat} {o : Op} {ch : Choice} {s : State}

/-- The call that is filed under a key is a call of that attempt at that borrower. -/
theorem Numbered.attempt_of_key (hn : Numbered s) (hwf : CallsWellFormed s)
    {campaignId agentId borrowerId : String} {n : Nat} (hid : ColonFree borrowerId) {k : String}
    {d : Call} (hd : s.calls.get k = some d)
    (hkey : d.idempotencyKey = buildIdempotencyKey campaignId agentId borrowerId n) :
    d.borrowerId = borrowerId ∧ d.attempt = n :=
  buildIdempotencyKey_tail (hn.borrowerIds k d hd) hid ((hwf k d hd).key_eq.symm.trans hkey)

/-- An operation that inserts a call has its effect, and leaves the borrowers alone. -/
theorem exec_of_callInsert {k : String} {d : Call} (hins : o.callInsert ch = some d)
    (hnone : s.calls.get k = none) (hget : (exec i o ch s).2.calls.get k = some d) :
    ch.performs o = true ∧ o.borrowerWrite ch = none := by
  refine ⟨?_, ?_⟩
  · by_contra hperf
    rw [exec_of_not_performs (by simpa using hperf)] at hget
    cases hnone.symm.trans hget
  · cases o, d, hins using Op.callInsert_cases with
    | insertCall _ _ _ _ _ _ => rfl

/-- A duplicate key leaves everything as it was. -/
theorem insertCall_duplicate {campaignId agentId borrowerId providerName workerId : String}
    {n : Nat} {ch : Choice} {s : State}
    (h : (exec i (.insertCall campaignId agentId borrowerId providerName workerId n) ch s).1
      = .error .duplicateKeyError) :
    (exec i (.insertCall campaignId agentId borrowerId providerName workerId n) ch s).2
      = s.record (.answered i _ (exec i (.insertCall campaignId agentId borrowerId providerName
          workerId n) ch s).1) := by
  simp only [exec, attempt] at h ⊢
  cases hf : ch.fault with
  | none =>
      simp only [hf, effect] at h ⊢
      split at h
      · cases h
      · rename_i hins
        simp only
  | dbError name performed =>
      rw [hf] at h
      cases h
  | cancelled performed =>
      rw [hf] at h
      cases h

/-- The insertion that has stored a call is on record. -/
theorem inserts_of_stored {campaignId agentId borrowerId providerName workerId : String} {n : Nat}
    {k : String} {d : Call} (hnone : s.calls.get k = none)
    (hget : (exec i (.insertCall campaignId agentId borrowerId providerName workerId n) ch
      s).2.calls.get k = some d) :
    Entry.inserts (.answered i (.insertCall campaignId agentId borrowerId providerName workerId n)
        (exec i (.insertCall campaignId agentId borrowerId providerName workerId n) ch s).1)
      = some (i, buildIdempotencyKey campaignId agentId borrowerId n) := by
  have hanswer : (exec i (.insertCall campaignId agentId borrowerId providerName workerId n) ch
      s).1 ≠ .error .duplicateKeyError := by
    intro hdup
    rw [insertCall_duplicate hdup] at hget
    cases hnone.symm.trans hget
  generalize (exec i (.insertCall campaignId agentId borrowerId providerName workerId n) ch
    s).1 = r at hanswer
  match r, hanswer with
  | .ok _, _ => rfl
  | .error e, hanswer => cases e <;> first | rfl | exact absurd rfl hanswer

/-- **A new call** is of an attempt that is counted, or was inserted under the reservation. -/
theorem counted_of_insert {k : String} {d : Call} (htaken : TakenInv s) (hby : o.ByTaker i s)
    (hc : ∀ b ∈ s.borrowers.docs, o.createsNext b s = true → HoldsTaken i b.id s)
    (hins : o.callInsert ch = some d) (hnone : s.calls.get k = none)
    (hfree : KeyFree s d.idempotencyKey) (hget : (exec i o ch s).2.calls.get k = some d)
    {b : Borrower} (hb : s.borrowers.get d.borrowerId = some b) :
    d.Counted b (exec i o ch s).2.log := by
  cases o, d, hins using Op.callInsert_cases with
  | insertCall campaignId agentId borrowerId providerName workerId n =>
      obtain ⟨t, ht, hid, rfl, -⟩ := hby
      obtain rfl : b.id = borrowerId := Collection.key_of_get hb
      have hle : t.borrower.attemptCount ≤ b.attemptCount :=
        (htaken.stored i t ht).2 b (by rw [hid]; exact hb)
      by_cases hold : t.borrower.attemptCount + 1 ≤ b.attemptCount
      · exact .inl hold
      · -- it is the next attempt, so the process still holds the borrower
        have hnext : t.borrower.attemptCount = b.attemptCount := by omega
        obtain ⟨t', ht', hstored⟩ := hc b (Collection.mem_of_get hb) (by
          rw [Op.createsNext, hnext, decide_eq_true (hnext ▸ hfree), beq_self_eq_true,
            beq_self_eq_true]
          rfl)
        obtain rfl : t = t' := Option.some.inj (ht.symm.trans ht')
        obtain rfl : b = t.borrower := Option.some.inj (hb.symm.trans hstored)
        refine .inr ⟨rfl, htaken.reserved i t ht, ?_⟩
        rw [exec_log, mem_keysUnder_cons]
        exact .inl ⟨i, t, inserts_of_stored hnone hget, ht, rfl⟩

/-- **A call that was there** is counted by whatever ends the reservation. -/
theorem counted_of_evolves {k : String} {d : Call} (hd : s.calls.get k = some d)
    (hc : ch.performs o = true → ∀ b ∈ s.borrowers.docs, o.forgets b.id s = true →
      ∀ idempotencyKey ∈ keysUnder b.edition s.log, KeyFree s idempotencyKey)
    {b b' : Borrower} (hb : s.borrowers.get b.id = some b)
    (hb' : (exec i o ch s).2.borrowers.get b.id = some b')
    (hre : Rewritten (o.borrowerWrite ch) b b') (h : d.Counted b s.log) :
    d.Counted b' (exec i o ch s).2.log := by
  rcases h with hle | ⟨hnext, hres, hkey⟩
  · exact .inl (hle.trans (borrower_advances hre).1)
  · have hkept : b' = b ∨ b'.attemptCount = b.attemptCount + 1 := by
      cases hperf : ch.performs o with
      | false =>
          rw [exec_of_not_performs hperf] at hb'
          exact .inl (Option.some.inj (hb'.symm.trans hb))
      | true =>
          refine counted_of_rewritten hb hres ?_ hre
          rw [← Bool.not_eq_true]
          exact fun hforgets => hc hperf b (Collection.mem_of_get hb) hforgets _ hkey k d hd rfl
    rcases hkept with rfl | hcount
    · refine .inr ⟨hnext, hres, ?_⟩
      rw [exec_log, mem_keysUnder_cons]
      exact .inr hkey
    · exact .inl (by omega)

/-- **One operation.** -/
theorem numbered_exec {cfg : Settings} (hsound : Sound s o) (htaken : TakenInv s)
    (hby : o.ByTaker i s) (hc : (usingUp cfg).run i o ch s) (hn : Numbered s) :
    Numbered (exec i o ch s).2 where
  borrowers k b' hb' := by
    obtain ⟨b, hb, -⟩ := borrower_of_exec hb'
    exact hn.borrowers k b hb
  borrowerIds k d' hd' := by
    rcases call_evolved hsound hd' with ⟨hins, -⟩ | ⟨d, hd, hev⟩
    · cases o, d', hins using Op.callInsert_cases with
      | insertCall _ _ _ _ _ _ =>
          obtain ⟨t, ht, rfl, -⟩ := hby
          obtain ⟨b, hb, -⟩ := (htaken.stored i t ht).1
          exact hn.borrowers _ b hb
    · rw [hev.borrowerId]
      exact hn.borrowerIds k d hd
  counted k d' hd' b' hb' := by
    obtain ⟨b, hb, hre⟩ := borrower_of_exec hb'
    rcases call_evolved hsound hd' with ⟨hins, -, hnone, hfree⟩ | ⟨d, hd, hev⟩
    · obtain ⟨hperf, hwrite⟩ := exec_of_callInsert hins hnone hd'
      rw [hwrite] at hre
      cases hre with
      | same =>
          exact counted_of_insert htaken hby (fun b hb => (hc hperf b hb).1) hins hnone hfree hd' hb
      | written w hw _ _ => cases hw
    · rw [hev.borrowerId] at hb hb'
      obtain hid : b.id = d.borrowerId := Collection.key_of_get hb
      have hcounted := hn.counted k d hd b hb
      rw [← hid] at hb hb'
      rw [Call.Counted, hev.attempt, hev.idempotencyKey]
      exact counted_of_evolves hd (fun hperf b hb => (hc hperf b hb).2) hb hb' hre hcounted

end

/-! ## Every run -/

section

variable {cfg : Settings} {w : World (dialer cfg)}

theorem numbered_reachable (h : Reachable (usingUp cfg) AllCounted w) : Numbered w.st := by
  refine h.invariant_of_awaits (I := Numbered) (fun s hs => hs.numbered) ?_ ?_
  · intro w i o ch hw hi hc hs
    obtain ⟨hwf, hlaw⟩ := lifecycle_reachable (hw.unrestricted fun _ hs => hs.calls)
    exact numbered_exec ⟨hwf, hlaw i o hi⟩ (takenInv_reachable (fun _ hs => hs.log) hw)
      (byTaker_of_awaits hw hi) hc hs
  · exact fun _ _ hs => ⟨hs.borrowers, hs.borrowerIds, hs.counted⟩

/-- A call of the next attempt is stored only for a borrower who is RESERVED. -/
theorem Numbered.fresh {s : State} (hn : Numbered s) (hwf : CallsWellFormed s) : FreshKeys s := by
  intro b hb hpending a _ _ k d hd hkey
  have hget : s.borrowers.get b.id = some b := Collection.get_of_mem hb
  obtain ⟨hid, hattempt⟩ :=
    hn.attempt_of_key hwf (n := b.attemptCount + 1) (hn.borrowers _ b hget) hd hkey
  rcases hn.counted k d hd b (hid ▸ hget) with hle | ⟨-, hres, -⟩
  · omega
  · cases hpending.symm.trans hres

/--
**The keys of PENDING borrowers are fresh.** In every run, of any tasks in any interleaving,
with failures, cancellations, expiring leases and crashes anywhere, in which attempts are used
up: no call is filed under a key of the next attempt of a borrower who is PENDING, whatever
agent of the campaign it is with. Nor is one filed under the key of a pair that is about to
get its call, if its borrower is still as it was reserved: `create_call` does not turn it away.
-/
theorem attempt_keys_fresh (h : Reachable (usingUp cfg) AllCounted w) :
    FreshKeys w.st
      ∧ ∀ i campaignId agentId borrowerId providerName workerId n,
        w.Awaits i (.insertCall campaignId agentId borrowerId providerName workerId n) →
          HoldsTaken i borrowerId w.st →
            KeyFree w.st (buildIdempotencyKey campaignId agentId borrowerId n) := by
  have hn := numbered_reachable h
  have hwf := (lifecycle_reachable (h.unrestricted fun _ hs => hs.calls)).1
  refine ⟨hn.fresh hwf, ?_⟩
  intro i campaignId agentId borrowerId providerName workerId n ho hholds k d hd hkey
  obtain ⟨t, ht, hget⟩ := hholds
  obtain ⟨t', ht', -, rfl, hinserted⟩ := byTaker_of_awaits h ho
  obtain rfl : t = t' := Option.some.inj (ht.symm.trans ht')
  obtain ⟨hid, hattempt⟩ := hn.attempt_of_key hwf (hn.borrowers _ _ hget) hd hkey
  rcases hn.counted k d hd _ (hid ▸ hget) with hle | ⟨-, -, hunder⟩
  · omega
  · -- whatever was inserted under this reservation, this process has inserted
    exact (takenInv_reachable (fun _ hs => hs.log) h).uninserted i t ht hinserted _ hunder

end

/-! ## An attempt that is not used up -/

/-- A dial is cancelled while it waits for the provider. -/
def dialBrokenOff : List (Label (dialer {})) :=
  dialOnce :: List.replicate 4 (.run 0 {}) ++ [.run 0 { newId := "call" }]
    ++ List.replicate 4 (.run 0 {}) ++ .run 0 { fault := .cancelled false }
    :: List.replicate 2 (.run 0 {})

/-- The pair is AVAILABLE and PENDING again, and its key is taken. -/
theorem attempt_key_taken :
    ∃ w, ∃ b ∈ w.st.borrowers.docs, Reachable (allocating {}) Fresh w
      ∧ b.status = .pending ∧ ¬b.Unused w.st := by
  obtain ⟨w, hw, htest⟩ := Reachable.of_play (allocating {}) (s := onePair) (seed_fresh _ _)
    dialBrokenOff
    (fun w => decide (∃ b ∈ w.st.borrowers.docs, b.status = .pending ∧ ¬b.Unused w.st))
    (by decide +kernel)
  obtain ⟨b, hb, hpending, hused⟩ := of_decide_eq_true htest
  exact ⟨w, b, hb, hw, hpending, hused⟩

theorem oneAgent_allCounted : AllCounted oneAgent where
  log := rfl
  calls := oneAgent_fresh.noCalls.wellFormed
  borrowers k b hb := by
    have hid : b.id = k := Collection.key_of_get hb
    rcases List.mem_pair.mp (Collection.mem_of_get hb) with rfl | rfl <;> subst hid <;> decide
  borrowerIds k d hd := by cases hd
  counted k d hd := by cases hd

/-- Process `i` is about to insert a call for the borrower it holds. -/
def insertsForTaken (i : Nat) (w : World (dialer {})) : Bool :=
  match w.awaited i with
  | some (.insertCall _ _ borrowerId _ _ _) => decide (HoldsTaken i borrowerId w.st)
  | _ => false

theorem awaits_of_insertsForTaken {i : Nat} {w : World (dialer {})}
    (h : insertsForTaken i w = true) :
    ∃ campaignId agentId borrowerId providerName workerId n,
      w.Awaits i (.insertCall campaignId agentId borrowerId providerName workerId n)
        ∧ HoldsTaken i borrowerId w.st := by
  rw [insertsForTaken] at h
  split at h
  · rename_i campaignId agentId borrowerId providerName workerId n hawaited
    exact ⟨campaignId, agentId, borrowerId, providerName, workerId, n,
      awaits_of_awaited hawaited, of_decide_eq_true h⟩
  · cases h

/-- A borrower whose call failed is PENDING again, and the agent has reserved another. -/
theorem attempt_keys_fresh_twoDials :
    ∃ w, Reachable (usingUp {}) AllCounted w ∧ FreshKeys w.st
      ∧ (∃ b ∈ w.st.borrowers.docs, b.status = .pending ∧ b.attemptCount = 1)
      ∧ ∃ o, w.Awaits 2 o ∧ ∃ campaignId agentId borrowerId providerName workerId n,
        o = .insertCall campaignId agentId borrowerId providerName workerId n
          ∧ KeyFree w.st (buildIdempotencyKey campaignId agentId borrowerId n) := by
  obtain ⟨w, hw, htest⟩ := Reachable.of_play (usingUp {}) oneAgent_allCounted (twoDials.take 25)
    (fun w => decide (∃ b ∈ w.st.borrowers.docs, b.status = .pending ∧ b.attemptCount = 1)
      && insertsForTaken 2 w)
    (by decide +kernel)
  rw [Bool.and_eq_true] at htest
  obtain ⟨hpending, htest⟩ := htest
  obtain ⟨_, _, _, _, _, _, hawaits, hholds⟩ := awaits_of_insertsForTaken htest
  have hmain := attempt_keys_fresh hw
  exact ⟨w, hw, hmain.1, of_decide_eq_true hpending, _, hawaits, _, _, _, _, _, _, rfl,
    hmain.2 _ _ _ _ _ _ _ hawaits hholds⟩

end SmartDialer
