import SmartDialer.Protocol.Retries
import SmartDialer.Protocol.Taken

/-!
# How often a provider is asked

The limit on attempts is kept by a count in the borrower's document, and the count is raised by
the releases that say there was an attempt. Two other writes take a borrower out of RESERVED: a
release as RELEASED and the reclaim of an expired lease. They make it dialable again with the
count it had, whether or not a provider was asked under the reservation they end.

So two things are asked of a run: that neither of the two writes ends a reservation under which
a provider was asked, and that a process asks only while its own reservation of the borrower is
still in force. Then at most one originate is not in the count, the one made under the
reservation in force, and there is no second: an edition of a borrower is in the hand of one
process, and it asks once.
-/

namespace SmartDialer

open Store Conc

/-! ## Statement -/

/-- The entry is an originate for the borrower. -/
def Entry.asksFor (borrowerId : String) : Entry → Bool
  | .answered _ (.originateCall _ pair _) _ => pair.borrower.id == borrowerId
  | _ => false

/-- How often a provider was asked to call the borrower. -/
def originatesFor (borrowerId : String) (log : List Entry) : Nat :=
  log.countP (Entry.asksFor borrowerId)

/-- The operation asks a provider to call the borrower. -/
def Op.asksFor (borrowerId : String) : Op → Bool
  | .originateCall _ pair _ => pair.borrower.id == borrowerId
  | _ => false

/-- The operation takes the borrower out of RESERVED without counting an attempt. -/
def Op.forgets (borrowerId : String) (s : State) : Op → Bool
  | .releaseBorrower id workerId .released _ _ _ =>
      id == borrowerId && (s.borrowers.get id).any (BorrowerRepository.releasable workerId)
  | .reclaimExpiredBorrowerLease candidate now =>
      candidate.id == borrowerId
        && (s.borrowers.get candidate.id).any (BorrowerRepository.leaseUnchanged candidate now)
  | _ => false

/--
The runs in which a process asks for the borrower only while it still holds its reservation of
them, and no reservation under which a provider was asked is ended by a release as RELEASED or
by a lease reclaim.
-/
def countingAttempts (borrowerId : String) (cfg : Settings) : Policy (dialer cfg) where
  task _ := True
  run i o ch s := (o.asksFor borrowerId = true → HoldsTaken i borrowerId s)
    ∧ (ch.performs o = true → o.forgets borrowerId s = true →
      ∀ b ∈ s.borrowers.get borrowerId, askedUnder b.edition s.log = false)

instance (borrowerId : String) (cfg : Settings) :
    (countingAttempts borrowerId cfg).Checkable where
  task _ := .isTrue trivial
  run _ _ _ _ := inferInstanceAs (Decidable (_ ∧ _))

/-- Nobody was dialled, and nothing has happened yet. -/
structure Untouched (s : State) : Prop where
  unattempted : Unattempted s
  log : s.log = []

/-! ## The count -/

/-- Every originate is in the count, or all but one, made under the reservation in force. -/
def Borrower.Counts (b : Borrower) (log : List Entry) : Prop :=
  originatesFor b.id log ≤ b.attemptCount
    ∨ b.status = .reserved ∧ originatesFor b.id log = b.attemptCount + 1
      ∧ askedUnder b.edition log = true

/-- Nobody has asked for the borrower, or the borrower's document counts it. -/
def AttemptsInv (borrowerId : String) (s : State) : Prop :=
  originatesFor borrowerId s.log = 0
    ∨ ∃ b, s.borrowers.get borrowerId = some b ∧ b.Counts s.log

/-- What a write does to a RESERVED borrower: nothing, or it is counted, or forgotten. -/
theorem counted_of_rewritten {o : Op} {ch : Choice} {s : State} {b b' : Borrower}
    (hb : s.borrowers.get b.id = some b) (hres : b.status = .reserved)
    (hkept : o.forgets b.id s = false) (hre : Rewritten (o.borrowerWrite ch) b b') :
    b' = b ∨ b'.attemptCount = b.attemptCount + 1 := by
  cases hre with
  | same => exact .inl rfl
  | written w hw hk hp =>
      cases o, w, hw using Op.borrowerWrite_cases with
      | tryReserveBorrower campaignId borrowerId workerId ttlSeconds =>
          have hpending : b.status = .pending := (BorrowerRepository.claimable_iff.mp hp).2.1
          cases hres.symm.trans hpending
      | releaseBorrower borrowerId workerId outcome maxAttempts backoffBaseSeconds shielded =>
          cases outcome with
          | released =>
              obtain rfl : b.id = borrowerId := hk
              rw [Op.forgets, hb, Option.any_some, beq_self_eq_true, Bool.true_and] at hkept
              cases hkept.symm.trans hp
          | contacted => exact .inr rfl
          | retry => exact .inr rfl
      | reclaimExpiredBorrowerLease candidate now =>
          have hk' : b.id = candidate.id := hk
          rw [Op.forgets, ← hk', hb, Option.any_some, beq_self_eq_true, Bool.true_and] at hkept
          cases hkept.symm.trans hp

theorem originatesFor_exec (borrowerId : String) (i : Nat) (o : Op) (ch : Choice) (s : State) :
    originatesFor borrowerId (exec i o ch s).2.log
      = originatesFor borrowerId s.log + if o.asksFor borrowerId then 1 else 0 := by
  rw [exec_log, originatesFor, List.countP_cons]
  cases o <;> rfl

/-- An originate writes to no borrower. -/
theorem borrowers_of_asksFor {borrowerId : String} {i : Nat} {o : Op} {ch : Choice} {s : State}
    (h : o.asksFor borrowerId = true) : (exec i o ch s).2.borrowers = s.borrowers := by
  rcases exec_borrowers i o ch s with he | ⟨w, hw, -⟩
  · exact he
  · cases o with
    | originateCall _ _ _ => cases hw
    | _ => cases h

/-- **An originate** by a process that holds its reservation is the first under it. -/
theorem attemptsInv_ask {borrowerId : String} {i : Nat} {o : Op} {ch : Choice} {s : State}
    (htaken : TakenInv s) (hby : o.ByTaker i s) (hasks : o.asksFor borrowerId = true)
    (hholds : HoldsTaken i borrowerId s) (h : AttemptsInv borrowerId s) :
    AttemptsInv borrowerId (exec i o ch s).2 := by
  obtain ⟨t, ht, hget⟩ := hholds
  have hid : t.borrower.id = borrowerId := Collection.key_of_get hget
  cases o with
  | originateCall providerName pair request =>
      obtain ⟨t', ht', hpair, hasked⟩ := hby
      obtain rfl : t = t' := Option.some.inj (ht.symm.trans ht')
      have hfirst : askedUnder t.borrower.edition s.log = false := htaken.unasked i t ht hasked
      -- whatever was asked before is in the count
      have hle : originatesFor borrowerId s.log ≤ t.borrower.attemptCount := by
        rcases h with hzero | ⟨b, hb, hcount⟩
        · omega
        · obtain rfl := Option.some.inj (hb.symm.trans hget)
          rcases hcount with hle | ⟨-, -, hunder⟩
          · rwa [hid] at hle
          · cases hfirst.symm.trans hunder
      refine .inr ⟨t.borrower, by rw [borrowers_of_asksFor hasks, hget], ?_⟩
      rw [Borrower.Counts, hid, originatesFor_exec, if_pos hasks, askedUnder_exec]
      by_cases hlt : originatesFor borrowerId s.log + 1 ≤ t.borrower.attemptCount
      · exact .inl hlt
      · refine .inr ⟨htaken.reserved i t ht, by omega, ?_⟩
        rw [Bool.or_eq_true]
        exact .inl (beq_iff_eq.mpr (congrArg Borrower.edition hpair.symm))
  | _ => cases hasks

/-- **Any other operation** counts the originate, or leaves the reservation in force. -/
theorem attemptsInv_other {cfg : Settings} {borrowerId : String} {i : Nat} {o : Op} {ch : Choice}
    {s : State} (hasks : o.asksFor borrowerId = false)
    (hc : (countingAttempts borrowerId cfg).run i o ch s) (h : AttemptsInv borrowerId s) :
    AttemptsInv borrowerId (exec i o ch s).2 := by
  rw [AttemptsInv, originatesFor_exec, hasks]
  rcases h with hzero | ⟨b, hb, hcount⟩
  · exact .inl hzero
  · refine .inr ?_
    obtain rfl : b.id = borrowerId := Collection.key_of_get hb
    obtain ⟨b', hb', hre⟩ := borrower_exec (i := i) (o := o) (c := ch) hb
    have hid : b'.id = b.id := Collection.key_of_get hb'
    refine ⟨b', hb', ?_⟩
    rw [Borrower.Counts, hid, originatesFor_exec, hasks]
    rcases hcount with hle | ⟨hres, heq, hunder⟩
    · exact .inl (hle.trans (borrower_advances hre).1)
    · by_cases hperf : ch.performs o = true
      · have hkept : o.forgets b.id s = false := by
          rw [← Bool.not_eq_true]
          intro hforgets
          cases (hc.2 hperf hforgets b hb).symm.trans hunder
        rcases counted_of_rewritten hb hres hkept hre with rfl | hcount'
        · exact .inr ⟨hres, heq, by rw [askedUnder_exec, hunder, Bool.or_true]⟩
        · exact .inl (by simp only [Bool.false_eq_true, if_false]; omega)
      · rw [Bool.not_eq_true] at hperf
        rw [exec_of_not_performs hperf] at hb'
        obtain rfl : b = b' := Option.some.inj (hb.symm.trans hb')
        exact .inr ⟨hres, heq, by rw [askedUnder_exec, hunder, Bool.or_true]⟩

section

variable {cfg : Settings}

theorem attemptsInv_reachable {borrowerId : String} {w : World (dialer cfg)}
    (h : Reachable (countingAttempts borrowerId cfg) Untouched w) :
    AttemptsInv borrowerId w.st := by
  refine h.invariant_of_awaits (I := AttemptsInv borrowerId) ?_ ?_ (fun _ _ hs => hs)
  · exact fun s hs => .inl (by rw [hs.log]; rfl)
  · intro w i o ch hw hi hc hs
    by_cases hasks : o.asksFor borrowerId = true
    · exact attemptsInv_ask (takenInv_reachable (fun _ hs => hs.log) hw)
        (byTaker_of_awaits hw hi) hasks (hc.1 hasks) hs
    · exact attemptsInv_other (by simpa using hasks) hc hs

/--
**The attempt cap holds where every attempt is counted.** In every run in which a process asks
for the borrower only while it still holds its reservation of them, and in which no reservation
under which a provider was asked is ended by a release as RELEASED or by a lease reclaim,
providers are asked for the borrower at most `max_call_attempts` times.
-/
theorem originates_le_cap (hm : 1 ≤ cfg.maxCallAttempts) {borrowerId : String}
    {w : World (dialer cfg)} (h : Reachable (countingAttempts borrowerId cfg) Untouched w) :
    (originatesFor borrowerId w.st.log : Int) ≤ cfg.maxCallAttempts := by
  have hcons : BorrowersConsistent cfg.maxCallAttempts w.st :=
    borrowersConsistent_reachable (fun s hs => hs.unattempted.consistent hm) h
  rcases attemptsInv_reachable h with hzero | ⟨b, hb, hcount⟩
  · omega
  · have hid : b.id = borrowerId := Collection.key_of_get hb
    rw [Borrower.Counts, hid] at hcount
    rcases hcount with hle | ⟨hres, heq, -⟩
    · have hmax := (hcons _ b hb).count_le
      omega
    · have hbelow := (hcons _ b hb).below (.inr hres)
      omega

end

/-! ## Dials that are cancelled -/

theorem nodup_fourAgents :
    ((["first", "second", "third", "fourth"].map idleAgent).map key).Nodup := by
  decide

/-- Four agents, and one borrower. -/
def fourAgents : State :=
  seed ⟨["first", "second", "third", "fourth"].map idleAgent, nodup_fourAgents⟩
    ⟨[pendingBorrower "borrower"], nodup_borrower⟩

theorem fourAgents_untouched : Untouched fourAgents where
  unattempted k b hb := by
    obtain rfl := List.mem_singleton.mp (Collection.mem_of_get hb)
    exact ⟨rfl, rfl, rfl, rfl⟩
  log := rfl

/-- Process `i` dials once, at time `i + 1`, and is cancelled while it waits for the provider. -/
def cancelledDial (i : Nat) : List (Label (dialer {})) :=
  let now : Time := i + 1
  dialOnce :: List.replicate 4 (.run i { now := now })
    ++ [.run i { now := now, newId := i.repr }] ++ List.replicate 4 (.run i { now := now })
    ++ [.run i { now := now, fault := .cancelled true }] ++ List.replicate 2 (.run i { now := now })

/-- Four dials of one borrower, each with another agent, each cancelled, and none counted. -/
theorem originates_above_cap :
    ¬∀ w, Reachable (Policy.any (dialer {})) Untouched w →
      originatesFor "borrower" w.st.log ≤ 3 := by
  intro hall
  obtain ⟨w, hw, hfour⟩ := Reachable.of_play (Policy.any (dialer {})) fourAgents_untouched
    (cancelledDial 0 ++ cancelledDial 1 ++ cancelledDial 2 ++ cancelledDial 3)
    (fun w => originatesFor "borrower" w.st.log == 4) (by decide +kernel)
  have hle := hall w hw
  rw [beq_iff_eq.mp hfour] at hle
  exact absurd hle (by decide)

/-- A dial that fails, and is counted. -/
theorem originates_le_cap_oneFailure :
    ∃ w, Reachable (countingAttempts "borrower" {}) Untouched w
      ∧ originatesFor "borrower" w.st.log = 1
      ∧ (originatesFor "borrower" w.st.log : Int) ≤ 3 := by
  obtain ⟨w, hw, hone⟩ := Reachable.of_play (countingAttempts "borrower" {}) fourAgents_untouched
    (oneDial ++ .spawn (.processEvent (eventOf "FAILED")) :: List.replicate 7 (.run 1 {}))
    (fun w => originatesFor "borrower" w.st.log == 1
      && (w.st.borrowers.get "borrower").any (fun b => b.status == .pending
        && b.attemptCount == 1)) (by decide +kernel)
  exact ⟨w, hw, beq_iff_eq.mp (Bool.and_eq_true_iff.mp hone).1,
    originates_le_cap (by decide) hw⟩

end SmartDialer
