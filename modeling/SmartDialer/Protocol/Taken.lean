import SmartDialer.Protocol.Parties

/-!
# Borrowers in hand

A reservation answers the borrower as it is from then on, and every later write to it raises
its version. So the id and the version of a borrower, its *edition*, tell one reservation from
all others, whoever made them; and what a process does for the borrower it reserved last can be
read off the log: whether it has inserted a call since, and whether it has asked a provider.

`byTaker_of_awaits` is what the allocator knows of this when it inserts its call and when it
asks: it does both for the borrower it has in hand, and for the first time. It holds of all
runs, and so does the invariant that follows from it: nobody else has the same edition in hand,
and nothing was done under it by anybody else.
-/

namespace SmartDialer

open Store Conc

/-! ## What is in hand -/

/-- The borrower a process reserved last, and what the process has done since. -/
structure Taken where
  /-- As the reservation answered it. -/
  borrower : Borrower
  /-- A call was inserted. -/
  inserted : Bool := false
  /-- A provider was asked. -/
  asked : Bool := false

/-- What an answer makes of that; an insertion that is refused by the unique index is none. -/
def Taken.after (u : Option Taken) : (o : Op) → Except Exn (Ans o) → Option Taken
  | .tryReserveBorrower .., .ok (some b) => some { borrower := b }
  | .insertCall .., .error .duplicateKeyError => u
  | .insertCall .., _ => u.map fun t => { t with inserted := true }
  | .originateCall .., _ => u.map fun t => { t with asked := true }
  | _, _ => u

/-- What process `i` has in hand. -/
def taken (i : Nat) : List Entry → Option Taken
  | [] => none
  | .answered j o r :: log => if j = i then Taken.after (taken i log) o r else taken i log
  | .crashed _ :: log => taken i log

/-- The process still holds its reservation of the borrower: nothing has been written since. -/
def HoldsTaken (i : Nat) (borrowerId : String) (s : State) : Prop :=
  ∃ t ∈ taken i s.log, s.borrowers.get borrowerId = some t.borrower

instance (i : Nat) (borrowerId : String) (s : State) : Decidable (HoldsTaken i borrowerId s) :=
  inferInstanceAs (Decidable (∃ t ∈ taken i s.log, _))

/-! ## Editions -/

/-- The borrower, and how often it has been written. -/
def Borrower.edition (b : Borrower) : String × Nat := (b.id, b.stateVersion)

/-- The entry asks a provider to call the borrower, as it was reserved. -/
def Entry.asksUnder (x : String × Nat) : Entry → Bool
  | .answered _ (.originateCall _ pair _) _ => pair.borrower.edition == x
  | _ => false

/-- A provider was asked under this reservation. -/
def askedUnder (x : String × Nat) (log : List Entry) : Bool := log.any (Entry.asksUnder x)

/-- The process that inserted a call, and the key it is filed under. -/
def Entry.inserts : Entry → Option (Nat × String)
  | .answered _ (.insertCall ..) (.error .duplicateKeyError) => none
  | .answered i (.insertCall campaignId agentId borrowerId _ _ n) _ =>
      some (i, buildIdempotencyKey campaignId agentId borrowerId n)
  | _ => none

/-- The keys of the calls that were inserted by the process that made this reservation. -/
def keysUnder (x : String × Nat) : List Entry → List String
  | [] => []
  | e :: log => match e.inserts with
    | some (i, idempotencyKey) =>
        if (taken i log).any fun t => t.borrower.edition == x then
          idempotencyKey :: keysUnder x log
        else keysUnder x log
    | none => keysUnder x log

/-! ## What one operation does -/

section

variable {i j : Nat} {o : Op} {ch : Choice} {s : State} {t t' : Taken} {x : String × Nat}

theorem taken_self (i : Nat) (o : Op) (ch : Choice) (s : State) :
    taken i (exec i o ch s).2.log = Taken.after (taken i s.log) o (exec i o ch s).1 := by
  rw [exec_log, taken, if_pos rfl]

/-- What a process does says nothing of what others have in hand. -/
theorem taken_other (hj : j ≠ i) (o : Op) (ch : Choice) (s : State) :
    taken j (exec i o ch s).2.log = taken j s.log := by
  rw [exec_log, taken, if_neg (Ne.symm hj)]

/-- Nobody's attempts and versions are taken back. -/
theorem borrower_advances {b b' : Borrower} (h : Rewritten (o.borrowerWrite ch) b b') :
    b.attemptCount ≤ b'.attemptCount ∧ b.stateVersion ≤ b'.stateVersion := by
  refine ⟨?_, (borrower_hold_step h).version_le⟩
  cases h with
  | same => exact le_rfl
  | written w hw hk hp =>
      cases o, w, hw using Op.borrowerWrite_cases with
      | tryReserveBorrower _ _ _ _ => exact le_rfl
      | releaseBorrower _ _ outcome _ _ _ =>
          cases outcome with
          | released => exact le_rfl
          | retry => exact Nat.le_succ _
          | contacted => exact Nat.le_succ _
      | reclaimExpiredBorrowerLease _ _ => exact le_rfl

/-- What a new reservation answers: an edition that was not there before. -/
structure NewlyTaken (s s' : State) (e : Entry) (t : Taken) : Prop where
  reserved : t.borrower.status = .reserved
  stored : s'.borrowers.get t.borrower.id = some t.borrower
  newer : ∃ b, s.borrowers.get t.borrower.id = some b ∧ b.stateVersion < t.borrower.stateVersion
  /-- Nothing else has happened. -/
  inserts : e.inserts = none
  asks : ∀ x, e.asksUnder x = false

/-- What is left of what process `j` had in hand before the entry was written. -/
structure StillTaken (j : Nat) (e : Entry) (t t' : Taken) : Prop where
  borrower : t'.borrower = t.borrower
  inserted : t'.inserted = false → t.inserted = false
    ∧ ∀ idempotencyKey, e.inserts ≠ some (j, idempotencyKey)
  asked : t'.asked = false → t.asked = false ∧ (e.process = j → ∀ x, e.asksUnder x = false)

/-- An entry that neither inserts nor asks. -/
theorem StillTaken.refl {e : Entry} {t : Taken} (hinserts : e.inserts = none)
    (hasks : ∀ x, e.asksUnder x = false) : StillTaken j e t t where
  borrower := rfl
  inserted h := ⟨h, fun _ hk => by cases hinserts.symm.trans hk⟩
  asked h := ⟨h, fun _ => hasks⟩

/-- Only the process itself inserts in its name. -/
theorem process_of_inserts {e : Entry} {idempotencyKey : String}
    (h : e.inserts = some (j, idempotencyKey)) : e.process = j := by
  unfold Entry.inserts at h
  split at h
  · cases h
  · exact (Prod.mk.inj (Option.some.inj h)).1
  · cases h

theorem taken_of_own (h : taken i (exec i o ch s).2.log = some t') :
    NewlyTaken s (exec i o ch s).2 (.answered i o (exec i o ch s).1) t'
      ∨ ∃ t, taken i s.log = some t ∧ StillTaken i (.answered i o (exec i o ch s).1) t t' := by
  rw [taken_self] at h
  cases o with
  | tryReserveBorrower campaignId borrowerId workerId ttlSeconds =>
      generalize hans : (exec i (.tryReserveBorrower campaignId borrowerId workerId ttlSeconds) ch
        s).1 = r at h ⊢
      match r, h with
      | .ok (some b'), h =>
          obtain rfl := Option.some.inj h
          obtain ⟨b, hb, -, hafter, hget⟩ := tryReserveBorrower_some hans
          refine .inl ⟨?_, hget, ⟨b, hb, ?_⟩, rfl, fun _ => rfl⟩
          · rw [hafter]
            rfl
          · rw [hafter]
            exact Nat.lt_succ_self _
      | .ok none, h => exact .inr ⟨t', h, .refl rfl fun _ => rfl⟩
      | .error _, h => exact .inr ⟨t', h, .refl rfl fun _ => rfl⟩
  | insertCall campaignId agentId borrowerId providerName workerId n =>
      generalize (exec i (.insertCall campaignId agentId borrowerId providerName workerId n) ch
        s).1 = r at h ⊢
      by_cases hdup : r = .error .duplicateKeyError
      · subst hdup
        exact .inr ⟨t', h, .refl rfl fun _ => rfl⟩
      · have hafter : (taken i s.log).map (fun t => { t with inserted := true }) = some t' := by
          match r, hdup, h with
          | .ok _, _, h => exact h
          | .error e, hdup, h => cases e <;> first | exact h | exact absurd rfl hdup
        obtain ⟨t, ht, rfl⟩ := Option.map_eq_some_iff.mp hafter
        exact .inr ⟨t, ht, rfl, fun h => (by cases h), fun h => ⟨h, fun _ _ => rfl⟩⟩
  | originateCall providerName pair request =>
      obtain ⟨t, ht, rfl⟩ := Option.map_eq_some_iff.mp h
      exact .inr ⟨t, ht, rfl, fun h => ⟨h, fun _ hk => by cases hk⟩, fun h => (by cases h)⟩
  | _ => exact .inr ⟨t', h, .refl rfl fun _ => rfl⟩

/-- A process that has something in hand had it before, or has just reserved it. -/
theorem taken_of_exec (h : taken j (exec i o ch s).2.log = some t') :
    (j = i ∧ NewlyTaken s (exec i o ch s).2 (.answered i o (exec i o ch s).1) t')
      ∨ ∃ t, taken j s.log = some t ∧ StillTaken j (.answered i o (exec i o ch s).1) t t' := by
  rcases eq_or_ne j i with rfl | hj
  · exact (taken_of_own h).imp_left fun hnew => ⟨rfl, hnew⟩
  · rw [taken_other hj] at h
    refine .inr ⟨t', h, rfl, fun h => ⟨h, fun k hk => ?_⟩, fun h => ⟨h, fun hi => ?_⟩⟩
    · exact hj (process_of_inserts hk).symm
    · exact absurd hi.symm hj

theorem askedUnder_exec (x : String × Nat) (i : Nat) (o : Op) (ch : Choice) (s : State) :
    askedUnder x (exec i o ch s).2.log
      = (Entry.asksUnder x (.answered i o (exec i o ch s).1) || askedUnder x s.log) := by
  rw [exec_log, askedUnder, List.any_cons, askedUnder]

theorem mem_keysUnder_cons {e : Entry} {log : List Entry} {idempotencyKey : String} :
    idempotencyKey ∈ keysUnder x (e :: log) ↔
      (∃ i t, e.inserts = some (i, idempotencyKey) ∧ taken i log = some t
        ∧ t.borrower.edition = x) ∨ idempotencyKey ∈ keysUnder x log := by
  rw [keysUnder]
  cases he : e.inserts with
  | none => simp
  | some p =>
      obtain ⟨i, k⟩ := p
      dsimp only
      split
      · rename_i hany
        obtain ⟨t, ht, hx⟩ := Option.any_eq_true _ _ |>.mp hany
        rw [List.mem_cons]
        refine or_congr_left ⟨?_, ?_⟩
        · rintro rfl
          exact ⟨i, t, rfl, ht, beq_iff_eq.mp hx⟩
        · rintro ⟨i', t', hi, -⟩
          exact (Prod.mk.inj (Option.some.inj hi)).2.symm
      · rename_i hany
        refine ⟨.inr, ?_⟩
        rintro (⟨i', t', hi, ht', hx⟩ | hmem)
        · obtain ⟨rfl, -⟩ := Prod.mk.inj (Option.some.inj hi)
          exact (hany (Option.any_eq_true _ _ |>.mpr ⟨t', ht', beq_iff_eq.mpr hx⟩)).elim
        · exact hmem

/-! ## The invariant -/

/-- The borrower has come to that edition. -/
def EditionStored (x : String × Nat) (s : State) : Prop :=
  ∃ b, s.borrowers.get x.1 = some b ∧ x.2 ≤ b.stateVersion

/-- What processes have in hand are different editions, and only they use them. -/
structure TakenInv (s : State) : Prop where
  reserved : ∀ i t, taken i s.log = some t → t.borrower.status = .reserved
  /-- The borrower is there, and has no fewer attempts. -/
  stored : ∀ i t, taken i s.log = some t → EditionStored t.borrower.edition s
    ∧ ∀ b, s.borrowers.get t.borrower.id = some b → t.borrower.attemptCount ≤ b.attemptCount
  /-- Nothing was done under an edition that is still to come. -/
  asks : ∀ x, askedUnder x s.log = true → EditionStored x s
  inserts : ∀ x idempotencyKey, idempotencyKey ∈ keysUnder x s.log → EditionStored x s
  sole : ∀ i j t t', taken i s.log = some t → taken j s.log = some t' →
    t.borrower.edition = t'.borrower.edition → i = j
  unasked : ∀ i t, taken i s.log = some t → t.asked = false →
    askedUnder t.borrower.edition s.log = false
  uninserted : ∀ i t, taken i s.log = some t → t.inserted = false →
    ∀ idempotencyKey, idempotencyKey ∉ keysUnder t.borrower.edition s.log

/-- A call is inserted, and a provider asked, for the borrower in hand, and for the first time. -/
def Op.ByTaker (i : Nat) (s : State) : Op → Prop
  | .insertCall _ _ borrowerId _ _ n => ∃ t, taken i s.log = some t ∧ t.borrower.id = borrowerId
      ∧ n = t.borrower.attemptCount + 1 ∧ t.inserted = false
  | .originateCall _ pair _ => ∃ t, taken i s.log = some t ∧ t.borrower = pair.borrower
      ∧ t.asked = false
  | _ => True

theorem EditionStored.exec (h : EditionStored x s) : EditionStored x (exec i o ch s).2 := by
  obtain ⟨b, hb, hle⟩ := h
  obtain ⟨b', hb', hre⟩ := borrower_exec (i := i) (o := o) (c := ch) hb
  exact ⟨b', hb', hle.trans (borrower_advances hre).2⟩

/-- A new edition is later than what there was. -/
theorem NewlyTaken.not_stored {s' : State} {e : Entry} (h : NewlyTaken s s' e t) :
    ¬EditionStored t.borrower.edition s := by
  rintro ⟨b, hb, hle⟩
  obtain ⟨b₀, hb₀, hlt⟩ := h.newer
  obtain rfl : b = b₀ := Option.some.inj (hb.symm.trans hb₀)
  exact absurd hle (Nat.not_le_of_lt hlt)

/-- Who asks has the edition in hand. -/
theorem Op.ByTaker.asks (hby : o.ByTaker i s) {r : Except Exn (Ans o)}
    (h : Entry.asksUnder x (.answered i o r) = true) :
    ∃ t, taken i s.log = some t ∧ t.borrower.edition = x := by
  cases o with
  | originateCall providerName pair request =>
      obtain ⟨t, ht, hpair, -⟩ := hby
      exact ⟨t, ht, hpair ▸ beq_iff_eq.mp h⟩
  | _ => cases h

/-- **One operation.** -/
theorem takenInv_exec (hby : o.ByTaker i s) (h : TakenInv s) : TakenInv (exec i o ch s).2 where
  reserved j t' ht' := by
    rcases taken_of_exec ht' with ⟨-, hnew⟩ | ⟨t, ht, hstill⟩
    · exact hnew.reserved
    · rw [hstill.borrower]
      exact h.reserved j t ht
  stored j t' ht' := by
    rcases taken_of_exec ht' with ⟨-, hnew⟩ | ⟨t, ht, hstill⟩
    · refine ⟨⟨t'.borrower, hnew.stored, le_rfl⟩, fun b hb => ?_⟩
      obtain rfl := Option.some.inj (hb.symm.trans hnew.stored)
      exact le_rfl
    · rw [hstill.borrower]
      obtain ⟨hstored, hcount⟩ := h.stored j t ht
      refine ⟨hstored.exec, fun b' hb' => ?_⟩
      obtain ⟨b, hb, hre⟩ := borrower_of_exec hb'
      exact (hcount b hb).trans (borrower_advances hre).1
  asks x hx := by
    rw [askedUnder_exec, Bool.or_eq_true] at hx
    rcases hx with hx | hx
    · obtain ⟨t, ht, rfl⟩ := hby.asks hx
      exact (h.stored i t ht).1.exec
    · exact (h.asks x hx).exec
  inserts x idempotencyKey hx := by
    rw [exec_log, mem_keysUnder_cons] at hx
    rcases hx with ⟨j, t, -, ht, rfl⟩ | hx
    · exact (h.stored j t ht).1.exec
    · exact (h.inserts x _ hx).exec
  sole j j' t₁ t₂ ht₁ ht₂ heq := by
    rcases taken_of_exec ht₁ with ⟨rfl, hnew₁⟩ | ⟨t₁', ht₁', hstill₁⟩ <;>
      rcases taken_of_exec ht₂ with ⟨rfl, hnew₂⟩ | ⟨t₂', ht₂', hstill₂⟩
    · rfl
    · rw [hstill₂.borrower] at heq
      exact absurd (h.stored _ _ ht₂').1 (heq ▸ hnew₁.not_stored)
    · rw [hstill₁.borrower] at heq
      exact absurd (h.stored _ _ ht₁').1 (heq ▸ hnew₂.not_stored)
    · rw [hstill₁.borrower, hstill₂.borrower] at heq
      exact h.sole _ _ _ _ ht₁' ht₂' heq
  unasked j t' ht' hasked := by
    rw [askedUnder_exec, Bool.or_eq_false_iff]
    rcases taken_of_exec ht' with ⟨-, hnew⟩ | ⟨t, ht, hstill⟩
    · refine ⟨hnew.asks _, ?_⟩
      rw [← Bool.not_eq_true]
      exact fun hx => hnew.not_stored (h.asks _ hx)
    · obtain ⟨hasked₀, hother⟩ := hstill.asked hasked
      rw [hstill.borrower]
      refine ⟨?_, h.unasked j t ht hasked₀⟩
      rw [← Bool.not_eq_true]
      intro hx
      -- who asks has the edition in hand, and nobody else has
      obtain ⟨t₁, ht₁, heq⟩ := hby.asks hx
      obtain rfl := h.sole _ _ _ _ ht₁ ht heq
      cases (hother rfl _).symm.trans hx
  uninserted j t' ht' hinserted idempotencyKey hx := by
    rw [exec_log, mem_keysUnder_cons] at hx
    rcases taken_of_exec ht' with ⟨-, hnew⟩ | ⟨t, ht, hstill⟩
    · rcases hx with ⟨j', t₁, hins, -⟩ | hx
      · cases hnew.inserts.symm.trans hins
      · exact hnew.not_stored (h.inserts _ _ hx)
    · obtain ⟨hinserted₀, hother⟩ := hstill.inserted hinserted
      rw [hstill.borrower] at hx
      rcases hx with ⟨j', t₁, hins, ht₁, heq⟩ | hx
      · obtain rfl := h.sole _ _ _ _ ht₁ ht heq
        exact hother _ hins
      · exact h.uninserted j t ht hinserted₀ _ hx

/-- A crash takes nothing away. -/
theorem takenInv_crash (i : Nat) (h : TakenInv s) : TakenInv (crash i s) :=
  ⟨h.reserved, h.stored, h.asks, h.inserts, h.sole, h.unasked, h.uninserted⟩

theorem taken_of_nil (h : s.log = []) (i : Nat) : taken i s.log = none := by
  rw [h]
  rfl

theorem takenInv_init (h : s.log = []) : TakenInv s where
  reserved i t ht := by cases (taken_of_nil h i).symm.trans ht
  stored i t ht := by cases (taken_of_nil h i).symm.trans ht
  asks x hx := by
    rw [h] at hx
    cases hx
  inserts x idempotencyKey hx := by
    rw [h] at hx
    cases hx
  sole i _ t _ ht := by cases (taken_of_nil h i).symm.trans ht
  unasked i t ht := by cases (taken_of_nil h i).symm.trans ht
  uninserted i t ht := by cases (taken_of_nil h i).symm.trans ht

end

/-! ## Who has what in hand -/

section

variable {cfg : Settings} {i : Nat} {o : Op}

/-- Nobody has a hand in what others took, and calls and requests are for what was taken. -/
def takingLogic (cfg : Settings) : Logic (Policy.any (dialer cfg)) Unit where
  Inv _ := True
  Guar i s s' := (∀ j, j ≠ i → taken j s'.1.log = taken j s.1.log)
    ∧ ∀ o r, s'.1.log = .answered i o r :: s.1.log → o.ByTaker i s.1

/-- The triple of an operation; insertions and requests have something to show for. -/
theorem taking_atomic {A : Assertion Unit} {B : Except Exn (Ans o) → Assertion Unit}
    (hby : ∀ s, A s → o.ByTaker i s.1)
    (hB : ∀ ch s, A s → B (exec i o ch s.1).1 ((exec i o ch s.1).2, ())) :
    (takingLogic cfg).Atomic i o A B := by
  intro s _ hs ch _
  refine ⟨(), trivial, ⟨fun j hj => taken_other hj o ch s.1, ?_⟩, hB ch s hs⟩
  intro o' r hlog
  obtain rfl := answered_exec hlog
  exact hby s hs

/-- An operation that neither inserts a call nor asks a provider. -/
def Op.TakesNo : Op → Prop
  | .insertCall .. | .originateCall .. => False
  | _ => True

theorem Op.TakesNo.byTaker (ho : o.TakesNo) (i : Nat) (s : State) : o.ByTaker i s := by
  cases o <;> first | exact ho.elim | trivial

/-- It may happen at any time. -/
theorem taking_any (ho : o.TakesNo) :
    (takingLogic cfg).Atomic i o (fun _ => True) fun _ _ => True :=
  taking_atomic (fun s _ => ho.byTaker i s.1) fun _ _ _ => trivial

/-- Until the request, a dial has its borrower in hand; until it has a call, without one. -/
def TakenAt (pair : ReservationPair) : DialPoint → Option Taken → Prop
  | .held, u => ∃ t, u = some t ∧ t.borrower = pair.borrower ∧ t.asked = false
      ∧ t.inserted = false
  | .created _, u | .initiated _, u | .dialing _, u | .bound _, u =>
      ∃ t, u = some t ∧ t.borrower = pair.borrower ∧ t.asked = false
  | _, _ => True

/-- What a dial asserts of what its process has in hand. -/
def takingPoints (i : Nat) (pair : ReservationPair) (p : DialPoint) : Assertion Unit := fun s =>
  TakenAt pair p (taken i s.1.log)

variable {pair : ReservationPair}

theorem takingPoints_stable (p : DialPoint) :
    (takingLogic cfg).Stable i (takingPoints i pair p) := by
  refine Logic.stable_of_step fun j s s' hj hg _ h => ?_
  rw [takingPoints, hg.1 i hj.symm]
  exact h

/-- The call that a dial goes on with may be one it did not insert. -/
theorem takenAt_created {u : Option Taken} (h : TakenAt pair .held u) (callId : String) :
    TakenAt pair (.created callId) u := by
  obtain ⟨t, ht, hborrower, hasked, -⟩ := h
  exact ⟨t, ht, hborrower, hasked⟩

/-- An operation that has no bearing on what is in hand. -/
def Op.Unnoticed (o : Op) : Prop :=
  o.TakesNo ∧ ∀ (u : Option Taken) (r : Except Exn (Ans o)), Taken.after u o r = u

/-- The triple of such an operation in a dial. -/
theorem taking_next (o : Op) (ho : o.Unnoticed) {p : DialPoint} {f : Ans o → Assertion Unit}
    (hf : ∀ a s, takingPoints i pair p s → f a s) :
    (takingLogic cfg).Atomic i o (takingPoints i pair p) (Next (takingPoints i pair) f) := by
  refine taking_atomic (fun s _ => ho.1.byTaker i s.1) fun ch s hs => ?_
  refine next_of (fun a _ => hf a _ ?_) trivial
  rw [takingPoints, taken_self, ho.2]
  exact hs

/-- Once the provider has answered, nothing need be known. -/
theorem taking_past (o : Op) (ho : o.TakesNo) {p : DialPoint}
    {B : Except Exn (Ans o) → Assertion Unit} (hB : ∀ r s, B r s) :
    (takingLogic cfg).Atomic i o (takingPoints i pair p) B :=
  taking_atomic (fun s _ => ho.byTaker i s.1) fun _ _ _ => hB _ _

theorem taking_dial (campaign : Campaign) (pair : ReservationPair) :
    DialOutline (takingLogic cfg) i campaign pair (takingPoints i pair) where
  stable := takingPoints_stable
  now := taking_next .utcNow ⟨trivial, fun _ _ => rfl⟩ fun _ _ h => h
  gate := taking_next (.shouldAllowRetry _) ⟨trivial, fun _ _ => rfl⟩ fun _ _ h => h
  abandon _ _ := trivial
  releaseAgent _ := taking_past (.releaseAgent _ _ _ _ _) trivial fun _ _ =>
    next_of (fun _ _ => trivial) trivial
  releaseBorrower _ := taking_past (.releaseBorrower _ _ _ _ _ _) trivial fun _ _ =>
    next_of (fun _ _ => trivial) trivial
  insert := by
    refine taking_atomic (fun s h => ?_) fun ch s h => ?_
    · obtain ⟨t, ht, hborrower, -, hinserted⟩ := h
      exact ⟨t, ht, congrArg Borrower.id hborrower, by rw [hborrower], hinserted⟩
    · cases hr : (exec i (.insertCall campaign.id pair.agent.id pair.borrower.id
          campaign.providerName pair.workerId (pair.borrower.attemptCount + 1)) ch s.1).1 with
      | ok call =>
          refine onCall_of call (fun _ => ?_) fun _ => trivial
          obtain ⟨t, ht, hborrower, hasked, -⟩ := h
          refine ⟨{ t with inserted := true }, ?_, hborrower, hasked⟩
          rw [taken_self, hr, ht]
          rfl
      | error e =>
          cases e with
          -- refused by the unique index: nothing was inserted, and the key is looked up
          | duplicateKeyError =>
              change TakenAt pair .held _
              rw [taken_self, hr]
              exact h
          | _ => exact fun _ => trivial
  existing := taking_next (.findByIdempotencyKey _) ⟨trivial, fun _ _ => rfl⟩ fun answer s h =>
    match answer with
    | none => trivial
    | some call => onCall_of call (fun _ => takenAt_created h _) fun _ => trivial
  reserve _ := taking_next (.transitionCall _ _ _) ⟨trivial, fun _ _ => rfl⟩ fun _ _ h => h
  initiate _ := taking_next (.transitionCall _ _ _) ⟨trivial, fun _ _ => rfl⟩ fun answer _ h =>
    match answer with
    | none => trivial
    | some _ => h
  dialAgent _ := taking_next (.transitionAgent _ _ _ _) ⟨trivial, fun _ _ => rfl⟩ fun _ _ h => h
  bind _ := taking_next (.bindCall _ _ _) ⟨trivial, fun _ _ => rfl⟩ fun _ _ h => h
  originate _ := taking_atomic (fun _ h => h) fun _ _ _ =>
    onOriginate_of (fun _ => trivial) (fun _ => trivial) trivial
  attach _ _ := taking_past (.attachProviderCallId _ _) trivial fun _ _ =>
    next_of (fun answer _ => by cases answer <;> trivial) trivial
  hangup _ _ := taking_past (.hangupCall _ _) trivial fun _ _ =>
    onHangup_of (fun _ => trivial) trivial
  fail _ _ := taking_past (.transitionCall _ _ _) trivial fun _ _ =>
    next_of (fun _ _ => trivial) trivial
  compensateAgent := taking_past (.releaseAgent _ _ _ _ _) trivial fun _ _ => trivial
  compensateBorrower := taking_past (.releaseBorrower _ _ _ _ _ _) trivial fun _ _ => trivial

theorem taking_allocate (campaign : Campaign) (workerId : String) :
    AllocateOutline (takingLogic cfg) i campaign workerId (fun _ _ => True)
      (fun _ _ _ => True) fun _ pair => takingPoints i pair where
  skip _ _ _ := trivial
  reserve _ :=
    { stable_idle := Logic.stable_true
      stable_claimed := fun _ => Logic.stable_true
      findAgents := Logic.Atomic.mono (taking_any (o := .findClaimableAgents _ _) trivial)
        (fun _ h => h) fun _ _ h => unless_of fun _ => h
      claimAgent := fun _ => Logic.Atomic.mono
        (taking_any (o := .tryReserveAgent _ _ _ _) trivial) (fun _ h => h)
        fun _ _ h => onClaim_of (fun _ _ => trivial) fun _ => h
      findBorrowers := fun _ => Logic.Atomic.mono
        (taking_any (o := .findClaimableBorrowers _ _) trivial) (fun _ h => h)
        fun _ _ h => unless_of fun _ => h
      claimBorrower := by
        intro agent borrowerId
        refine taking_atomic (fun _ _ => trivial) fun ch s _ => ?_
        refine onClaim_of (fun borrower hr => ?_) fun _ => trivial
        refine ⟨{ borrower := borrower }, ?_, rfl, rfl, rfl⟩
        rw [taken_self, hr]
        rfl
      giveBack := fun _ => Logic.Atomic.mono (taking_any (o := .releaseAgent _ _ _ _ _) trivial)
        (fun _ _ => trivial) fun _ _ h => unless_of fun _ => h }
  dial _ := taking_dial campaign
  done _ _ _ _ := trivial

theorem taking_verified : (takingLogic cfg).Verified fun _ => True where
  init _ _ := ⟨(), trivial⟩
  task t _ i s _ := by
    refine wp_program ?_ (fun campaign workerId =>
      ⟨_, _, taking_allocate campaign workerId⟩) t s
    intro o ho
    refine taking_any ?_
    cases o <;> first | exact ho.elim | trivial
  crash i s _ := by
    refine ⟨(), trivial, fun _ _ => rfl, ?_⟩
    intro o r hlog
    cases (List.cons.inj hlog).1

/-- **Calls are inserted, and providers asked, for the borrower in hand**, in every run. -/
theorem byTaker_of_awaits {P : Policy (dialer cfg)} {Init : State → Prop}
    {w : World (dialer cfg)} (h : Reachable P Init w) (hi : w.Awaits i o) :
    o.ByTaker i w.st := by
  obtain ⟨_, _, -, -, hby⟩ := taking_verified.guar (h.unrestricted fun _ _ => trivial)
    (c := ({} : Choice)) hi trivial
  exact hby _ _ (exec_log ..)

/-- The invariant holds in every run that begins with nothing under way. -/
theorem takenInv_reachable {P : Policy (dialer cfg)} {Init : State → Prop}
    (hinit : ∀ s, Init s → s.log = []) {w : World (dialer cfg)} (h : Reachable P Init w) :
    TakenInv w.st :=
  h.invariant_of_awaits (I := TakenInv) (fun s hs => takenInv_init (hinit s hs))
    (fun _ _ _ _ hw hi _ hs => takenInv_exec (byTaker_of_awaits hw hi) hs)
    fun i _ hs => takenInv_crash i hs

end

end SmartDialer
