import SmartDialer.Conc.RelyGuarantee

/-!
# A process nobody disturbs

What a program does when its process is the only one that moves is a computation, and
`Prog.eval` is its meaning. The rules of `Logic` apply to it as well: in the logic
`alone`, the other processes guarantee to change nothing, so every assertion is stable,
and what a proof owes for an operation is a statement about that operation and no other.
`eval_of_wp` takes what is proved in that logic back to the computation.
-/

namespace SmartDialer.Conc

variable {S : Sig}

/-- Process `i` by itself: its `n`-th operation gets the environment's `n`-th choice. -/
def System.solo (M : System S) (i : Nat) (env : Nat → M.Choice) (o : S.Op) (x : M.St × Nat) :
    Except S.Exn (S.Ans o) × M.St × Nat :=
  ((M.exec i o (env x.2) x.1).1, (M.exec i o (env x.2) x.1).2, x.2 + 1)

variable {M : System S} {P : Policy M} {i : Nat} {α : Type}

namespace Logic

/-- The logic of process `i` when no other process moves. -/
def alone (P : Policy M) (i : Nat) : Logic P Unit where
  Inv _ := True
  Guar j s s' := j ≠ i → s' = s

/-- Nothing happens around a process nobody disturbs. -/
theorem eq_of_rely_alone {s s' : M.St × Unit} (h : (alone P i).Rely i s s') : s' = s := by
  induction h with
  | refl => rfl
  | tail _ hstep ih =>
      obtain ⟨j, hj, hguar, -⟩ := hstep
      exact (hguar hj).trans ih

theorem stable_alone (A : M.St × Unit → Prop) : (alone P i).Stable i A := by
  intro s s' hr hs
  rw [eq_of_rely_alone hr]
  exact hs

/-- What has to be shown of one operation: what it leads to. -/
theorem atomic_alone {o : S.Op} {A : M.St × Unit → Prop}
    {B : Except S.Exn (S.Ans o) → M.St × Unit → Prop}
    (h : ∀ s c, A (s, ()) → P.run i o c s → B (M.exec i o c s).1 ((M.exec i o c s).2, ())) :
    (alone P i).Atomic i o A B := by
  rintro ⟨s, ⟨⟩⟩ - hs c hc
  exact ⟨(), trivial, fun hne => absurd rfl hne, h s c hs hc⟩

theorem wp_perform_alone {o : S.Op} {B : Except S.Exn (S.Ans o) → M.St × Unit → Prop} {s : M.St}
    (h : ∀ c, P.run i o c s → B (M.exec i o c s).1 ((M.exec i o c s).2, ())) :
    (alone P i).wp i (Prog.perform o) B (s, ()) := by
  refine wp_perform (A := fun x => x.1 = s) (stable_alone _) (atomic_alone ?_) rfl
  rintro _ c rfl hc
  exact h c hc

/--
**Soundness.** What is proved in the logic holds of the computation, as long as what the
environment contributes is allowed: `R k` is what is known of the state when it makes its
`k`-th choice, and each choice it makes hands on to the next.
-/
theorem eval_of_wp_along {R : Nat → M.St → Prop} {p : Prog S α}
    {Q : Except S.Exn α → M.St × Unit → Prop} {env : Nat → M.Choice} {s : M.St} {n : Nat}
    (henv : ∀ k o s, R k s → P.run i o (env k) s ∧ R (k + 1) (M.exec i o (env k) s).2)
    (hs : R n s) (h : (alone P i).wp i p Q (s, ())) :
    Q (p.eval (M.solo i env) (s, n)).1 ((p.eval (M.solo i env) (s, n)).2.1, ()) := by
  induction p generalizing s n with
  | ret a => exact h
  | raise e => exact h
  | await o k ih =>
      obtain ⟨hrun, hnext⟩ := henv n o s hs
      obtain ⟨⟨⟩, -, -, hrest⟩ := h (s, ()) .refl trivial (env n) hrun
      exact ih _ hnext hrest

/-- The same, when every choice is allowed in every state. -/
theorem eval_of_wp {p : Prog S α} {Q : Except S.Exn α → M.St × Unit → Prop} {env : Nat → M.Choice}
    {s : M.St} {n : Nat} (henv : ∀ k, n ≤ k → ∀ o s, P.run i o (env k) s)
    (h : (alone P i).wp i p Q (s, ())) :
    Q (p.eval (M.solo i env) (s, n)).1 ((p.eval (M.solo i env) (s, n)).2.1, ()) :=
  eval_of_wp_along (R := fun k _ => n ≤ k)
    (fun k o s hk => ⟨henv k hk o s, Nat.le_succ_of_le hk⟩) (Nat.le_refl n) h

end Logic

end SmartDialer.Conc
