import Mathlib.Logic.Function.Basic
import SmartDialer.Conc.World

/-!
# A system on top of another

A system may be used by a larger one: its tasks are started there from loops, with arguments that
were read beforehand, and between them the larger system does things of its own. What is known
of the smaller system should hold of the larger one without being proved again.

`Sig.more` adds operations to a signature, and `Prog.lift` reads a program where there are more of
them. `Composed` says of a program of the larger system that all it does below is the work of
tasks of the smaller one, one after the other, and operations that leave no trace. `Layer` asks
the two systems to agree on what an operation does; then every run of the larger one is, seen from
below, a run of the smaller (`Layer.reachable`).
-/

namespace SmartDialer.Conc

/-- The operations of `S`, and those of `T` on top. -/
@[reducible] def Sig.more (S : Sig) (T : Type) (A : T → Type) : Sig :=
  ⟨S.Op ⊕ T, Sum.elim S.Ans A, S.Exn⟩

variable {S : Sig} {T : Type} {A : T → Type} {α β : Type}

/-! ## Programs of both -/

namespace Prog

/-- Whatever the program ends in, `k` says how it goes on. -/
def andThen : Prog S α → (Except S.Exn α → Prog S β) → Prog S β
  | ret a, k => k (.ok a)
  | raise e, k => k (.error e)
  | await o q, k => await o fun r => (q r).andThen k

/-- The program, where there are more operations. -/
def lift : Prog S α → Prog (S.more T A) α
  | ret a => ret a
  | raise e => raise e
  | await o q => await (.inl o) fun r => (q r).lift

theorem andThen_bind {γ : Type} (p : Prog S α) (k : Except S.Exn α → Prog S β)
    (f : β → Prog S γ) : (p.andThen k).bind f = p.andThen fun r => (k r).bind f := by
  induction p with
  | ret a => rfl
  | raise e => rfl
  | await o q ih =>
      simp only [andThen, bind]
      congr
      exact funext ih

theorem andThen_tryCatch (p : Prog S α) (k : Except S.Exn α → Prog S β)
    (h : S.Exn → Prog S β) :
    (p.andThen k).tryCatch h = p.andThen fun r => (k r).tryCatch h := by
  induction p with
  | ret a => rfl
  | raise e => rfl
  | await o q ih =>
      simp only [andThen, tryCatch]
      congr
      exact funext ih

theorem bind_assoc {γ : Type} (p : Prog S α) (f : α → Prog S β) (g : β → Prog S γ) :
    (p.bind f).bind g = p.bind fun a => (f a).bind g := by
  induction p with
  | ret a => rfl
  | raise e => rfl
  | await o q ih =>
      simp only [bind]
      congr
      exact funext ih

theorem lift_bind (p : Prog S α) (f : α → Prog S β) :
    (p.bind f).lift (T := T) (A := A) = p.lift.bind fun a => (f a).lift := by
  induction p with
  | ret a => rfl
  | raise e => rfl
  | await o q ih =>
      simp only [lift, bind]
      congr
      exact funext ih

theorem lift_tryCatch (p : Prog S α) (h : S.Exn → Prog S α) :
    (p.tryCatch h).lift (T := T) (A := A) = p.lift.tryCatch fun e => (h e).lift := by
  induction p with
  | ret a => rfl
  | raise e => rfl
  | await o q ih =>
      simp only [lift, tryCatch]
      congr
      exact funext ih

theorem lift_perform (o : S.Op) :
    (perform o).lift (T := T) (A := A) = perform (S := S.more T A) (.inl o) := by
  simp only [perform, lift]
  congr
  funext r
  cases r <;> rfl

/-- What a lifted program awaits, the program awaits. -/
theorem All.lift {R : S.Op → Prop} {R' : S.Op ⊕ T → Prop} (hR : ∀ o, R o → R' (.inl o))
    {p : Prog S α} (h : p.All R) : (p.lift (A := A)).All R' := by
  induction p with
  | ret a => trivial
  | raise e => trivial
  | await o q ih => exact ⟨hR o h.1, fun r => ih r (h.2 r)⟩

end Prog

/-! ## Programs that start tasks -/

variable {M : System S} {starts : M.Task → Prop} {silent : S.Op → Prop}

/--
All the program does with the operations of `S` is to perform silent ones, and the work of tasks
of `M`, from beginning to end.
-/
inductive Composed (M : System S) (starts : M.Task → Prop) (silent : S.Op → Prop) {α : Type} :
    Prog (S.more T A) α → Prop where
  | ret (a : α) : Composed M starts silent (.ret a)
  | raise (e : S.Exn) : Composed M starts silent (.raise e)
  /-- An operation of its own. -/
  | own (o : T) (k : Except S.Exn (A o) → Prog (S.more T A) α)
      (h : ∀ r, Composed M starts silent (k r)) : Composed M starts silent (.await (.inr o) k)
  /-- An operation of `S` that leaves no trace. -/
  | silent (o : S.Op) (k : Except S.Exn (S.Ans o) → Prog (S.more T A) α) (ho : silent o)
      (h : ∀ r, Composed M starts silent (k r)) : Composed M starts silent (.await (.inl o) k)
  /-- A task, and what comes after it. -/
  | task (t : M.Task) (k : Except S.Exn M.Ret → Prog (S.more T A) α) (ht : starts t)
      (h : ∀ r, Composed M starts silent (k r)) :
      Composed M starts silent ((M.prog t).lift.andThen k)

namespace Composed

theorem perform (o : T) :
    Composed M starts silent (Prog.perform (S := S.more T A) (.inr o)) := by
  refine .own o _ fun r => ?_
  cases r with
  | ok a => exact .ret a
  | error e => exact .raise e

theorem perform_silent {o : S.Op} (ho : silent o) :
    Composed M starts silent (Prog.perform (S := S.more T A) (.inl o)) := by
  refine .silent o _ ho fun r => ?_
  cases r with
  | ok a => exact .ret a
  | error e => exact .raise e

theorem bind {p : Prog (S.more T A) α} {f : α → Prog (S.more T A) β}
    (hp : Composed M starts silent p) (hf : ∀ a, Composed M starts silent (f a)) :
    Composed M starts silent (p.bind f) := by
  induction hp with
  | ret a => exact hf a
  | raise e => exact .raise e
  | own o k _ ih => exact .own o _ ih
  | silent o k ho _ ih => exact .silent o _ ho ih
  | task t k ht _ ih =>
      rw [Prog.andThen_bind]
      exact .task t _ ht ih

theorem tryCatch {p : Prog (S.more T A) α} {h : S.Exn → Prog (S.more T A) α}
    (hp : Composed M starts silent p) (hh : ∀ e, Composed M starts silent (h e)) :
    Composed M starts silent (p.tryCatch h) := by
  induction hp with
  | ret a => exact .ret a
  | raise e => exact hh e
  | own o k _ ih => exact .own o _ ih
  | silent o k ho _ ih => exact .silent o _ ho ih
  | task t k ht _ ih =>
      rw [Prog.andThen_tryCatch]
      exact .task t _ ht ih

/-- Something that is guarded together with what came before it. -/
theorem bind_tryCatch {p : Prog (S.more T A) β} {f : β → Prog (S.more T A) α}
    {h : S.Exn → Prog (S.more T A) α} (hp : Composed M starts silent p)
    (hf : ∀ b, Composed M starts silent ((f b).tryCatch h))
    (hh : ∀ e, Composed M starts silent (h e)) :
    Composed M starts silent ((p.bind f).tryCatch h) := by
  induction hp with
  | ret b => exact hf b
  | raise e => exact hh e
  | own o k _ ih => exact .own o _ ih
  | silent o k ho _ ih => exact .silent o _ ho ih
  | task t k ht _ ih =>
      rw [Prog.andThen_bind, Prog.andThen_tryCatch]
      exact .task t _ ht ih

/-- A task by itself. -/
theorem of_task {t : M.Task} (ht : starts t) :
    Composed M starts silent ((M.prog t).lift (T := T) (A := A)) := by
  have h : ∀ p : Prog S M.Ret, p.lift (T := T) (A := A) = p.lift.andThen fun
      | .ok a => .ret a
      | .error e => .raise e := by
    intro p
    induction p with
    | ret a => rfl
    | raise e => rfl
    | await o q ih =>
        simp only [Prog.lift, Prog.andThen]
        congr
        exact funext ih
  rw [h]
  refine .task t _ ht fun r => ?_
  cases r with
  | ok a => exact .ret a
  | error e => exact .raise e

/-- A program of silent operations. -/
theorem of_all {p : Prog S α} (h : p.All silent) :
    Composed M starts silent (p.lift (T := T) (A := A)) := by
  induction p with
  | ret a => exact .ret a
  | raise e => exact .raise e
  | await o q ih => exact .silent o _ h.1 fun r => ih r (h.2 r)

/-- What a program that starts tasks awaits next: if it is not its own, it is silent, or the first
operation of a task. -/
theorem await_cases {o : S.Op ⊕ T} {k : Except S.Exn ((S.more T A).Ans o) → Prog (S.more T A) α}
    (h : Composed M starts silent (.await o k)) :
    ((∃ o', o = .inr o') ∧ ∀ r, Composed M starts silent (k r))
      ∨ ((∃ o', o = .inl o' ∧ silent o') ∧ ∀ r, Composed M starts silent (k r))
      ∨ ∃ t o' q k', starts t ∧ M.prog t = .await o' q
        ∧ (.await o k : Prog (S.more T A) α) = (Prog.await o' q).lift.andThen k'
        ∧ ∀ r, Composed M starts silent (k' r) := by
  generalize hp : (.await o k : Prog (S.more T A) α) = p at h
  induction h with
  | ret a => cases hp
  | raise e => cases hp
  | own o' k' h _ =>
      cases hp
      exact .inl ⟨⟨o', rfl⟩, h⟩
  | silent o' k' ho h _ =>
      cases hp
      exact .inr (.inl ⟨⟨o', rfl, ho⟩, h⟩)
  | task t k' ht h ih =>
      cases htask : M.prog t with
      -- a task with nothing to do: look at what comes after it
      | ret a =>
          rw [htask] at hp
          exact ih (.ok a) hp
      | raise e =>
          rw [htask] at hp
          exact ih (.error e) hp
      | await o' q =>
          rw [htask] at hp
          exact .inr (.inr ⟨t, o', q, k', ht, htask, rfl, h⟩)

end Composed

/-! ## The two systems -/

variable {M' : System (S.more T A)} {Q : Policy M'} {P : Policy M} {E : M'.St → M.St → Prop}

/-- `M'` is built on `M`: `E` relates their states, and no operation sees a difference. -/
structure Layer (M' : System (S.more T A)) (M : System S) (Q : Policy M') (P : Policy M)
    (E : M'.St → M.St → Prop) (silent : S.Op → Prop) : Prop where
  task : ∀ t, Q.task t → Composed M P.task silent (M'.prog t)
  /-- An operation does above what it does below, whoever performs it. -/
  below : ∀ i j o c' s' s, E s' s → Q.run i (.inl o) c' s' → ∃ c, P.run j o c s
    ∧ (M'.exec i (.inl o) c' s').1 = (M.exec j o c s).1
    ∧ E (M'.exec i (.inl o) c' s').2 (M.exec j o c s).2
  silent : ∀ i o c s' s, silent o → E s' s → E (M'.exec i (.inl o) c s').2 s
  own : ∀ i o c s' s, E s' s → E (M'.exec i (.inr o) c s').2 s
  crash : ∀ i s' s, E s' s → E (M'.crash i s') s
  crash_below : ∀ j s' s, E s' s → E s' (M.crash j s)

/-- What a process above is doing: nothing below, or the work of process `j` there. -/
inductive Doing (P : Policy M) (silent : S.Op → Prop) (procs : List (Prog S M.Ret)) {α : Type} :
    Option Nat → Prog (S.more T A) α → Prop where
  | idle {p : Prog (S.more T A) α} (h : Composed M P.task silent p) : Doing P silent procs none p
  | busy {j : Nat} {o : S.Op} {q : Except S.Exn (S.Ans o) → Prog S M.Ret}
      {k : Except S.Exn M.Ret → Prog (S.more T A) α} (hj : procs[j]? = some (.await o q))
      (h : ∀ r, Composed M P.task silent (k r)) :
      Doing P silent procs (some j) ((Prog.await o q).lift.andThen k)

namespace Doing

variable {procs procs' : List (Prog S M.Ret)} {x : Option Nat} {p : Prog (S.more T A) α}

theorem mono (h : Doing P silent procs x p)
    (hprocs : ∀ j, x = some j → procs'[j]? = procs[j]?) : Doing P silent procs' x p := by
  cases h with
  | idle h => exact .idle h
  | busy hj h => exact .busy ((hprocs _ rfl).trans hj) h

theorem lt {j : Nat} (h : Doing P silent procs (some j) p) : j < procs.length := by
  cases h with
  | busy hj _ => exact (List.getElem?_eq_some_iff.mp hj).1

/-- A task that has come to its end has ended above as well. -/
theorem resume {j : Nat} {q : Prog S M.Ret} {k : Except S.Exn M.Ret → Prog (S.more T A) α}
    (hj : procs[j]? = some q) (h : ∀ r, Composed M P.task silent (k r)) :
    ∃ x, (x = none ∨ x = some j) ∧ Doing P silent procs x (q.lift.andThen k) := by
  cases q with
  | ret a => exact ⟨none, .inl rfl, .idle (h (.ok a))⟩
  | raise e => exact ⟨none, .inl rfl, .idle (h (.error e))⟩
  | await o q => exact ⟨some j, .inr rfl, .busy hj h⟩

end Doing

/-- The world above, and the world below; `pos` tells who does whose work. -/
structure Over (P : Policy M) (E : M'.St → M.St → Prop) (silent : S.Op → Prop) (w' : World M')
    (w : World M) (pos : Nat → Option Nat) : Prop where
  st : E w'.st w.st
  inj : ∀ i i' j, pos i = some j → pos i' = some j → i = i'
  bound : ∀ i j, pos i = some j → j < w.procs.length
  procs : ∀ i p, w'.procs[i]? = some p → Doing P silent w.procs (pos i) p

namespace Over

variable {w' v' : World M'} {w v : World M} {pos : Nat → Option Nat} {i : Nat}

/-- Process `i` goes on above, and below there is process `j` to go on, or nobody. -/
theorem advance (h : Over P E silent w' w pos) {p : Prog (S.more T A) M'.Ret} {x : Option Nat}
    (hst : E v'.st v.st) (hlen : w.procs.length ≤ v.procs.length)
    (hprocs' : ∀ i' p', v'.procs[i']? = some p' →
      i' = i ∧ p' = p ∨ i' ≠ i ∧ w'.procs[i']? = some p')
    (hprocs : ∀ i' j, i' ≠ i → pos i' = some j → v.procs[j]? = w.procs[j]?)
    (hx : ∀ j, x = some j → j < v.procs.length ∧ ∀ i', i' ≠ i → pos i' ≠ some j)
    (hp : Doing P silent v.procs x p) :
    Over P E silent v' v (Function.update pos i x) where
  st := hst
  inj i₁ i₂ j h₁ h₂ := by
    by_cases hi₁ : i₁ = i
    · by_cases hi₂ : i₂ = i
      · exact hi₁.trans hi₂.symm
      · rw [hi₁, Function.update_self] at h₁
        rw [Function.update_of_ne hi₂] at h₂
        exact absurd h₂ ((hx j h₁).2 i₂ hi₂)
    · rw [Function.update_of_ne hi₁] at h₁
      by_cases hi₂ : i₂ = i
      · rw [hi₂, Function.update_self] at h₂
        exact absurd h₁ ((hx j h₂).2 i₁ hi₁)
      · rw [Function.update_of_ne hi₂] at h₂
        exact h.inj i₁ i₂ j h₁ h₂
  bound i' j hj := by
    by_cases hi' : i' = i
    · rw [hi', Function.update_self] at hj
      exact (hx j hj).1
    · rw [Function.update_of_ne hi'] at hj
      exact Nat.lt_of_lt_of_le (h.bound i' j hj) hlen
  procs i' p' hp' := by
    rcases hprocs' i' p' hp' with ⟨rfl, rfl⟩ | ⟨hne, hold⟩
    · rw [Function.update_self]
      exact hp
    · rw [Function.update_of_ne hne]
      exact (h.procs i' p' hold).mono fun j hj => hprocs i' j hne hj

/-- What is left of the list of processes when one of them goes on. -/
theorem set_cases {ps : List (Prog (S.more T A) M'.Ret)} {p : Prog (S.more T A) M'.Ret} {i' : Nat}
    {p' : Prog (S.more T A) M'.Ret} (h : (ps.set i p)[i']? = some p') :
    i' = i ∧ p' = p ∨ i' ≠ i ∧ ps[i']? = some p' := by
  rw [List.getElem?_set] at h
  split at h
  · rename_i heq
    split at h
    · exact .inl ⟨heq.symm, (Option.some.inj h).symm⟩
    · cases h
  · rename_i hne
    exact .inr ⟨fun heq => hne heq.symm, h⟩

/-- Process `i` starts on a task: below, a process is started for it. -/
theorem start (h : Over P E silent w' w pos) {t : M.Task} (ht : P.task t)
    {p : Prog (S.more T A) M'.Ret} (hi : w'.procs[i]? = some p) {o : S.Op}
    {q : Except S.Exn (S.Ans o) → Prog S M.Ret} (hq : M.prog t = .await o q)
    {k : Except S.Exn M.Ret → Prog (S.more T A) M'.Ret}
    (hp : p = (Prog.await o q).lift.andThen k)
    (hk : ∀ r, Composed M P.task silent (k r)) :
    ∃ v, Step P w v ∧ v.procs[w.procs.length]? = some (.await o q)
      ∧ Over P E silent w' v (Function.update pos i (some w.procs.length)) := by
  have hnew : (w.procs ++ [M.prog t])[w.procs.length]? = some (.await o q) := by
    rw [List.getElem?_append_right (Nat.le_refl _), Nat.sub_self, hq]
    rfl
  have hlen : (w.procs ++ [M.prog t]).length = w.procs.length + 1 := by
    rw [List.length_append, List.length_singleton]
  subst hp
  refine ⟨_, .spawn t ht, hnew, h.advance h.st ?_ (fun i' p' hp' => ?_)
    (fun i' j _ hj => List.getElem?_append_left (h.bound i' j hj)) (fun j hj => ?_)
    (.busy hnew hk)⟩
  · exact Nat.le_of_lt (hlen ▸ Nat.lt_succ_self _)
  · by_cases hi' : i' = i
    · subst hi'
      exact .inl ⟨rfl, Option.some.inj (hp'.symm.trans hi)⟩
    · exact .inr ⟨hi', hp'⟩
  · obtain rfl := Option.some.inj hj
    exact ⟨hlen ▸ Nat.lt_succ_self _,
      fun i' _ hi' => Nat.lt_irrefl _ (h.bound i' _ hi')⟩

/-- A process below that stops, or goes on, concerns no process above but the one it works for. -/
theorem set_other (h : Over P E silent w' w pos) {j : Nat} (hj : pos i = some j)
    (q : Prog S M.Ret) : ∀ i' j', i' ≠ i → pos i' = some j' →
      (w.procs.set j q)[j']? = w.procs[j']? := by
  intro i' j' hne hj'
  refine List.getElem?_set_ne fun heq => hne ?_
  subst heq
  exact h.inj i' i j hj' hj

/-- **An operation of a task** is performed below by the process that does its work. -/
theorem run_busy (hL : Layer M' M Q P E silent) (h : Over P E silent w' w pos) {j : Nat}
    (hpos : pos i = some j) {o : S.Op} {q : Except S.Exn (S.Ans o) → Prog S M.Ret}
    (hj : w.procs[j]? = some (.await o q)) {k : Except S.Exn M.Ret → Prog (S.more T A) M'.Ret}
    (hk : ∀ r, Composed M P.task silent (k r)) {c' : M'.Choice}
    (hc : Q.run i (.inl o) c' w'.st) :
    ∃ v pos', Step P w v ∧ Over P E silent
      ⟨(M'.exec i (.inl o) c' w'.st).2,
        w'.procs.set i ((q (M'.exec i (.inl o) c' w'.st).1).lift.andThen k)⟩ v pos' := by
  obtain ⟨c, hP, hans, hst⟩ := hL.below i j o c' w'.st w.st h.st hc
  have hlt : j < w.procs.length := h.bound i j hpos
  have hself : (w.procs.set j (q (M.exec j o c w.st).1))[j]? = some (q (M.exec j o c w.st).1) :=
    List.getElem?_set_self hlt
  obtain ⟨x, hx, hdoing⟩ : ∃ x, (x = none ∨ x = some j) ∧ Doing P silent _ x _ :=
    Doing.resume hself hk
  refine ⟨_, _, .run j o q c hj hP, h.advance (i := i) (x := x) hst
    (Nat.le_of_eq List.length_set.symm) (fun i' p' hp' => set_cases hp')
    (h.set_other hpos _) (fun j' hj' => ?_) (hans ▸ hdoing)⟩
  rcases hx with rfl | rfl
  · cases hj'
  · obtain rfl := Option.some.inj hj'
    exact ⟨List.length_set.symm ▸ hlt, fun i' hne hi' => hne (h.inj i' i j hi' hpos)⟩

/-- A step above that leaves no trace below. -/
theorem unseen (h : Over P E silent w' w pos) {p : Prog (S.more T A) M'.Ret} {s' : M'.St}
    (hst : E s' w.st) (hp : Composed M P.task silent p) :
    Over P E silent ⟨s', w'.procs.set i p⟩ w (Function.update pos i none) :=
  h.advance hst (Nat.le_refl _) (fun _ _ hp' => set_cases hp') (fun _ _ _ _ => rfl)
    (fun _ hj => by cases hj) (.idle hp)

/-- **A step above** is no step below, or one, or two: a task is started, and performs. -/
theorem step (hL : Layer M' M Q P E silent) (h : Over P E silent w' w pos) (hs : Step Q w' v') :
    ∃ v pos', Relation.ReflTransGen (Step P) w v ∧ Over P E silent v' v pos' := by
  cases hs with
  | spawn t ht =>
      refine ⟨w, Function.update pos w'.procs.length none, .refl, h.advance h.st
        (Nat.le_refl _) (fun i' p' hp' => ?_) (fun _ _ _ _ => rfl) (fun _ hj => by cases hj)
        (.idle (hL.task t ht))⟩
      dsimp only at hp'
      rw [List.getElem?_append] at hp'
      split at hp'
      · rename_i hlt
        exact .inr ⟨Nat.ne_of_lt hlt, hp'⟩
      · rename_i hge
        obtain ⟨hlast, hsingle⟩ := List.getElem?_eq_some_iff.mp hp'
        rw [List.length_singleton] at hlast
        have hi' : i' = w'.procs.length := by omega
        subst hi'
        simp only [Nat.sub_self, List.getElem_cons_zero] at hsingle
        exact .inl ⟨rfl, hsingle.symm⟩
  | run i o k c hi hc =>
      have hdoing := h.procs i _ hi
      generalize hp : (.await o k : Prog (S.more T A) M'.Ret) = p at hdoing
      generalize hx : pos i = x at hdoing
      cases hdoing with
      | busy hj hk =>
          cases hp
          obtain ⟨v, pos', hv, hover⟩ := h.run_busy hL hx hj hk hc
          exact ⟨v, pos', .single hv, hover⟩
      | idle hcomposed =>
          subst hp
          rcases hcomposed.await_cases with ⟨⟨o', rfl⟩, hk⟩ | ⟨⟨o', rfl, ho⟩, hk⟩
            | ⟨t, o', q, k', ht, hq, heq, hk⟩
          · exact ⟨w, _, .refl, h.unseen (hL.own i o' c _ _ h.st) (hk _)⟩
          · exact ⟨w, _, .refl, h.unseen (hL.silent i o' c _ _ ho h.st) (hk _)⟩
          · obtain ⟨u, hu, hnew, hstart⟩ := h.start ht hi hq heq hk
            cases heq
            obtain ⟨v, pos', hv, hover⟩ :=
              hstart.run_busy hL (Function.update_self ..) hnew hk hc
            exact ⟨v, pos', (Relation.ReflTransGen.single hu).tail hv, hover⟩
  | crash i o k hi =>
      have hdoing := h.procs i _ hi
      generalize hx : pos i = x at hdoing
      cases hdoing with
      | idle _ => exact ⟨w, _, .refl, h.unseen (hL.crash i _ _ h.st) (.raise _)⟩
      | @busy j o' q k' hj hk =>
          refine ⟨_, Function.update pos i none, .single (.crash j o' q hj),
            h.advance (hL.crash_below j _ _ (hL.crash i _ _ h.st))
              (Nat.le_of_eq List.length_set.symm) (fun _ _ hp' => set_cases hp')
              (h.set_other hx _) (fun _ hj' => by cases hj') (.idle (.raise _))⟩

end Over

namespace Layer

variable {Init' : M'.St → Prop} {Init : M.St → Prop} {w' : World M'}

/-- **Every run above is a run below.** -/
theorem reachable (hL : Layer M' M Q P E silent) (hinit : ∀ s', Init' s' → ∃ s, Init s ∧ E s' s)
    (h : Reachable Q Init' w') :
    ∃ w pos, Reachable P Init w ∧ Over P E silent w' w pos := by
  induction h with
  | init hs' =>
      obtain ⟨s, hs, hst⟩ := hinit _ hs'
      refine ⟨⟨s, []⟩, fun _ => none, .init hs, hst, ?_, ?_, ?_⟩
      · exact fun _ _ _ hi => by cases hi
      · exact fun _ _ hi => by cases hi
      · exact fun _ _ hi => by cases hi
  | tail _ hs ih =>
      obtain ⟨w, pos, hw, hover⟩ := ih
      obtain ⟨v, pos', hv, hover'⟩ := hover.step hL hs
      exact ⟨v, pos', hw.steps hv, hover'⟩

/-- What is about to be performed above, and would leave a trace, is about to be below. -/
theorem awaits (hL : Layer M' M Q P E silent) (hinit : ∀ s', Init' s' → ∃ s, Init s ∧ E s' s)
    (h : Reachable Q Init' w') {i : Nat} {o : S.Op} (hi : w'.Awaits i (.inl o)) (ho : ¬silent o) :
    ∃ w j, Reachable P Init w ∧ E w'.st w.st ∧ w.Awaits j o := by
  obtain ⟨w, pos, hw, hover⟩ := hL.reachable hinit h
  obtain ⟨k, hk⟩ := hi
  have hdoing := hover.procs i _ hk
  generalize hp : (.await (.inl o) k : Prog (S.more T A) M'.Ret) = p at hdoing
  generalize pos i = x at hdoing
  cases hdoing with
  | busy hj _ =>
      cases hp
      exact ⟨w, _, hw, hover.st, _, hj⟩
  | idle hcomposed =>
      subst hp
      rcases hcomposed.await_cases with ⟨⟨o', ho'⟩, -⟩ | ⟨⟨o', ho', hsilent⟩, -⟩
        | ⟨t, o', q, k', ht, hq, heq, hk'⟩
      · cases ho'
      · cases ho'
        exact absurd hsilent ho
      · -- the task has not been started below, and might be
        obtain ⟨v, hv, hnew, hover'⟩ := hover.start ht hk hq heq hk'
        cases heq
        exact ⟨v, _, .tail hw hv, hover'.st, _, hnew⟩

end Layer

end SmartDialer.Conc
