/-!
# Programs that await atomic operations

A coroutine is a tree: it has returned, it has raised, or it awaits one atomic
operation and says how it goes on with the answer — or with the exception the
operation ended in. Nothing here knows what the operations do; that is the
business of `Conc/World.lean`, which runs many such programs against one shared
state, one operation at a time.

Exceptions are part of the tree rather than of the monad's result type, so that
`try`/`except` around an `await` means what it means in the source: the handler
runs at the point where the operation failed, and may await operations itself.
-/

namespace SmartDialer.Conc

/-- The atomic operations of a system, their answers, and its exceptions. -/
structure Sig where
  /-- One awaited operation, with its arguments. -/
  Op : Type
  /-- What the operation answers. -/
  Ans : Op → Type
  /-- What an operation, or a program, may raise. -/
  Exn : Type

/-- A program over the operations of `S`, returning an `α`. -/
inductive Prog (S : Sig) (α : Type) : Type where
  /-- Finished, with a value. -/
  | ret (a : α)
  /-- Finished, with an exception. -/
  | raise (e : S.Exn)
  /-- Waiting for `o`; `k` is what comes next. -/
  | await (o : S.Op) (k : Except S.Exn (S.Ans o) → Prog S α)

namespace Prog

variable {S : Sig} {α β : Type}

/-- Sequencing: an exception skips what follows. -/
def bind : Prog S α → (α → Prog S β) → Prog S β
  | ret a, f => f a
  | raise e, _ => raise e
  | await o k, f => await o (fun r => (k r).bind f)

/-- `try p except h`. -/
def tryCatch : Prog S α → (S.Exn → Prog S α) → Prog S α
  | ret a, _ => ret a
  | raise e, h => h e
  | await o k, h => await o (fun r => (k r).tryCatch h)

instance : Monad (Prog S) where
  pure := ret
  bind := bind

/-- The program has ended, and not with an exception. -/
def returned : Prog S α → Bool
  | ret _ => true
  | _ => false

theorem returned_iff {p : Prog S α} : p.returned = true ↔ ∃ a, p = .ret a := by
  cases p <;> simp [returned]

/-- Await a single operation. -/
def perform (o : S.Op) : Prog S (S.Ans o) :=
  await o fun
    | .ok a => ret a
    | .error e => raise e

/-- `for x in xs: if await f(x): n += 1`. -/
def count (f : α → Prog S Bool) : List α → Prog S Nat
  | [] => ret 0
  | x :: xs => (f x).bind fun b => (count f xs).bind fun n => ret (if b then n + 1 else n)

/-- Run to the end by itself, each operation answered by `h`. -/
def eval {σ : Type} (h : (o : S.Op) → σ → Except S.Exn (S.Ans o) × σ) :
    Prog S α → σ → Except S.Exn α × σ
  | ret a, s => (.ok a, s)
  | raise e, s => (.error e, s)
  | await o k, s => (k (h o s).1).eval h (h o s).2

@[simp] theorem pure_eq (a : α) : (pure a : Prog S α) = ret a := rfl

@[simp] theorem bind_eq (p : Prog S α) (f : α → Prog S β) : p >>= f = p.bind f := rfl

@[simp] theorem ret_bind (a : α) (f : α → Prog S β) : (ret a : Prog S α).bind f = f a := rfl

@[simp] theorem raise_bind (e : S.Exn) (f : α → Prog S β) :
    (raise e : Prog S α).bind f = raise e := rfl

/-! ## Running by itself -/

theorem eval_bind {σ : Type} (h : (o : S.Op) → σ → Except S.Exn (S.Ans o) × σ) (p : Prog S α)
    (f : α → Prog S β) (s : σ) :
    (p.bind f).eval h s = match p.eval h s with
      | (.ok a, s') => (f a).eval h s'
      | (.error e, s') => (.error e, s') := by
  induction p generalizing s with
  | ret a => rfl
  | raise e => rfl
  | await o k ih => exact ih _ _

theorem eval_tryCatch {σ : Type} (h : (o : S.Op) → σ → Except S.Exn (S.Ans o) × σ)
    (p : Prog S α) (f : S.Exn → Prog S α) (s : σ) :
    (p.tryCatch f).eval h s = match p.eval h s with
      | (.ok a, s') => (.ok a, s')
      | (.error e, s') => (f e).eval h s' := by
  induction p generalizing s with
  | ret a => rfl
  | raise e => rfl
  | await o k ih => exact ih _ _

theorem eval_perform {σ : Type} (h : (o : S.Op) → σ → Except S.Exn (S.Ans o) × σ) (o : S.Op)
    (s : σ) : (perform o).eval h s = h o s := by
  rw [perform, eval]
  split <;> rename_i heq <;> rw [eval, ← heq]

/-- An operation that is answered, and what follows it. -/
theorem eval_perform_bind {σ : Type} {h : (o : S.Op) → σ → Except S.Exn (S.Ans o) × σ} {o : S.Op}
    {a : S.Ans o} {s : σ} (ho : (h o s).1 = .ok a) (f : S.Ans o → Prog S β) :
    ((perform o).bind f).eval h s = (f a).eval h (h o s).2 := by
  rw [eval_bind, eval_perform]
  generalize h o s = x at ho ⊢
  obtain ⟨r, s'⟩ := x
  obtain rfl : r = .ok a := ho
  rfl

/-- Run by itself from `s`, the program raises. -/
def Raises {σ : Type} (h : (o : S.Op) → σ → Except S.Exn (S.Ans o) × σ) (p : Prog S α) (s : σ) :
    Prop :=
  ∃ e, (p.eval h s).1 = .error e

theorem Raises.bind {σ : Type} {h : (o : S.Op) → σ → Except S.Exn (S.Ans o) × σ} {p : Prog S α}
    {s : σ} (hp : p.Raises h s) (f : α → Prog S β) : (p.bind f).Raises h s := by
  obtain ⟨e, he⟩ := hp
  refine ⟨e, ?_⟩
  rw [eval_bind]
  generalize p.eval h s = x at he ⊢
  obtain ⟨r, s'⟩ := x
  obtain rfl : r = .error e := he
  rfl

theorem raises_perform {σ : Type} {h : (o : S.Op) → σ → Except S.Exn (S.Ans o) × σ} {o : S.Op}
    {s : σ} (ho : ∃ e, (h o s).1 = .error e) : (perform o).Raises h s := by
  rw [Raises, eval_perform]
  exact ho

theorem raises_perform_bind {σ : Type} {h : (o : S.Op) → σ → Except S.Exn (S.Ans o) × σ}
    {o : S.Op} {a : S.Ans o} {s : σ} (ho : (h o s).1 = .ok a) {f : S.Ans o → Prog S β}
    (hf : (f a).Raises h (h o s).2) : ((perform o).bind f).Raises h s := by
  rw [Raises, eval_perform_bind ho]
  exact hf

/-- Run by itself, the program raises only what one of its operations raised. -/
def Forwards (p : Prog S α) : Prop :=
  ∀ (σ : Type) (h : (o : S.Op) → σ → Except S.Exn (S.Ans o) × σ) (s : σ) (e : S.Exn),
    (p.eval h s).1 = .error e → ∃ o s₁, (h o s₁).1 = .error e

theorem forwards_ret (a : α) : (ret a : Prog S α).Forwards := by
  intro σ h s e he
  cases he

theorem forwards_perform (o : S.Op) : (perform o).Forwards := by
  intro σ h s e he
  rw [eval_perform] at he
  exact ⟨o, s, he⟩

theorem forwards_bind {p : Prog S α} {f : α → Prog S β} (hp : p.Forwards)
    (hf : ∀ a, (f a).Forwards) : (p.bind f).Forwards := by
  intro σ h s e he
  rw [eval_bind] at he
  split at he
  · exact hf _ σ h _ e he
  · rename_i e' s' heq
    obtain rfl : e' = e := Except.error.inj he
    exact hp σ h s e' (by rw [heq])

/-- The outcome when the `n`-th operation is answered by `f n`. -/
def replay (f : Nat → (o : S.Op) → Except S.Exn (S.Ans o)) (p : Prog S α) : Except S.Exn α :=
  (p.eval (fun o n => (f n o, n + 1)) 0).1

/-! ## Which operations a program can issue -/

/-- Whatever the answers, every operation the program awaits satisfies `P`. -/
def All (P : S.Op → Prop) : Prog S α → Prop
  | ret _ => True
  | raise _ => True
  | await o k => P o ∧ ∀ r, (k r).All P

variable {P Q : S.Op → Prop}

@[simp] theorem all_ret (a : α) : (ret a : Prog S α).All P := trivial

@[simp] theorem all_raise (e : S.Exn) : (raise e : Prog S α).All P := trivial

theorem all_perform {o : S.Op} (h : P o) : (perform o).All P := by
  refine ⟨h, ?_⟩
  intro r
  cases r <;> trivial

theorem all_bind {p : Prog S α} {f : α → Prog S β} (hp : p.All P) (hf : ∀ a, (f a).All P) :
    (p.bind f).All P := by
  induction p with
  | ret a => exact hf a
  | raise e => trivial
  | await o k ih => exact ⟨hp.1, fun r => ih r (hp.2 r)⟩

theorem all_tryCatch {p : Prog S α} {h : S.Exn → Prog S α} (hp : p.All P)
    (hh : ∀ e, (h e).All P) : (p.tryCatch h).All P := by
  induction p with
  | ret a => trivial
  | raise e => exact hh e
  | await o k ih => exact ⟨hp.1, fun r => ih r (hp.2 r)⟩

/-- Whatever the answers, a value the program returns satisfies `V`. -/
def Yields (V : α → Prop) : Prog S α → Prop
  | ret a => V a
  | raise _ => True
  | await _ k => ∀ r, (k r).Yields V

theorem yields_bind {V : β → Prop} {p : Prog S α} {f : α → Prog S β}
    (hf : ∀ a, (f a).Yields V) : (p.bind f).Yields V := by
  induction p with
  | ret a => exact hf a
  | raise e => trivial
  | await o k ih => exact fun r => ih r

theorem yields_tryCatch {V : α → Prop} {p : Prog S α} {h : S.Exn → Prog S α} (hp : p.Yields V)
    (hh : ∀ e, (h e).Yields V) : (p.tryCatch h).Yields V := by
  induction p with
  | ret a => exact hp
  | raise e => exact hh e
  | await o k ih => exact fun r => ih r (hp r)

/-- Sequencing, when what follows depends on what was returned. -/
theorem all_bind_of_yields {V : α → Prop} {p : Prog S α} {f : α → Prog S β} (hp : p.All P)
    (hy : p.Yields V) (hf : ∀ a, V a → (f a).All P) : (p.bind f).All P := by
  induction p with
  | ret a => exact hf a hy
  | raise e => trivial
  | await o k ih => exact ⟨hp.1, fun r => ih r (hp.2 r) (hy r)⟩

theorem all_count {f : α → Prog S Bool} (h : ∀ a, (f a).All P) (xs : List α) :
    (count f xs).All P := by
  induction xs with
  | nil => trivial
  | cons x xs ih => exact all_bind (h x) fun _ => all_bind ih fun _ => trivial

theorem all_of_forall (h : ∀ o, P o) (p : Prog S α) : p.All P := by
  induction p with
  | ret a => trivial
  | raise e => trivial
  | await o k ih => exact ⟨h o, fun r => ih r⟩

/--
As long as the operations are answered, every operation the program awaits satisfies `P`,
and it does not raise.
-/
def Total (P : S.Op → Prop) : Prog S α → Prop
  | ret _ => True
  | raise _ => False
  | await o k => P o ∧ ∀ a, (k (.ok a)).Total P

theorem total_perform {o : S.Op} (h : P o) : (perform o).Total P :=
  ⟨h, fun _ => trivial⟩

theorem total_bind {p : Prog S α} {f : α → Prog S β} (hp : p.Total P) (hf : ∀ a, (f a).Total P) :
    (p.bind f).Total P := by
  induction p with
  | ret a => exact hf a
  | raise e => exact hp.elim
  | await o k ih => exact ⟨hp.1, fun a => ih _ (hp.2 a)⟩

theorem total_tryCatch {p : Prog S α} {h : S.Exn → Prog S α} (hp : p.Total P) :
    (p.tryCatch h).Total P := by
  induction p with
  | ret a => trivial
  | raise e => exact hp.elim
  | await o k ih => exact ⟨hp.1, fun a => ih _ (hp.2 a)⟩

theorem Total.mono (hPQ : ∀ o, P o → Q o) {p : Prog S α} (h : p.Total P) : p.Total Q := by
  induction p with
  | ret a => trivial
  | raise e => exact h.elim
  | await o k ih => exact ⟨hPQ o h.1, fun a => ih _ (h.2 a)⟩

/-- Run by itself, a program keeps what each of its operations keeps. -/
theorem All.eval {σ : Type} {A : σ → Prop} {h : (o : S.Op) → σ → Except S.Exn (S.Ans o) × σ}
    (hkept : ∀ o s, P o → A s → A (h o s).2) {p : Prog S α} (hp : p.All P) {s : σ} (hs : A s) :
    A (p.eval h s).2 := by
  induction p generalizing s with
  | ret a => exact hs
  | raise e => exact hs
  | await o k ih => exact ih _ (hp.2 _) (hkept o s hp.1 hs)

/-- Run by itself, a program returns only what it yields. -/
theorem Yields.eval {σ : Type} {V : α → Prop} {h : (o : S.Op) → σ → Except S.Exn (S.Ans o) × σ}
    {p : Prog S α} (hp : p.Yields V) {s : σ} {a : α} (ha : (p.eval h s).1 = .ok a) : V a := by
  induction p generalizing s with
  | ret a' =>
      obtain rfl : a' = a := Except.ok.inj ha
      exact hp
  | raise e => cases ha
  | await o k ih => exact ih _ (hp _) ha

theorem All.mono (hPQ : ∀ o, P o → Q o) {p : Prog S α} (h : p.All P) : p.All Q := by
  induction p with
  | ret a => trivial
  | raise e => trivial
  | await o k ih => exact ⟨hPQ o h.1, fun r => ih r (h.2 r)⟩

end Prog

end SmartDialer.Conc
