import SmartDialer.Conc.Retrospect

/-!
# Programs that end where they fail

A program without handlers ends in the first exception it is answered with. `Prog.Plain` says so,
up to exceptions that the program raises of its own, and `Plain.follows` draws the conclusion: if
the program returned, nothing it awaited has failed, and if it did not, something has.
`Prog.attempt` is what a `try` with a `finally` is made of: the program runs to its end, and what
it ended in is a value to go on with.
-/

namespace SmartDialer.Conc

variable {S : Sig} {α β : Type}

/-- The operation ended in an exception. -/
def Reply.Failed (r : Reply S) : Prop := ∃ e, r.answer = .error e

theorem not_failed_ok {o : S.Op} (a : S.Ans o) : ¬(⟨o, .ok a⟩ : Reply S).Failed :=
  fun ⟨_, h⟩ => by cases h

theorem failed_error (o : S.Op) (e : S.Exn) : (⟨o, .error e⟩ : Reply S).Failed := ⟨e, rfl⟩

namespace Prog

variable {J : List (Reply S) → S.Op → Prop} {past : List (Reply S)}

theorem follows_andThen {p : Prog S α} {k : Except S.Exn α → Prog S β}
    {Q : Except S.Exn β → List (Reply S) → Prop}
    (h : p.Follows J (fun r past' => (k r).Follows J Q past') past) :
    (p.andThen k).Follows J Q past := by
  induction p generalizing past with
  | ret a => exact h
  | raise e => exact h
  | await o q ih => exact ⟨h.1, fun r => ih r (h.2 r)⟩

/-- What the program ends in, as a value. -/
def attempt (p : Prog S α) : Prog S (Except S.Exn α) := p.andThen .ret

theorem follows_attempt_bind {p : Prog S α} {g : Except S.Exn α → Prog S β}
    {Q : Except S.Exn β → List (Reply S) → Prop}
    (h : p.Follows J (fun r past' => (g r).Follows J Q past') past) :
    (p.attempt.bind g).Follows J Q past := by
  rw [attempt, andThen_bind]
  exact follows_andThen h

/--
The program awaits operations that satisfy `R`, and ends in whatever exception it is answered
with, or in one of its own.
-/
def Plain (R : S.Op → Prop) (own : S.Exn → Prop) : Prog S α → Prop
  | ret _ => True
  | raise e => own e
  | await o k => R o ∧ (∀ a, (k (.ok a)).Plain R own) ∧ ∀ e, k (.error e) = .raise e

variable {R : S.Op → Prop} {own : S.Exn → Prop}

theorem plain_perform {o : S.Op} (ho : R o) : (perform o).Plain R own :=
  ⟨ho, fun _ => trivial, fun _ => rfl⟩

theorem Plain.bind {p : Prog S α} {f : α → Prog S β} (hp : p.Plain R own)
    (hf : ∀ a, (f a).Plain R own) : (p.bind f).Plain R own := by
  induction p with
  | ret a => exact hf a
  | raise e => exact hp
  | await o k ih =>
      refine ⟨hp.1, fun a => ih (.ok a) (hp.2.1 a), fun e => ?_⟩
      change (k (.error e)).bind f = .raise e
      rw [hp.2.2 e]
      rfl

theorem Plain.all {p : Prog S α} (h : p.Plain R own) : p.All R := by
  induction p with
  | ret a => trivial
  | raise e => trivial
  | await o k ih =>
      refine ⟨h.1, fun r => ?_⟩
      cases r with
      | ok a => exact ih _ (h.2.1 a)
      | error e =>
          rw [h.2.2 e]
          trivial

/-- The program does not return without having awaited `o`. -/
def Does (o : S.Op) : Prog S α → Prop
  | ret _ => False
  | raise _ => True
  | await o' k => o' = o ∨ ∀ r, (k r).Does o

theorem does_perform (o : S.Op) : (perform o).Does o := .inl rfl

theorem Does.bind {o : S.Op} {p : Prog S α} (h : p.Does o) (f : α → Prog S β) :
    (p.bind f).Does o := by
  induction p with
  | ret a => exact h.elim
  | raise e => trivial
  | await o' k ih => exact h.imp id fun hk r => ih r (hk r)

theorem Does.after {o : S.Op} {p : Prog S α} {f : α → Prog S β} (h : ∀ a, (f a).Does o) :
    (p.bind f).Does o := by
  induction p with
  | ret a => exact h a
  | raise e => trivial
  | await o' k ih => exact .inr fun r => ih r

/-- What was awaited, what failed and what was done, by what the program ended in. -/
structure Ran (R : S.Op → Prop) (own : S.Exn → Prop) (p : Prog S α) (result : Except S.Exn α)
    (new : List (Reply S)) : Prop where
  ops : ∀ r ∈ new, R r.op
  ok : ∀ a, result = .ok a → ∀ r ∈ new, ¬r.Failed
  error : ∀ e, result = .error e → own e ∨ ∃ r ∈ new, r.Failed
  done : ∀ o, p.Does o → ∀ a, result = .ok a → ∃ r ∈ new, r.op = o

/-- **A program that returned was answered throughout**, and has done all it does. -/
theorem Plain.follows {p : Prog S α} (h : p.Plain R own) (past : List (Reply S)) :
    p.Follows (fun _ o => R o)
      (fun result past' => ∃ new, past' = new ++ past ∧ Ran R own p result new) past := by
  induction p generalizing past with
  | ret a => exact ⟨[], rfl, by simp, by simp, fun _ he => (by cases he), fun _ ho => ho.elim⟩
  | raise e =>
      refine ⟨[], rfl, by simp, by simp, fun e' he => .inl ?_, fun _ _ _ ha => by cases ha⟩
      obtain rfl := Except.error.inj he
      exact h
  | await o k ih =>
      refine ⟨h.1, fun r => ?_⟩
      cases r with
      | ok a =>
          refine (ih _ (h.2.1 a) _).mono fun result past' _ hran => ?_
          obtain ⟨new, rfl, hran⟩ := hran
          refine ⟨new ++ [⟨o, .ok a⟩], by simp, fun r hr => ?_, fun b hb r hr => ?_,
            fun e he => ?_, fun o' ho' b hb => ?_⟩
          · rcases List.mem_append.mp hr with hr | hr
            · exact hran.ops r hr
            · obtain rfl := List.mem_singleton.mp hr
              exact h.1
          · rcases List.mem_append.mp hr with hr | hr
            · exact hran.ok b hb r hr
            · obtain rfl := List.mem_singleton.mp hr
              exact not_failed_ok a
          · rcases hran.error e he with hown | ⟨r, hr, hfailed⟩
            · exact .inl hown
            · exact .inr ⟨r, List.mem_append_left _ hr, hfailed⟩
          · rcases ho' with rfl | hk
            · exact ⟨⟨o, .ok a⟩, by simp, rfl⟩
            · obtain ⟨r, hr, hop⟩ := hran.done o' (hk _) b hb
              exact ⟨r, List.mem_append_left _ hr, hop⟩
      | error e =>
          rw [h.2.2 e]
          refine ⟨[⟨o, .error e⟩], rfl, fun r hr => ?_, fun _ hb => (by cases hb), fun _ _ => ?_,
            fun _ _ _ hb => by cases hb⟩
          · obtain rfl := List.mem_singleton.mp hr
            exact h.1
          · exact .inr ⟨_, List.mem_singleton_self _, failed_error o e⟩

end Prog

end SmartDialer.Conc
