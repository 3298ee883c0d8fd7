import SmartDialer.Conc.Alone
import SmartDialer.Protocol.Outline
import SmartDialer.Writes

/-!
# When nothing fails

Some statements are about what the components do as long as every database operation
succeeds and nobody is cancelled. Then no operation of theirs raises, except where the
provider or a duplicate key says so, and a proof follows the program to its end.
-/

namespace SmartDialer

open Conc

variable {cfg : Settings}

/-- The runs without failures and cancellations. -/
def faultless (cfg : Settings) : Policy (dialer cfg) where
  task _ := True
  run _ _ c _ := c.fault = .none

/-- What an operation does when nothing goes wrong. -/
theorem exec_faultless {c : Choice} (hc : c.fault = .none) (i : Nat) (o : Op) (s : State) :
    exec i o c s
      = ((effect o c s).1, (effect o c s).2.record (.answered i o (effect o c s).1)) := by
  rw [exec, attempt, hc]

/-- An operation that writes nothing is answered, and the answer noted. -/
theorem exec_of_effect {o : Op} {c : Choice} {s : State} {r : Except Exn (Ans o)}
    (hc : c.fault = .none) (hr : effect o c s = (r, s)) (i : Nat) :
    exec i o c s = (r, s.record (.answered i o r)) := by
  rw [exec_faultless hc, hr]

/-- An operation the database answers by itself, whatever it holds. -/
def Op.Plain : Op → Prop
  | .insertCall .. | .originateCall .. | .hangupCall .. | .getCallStatus .. => False
  | _ => True

theorem exec_plain {o : Op} (h : o.Plain) {c : Choice} (hc : c.fault = .none) (i : Nat)
    (s : State) : ∃ a, (exec i o c s).1 = .ok a := by
  rw [exec_faultless hc]
  cases o <;> first | exact h.elim | exact ⟨_, rfl⟩

/-! ## One process -/

section

variable {i : Nat} {α : Type}

/-- Where the documents are the same, so is what a program answers, and what it makes of them. -/
theorem SameDocuments.eval {env : Nat → Choice} (p : Async α) {s s' : State}
    (h : SameDocuments s s') (n : Nat) :
    (p.eval (solo i env) (s, n)).1 = (p.eval (solo i env) (s', n)).1
      ∧ SameDocuments (p.eval (solo i env) (s, n)).2.1 (p.eval (solo i env) (s', n)).2.1 := by
  induction p generalizing s s' n with
  | ret a => exact ⟨rfl, h⟩
  | raise e => exact ⟨rfl, h⟩
  | await o k ih =>
      obtain ⟨hans, hdocs⟩ := h.attempt o (env n)
      have hnext : SameDocuments (exec i o (env n) s).2 (exec i o (env n) s').2 :=
        hdocs.congr (.record _ _) (.record _ _)
      have heq : (exec i o (env n) s).1 = (exec i o (env n) s').1 := hans
      change ((k (exec i o (env n) s).1).eval (solo i env) _).1
          = ((k (exec i o (env n) s').1).eval (solo i env) _).1
        ∧ SameDocuments ((k (exec i o (env n) s).1).eval (solo i env) _).2.1
          ((k (exec i o (env n) s').1).eval (solo i env) _).2.1
      rw [heq]
      exact ih _ hnext (n + 1)

/-- The logic of a process nobody disturbs, when nothing fails. -/
abbrev secluded (cfg : Settings) (i : Nat) : Logic (faultless cfg) Unit :=
  Logic.alone (faultless cfg) i

/-- An operation that does not raise by itself, and what it leads to. -/
theorem wp_effect {o : Op} {f : Ans o → Assertion Unit} {s : State}
    (h : ∀ c : Choice, ∃ a, (effect o c s).1 = .ok a ∧
      f a ((effect o c s).2.record (.answered i o (.ok a)), ())) :
    (secluded cfg i).wp i (await o) (Finishes f) (s, ()) := by
  refine Logic.wp_perform_alone fun c hc => ?_
  obtain ⟨a, ha, hf⟩ := h c
  change Finishes f (exec i o c s).1 ((exec i o c s).2, ())
  rw [exec_faultless hc, ha]
  exact hf

/-- A program that does not raise keeps what each of its operations keeps. -/
theorem wp_total {p : Async α} {R : Op → Prop} {A : State → Prop} (hp : p.Total R)
    (hplain : ∀ o, R o → o.Plain) (hkept : ∀ o, R o → ∀ c s, A s → A (exec i o c s).2)
    {s : State × Unit} (hs : A s.1) :
    (secluded cfg i).wp i p (Finishes fun _ s' => A s'.1) s := by
  refine wp_total_finishes (L := secluded cfg i) (A := fun s => A s.1) hp
    (Logic.stable_alone _) (fun o ho => ?_) hs
  refine Logic.atomic_alone fun s c hs hc => ?_
  obtain ⟨a, hans⟩ := exec_plain (hplain o ho) hc i s
  change Finishes _ (exec i o c s).1 ((exec i o c s).2, ())
  rw [hans]
  exact hkept o ho c s hs

/-- What is proved in the logic holds of the computation. -/
theorem eval_solo_of_wp {p : Async α} {f : α → Assertion Unit} {env : Nat → Choice} {s : State}
    {n : Nat} (henv : ∀ k, n ≤ k → (env k).fault = .none)
    (h : (secluded cfg i).wp i p (Finishes f) (s, ())) :
    ∃ a, (p.eval (solo i env) (s, n)).1 = .ok a ∧ f a ((p.eval (solo i env) (s, n)).2.1, ()) := by
  have hpost : Finishes f (p.eval (solo i env) (s, n)).1 ((p.eval (solo i env) (s, n)).2.1, ()) :=
    Logic.eval_of_wp (P := faultless cfg) (fun k hk _ _ => henv k hk) h
  generalize (p.eval (solo i env) (s, n)).1 = r at hpost ⊢
  cases r with
  | ok a => exact ⟨a, rfl, hpost⟩
  | error e => exact hpost.elim

end

end SmartDialer
