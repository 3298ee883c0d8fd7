import Mathlib.Data.List.Basic

/-!
# Machines

A component that does nothing by itself: an action happens to it, and it moves and says
something, or it does not allow the action. An action carries whatever is contributed from
outside, a clock reading, a random draw, an argument.

A run is a list of actions from some state on, with all that was said along it. The invariant
rule speaks of the run as a whole, its actions and what was said included, so that what was said
early can be compared with what the state has become.
-/

namespace SmartDialer.Conc

/-- What an action makes of a state, and what is said at it, if the state allows the action. -/
structure Machine (σ α ω : Type) where
  step : σ → α → Option (σ × List ω)

namespace Machine

variable {σ α ω : Type}

/-- From `s₀` the actions lead to a state, and this was said along the way. -/
inductive Run (m : Machine σ α ω) (s₀ : σ) : List α → List ω → σ → Prop where
  | nil : Run m s₀ [] [] s₀
  | snoc {as : List α} {said : List ω} {s : σ} (h : Run m s₀ as said s) (a : α) {s' : σ}
      {new : List ω} (hs : m.step s a = some (s', new)) : Run m s₀ (as ++ [a]) (said ++ new) s'

/-- Run a list of actions. -/
def play (m : Machine σ α ω) : σ → List α → Option (σ × List ω)
  | s, [] => some (s, [])
  | s, a :: as =>
      (m.step s a).bind fun x => (m.play x.1 as).map fun y => (y.1, x.2 ++ y.2)

variable {m : Machine σ α ω} {s₀ s s' : σ} {as as' : List α} {said said' : List ω}

/-- One action. -/
theorem Run.single {a : α} (h : m.step s a = some (s', said)) : m.Run s [a] said s' := by
  have hrun := Run.nil.snoc a h
  rwa [List.nil_append, List.nil_append] at hrun

/-- One run after another. -/
theorem Run.append (h : m.Run s₀ as said s) (h' : m.Run s as' said' s') :
    m.Run s₀ (as ++ as') (said ++ said') s' := by
  induction h' with
  | nil => rwa [List.append_nil, List.append_nil]
  | snoc _ a hs ih =>
      rw [← List.append_assoc, ← List.append_assoc]
      exact ih.snoc a hs

/-- **The invariant rule.** -/
theorem Run.invariant {I : List α → List ω → σ → Prop} (h : m.Run s₀ as said s)
    (hinit : I [] [] s₀)
    (hstep : ∀ as said s a s' new, I as said s → m.step s a = some (s', new) →
      I (as ++ [a]) (said ++ new) s') : I as said s := by
  induction h with
  | nil => exact hinit
  | snoc _ a hs ih => exact hstep _ _ _ a _ _ ih hs

/-- A played list of actions is a run. -/
theorem Run.of_play (h : m.play s as = some (s', said)) : m.Run s as said s' := by
  induction as generalizing s said with
  | nil =>
      obtain ⟨rfl, rfl⟩ := Prod.mk.inj (Option.some.inj h)
      exact .nil
  | cons a as ih =>
      rw [play, Option.bind_eq_some_iff] at h
      obtain ⟨⟨s₁, new⟩, hs, h⟩ := h
      obtain ⟨⟨s₂, rest⟩, hplay, heq⟩ := Option.map_eq_some_iff.mp h
      obtain ⟨rfl, rfl⟩ := Prod.mk.inj heq
      exact (Run.single hs).append (ih hplay)

end Machine

end SmartDialer.Conc
