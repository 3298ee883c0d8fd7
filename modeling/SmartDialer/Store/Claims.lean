import Mathlib.Logic.Function.Basic
import SmartDialer.Store.Collection

/-!
# Documents claimed by test and write

Several parties share a collection. Each claims a document by a write whose filter holds
of free documents only, so that of two attempts on one document the second is refused; and
gives it back, if it does, by a write that is open to the document as it left it.

`Claimed` compares the collection with what it was at the start, given who holds what.
The holder of a document is not read off the document — two parties may write the same
name into it — and is kept apart, as a map from keys to holders.
-/

namespace SmartDialer.Store

variable {α κ : Type} [Document α κ] [DecidableEq κ]

/-- What the documents of a collection look like: free to be claimed, held, and given back. -/
structure Discipline (α : Type) where
  free : α → Prop
  held : Nat → α → Prop
  returned : α → Prop

/-- The collection was `c₀`; `γ` says who holds which document now. -/
structure Claimed (D : Discipline α) (c₀ c : Collection α) (γ : κ → Option Nat) : Prop where
  unheld : ∀ k, γ k = none → c.get k = c₀.get k
    ∨ ∃ d₀ d, c₀.get k = some d₀ ∧ D.free d₀ ∧ c.get k = some d ∧ D.returned d
  held : ∀ k j, γ k = some j →
    ∃ d₀ d, c₀.get k = some d₀ ∧ D.free d₀ ∧ c.get k = some d ∧ D.held j d

namespace Claimed

variable {D : Discipline α} {c₀ c c' : Collection α} {γ : κ → Option Nat} {k : κ} {i : Nat}
  {p : α → Bool} {u : Update α}

/-- At the start nothing is held. -/
theorem init (c : Collection α) : Claimed D c c fun _ => none where
  unheld _ _ := .inl rfl
  held _ _ := fun h => by cases h

theorem congr (h : Claimed D c₀ c γ) (hc : ∀ k, c'.get k = c.get k) : Claimed D c₀ c' γ where
  unheld k hk := by
    rw [hc]
    exact h.unheld k hk
  held k j hj := by
    rw [hc]
    exact h.held k j hj

/-- A refused attempt changes nothing. -/
theorem refused (h : Claimed D c₀ c γ) (hnone : (c.findOneAndUpdate k p u).1 = none) :
    Claimed D c₀ (c.findOneAndUpdate k p u).2 γ := by
  refine h.congr (Collection.update_of_get_filter ?_)
  exact Option.map_eq_none_iff.mp hnone

/-- **Claiming.** Nobody held the document before. -/
theorem claim (h : Claimed D c₀ c γ) (hfree : ∀ d, p d = true → D.free d)
    (hheld : ∀ d, p d = true → D.held i (u.apply d))
    (hrefuse : ∀ j d, D.held j d → p d = false) {d' : α}
    (hd' : (c.findOneAndUpdate k p u).1 = some d') :
    γ k = none ∧
      Claimed D c₀ (c.findOneAndUpdate k p u).2 (Function.update γ k (some i)) := by
  obtain ⟨d, hd, hp, rfl, hnow⟩ := Collection.get_of_findOneAndUpdate_some hd'
  -- who holds it would have made the filter fail
  have hnone : γ k = none := by
    by_contra hsome
    obtain ⟨j, hj⟩ := Option.ne_none_iff_exists'.mp hsome
    obtain ⟨-, e, -, -, he, hej⟩ := h.held k j hj
    obtain rfl : e = d := Option.some.inj (he.symm.trans hd)
    cases (hrefuse j e hej).symm.trans hp
  -- it was free at the start too: at most it has been given back since
  have hwas : ∃ d₀, c₀.get k = some d₀ ∧ D.free d₀ := by
    rcases h.unheld k hnone with hsame | ⟨d₀, -, hd₀, hf, -⟩
    · exact ⟨d, hsame.symm.trans hd, hfree d hp⟩
    · exact ⟨d₀, hd₀, hf⟩
  have hother : ∀ k', k' ≠ k → (c.findOneAndUpdate k p u).2.get k' = c.get k' :=
    fun k' hne => Collection.get_update_ne hne p u
  refine ⟨hnone, fun k' hk' => ?_, fun k' j hj => ?_⟩
  · by_cases hk : k' = k
    · subst hk
      rw [Function.update_self] at hk'
      cases hk'
    · rw [Function.update_of_ne hk] at hk'
      rw [hother k' hk]
      exact h.unheld k' hk'
  · by_cases hk : k' = k
    · subst hk
      rw [Function.update_self] at hj
      obtain rfl := Option.some.inj hj
      obtain ⟨d₀, hd₀, hf⟩ := hwas
      exact ⟨d₀, _, hd₀, hf, hnow, hheld d hp⟩
    · rw [Function.update_of_ne hk] at hj
      rw [hother k' hk]
      exact h.held k' j hj

/-- **Giving back.** -/
theorem giveBack (h : Claimed D c₀ c γ) (hk : γ k = some i)
    (hopen : ∀ d, D.held i d → p d = true) (hback : ∀ d, D.held i d → D.returned (u.apply d)) :
    Claimed D c₀ (c.findOneAndUpdate k p u).2 (Function.update γ k none) := by
  obtain ⟨d₀, d, hd₀, hf, hd, hheld⟩ := h.held k i hk
  have hnow : (c.findOneAndUpdate k p u).2.get k = some (u.apply d) :=
    Collection.get_write_of_filter (w := ⟨k, p, u⟩) hd (hopen d hheld)
  have hother : ∀ k', k' ≠ k → (c.findOneAndUpdate k p u).2.get k' = c.get k' :=
    fun k' hne => Collection.get_update_ne hne p u
  refine ⟨fun k' hk' => ?_, fun k' j hj => ?_⟩
  · by_cases hkk : k' = k
    · subst hkk
      exact .inr ⟨d₀, _, hd₀, hf, hnow, hback d hheld⟩
    · rw [Function.update_of_ne hkk] at hk'
      rw [hother k' hkk]
      exact h.unheld k' hk'
  · by_cases hkk : k' = k
    · subst hkk
      rw [Function.update_self] at hj
      cases hj
    · rw [Function.update_of_ne hkk] at hj
      rw [hother k' hkk]
      exact h.held k' j hj

end Claimed

/-! ## Who holds what -/

section

variable {γ : κ → Option Nat} {k : κ} {i j : Nat}

/-- A claim takes nothing from the others. -/
theorem update_claim_ne (hk : γ k = none) (hj : j ≠ i) (k' : κ) :
    Function.update γ k (some i) k' = some j ↔ γ k' = some j := by
  by_cases h : k' = k
  · rw [h, Function.update_self, hk]
    simp [hj.symm]
  · rw [Function.update_of_ne h]

/-- One who held nothing holds what it claimed. -/
theorem update_claim_self (hi : ∀ k', γ k' = some i ↔ none = some k') (k' : κ) :
    Function.update γ k (some i) k' = some i ↔ some k = some k' := by
  by_cases h : k' = k
  · rw [h, Function.update_self]
    simp
  · rw [Function.update_of_ne h, hi k']
    simp [Ne.symm h]

/-- Giving back takes nothing from the others. -/
theorem update_giveBack_ne (hk : γ k = some i) (hj : j ≠ i) (k' : κ) :
    Function.update γ k none k' = some j ↔ γ k' = some j := by
  by_cases h : k' = k
  · rw [h, Function.update_self, hk]
    simp [hj.symm]
  · rw [Function.update_of_ne h]

/-- One who gives back all it held holds nothing. -/
theorem update_giveBack_self (hi : ∀ k', γ k' = some i ↔ some k = some k') (k' : κ) :
    Function.update γ k none k' = some i ↔ none = some k' := by
  by_cases h : k' = k
  · rw [h, Function.update_self]
    simp
  · rw [Function.update_of_ne h, hi k']
    simp [Ne.symm h]

end

end SmartDialer.Store
