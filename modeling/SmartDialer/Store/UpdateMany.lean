import SmartDialer.Store.Collection

/-!
# Updates of many documents

`update_many`: one update, applied to all documents that satisfy a filter. Each document is
rewritten by itself, so what is stored under a key afterwards depends on what was stored there.
-/

namespace SmartDialer.Store.Collection

variable {α κ : Type} [Document α κ] [DecidableEq κ]

/-- Apply `u` to all documents that satisfy `p`. -/
def updateMany (c : Collection α) (p : α → Bool) (u : Update α) : Collection α where
  docs := c.docs.map (fun d => if p d then u.apply d else d)
  nodup := by
    have hkey : key ∘ (fun d => if p d then u.apply d else d) = (key : α → κ) := by
      funext d
      rw [Function.comp_apply]
      split
      · exact u.key_apply d
      · rfl
    rw [List.map_map, hkey]
    exact c.nodup

theorem get_updateMany (c : Collection α) (p : α → Bool) (u : Update α) (k : κ) :
    (c.updateMany p u).get k = (c.get k).map fun d => if p d then u.apply d else d := by
  have hkey : ((fun d => decide (key d = k)) ∘ fun d => if p d then u.apply d else d)
      = fun d => decide (key d = k) := by
    funext d
    rw [Function.comp_apply]
    split
    · rw [u.key_apply]
    · rfl
  rw [get, get, updateMany, List.find?_map, hkey]

/-- A document found afterwards was there before, and the update passed it by or was applied. -/
theorem get_updateMany_some {c : Collection α} {p : α → Bool} {u : Update α} {k : κ} {d' : α}
    (h : (c.updateMany p u).get k = some d') :
    ∃ d, c.get k = some d ∧ (p d = true ∧ d' = u.apply d ∨ p d = false ∧ d' = d) := by
  rw [get_updateMany, Option.map_eq_some_iff] at h
  obtain ⟨d, hd, rfl⟩ := h
  refine ⟨d, hd, ?_⟩
  cases hp : p d with
  | true => exact .inl ⟨rfl, if_pos rfl⟩
  | false => exact .inr ⟨rfl, if_neg (by simp)⟩

end SmartDialer.Store.Collection
