import Mathlib.Order.Lattice

/-!
# A sliding window

Items arrive in the order of their times, and a reader wants those that are not older than some
cutoff. Instead of keeping them all, the window drops from its front what is too old, now and
then. Since cutoffs only grow, what has been dropped is never missed: from the last cutoff on,
trimming the window and trimming the list of all items that ever arrived come to the same.
-/

namespace SmartDialer.Store.SlidingWindow

variable {α τ : Type} [LinearOrder τ] {time : α → τ}

/-- Drop from the front what is older than `cutoff`. -/
def trim (time : α → τ) (cutoff : τ) (xs : List α) : List α :=
  xs.dropWhile fun x => decide (time x < cutoff)

/-- What is not older than `cutoff`. -/
def within (time : α → τ) (cutoff : τ) (xs : List α) : List α :=
  xs.filter fun x => decide (cutoff ≤ time x)

/-- In the order of their times. -/
def Ordered (time : α → τ) (xs : List α) : Prop := xs.Pairwise fun x y => time x ≤ time y

/-- Of a list in order, the front is what is too old. -/
theorem trim_eq_within {xs : List α} (h : Ordered time xs) (cutoff : τ) :
    trim time cutoff xs = within time cutoff xs := by
  induction xs with
  | nil => rfl
  | cons x xs ih =>
      obtain ⟨hx, hxs⟩ := List.pairwise_cons.mp h
      by_cases hold : time x < cutoff
      · rw [trim, List.dropWhile_cons_of_pos (by simpa using hold), ← trim, ih hxs, within, within,
          List.filter_cons_of_neg (by simpa using hold)]
      -- the first item is in the window, and so are the later ones
      · have hall : ∀ y ∈ x :: xs, decide (cutoff ≤ time y) = true := by
          intro y hy
          rcases List.mem_cons.mp hy with rfl | hy
          · simpa using hold
          · simpa using le_trans (not_lt.mp hold) (hx y hy)
        rw [trim, List.dropWhile_cons_of_neg (by simpa using hold), within,
          List.filter_eq_self.mpr hall]

/-- A later cutoff drops what an earlier one drops. -/
theorem trim_trim {cutoff cutoff' : τ} (h : cutoff ≤ cutoff') (xs : List α) :
    trim time cutoff' (trim time cutoff xs) = trim time cutoff' xs := by
  induction xs with
  | nil => rfl
  | cons x xs ih =>
      by_cases hold : time x < cutoff
      · have hold' : time x < cutoff' := lt_of_lt_of_le hold h
        rw [trim, trim, List.dropWhile_cons_of_pos (by simpa using hold), ← trim, ← trim, ih, trim,
          trim, List.dropWhile_cons_of_pos (by simpa using hold')]
      · rw [trim, trim, List.dropWhile_cons_of_neg (by simpa using hold), ← trim]

/-- From `cutoff` on, trimming makes the same of both. -/
def AgreeFrom (time : α → τ) (cutoff : τ) (xs ys : List α) : Prop :=
  ∀ c, cutoff ≤ c → trim time c xs = trim time c ys

namespace AgreeFrom

variable {cutoff cutoff' : τ} {xs ys zs : List α}

theorem refl (cutoff : τ) (xs : List α) : AgreeFrom time cutoff xs xs := fun _ _ => rfl

theorem later (h : AgreeFrom time cutoff xs ys) (hle : cutoff ≤ cutoff') :
    AgreeFrom time cutoff' xs ys :=
  fun c hc => h c (le_trans hle hc)

/-- The window may be trimmed. -/
theorem trimmed (h : AgreeFrom time cutoff xs ys) :
    AgreeFrom time cutoff (trim time cutoff xs) ys :=
  fun c hc => (trim_trim hc xs).trans (h c hc)

/-- Items may arrive. -/
theorem append (h : AgreeFrom time cutoff xs ys) (zs : List α) :
    AgreeFrom time cutoff (xs ++ zs) (ys ++ zs) := by
  intro c hc
  have hagree := h c hc
  rw [trim] at hagree
  rw [trim, trim, List.dropWhile_append, List.dropWhile_append, hagree, trim]

end AgreeFrom

end SmartDialer.Store.SlidingWindow
