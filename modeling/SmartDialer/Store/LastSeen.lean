import Mathlib.Data.Finset.Card
import Mathlib.Data.List.AList

/-!
# Repetitions of a key

One pass over a list, with a table of the labels under which the keys were seen last. An item
whose key is in the table is reported, together with the label that is there, and the table is
written at every item, reported or not.

So the table speaks of the last item with a key, and its keys are the distinct keys of what has
been passed: an item adds a key, or is reported.
-/

namespace SmartDialer.Store

/-- What a pass has seen, and what it has reported. -/
structure LastSeen (κ β γ : Type) where
  seen : AList fun _ : κ => β := ∅
  reported : List γ := []

namespace LastSeen

variable {α β γ κ : Type} [DecidableEq κ] (key : α → κ) (label : α → β) (report : α → β → γ)

/-- One item. -/
def step (p : LastSeen κ β γ) (x : α) : LastSeen κ β γ where
  seen := p.seen.insert (key x) (label x)
  reported := match p.seen.lookup (key x) with
    | some earlier => p.reported ++ [report x earlier]
    | none => p.reported

/-- The pass over a list. -/
def pass (xs : List α) : LastSeen κ β γ := xs.foldl (step key label report) {}

/-- The last item that has this key. -/
def lastWith (k : κ) (xs : List α) : Option α := xs.reverse.find? fun x => decide (key x = k)

theorem pass_snoc (xs : List α) (x : α) :
    pass key label report (xs ++ [x]) = step key label report (pass key label report xs) x :=
  List.foldl_concat ..

theorem lastWith_snoc (k : κ) (xs : List α) (x : α) :
    lastWith key k (xs ++ [x]) = if key x = k then some x else lastWith key k xs := by
  rw [lastWith, List.reverse_concat, List.find?_cons]
  by_cases h : key x = k
  · simp [h]
  · simp [h, lastWith]

theorem lastWith_eq_none_iff {k : κ} {xs : List α} : lastWith key k xs = none ↔ k ∉ xs.map key := by
  simp [lastWith, List.find?_eq_none]

/-! ## The table -/

/-- The table says of a key under which label it was seen last. -/
theorem lookup_seen (k : κ) (xs : List α) :
    (pass key label report xs).seen.lookup k = (lastWith key k xs).map label := by
  induction xs using List.reverseRecOn with
  | nil => rfl
  | append_singleton xs x ih =>
      rw [pass_snoc, lastWith_snoc, step]
      by_cases h : key x = k
      · subst h
        rw [AList.lookup_insert, if_pos rfl]
        rfl
      · rw [AList.lookup_insert_ne (Ne.symm h), if_neg h, ih]

/-! ## The reports -/

theorem reported_snoc (xs : List α) (x : α) : (pass key label report (xs ++ [x])).reported
    = (pass key label report xs).reported
      ++ ((lastWith key (key x) xs).map fun y => report x (label y)).toList := by
  rw [pass_snoc, step, lookup_seen]
  cases lastWith key (key x) xs with
  | none => exact (List.append_nil _).symm
  | some y => rfl

/-- **An item adds a key, or is reported.** -/
theorem length_reported (xs : List α) :
    (pass key label report xs).reported.length + (xs.map key).toFinset.card = xs.length := by
  induction xs using List.reverseRecOn with
  | nil => rfl
  | append_singleton xs x ih =>
      have hkeys : ((xs ++ [x]).map key).toFinset = insert (key x) (xs.map key).toFinset := by
        rw [List.map_append, List.toFinset_append, Finset.union_comm]
        rfl
      rw [reported_snoc, hkeys, List.length_append, List.length_append, ← ih]
      cases hlast : lastWith key (key x) xs with
      | none =>
          have hnew := (lastWith_eq_none_iff key).mp hlast
          rw [Finset.card_insert_of_notMem (fun h => hnew (List.mem_toFinset.mp h))]
          simp [Nat.add_assoc]
      | some y =>
          have hold : key x ∈ xs.map key := by
            by_contra h
            rw [(lastWith_eq_none_iff key).mpr h] at hlast
            cases hlast
          rw [Finset.insert_eq_of_mem (List.mem_toFinset.mpr hold)]
          simp only [Option.map_some, Option.toList_some, List.length_singleton]
          omega

/-- What is reported is an item and the last one before it with its key. -/
theorem mem_reported_iff {r : γ} {xs : List α} : r ∈ (pass key label report xs).reported
    ↔ ∃ before x after y, xs = before ++ x :: after ∧ lastWith key (key x) before = some y
      ∧ r = report x (label y) := by
  induction xs using List.reverseRecOn with
  | nil => simp [pass]
  | append_singleton xs x ih =>
      rw [reported_snoc, List.mem_append, ih]
      constructor
      · rintro (⟨before, x', after, y, rfl, hlast, rfl⟩ | hr)
        · exact ⟨before, x', after ++ [x], y, by simp, hlast, rfl⟩
        · obtain ⟨y, hlast, rfl⟩ := Option.map_eq_some_iff.mp (Option.mem_toList.mp hr)
          exact ⟨xs, x, [], y, rfl, hlast, rfl⟩
      · rintro ⟨before, x', after, y, hsplit, hlast, rfl⟩
        -- the item is the one that was added, or it came before
        rcases List.eq_nil_or_concat after with rfl | ⟨after, z, rfl⟩
        · obtain ⟨rfl, hx⟩ := List.append_inj' hsplit rfl
          obtain rfl := List.singleton_inj.mp hx
          exact .inr (Option.mem_toList.mpr (Option.map_eq_some_iff.mpr ⟨y, hlast, rfl⟩))
        · refine .inl ⟨before, x', after, y, ?_, hlast, rfl⟩
          have hsplit' : xs ++ [x] = (before ++ x' :: after) ++ [z] := by
            rw [hsplit]
            simp
          exact (List.append_inj' hsplit' rfl).1

omit [DecidableEq κ] in
/-- The keys are distinct as soon as positions are told by them. -/
theorem nodup_keys_iff {xs : List α} :
    (xs.map key).Nodup ↔ ∀ i j : Fin xs.length, key xs[i] = key xs[j] → i = j := by
  constructor
  · intro h i j hij
    have hi : i.1 < (xs.map key).length := by simp
    have hj : j.1 < (xs.map key).length := by simp
    have hpos : (xs.map key).get ⟨i.1, hi⟩ = (xs.map key).get ⟨j.1, hj⟩ := by simpa using hij
    have hsame := List.nodup_iff_injective_get.mp h hpos
    exact Fin.ext (Fin.mk.inj hsame)
  · intro h
    rw [List.Nodup, List.pairwise_iff_getElem]
    intro i j hi hj hlt heq
    rw [List.getElem_map, List.getElem_map] at heq
    rw [List.length_map] at hi hj
    exact absurd (Fin.val_eq_of_eq (h ⟨i, hi⟩ ⟨j, hj⟩ heq)) (Nat.ne_of_lt hlt)

theorem reported_eq_nil_iff {xs : List α} :
    (pass key label report xs).reported = [] ↔ (xs.map key).Nodup := by
  have hcount := length_reported key label report xs
  rw [← List.length_eq_zero_iff]
  constructor
  · intro hzero
    have hcard : (xs.map key).toFinset.card = (xs.map key).length := by
      rw [List.length_map]
      omega
    exact Multiset.toFinset_card_eq_card_iff_nodup.mp hcard
  · intro h
    rw [List.toFinset_card_of_nodup h, List.length_map] at hcount
    omega

/-- **Something is reported** if and only if two positions have one key. -/
theorem reported_ne_nil_iff {xs : List α} : (pass key label report xs).reported ≠ []
    ↔ ∃ i j : Fin xs.length, i ≠ j ∧ key xs[i] = key xs[j] := by
  rw [Ne, reported_eq_nil_iff, nodup_keys_iff]
  constructor
  · intro h
    simp only [not_forall] at h
    obtain ⟨i, j, heq, hne⟩ := h
    exact ⟨i, j, hne, heq⟩
  · rintro ⟨i, j, hne, heq⟩ h
    exact hne (h i j heq)

end LastSeen

end SmartDialer.Store
