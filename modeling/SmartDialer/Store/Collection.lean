import Mathlib.Data.List.Find
import Mathlib.Data.List.Sort

/-!
# Collections of keyed documents

The fragment of a document database the repositories use. A collection holds
documents in insertion order, no two under one key; an update is addressed to a
key, carries a filter on the rest of the document, and can change everything but
the key. `findOneAndUpdate` is the primitive the whole design leans on: the test
of the filter and the write are one step, and the answer tells the caller whether
its filter still held.

Reading is by key (`get`), by scan (`find`, `findOne`), and by scan sorted and
cut off (`sortOn`, `limit`).
-/

namespace SmartDialer.Store

/-- Documents of type `α` are filed under keys of type `κ`. -/
class Document (α : Type) (κ : outParam Type) where
  /-- The field a document is filed under. -/
  key : α → κ

export Document (key)

/-- A change to a document that leaves its key alone. -/
structure Update (α : Type) {κ : Type} [Document α κ] where
  apply : α → α
  /-- Keys are immutable. -/
  key_apply : ∀ a, key (apply a) = key a

/-- An update addressed to one document, under a filter. -/
structure Write (α : Type) {κ : Type} [Document α κ] where
  /-- The key of the document. -/
  target : κ
  /-- What must be true of it. -/
  filter : α → Bool
  update : Update α

/-- What becomes of the document `d` under a write, or under none. -/
inductive Rewritten {α κ : Type} [Document α κ] (w : Option (Write α)) (d : α) : α → Prop where
  /-- It is not the one, or the filter does not hold of it. -/
  | same : Rewritten w d d
  /-- It is the one the write is addressed to. -/
  | written (v : Write α) (hw : w = some v) (hk : key d = v.target) (hp : v.filter d = true) :
      Rewritten w d (v.update.apply d)

/-- Documents in insertion order, one per key. -/
structure Collection (α : Type) {κ : Type} [Document α κ] where
  docs : List α
  /-- No two documents are filed under one key. -/
  nodup : (docs.map key).Nodup

namespace Collection

variable {α κ : Type} [Document α κ] [DecidableEq κ]

/-- The collection with nothing in it. -/
def empty : Collection α := ⟨[], List.nodup_nil⟩

/-- The document filed under `k`. -/
def get (c : Collection α) (k : κ) : Option α := c.docs.find? (fun d => key d = k)

/-- The first document, in insertion order, that satisfies `p`. -/
def findOne (c : Collection α) (p : α → Bool) : Option α := c.docs.find? p

/-- How many documents satisfy `p`. -/
def count (c : Collection α) (p : α → Bool) : Nat := c.docs.countP p

/-- All documents that satisfy `p`, in insertion order. -/
def find (c : Collection α) (p : α → Bool) : List α := c.docs.filter p

/-- `docs` sorted by a field, ascending; equal ones stay in order. -/
def sortOn {β : Type} [LinearOrder β] (f : α → β) (docs : List α) : List α :=
  docs.insertionSort (fun a b => f a ≤ f b)

/-- A cursor's `limit(n)`: zero is no limit. -/
def limit (n : Int) (docs : List α) : List α := if n = 0 then docs else docs.take n.natAbs

/-- Apply `u` to the document filed under `k`, if it satisfies `p`. -/
def update (c : Collection α) (k : κ) (p : α → Bool) (u : Update α) : Collection α where
  docs := c.docs.map (fun d => if key d = k ∧ p d then u.apply d else d)
  nodup := by
    have hkeys : (c.docs.map (fun d => if key d = k ∧ p d then u.apply d else d)).map key
        = c.docs.map key := by
      rw [List.map_map]
      refine List.map_congr_left ?_
      intro d _
      simp only [Function.comp_apply]
      split
      · exact u.key_apply d
      · rfl
    rw [hkeys]
    exact c.nodup

/-- Perform a write. -/
def write (c : Collection α) (w : Write α) : Collection α := c.update w.target w.filter w.update

/-- Test and write in one step; answers the updated document, or nothing. -/
def findOneAndUpdate (c : Collection α) (k : κ) (p : α → Bool) (u : Update α) :
    Option α × Collection α :=
  (((c.get k).filter p).map u.apply, c.update k p u)

/-- File a new document; refused when its key is taken. -/
def insert (c : Collection α) (d : α) : Option (Collection α) :=
  if h : key d ∈ c.docs.map key then none
  else some ⟨c.docs ++ [d], by
    rw [List.map_append, List.nodup_append]
    refine ⟨c.nodup, by simp, ?_⟩
    intro a ha b hb
    simp only [List.map_cons, List.map_nil, List.mem_singleton] at hb
    subst hb
    exact fun heq => h (heq ▸ ha)⟩

/-! ## Reading -/

@[simp] theorem get_empty (k : κ) : (empty : Collection α).get k = none := rfl

theorem key_of_get {c : Collection α} {k : κ} {d : α} (h : c.get k = some d) : key d = k := by
  have := List.find?_some h
  simpa using this

theorem mem_of_get {c : Collection α} {k : κ} {d : α} (h : c.get k = some d) : d ∈ c.docs :=
  List.mem_of_find?_eq_some h

/-- A document of the collection is the one its key leads to. -/
theorem get_of_mem {c : Collection α} {d : α} (h : d ∈ c.docs) : c.get (key d) = some d := by
  obtain ⟨docs, hnd⟩ := c
  simp only [get]
  induction docs with
  | nil => simp at h
  | cons x xs ih =>
      rw [List.map_cons, List.nodup_cons] at hnd
      rcases List.mem_cons.mp h with rfl | hx
      · simp
      · have hne : key x ≠ key d := fun heq => hnd.1 (heq ▸ List.mem_map_of_mem hx)
        rw [List.find?_cons_of_neg (by simpa using hne)]
        exact ih hnd.2 hx

theorem get_eq_some_iff {c : Collection α} {k : κ} {d : α} :
    c.get k = some d ↔ d ∈ c.docs ∧ key d = k := by
  constructor
  · exact fun h => ⟨mem_of_get h, key_of_get h⟩
  · rintro ⟨hd, rfl⟩
    exact get_of_mem hd

theorem get_isSome_iff {c : Collection α} {k : κ} :
    (c.get k).isSome ↔ k ∈ c.docs.map key := by
  rw [Option.isSome_iff_exists, List.mem_map]
  exact ⟨fun ⟨d, hd⟩ => ⟨d, get_eq_some_iff.mp hd⟩, fun ⟨d, hd⟩ => ⟨d, get_eq_some_iff.mpr hd⟩⟩

theorem findOne_some {c : Collection α} {p : α → Bool} {d : α} (h : c.findOne p = some d) :
    c.get (key d) = some d ∧ p d = true :=
  ⟨get_of_mem (List.mem_of_find?_eq_some h), List.find?_some h⟩

theorem findOne_none {c : Collection α} {p : α → Bool} (h : c.findOne p = none) {k : κ} {d : α}
    (hd : c.get k = some d) : p d = false := by
  have := List.find?_eq_none.mp h d (mem_of_get hd)
  simpa using this

theorem mem_find {c : Collection α} {p : α → Bool} {d : α} :
    d ∈ c.find p ↔ c.get (key d) = some d ∧ p d = true := by
  rw [find, List.mem_filter, get_eq_some_iff]
  simp

/-- No document satisfies `p`. -/
def Lacks (c : Collection α) (p : α → Bool) : Prop := ∀ k d, c.get k = some d → p d = false

theorem Lacks.find {c : Collection α} {p : α → Bool} (h : c.Lacks p) : c.find p = [] := by
  refine List.filter_eq_nil_iff.mpr fun d hd hp => ?_
  cases (h _ d (get_of_mem hd)).symm.trans hp

/-- Whatever satisfies `p` in `c'` is filed under a key where something in `c` did. -/
def NoMore (p : α → Bool) (c c' : Collection α) : Prop :=
  ∀ k d', c'.get k = some d' → p d' = true → ∃ d, c.get k = some d ∧ p d = true

theorem NoMore.lacks {c c' : Collection α} {p : α → Bool} (h : NoMore p c c') (hc : c.Lacks p) :
    c'.Lacks p := by
  intro k d' hd'
  refine Bool.eq_false_iff.mpr fun hp => ?_
  obtain ⟨d, hd, hpd⟩ := h k d' hd' hp
  cases (hc k d hd).symm.trans hpd

/-- Then no more documents satisfy `p` in `c'`: each key leads to one document. -/
theorem NoMore.length_find_le {c c' : Collection α} {p : α → Bool} (h : NoMore p c c') :
    (c'.find p).length ≤ (c.find p).length := by
  have hnodup : ((c'.find p).map key).Nodup := c'.nodup.sublist (List.filter_sublist.map key)
  have hsub : (c'.find p).map key ⊆ (c.find p).map key := by
    intro k hk
    obtain ⟨d', hd', rfl⟩ := List.mem_map.mp hk
    obtain ⟨hget, hp⟩ := mem_find.mp hd'
    obtain ⟨d, hd, hpd⟩ := h _ d' hget hp
    rw [← key_of_get hd]
    exact List.mem_map_of_mem (mem_find.mpr ⟨(key_of_get hd).symm ▸ hd, hpd⟩)
  have hlength := (List.subperm_of_subset hnodup hsub).length_le
  rwa [List.length_map, List.length_map] at hlength

theorem mem_sortOn {β : Type} [LinearOrder β] {f : α → β} {docs : List α} {d : α} :
    d ∈ sortOn f docs ↔ d ∈ docs :=
  List.mem_insertionSort _

theorem mem_of_mem_limit {n : Int} {docs : List α} {d : α} (h : d ∈ limit n docs) : d ∈ docs := by
  rw [limit] at h
  split at h
  · exact h
  · exact List.mem_of_mem_take h

theorem limit_sublist (n : Int) (docs : List α) : (limit n docs).Sublist docs := by
  rw [limit]
  split
  · exact List.Sublist.refl docs
  · exact List.take_sublist _ docs

/-- A limit that is large enough is no limit. -/
theorem limit_of_length_le {n : Int} {docs : List α} (h : (docs.length : Int) ≤ n) :
    limit n docs = docs := by
  rw [limit]
  split
  · rfl
  · exact List.take_of_length_le (by omega)

/-- The head of a sorted list has the least of the field. -/
theorem le_of_sortOn_cons {β : Type} [LinearOrder β] {f : α → β} {docs rest : List α} {x d : α}
    (h : sortOn f docs = x :: rest) (hd : d ∈ docs) : f x ≤ f d := by
  have hsorted : (sortOn f docs).Pairwise fun a b => f a ≤ f b :=
    List.pairwise_insertionSort _ docs
  rw [h, List.pairwise_cons] at hsorted
  have hmem : d ∈ x :: rest := h ▸ mem_sortOn.mpr hd
  rcases List.mem_cons.mp hmem with rfl | hrest
  · exact le_rfl
  · exact hsorted.1 d hrest

/-- A cut keeps the head. -/
theorem limit_cons {n : Int} (x : α) (docs : List α) :
    ∃ rest, limit n (x :: docs) = x :: rest := by
  rw [limit]
  split
  · exact ⟨docs, rfl⟩
  · rename_i hn
    obtain ⟨m, hm⟩ := Nat.exists_eq_succ_of_ne_zero (Int.natAbs_ne_zero.mpr hn)
    rw [hm, List.take_succ_cons]
    exact ⟨_, rfl⟩

/-- If any document satisfies `p`, one with the least of the field heads the sorted scan. -/
theorem limit_sortOn_find {β : Type} [LinearOrder β] (f : α → β) {c : Collection α} {p : α → Bool}
    {k : κ} {d : α} (n : Int) (hd : c.get k = some d) (hp : p d = true) :
    ∃ x rest, limit n (sortOn f (c.find p)) = x :: rest ∧ c.get (key x) = some x ∧ p x = true
      ∧ f x ≤ f d := by
  have hmem : d ∈ c.find p := mem_find.mpr ⟨(key_of_get hd).symm ▸ hd, hp⟩
  cases hlist : sortOn f (c.find p) with
  | nil =>
      have hin : d ∈ sortOn f (c.find p) := mem_sortOn.mpr hmem
      rw [hlist] at hin
      cases hin
  | cons x rest =>
      obtain ⟨rest', hcut⟩ := limit_cons (n := n) x rest
      have hx : x ∈ c.find p := mem_sortOn.mp (hlist ▸ List.mem_cons_self)
      obtain ⟨hget, hpx⟩ := mem_find.mp hx
      exact ⟨x, rest', hcut, hget, hpx, le_of_sortOn_cons hlist hmem⟩

/-- Two collections that agree on the documents satisfying `p` find the same ones. -/
theorem find_perm {c c' : Collection α} {p : α → Bool}
    (h : ∀ d, p d = true → (c.get (key d) = some d ↔ c'.get (key d) = some d)) :
    (c.find p).Perm (c'.find p) := by
  have hnodup : ∀ c : Collection α, (c.find p).Nodup := by
    intro c
    exact (List.Nodup.of_map key c.nodup).filter p
  rw [List.perm_ext_iff_of_nodup (hnodup c) (hnodup c')]
  intro d
  rw [mem_find, mem_find]
  constructor
  · rintro ⟨hd, hp⟩
    exact ⟨(h d hp).mp hd, hp⟩
  · rintro ⟨hd, hp⟩
    exact ⟨(h d hp).mpr hd, hp⟩

/-! ## Writing -/

/-- What an update leaves under each key. -/
theorem get_update (c : Collection α) (k k' : κ) (p : α → Bool) (u : Update α) :
    (c.update k p u).get k'
      = (c.get k').map (fun d => if k' = k ∧ p d = true then u.apply d else d) := by
  have hkey : ((fun d => decide (key d = k')) ∘ fun d => if key d = k ∧ p d = true then u.apply d
      else d) = fun d => decide (key d = k') := by
    funext d
    simp only [Function.comp_apply]
    split
    · rw [u.key_apply]
    · rfl
  rw [get, update, List.find?_map, hkey]
  cases h : c.get k' with
  | none =>
      rw [get] at h
      rw [h, Option.map_none, Option.map_none]
  | some d =>
      have hd := key_of_get h
      rw [get] at h
      rw [h, Option.map_some, Option.map_some, hd]

/-- No update changes which keys are taken. -/
theorem keys_update (c : Collection α) (k : κ) (p : α → Bool) (u : Update α) :
    (c.update k p u).docs.map key = c.docs.map key := by
  rw [update, List.map_map]
  refine List.map_congr_left fun d _ => ?_
  rw [Function.comp_apply]
  split
  · exact u.key_apply d
  · rfl

/-- The first document that satisfies `q` stays the first, if the update does not touch on `q`. -/
theorem findOne_update {q : α → Bool} {u : Update α} (hq : ∀ d, q (u.apply d) = q d)
    (c : Collection α) (k : κ) (p : α → Bool) :
    (c.update k p u).findOne q
      = (c.findOne q).map (fun d => if key d = k ∧ p d = true then u.apply d else d) := by
  have hcomp : (q ∘ fun d => if key d = k ∧ p d = true then u.apply d else d) = q := by
    funext d
    rw [Function.comp_apply]
    split
    · exact hq d
    · rfl
  rw [findOne, findOne, update, List.find?_map, hcomp]

theorem get_update_ne {c : Collection α} {k k' : κ} (h : k' ≠ k) (p : α → Bool) (u : Update α) :
    (c.update k p u).get k' = c.get k' := by
  rw [get_update]
  simp [h]

/-- The filter did not hold, and nothing was written. -/
theorem update_of_get_filter {c : Collection α} {k : κ} {p : α → Bool} {u : Update α}
    (h : (c.get k).filter p = none) (k' : κ) : (c.update k p u).get k' = c.get k' := by
  rw [get_update]
  cases hd : c.get k' with
  | none => rfl
  | some d =>
      rw [Option.map_some, if_neg]
      rintro ⟨rfl, hp⟩
      rw [hd, Option.filter_some, if_pos hp] at h
      simp at h

/-- A document found after a write was there before it. -/
theorem get_write_some {c : Collection α} {w : Write α} {k : κ} {d' : α}
    (h : (c.write w).get k = some d') : ∃ d, c.get k = some d ∧ Rewritten (some w) d d' := by
  rw [write, get_update, Option.map_eq_some_iff] at h
  obtain ⟨d, hd, hd'⟩ := h
  refine ⟨d, hd, ?_⟩
  split at hd'
  · rename_i hkp
    exact hd' ▸ .written w rfl ((key_of_get hd).trans hkp.1) hkp.2
  · exact hd' ▸ .same

/-- A document there before a write is found after it. -/
theorem get_write {c : Collection α} {w : Write α} {k : κ} {d : α} (h : c.get k = some d) :
    ∃ d', (c.write w).get k = some d' ∧ Rewritten (some w) d d' := by
  rw [write, get_update, h, Option.map_some]
  refine ⟨_, rfl, ?_⟩
  split
  · rename_i hkp
    exact .written w rfl ((key_of_get h).trans hkp.1) hkp.2
  · exact .same

/-- The document a write is addressed to, when its filter holds. -/
theorem get_write_of_filter {c : Collection α} {w : Write α} {d : α}
    (h : c.get w.target = some d) (hp : w.filter d = true) :
    (c.write w).get w.target = some (w.update.apply d) := by
  rw [write, get_update, h, Option.map_some, if_pos ⟨rfl, hp⟩]

/-- A write that changes whatever it is open to leaves a document alone if its filter fails. -/
theorem get_write_eq_iff {c : Collection α} {w : Write α} {d : α} (h : c.get w.target = some d)
    (hne : w.update.apply d ≠ d) :
    (c.write w).get w.target = c.get w.target ↔ w.filter d = false := by
  rw [write, get_update, h, Option.map_some, Option.some_inj]
  cases hp : w.filter d with
  | false => simp
  | true => simp [hne]

/-- What is read of a document stays, where no write it is open to changes it. -/
theorem bind_get_write {β : Type} {c : Collection α} {w : Write α} {g : α → Option β}
    (h : ∀ d, c.get w.target = some d → w.filter d = true → g (w.update.apply d) = g d) (k : κ) :
    ((c.write w).get k).bind g = (c.get k).bind g := by
  rw [write, get_update]
  cases hd : c.get k with
  | none => rfl
  | some d =>
      rw [Option.map_some, Option.bind_some, Option.bind_some]
      split
      · rename_i hkp
        exact h d (hkp.1 ▸ hd) hkp.2
      · rfl

/-- What is read of each document after a write that had its effect. -/
theorem bind_get_write_of_filter {β : Type} {c : Collection α} {w : Write α} {g : α → Option β}
    {d : α} (hd : c.get w.target = some d) (hp : w.filter d = true) (k : κ) :
    ((c.write w).get k).bind g
      = if k = w.target then g (w.update.apply d) else (c.get k).bind g := by
  split
  · rename_i hk
    rw [hk, get_write_of_filter hd hp, Option.bind_some]
  · rename_i hk
    rw [write, get_update_ne hk]

/--
**One item of a work list.** If all documents with work to do are on the list, the write does
the work of a document it is open to, and it is open to the first of the list, then all
documents with work to do are on the rest of the list.
-/
theorem worklist_write {c : Collection α} {w : Write α} {x : α} {rest : List α}
    {todo : α → Prop} (hx : key x = w.target) (hp : w.filter x = true)
    (hdone : ∀ d, w.filter d = true → ¬todo (w.update.apply d))
    (h : ∀ k d, c.get k = some d → todo d → d ∈ x :: rest) :
    ∀ k d, (c.write w).get k = some d → todo d → d ∈ rest := by
  intro k d' hd' htodo
  obtain ⟨d, hd, hre⟩ := get_write_some hd'
  cases hre with
  | written v hv hk hfilter =>
      obtain rfl := Option.some.inj hv
      exact absurd htodo (hdone d hfilter)
  | same =>
      rcases List.mem_cons.mp (h k d' hd htodo) with rfl | hrest
      · -- had it still been what the list says, the write would have changed it
        obtain rfl : k = w.target := (key_of_get hd).symm.trans hx
        rw [get_write_of_filter hd hp] at hd'
        have hnot := hdone d' hp
        rw [Option.some.inj hd'] at hnot
        exact absurd htodo hnot
      · exact hrest

theorem findOneAndUpdate_some {c : Collection α} {k : κ} {p : α → Bool} {u : Update α} {d' : α} :
    (c.findOneAndUpdate k p u).1 = some d'
      ↔ ∃ d, c.get k = some d ∧ p d = true ∧ d' = u.apply d := by
  simp only [findOneAndUpdate, Option.map_eq_some_iff, Option.filter_eq_some_iff]
  constructor
  · rintro ⟨d, ⟨h₁, h₂⟩, rfl⟩
    exact ⟨d, h₁, h₂, rfl⟩
  · rintro ⟨d, h₁, h₂, rfl⟩
    exact ⟨d, ⟨h₁, h₂⟩, rfl⟩

/-- The document answered is the one that is now there. -/
theorem get_of_findOneAndUpdate_some {c : Collection α} {k : κ} {p : α → Bool} {u : Update α}
    {d' : α} (h : (c.findOneAndUpdate k p u).1 = some d') :
    ∃ d, c.get k = some d ∧ p d = true ∧ d' = u.apply d
      ∧ (c.findOneAndUpdate k p u).2.get k = some d' := by
  obtain ⟨d, hd, hp, rfl⟩ := findOneAndUpdate_some.mp h
  exact ⟨d, hd, hp, rfl, get_write_of_filter (w := ⟨k, p, u⟩) hd hp⟩

theorem findOneAndUpdate_none {c : Collection α} {k : κ} {p : α → Bool} {u : Update α} :
    (c.findOneAndUpdate k p u).1 = none ↔ ∀ d, c.get k = some d → p d = false := by
  simp [findOneAndUpdate, Option.filter_eq_none_iff]

/-- What an insertion leaves under each key. -/
theorem get_insert {c c' : Collection α} {d : α} (h : c.insert d = some c') (k : κ) :
    c'.get k = if k = key d then some d else c.get k := by
  rw [insert] at h
  split at h
  · simp at h
  · rename_i hnew
    obtain rfl := Option.some.inj h
    split
    · rename_i hk
      subst hk
      exact get_of_mem (by simp)
    · rename_i hk
      rw [get, get, List.find?_append]
      have : List.find? (fun x => decide (key x = k)) [d] = none := by
        simpa using fun heq : key d = k => hk heq.symm
      rw [this, Option.or_none]

/-- A key that is taken is refused. -/
theorem insert_of_mem {c : Collection α} {d : α} (h : key d ∈ c.docs.map key) :
    c.insert d = none :=
  dif_pos h

/-- A key that is free is taken by the insertion, and no other is. -/
theorem insert_of_not_mem {c : Collection α} {d : α} (h : key d ∉ c.docs.map key) :
    ∃ c', c.insert d = some c' ∧ c'.docs.map key = c.docs.map key ++ [key d] :=
  ⟨_, dif_neg h, List.map_append⟩

theorem insert_isSome_iff {c : Collection α} {d : α} :
    (c.insert d).isSome ↔ c.get (key d) = none := by
  rw [insert, ← Option.not_isSome_iff_eq_none, get_isSome_iff]
  split <;> simp_all

/-! ## Updates that do not meet -/

omit [DecidableEq κ] in
theorem ext {c c' : Collection α} (h : c.docs = c'.docs) : c = c' := by
  obtain ⟨docs, hnd⟩ := c
  obtain ⟨docs', hnd'⟩ := c'
  obtain rfl : docs = docs' := h
  rfl

/-- What an update makes of one document. -/
def rewrite (k : κ) (p : α → Bool) (u : Update α) (d : α) : α :=
  if key d = k ∧ p d = true then u.apply d else d

theorem docs_update (c : Collection α) (k : κ) (p : α → Bool) (u : Update α) :
    (c.update k p u).docs = c.docs.map (rewrite k p u) := rfl

theorem rewrite_of_ne {k : κ} {d : α} (h : key d ≠ k) (p : α → Bool) (u : Update α) :
    rewrite k p u d = d :=
  if_neg fun hk => h hk.1

/-- An update whose filter does not hold writes nothing. -/
theorem update_eq_self {c : Collection α} {k : κ} {p : α → Bool} {u : Update α}
    (h : (c.get k).filter p = none) : c.update k p u = c := by
  refine ext ((List.map_congr_left fun d hd => ?_).trans (List.map_id _))
  rw [id_eq]
  refine if_neg fun hkp => ?_
  rw [get_eq_some_iff.mpr ⟨hd, hkp.1⟩, Option.filter_some, if_pos hkp.2] at h
  cases h

theorem key_rewrite (k : κ) (p : α → Bool) (u : Update α) (d : α) :
    key (rewrite k p u d) = key d := by
  rw [rewrite]
  split
  · exact u.key_apply d
  · rfl

/-- Updates of different documents commute. -/
theorem update_comm (c : Collection α) {k k' : κ} (hne : k ≠ k') (p p' : α → Bool)
    (u u' : Update α) :
    (c.update k p u).update k' p' u' = (c.update k' p' u').update k p u := by
  refine ext ?_
  rw [docs_update, docs_update, docs_update, docs_update, List.map_map, List.map_map]
  refine List.map_congr_left fun d _ => ?_
  rw [Function.comp_apply, Function.comp_apply]
  by_cases hk : key d = k
  · have hk' : key d ≠ k' := fun h => hne (hk.symm.trans h)
    rw [rewrite_of_ne hk', rewrite_of_ne (by rwa [key_rewrite])]
  · have hk' : key (rewrite k' p' u' d) ≠ k := by rwa [key_rewrite]
    rw [rewrite_of_ne hk, rewrite_of_ne hk']

/-- A new document does not meet an update of another. -/
theorem insert_update (c : Collection α) {k : κ} {d : α} (hne : key d ≠ k) (p : α → Bool)
    (u : Update α) : (c.update k p u).insert d = (c.insert d).map fun c' => c'.update k p u := by
  have hkeys := keys_update c k p u
  by_cases hd : key d ∈ c.docs.map key
  · rw [insert_of_mem hd, insert_of_mem (hkeys ▸ hd)]
    rfl
  · rw [insert, insert, dif_neg hd, dif_neg (hkeys ▸ hd), Option.map_some, Option.some_inj]
    refine ext ?_
    change c.docs.map (rewrite k p u) ++ [d] = (c.docs ++ [d]).map (rewrite k p u)
    rw [List.map_append, List.map_singleton, rewrite_of_ne hne]

/-- What the updated document is not, neither before nor after, no document becomes. -/
theorem rewrite_of_not {c : Collection α} {k : κ} {d : α} (hd : c.get k = some d)
    {p q : α → Bool} {u : Update α} (hq : q d = false) (hq' : q (u.apply d) = false) {x : α}
    (hx : x ∈ c.docs) :
    q (rewrite k p u x) = q x ∧ (q x = true → rewrite k p u x = x) := by
  by_cases hk : key x = k
  · obtain rfl : x = d := Option.some.inj ((get_eq_some_iff.mpr ⟨hx, hk⟩).symm.trans hd)
    refine ⟨?_, fun h => by cases h.symm.trans hq⟩
    rw [rewrite]
    split
    · rw [hq, hq']
    · rfl
  · rw [rewrite_of_ne hk]
    exact ⟨rfl, fun _ => rfl⟩

/-- A query for what the updated document is not, neither before nor after. -/
theorem find_update_of_not {c : Collection α} {k : κ} {d : α} (hd : c.get k = some d)
    {p q : α → Bool} {u : Update α} (hq : q d = false) (hq' : q (u.apply d) = false) :
    (c.update k p u).find q = c.find q := by
  have hfilter : c.docs.filter (q ∘ rewrite k p u) = c.docs.filter q :=
    List.filter_congr fun x hx => (rewrite_of_not hd hq hq' hx).1
  rw [find, find, docs_update, List.filter_map, hfilter]
  refine (List.map_congr_left fun x hx => ?_).trans (List.map_id _)
  obtain ⟨hmem, hx⟩ := List.mem_filter.mp hx
  exact (rewrite_of_not hd hq hq' hmem).2 hx

theorem findOne_update_of_not {c : Collection α} {k : κ} {d : α} (hd : c.get k = some d)
    {p q : α → Bool} {u : Update α} (hq : q d = false) (hq' : q (u.apply d) = false) :
    (c.update k p u).findOne q = c.findOne q := by
  have hfind := congrArg List.head? (find_update_of_not (p := p) hd hq hq')
  rwa [find, find, List.head?_filter, List.head?_filter] at hfind

theorem comp_rewrite {β : Type} {q : α → β} {u : Update α} (hq : ∀ d, q (u.apply d) = q d) (k : κ)
    (p : α → Bool) : q ∘ rewrite k p u = q := by
  funext d
  rw [Function.comp_apply, rewrite]
  split
  · exact hq d
  · rfl

/-- A query for something the update does not touch on. -/
theorem find_update {q : α → Bool} {u : Update α} (hq : ∀ d, q (u.apply d) = q d)
    (c : Collection α) (k : κ) (p : α → Bool) :
    (c.update k p u).find q = (c.find q).map (rewrite k p u) := by
  rw [find, find, docs_update, List.filter_map, comp_rewrite hq]

/-- So many of the documents found are as many after the update. -/
theorem length_filter_rewrite {q : α → Bool} {u : Update α} (hq : ∀ d, q (u.apply d) = q d)
    (docs : List α) (k : κ) (p : α → Bool) :
    ((docs.map (rewrite k p u)).filter q).length = (docs.filter q).length := by
  rw [List.filter_map, comp_rewrite hq, List.length_map]

/-! ## Counting -/

/-- A write that makes `p` true of no document does not raise the count. -/
theorem count_write_le {c : Collection α} {w : Write α} {p : α → Bool}
    (h : ∀ d, c.get w.target = some d → w.filter d = true → p (w.update.apply d) = true →
      p d = true) : (c.write w).count p ≤ c.count p := by
  rw [count, count, write, update, List.countP_map]
  refine List.countP_mono_left ?_
  intro d hd hp
  simp only [Function.comp_apply] at hp
  split at hp
  · rename_i hkp
    exact h d (hkp.1 ▸ get_of_mem hd) hkp.2 hp
  · exact hp

/-- A write raises a count by one at most: it changes one document. -/
theorem count_write_le_succ (c : Collection α) (w : Write α) (p : α → Bool) :
    (c.write w).count p ≤ c.count p + 1 := by
  obtain ⟨docs, hnd⟩ := c
  simp only [count, write, update, List.countP_map]
  induction docs with
  | nil => simp
  | cons x xs ih =>
      rw [List.map_cons, List.nodup_cons] at hnd
      rw [List.countP_cons, List.countP_cons]
      by_cases hx : key x = w.target
      · -- no other document has this key
        have hrest : List.countP (p ∘ fun d => if key d = w.target ∧ w.filter d = true then
            w.update.apply d else d) xs = List.countP p xs := by
          refine List.countP_congr ?_
          intro d hd
          have hne : key d ≠ w.target := fun heq =>
            hnd.1 (hx.trans heq.symm ▸ List.mem_map_of_mem hd)
          simp [hne]
        rw [hrest]
        split <;> split <;> omega
      · have hsame : (p ∘ fun d => if key d = w.target ∧ w.filter d = true then
            w.update.apply d else d) x = p x := by simp [hx]
        rw [hsame]
        have := ih hnd.2
        omega

theorem count_insert {c c' : Collection α} {d : α} (h : c.insert d = some c') {p : α → Bool}
    (hp : p d = false) : c'.count p = c.count p := by
  rw [insert] at h
  split at h
  · simp at h
  · obtain rfl := Option.some.inj h
    simp [count, hp]

end Collection

end SmartDialer.Store
