import SmartDialer.Store.Collection

/-!
# Documents in custody

One party takes documents of a collection, one at a time, and nobody else touches what it
has taken. When it is done with a document it puts it on a list, or gives it back.
`Custody` accounts for all it ever took: a document is in hand, and known as it stands; or
on the list, and as its line says; or it has been given back, and may be taken again.
-/

namespace SmartDialer.Store

variable {ι α κ : Type} [Document α κ] [DecidableEq κ]

/--
The lines `lines` are about documents of `c`, by `f`, and say `Out` of them; `hand` is the
document in hand; and of all that were `taken`, the others are as `Back` says.
-/
structure Custody (f : ι → κ) (Out : ι → α → Prop) (Back : α → Prop) (taken : List κ)
    (lines : List ι) (hand : Option α) (c : Collection α) : Prop where
  /-- No two lines are about one document. -/
  nodup : (lines.map f).Nodup
  out : ∀ l ∈ lines, ∃ d, c.get (f l) = some d ∧ Out l d
  inHand : ∀ d, hand = some d → c.get (key d) = some d ∧ key d ∉ lines.map f
  accounted : ∀ k ∈ taken, hand.map key = some k ∨ k ∈ lines.map f
    ∨ ∃ d, c.get k = some d ∧ Back d

namespace Custody

variable {f : ι → κ} {Out : ι → α → Prop} {Back : α → Prop} {taken : List κ} {lines : List ι}
  {hand hand' : Option α} {c c' : Collection α} {d : α} {l : ι}

/-- Nothing has been taken. -/
theorem init (c : Collection α) : Custody f Out Back [] [] none c where
  nodup := List.nodup_nil
  out _ hl := nomatch hl
  inHand _ hd := nomatch hd
  accounted _ hk := nomatch hk

/-- What is not in hand is left alone; what is in hand may change. -/
theorem move (h : Custody f Out Back taken lines hand c) (hkey : hand'.map key = hand.map key)
    (hkept : ∀ k d, hand.map key ≠ some k → c.get k = some d → c'.get k = some d)
    (hnow : ∀ d, hand' = some d → c'.get (key d) = some d) :
    Custody f Out Back taken lines hand' c' := by
  have hline : ∀ k ∈ lines.map f, hand.map key ≠ some k := by
    intro k hk heq
    obtain ⟨d, hd, rfl⟩ := Option.map_eq_some_iff.mp heq
    exact (h.inHand d hd).2 hk
  refine ⟨h.nodup, fun l hl => ?_, fun d hd => ⟨hnow d hd, fun hmem => ?_⟩, fun k hk => ?_⟩
  · obtain ⟨d, hd, hout⟩ := h.out l hl
    exact ⟨d, hkept _ d (hline _ (List.mem_map_of_mem hl)) hd, hout⟩
  · refine hline _ hmem (hkey.symm.trans ?_)
    rw [hd, Option.map_some]
  · rw [hkey]
    by_cases hin : hand.map key = some k
    · exact .inl hin
    · rcases h.accounted k hk with hhand | hlist | ⟨d, hd, hback⟩
      · exact .inl hhand
      · exact .inr (.inl hlist)
      · exact .inr (.inr ⟨d, hkept k d hin hd, hback⟩)

/-- Nothing has changed. -/
theorem congr (h : Custody f Out Back taken lines hand c) (hc : ∀ k, c'.get k = c.get k) :
    Custody f Out Back taken lines hand c' :=
  h.move rfl (fun k _ _ hd => (hc k).trans hd) fun d hd => (hc _).trans (h.inHand d hd).1

/-- The document in hand is rewritten. -/
theorem write (h : Custody f Out Back taken lines (some d) c) {w : Write α}
    (hw : w.target = key d) (hp : w.filter d = true) :
    Custody f Out Back taken lines (some (w.update.apply d)) (c.write w) := by
  have hkey : key (w.update.apply d) = key d := w.update.key_apply d
  refine h.move ?_ (fun k x hne hx => ?_) fun x hx => ?_
  · rw [Option.map_some, Option.map_some, hkey]
  · refine (Collection.get_update_ne (fun hk => hne ?_) _ _).trans hx
    rw [Option.map_some, hk, hw]
  · obtain rfl := Option.some.inj hx
    rw [hkey, ← hw]
    exact Collection.get_write_of_filter (hw ▸ (h.inHand d rfl).1) hp

/-- The filter of a write to the document in hand does not hold. -/
theorem refuse (h : Custody f Out Back taken lines (some d) c) {w : Write α}
    (hw : w.target = key d) (hp : ¬w.filter d = true) :
    Custody f Out Back taken lines (some d) (c.write w) := by
  refine h.congr (Collection.update_of_get_filter ?_)
  rw [hw, (h.inHand d rfl).1, Option.filter_some, if_neg hp]

/-- A document is filed that was not there. -/
theorem insert (h : Custody f Out Back taken lines hand c) (hins : c.insert d = some c') :
    Custody f Out Back taken lines hand c' := by
  have hkept : ∀ k x, c.get k = some x → c'.get k = some x := by
    intro k x hx
    rw [Collection.get_insert hins, if_neg]
    · exact hx
    · rintro rfl
      have hnew : c.get (key d) = none := Collection.insert_isSome_iff.mp (by rw [hins]; rfl)
      cases hnew.symm.trans hx
  exact h.move rfl (fun k x _ hx => hkept k x hx) fun x hx => hkept _ x (h.inHand x hx).1

/-- A document is taken in hand that no line can be about. -/
theorem take (h : Custody f Out Back taken lines none c) (hd : c.get (key d) = some d)
    (hfree : ∀ l, ¬Out l d) : Custody f Out Back taken lines (some d) c := by
  refine ⟨h.nodup, h.out, ?_, fun k hk => .inr ?_⟩
  · rintro x hx
    obtain rfl := Option.some.inj hx
    refine ⟨hd, fun hmem => ?_⟩
    obtain ⟨l, hl, hkey⟩ := List.mem_map.mp hmem
    obtain ⟨x, hx, hout⟩ := h.out l hl
    obtain rfl : x = d := Option.some.inj (hx.symm.trans (hkey ▸ hd))
    exact hfree l hout
  · rcases h.accounted k hk with hhand | hrest
    · cases hhand
    · exact hrest

/-- The document in hand counts as taken. -/
theorem note (h : Custody f Out Back taken lines (some d) c) :
    Custody f Out Back (key d :: taken) lines (some d) c := by
  refine ⟨h.nodup, h.out, h.inHand, fun k hk => ?_⟩
  rcases List.mem_cons.mp hk with rfl | hk
  · exact .inl rfl
  · exact h.accounted k hk

/-- A document that is neither on the list nor given back was never taken. -/
theorem not_taken (h : Custody f Out Back taken lines none c) (hd : c.get (key d) = some d)
    (hfree : ∀ l, ¬Out l d) (hback : ¬Back d) : key d ∉ taken := by
  intro hk
  rcases h.accounted _ hk with hhand | hlist | ⟨x, hx, hgone⟩
  · cases hhand
  · exact ((h.take hd hfree).inHand d rfl).2 hlist
  · obtain rfl : x = d := Option.some.inj (hx.symm.trans hd)
    exact hback hgone

/-- The document in hand goes on the list. -/
theorem settle (h : Custody f Out Back taken lines (some d) c) (hl : f l = key d)
    (hout : Out l d) : Custody f Out Back taken (l :: lines) none c := by
  obtain ⟨hd, hnew⟩ := h.inHand d rfl
  refine ⟨?_, ?_, fun x hx => (by cases hx), fun k hk => ?_⟩
  · rw [List.map_cons, List.nodup_cons, hl]
    exact ⟨hnew, h.nodup⟩
  · intro l' hl'
    rcases List.mem_cons.mp hl' with rfl | hl'
    · rw [hl]
      exact ⟨d, hd, hout⟩
    · exact h.out l' hl'
  · rw [List.map_cons, List.mem_cons, hl]
    rcases h.accounted k hk with hhand | hlist | hback
    · exact .inr (.inl (.inl (Option.some.inj hhand).symm))
    · exact .inr (.inl (.inr hlist))
    · exact .inr (.inr hback)

/-- The document in hand goes back. -/
theorem giveBack (h : Custody f Out Back taken lines (some d) c) (hback : Back d) :
    Custody f Out Back taken lines none c := by
  refine ⟨h.nodup, h.out, fun x hx => (by cases hx), fun k hk => .inr ?_⟩
  rcases h.accounted k hk with hhand | hlist | hgone
  · obtain rfl : key d = k := Option.some.inj hhand
    exact .inr ⟨d, (h.inHand d rfl).1, hback⟩
  · exact .inl hlist
  · exact .inr hgone

/-- The document in hand is let go of: it never counted as taken. -/
theorem drop (h : Custody f Out Back taken lines (some d) c) (hnew : key d ∉ taken) :
    Custody f Out Back taken lines none c := by
  refine ⟨h.nodup, h.out, fun x hx => (by cases hx), fun k hk => .inr ?_⟩
  rcases h.accounted k hk with hhand | hrest
  · obtain rfl : key d = k := Option.some.inj hhand
    exact absurd hk hnew
  · exact hrest

end Custody

end SmartDialer.Store
