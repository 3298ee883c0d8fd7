import SmartDialer.Conc.History
import SmartDialer.Conc.Layer

/-!
# Looking back at one process

What a process was entitled to do depends on what it has been answered, and the moment it was
answered is a moment of the run. Here is what it takes to go from the one to the other: a program
in which operations of a kind are performed a limited number of times (`AtMost`), a program seen
from the system on top (`Follows.lift`), and a past that is taken apart where a certain answer was
given (`replies_split`).
-/

namespace SmartDialer.Conc

variable {S : Sig} {T : Type} {A : T → Type} {α β : Type}

namespace Prog

/-! ## Operations of a kind -/

/-- Whatever the answers, the program performs at most `n` operations of the kind `f`. -/
def AtMost (f : S.Op → Bool) : Nat → Prog S α → Prop
  | _, ret _ => True
  | _, raise _ => True
  | n, await o k =>
      if f o = true then ∃ m, n = m + 1 ∧ ∀ r, (k r).AtMost f m else ∀ r, (k r).AtMost f n

variable {f : S.Op → Bool} {m n : Nat}

theorem AtMost.mono (hmn : m ≤ n) {p : Prog S α} (h : p.AtMost f m) : p.AtMost f n := by
  induction p generalizing m n with
  | ret a => trivial
  | raise e => trivial
  | await o k ih =>
      rw [AtMost] at h ⊢
      split
      · rename_i ho
        rw [if_pos ho] at h
        obtain ⟨m', rfl, hk⟩ := h
        obtain ⟨n', rfl⟩ := Nat.exists_eq_add_of_le' (Nat.le_trans (Nat.succ_pos m') hmn)
        exact ⟨n', rfl, fun r => ih r (Nat.le_of_succ_le_succ hmn) (hk r)⟩
      · rename_i ho
        rw [if_neg ho] at h
        exact fun r => ih r hmn (h r)

theorem AtMost.bind {p : Prog S α} {g : α → Prog S β} (hp : p.AtMost f m)
    (hg : ∀ a, (g a).AtMost f n) : (p.bind g).AtMost f (m + n) := by
  induction p generalizing m with
  | ret a => exact (hg a).mono (Nat.le_add_left ..)
  | raise e => trivial
  | await o k ih =>
      rw [Prog.bind, AtMost]
      rw [AtMost] at hp
      split
      · rename_i ho
        rw [if_pos ho] at hp
        obtain ⟨m', rfl, hk⟩ := hp
        exact ⟨m' + n, Nat.add_right_comm .., fun r => ih r (hk r)⟩
      · rename_i ho
        rw [if_neg ho] at hp
        exact fun r => ih r (hp r)

theorem AtMost.tryCatch {p : Prog S α} {h : S.Exn → Prog S α} (hp : p.AtMost f m)
    (hh : ∀ e, (h e).AtMost f n) : (p.tryCatch h).AtMost f (m + n) := by
  induction p generalizing m with
  | ret a => trivial
  | raise e => exact (hh e).mono (Nat.le_add_left ..)
  | await o k ih =>
      rw [Prog.tryCatch, AtMost]
      rw [AtMost] at hp
      split
      · rename_i ho
        rw [if_pos ho] at hp
        obtain ⟨m', rfl, hk⟩ := hp
        exact ⟨m' + n, Nat.add_right_comm .., fun r => ih r (hk r)⟩
      · rename_i ho
        rw [if_neg ho] at hp
        exact fun r => ih r (hp r)

/-- None of the kind. -/
theorem AtMost.of_all {p : Prog S α} (h : p.All fun o => f o = false) : p.AtMost f 0 := by
  induction p with
  | ret a => trivial
  | raise e => trivial
  | await o k ih =>
      rw [AtMost, if_neg (by rw [h.1]; exact Bool.false_ne_true)]
      exact fun r => ih r (h.2 r)

/-- What comes before counts for nothing. -/
theorem AtMost.after {p : Prog S α} {g : α → Prog S β} (hp : p.All fun o => f o = false)
    (hg : ∀ a, (g a).AtMost f n) : (p.bind g).AtMost f n :=
  Nat.zero_add n ▸ (AtMost.of_all hp).bind hg

theorem AtMost.perform (o : S.Op) : (perform o).AtMost f 1 := by
  rw [Prog.perform, AtMost]
  split
  · refine ⟨0, rfl, fun r => ?_⟩
    cases r <;> trivial
  · intro r
    cases r <;> trivial

/-- How many of the operations were of the kind. -/
def tally (f : S.Op → Bool) (past : List (Reply S)) : Nat := past.countP fun r => f r.op

@[simp] theorem tally_nil : tally f ([] : List (Reply S)) = 0 := rfl

theorem tally_cons (r : Reply S) (past : List (Reply S)) :
    tally f (r :: past) = tally f past + if f r.op = true then 1 else 0 :=
  List.countP_cons ..

theorem tally_append (past past' : List (Reply S)) :
    tally f (past ++ past') = tally f past + tally f past' :=
  List.countP_append ..

/-- **The count is kept**: at any of them, there have not been as many since the program began. -/
theorem AtMost.follows {p : Prog S α} (h : p.AtMost f n) (past : List (Reply S)) :
    p.Follows (fun past' o => ∃ since, past' = since ++ past ∧ (f o = true → tally f since < n))
      (fun _ past' => ∃ since, past' = since ++ past ∧ tally f since ≤ n) past := by
  -- of `n`, so many have been performed, and `m` are left
  have key : ∀ (m : Nat) (since : List (Reply S)) (q : Prog S α), q.AtMost f m →
      tally f since + m ≤ n →
      q.Follows (fun past' o => ∃ since, past' = since ++ past ∧ (f o = true → tally f since < n))
        (fun _ past' => ∃ since, past' = since ++ past ∧ tally f since ≤ n) (since ++ past) := by
    intro m since q hq hm
    induction q generalizing m since with
    | ret a => exact ⟨since, rfl, Nat.le_trans (Nat.le_add_right ..) hm⟩
    | raise e => exact ⟨since, rfl, Nat.le_trans (Nat.le_add_right ..) hm⟩
    | await o k ih =>
        rw [AtMost] at hq
        split at hq
        · rename_i ho
          obtain ⟨m', rfl, hk⟩ := hq
          refine ⟨⟨since, rfl, fun _ => by omega⟩, fun r => ?_⟩
          refine ih r m' (⟨o, r⟩ :: since) (hk r) ?_
          rw [tally_cons, if_pos ho]
          omega
        · rename_i ho
          refine ⟨⟨since, rfl, fun h => absurd h ho⟩, fun r => ?_⟩
          refine ih r m (⟨o, r⟩ :: since) (hq r) ?_
          rw [tally_cons, if_neg ho]
          exact hm
  exact key n [] p h (Nat.le_of_eq (Nat.zero_add n))

/-- Two things can be followed at once. -/
theorem Follows.and {J J' : List (Reply S) → S.Op → Prop}
    {Q Q' : Except S.Exn α → List (Reply S) → Prop} {past : List (Reply S)} {p : Prog S α}
    (h : p.Follows J Q past) (h' : p.Follows J' Q' past) :
    p.Follows (fun past' o => J past' o ∧ J' past' o) (fun r past' => Q r past' ∧ Q' r past')
      past := by
  induction p generalizing past with
  | ret a => exact ⟨h, h'⟩
  | raise e => exact ⟨h, h'⟩
  | await o k ih => exact ⟨⟨h.1, h'.1⟩, fun r => ih r (h.2 r) (h'.2 r)⟩

/-- What is so of all operations of a program justifies each of them. -/
theorem Follows.and_all {J : List (Reply S) → S.Op → Prop} {R : S.Op → Prop}
    {Q : Except S.Exn α → List (Reply S) → Prop} {past : List (Reply S)} {p : Prog S α}
    (h : p.Follows J Q past) (hp : p.All R) :
    p.Follows (fun past' o => J past' o ∧ R o) Q past := by
  induction p generalizing past with
  | ret a => exact h
  | raise e => exact h
  | await o k ih => exact ⟨⟨h.1, hp.1⟩, fun r => ih r (h.2 r) (hp.2 r)⟩

/-- What is so of a program is so of the first part of it. -/
theorem All.of_bind {R : S.Op → Prop} {p : Prog S α} {g : α → Prog S β} (h : (p.bind g).All R) :
    p.All R := by
  induction p with
  | ret a => trivial
  | raise e => trivial
  | await o k ih => exact ⟨h.1, fun r => ih r (h.2 r)⟩

/-- What a program yields, after operations that need no other justification. -/
theorem Yields.follows {J : List (Reply S) → S.Op → Prop} {R : S.Op → Prop} {V : α → Prop}
    {past : List (Reply S)} {p : Prog S α} (hy : p.Yields V) (hp : p.All R)
    (hJ : ∀ past o, R o → J past o) :
    p.Follows J (fun result past' => (∀ a, result = .ok a → V a)
      ∧ ∃ new, past' = new ++ past ∧ ∀ r ∈ new, R r.op) past := by
  induction p generalizing past with
  | ret a => exact ⟨fun b h => Except.ok.inj h ▸ hy, [], rfl, by simp⟩
  | raise e => exact ⟨fun b h => (by cases h), [], rfl, by simp⟩
  | await o k ih =>
      refine ⟨hJ past o hp.1, fun r => (ih r (hy r) (hp.2 r)).mono fun result past' _ h => ?_⟩
      obtain ⟨hV, new, rfl, hnew⟩ := h
      refine ⟨hV, new ++ [⟨o, r⟩], by simp, fun x hx => ?_⟩
      rcases List.mem_append.mp hx with hx | hx
      · exact hnew x hx
      · obtain rfl := List.mem_singleton.mp hx
        exact hp.1

/-- An operation, and what comes after it if it is answered. -/
theorem follows_perform_bind {J : List (Reply S) → S.Op → Prop}
    {Q : Except S.Exn β → List (Reply S) → Prop} {past : List (Reply S)} {o : S.Op}
    {g : S.Ans o → Prog S β} (ho : J past o) (herror : ∀ e, Q (.error e) (⟨o, .error e⟩ :: past))
    (hok : ∀ a, (g a).Follows J Q (⟨o, .ok a⟩ :: past)) :
    ((Prog.perform o).bind g).Follows J Q past := by
  refine follows_bind (follows_perform ho fun r => ?_)
  cases r with
  | ok a => exact hok a
  | error e => exact herror e

end Prog

/-! ## Seen from the system on top -/

/-- An answer, where there are more operations. -/
def Reply.lift (r : Reply S) : Reply (S.more T A) := ⟨.inl r.op, r.answer⟩

theorem Prog.Follows.lift {J : List (Reply (S.more T A)) → S.Op ⊕ T → Prop}
    {Q : Except S.Exn α → List (Reply (S.more T A)) → Prop} {past : List (Reply (S.more T A))}
    {new : List (Reply S)} {p : Prog S α}
    (h : p.Follows (fun new o => J (new.map Reply.lift ++ past) (.inl o))
      (fun r new => Q r (new.map Reply.lift ++ past)) new) :
    p.lift.Follows J Q (new.map Reply.lift ++ past) := by
  induction p generalizing new with
  | ret a => exact h
  | raise e => exact h
  | await o k ih => exact ⟨h.1, fun r => ih r (h.2 r)⟩

theorem tally_lift (f : S.Op ⊕ T → Bool) (past : List (Reply S)) :
    Prog.tally f (past.map (Reply.lift (A := A))) = Prog.tally (fun o => f (.inl o)) past :=
  List.countP_map ..

/-! ## The moments of the answers -/

section

variable {M : System S} {i : Nat}

/-- A past that is taken apart at an answer is taken apart at the moment of it. -/
theorem replies_split {history : List (Moment M)} {later earlier : List (Reply S)} {r : Reply S}
    (h : replies i history = later ++ r :: earlier) :
    ∃ after m before, history = after ++ m :: before ∧ m.process = i ∧ m.reply = r
      ∧ replies i after = later ∧ replies i before = earlier := by
  induction history generalizing later with
  | nil => cases later <;> cases h
  | cons x history ih =>
      by_cases hx : x.process = i
      · subst hx
        obtain ⟨j, o, c, s⟩ := x
        rw [replies_cons_self] at h
        cases later with
        | nil =>
            obtain ⟨rfl, rfl⟩ := List.cons.inj h
            exact ⟨[], ⟨j, o, c, s⟩, history, rfl, rfl, rfl, rfl, rfl⟩
        | cons y later =>
            obtain ⟨rfl, hrest⟩ := List.cons.inj h
            obtain ⟨after, m, before, rfl, hm, hr, hafter, hbefore⟩ := ih hrest
            refine ⟨⟨j, o, c, s⟩ :: after, m, before, rfl, hm, hr, ?_, hbefore⟩
            rw [replies_cons_self, hafter]
      · rw [replies_cons_ne hx] at h
        obtain ⟨after, m, before, rfl, hm, hr, hafter, hbefore⟩ := ih h
        refine ⟨x :: after, m, before, rfl, hm, hr, ?_, hbefore⟩
        rw [replies_cons_ne hx, hafter]

/-- A past that is taken apart is taken apart at a moment. -/
theorem replies_append {history : List (Moment M)} {later earlier : List (Reply S)}
    (h : replies i history = later ++ earlier) :
    ∃ after before, history = after ++ before ∧ replies i after = later
      ∧ replies i before = earlier := by
  obtain ⟨xs, ys, hxy, hxs, hys⟩ := List.map_eq_append_iff.mp h
  obtain ⟨after, before, rfl, rfl, rfl⟩ := List.filter_eq_append_iff.mp hxy
  exact ⟨after, before, rfl, hxs, hys⟩

/-- How many operations of the kind process `i` performed. -/
def Performed (f : S.Op → Bool) (i : Nat) (history : List (Moment M)) : Nat :=
  history.countP fun m => m.process == i && f m.op

theorem tally_replies (f : S.Op → Bool) (i : Nat) (history : List (Moment M)) :
    Prog.tally f (replies i history) = Performed f i history := by
  rw [Prog.tally, replies, List.countP_map, List.countP_filter]
  exact List.countP_congr fun m _ => by simp [Moment.reply, and_comm]

/-- What the process has left to do, and what it has come to if there is nothing left. -/
theorem Started.left {P : Policy M.recorded} {Init : M.St → Prop} {w : World M.recorded}
    {t : M.Task} {J : List (Reply S) → S.Op → Prop}
    {Q : Except S.Exn M.Ret → List (Reply S) → Prop} (hprog : (M.prog t).Follows J Q [])
    (hkilled : ∀ past, Q (.error M.killed) past) (h : Started P (Blank Init) i t w) :
    ∀ p, w.procs[i]? = some p → p.Follows J Q (replies i w.st.2) := by
  induction h with
  | @spawn w h _ hi =>
      intro p hp
      rw [← hi, List.getElem?_append_right (Nat.le_refl _), Nat.sub_self] at hp
      obtain rfl := Option.some.inj hp
      have hnil : replies i w.st.2 = [] :=
        replies_eq_nil fun m hm => Nat.ne_of_lt (hi ▸ h.process_lt m hm)
      exact hnil.symm ▸ hprog
  | @tail w w' h hs ih =>
      intro p hp
      have hlt : i < w.procs.length := h.lt
      cases hs with
      | spawn t' _ =>
          rw [List.getElem?_append_left hlt] at hp
          exact ih p hp
      | crash j o k hj =>
          by_cases hji : j = i
          · subst hji
            rw [List.getElem?_set_self hlt] at hp
            obtain rfl := Option.some.inj hp
            exact hkilled _
          · rw [List.getElem?_set_ne hji] at hp
            exact ih p hp
      | run j o k c hj _ =>
          by_cases hji : j = i
          · subst hji
            rw [List.getElem?_set_self hlt] at hp
            obtain rfl := Option.some.inj hp
            exact replies_cons_self (M := M) o c w.st.1 w.st.2 ▸ (ih _ hj).2 _
          · rw [List.getElem?_set_ne hji] at hp
            exact (replies_cons_ne (m := (⟨j, o, c, w.st.1⟩ : Moment M)) hji w.st.2).symm ▸ ih p hp

end

end SmartDialer.Conc
