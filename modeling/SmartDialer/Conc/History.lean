import Mathlib.Order.Defs.PartialOrder
import SmartDialer.Conc.World

/-!
# Runs that remember

A world knows the present. Statements about two moments of one run — that what one write
promised is honoured by a later one, that nothing came between a read and a write — need the
past as well. `System.recorded` is the same system, with every operation it has performed
written down, the latest first: who performed it, with what input, and in which state.

A process knows less of the past than the world does: what it has been answered. `Prog.Follows`
says that each operation of a program is justified by the answers the program has had by then;
over a run, that makes every moment of the process a justified one (`Started.justified`).
-/

namespace SmartDialer.Conc

variable {S : Sig}

/-- An operation and its answer. -/
structure Reply (S : Sig) where
  op : S.Op
  answer : Except S.Exn (S.Ans op)

/-- An operation of a run, and the state it met with. -/
structure Moment (M : System S) where
  process : Nat
  op : S.Op
  choice : M.Choice
  before : M.St

variable {M : System S}

namespace Moment

/-- What was answered. -/
def answer (m : Moment M) : Except S.Exn (S.Ans m.op) :=
  (M.exec m.process m.op m.choice m.before).1

/-- The state it left. -/
def after (m : Moment M) : M.St := (M.exec m.process m.op m.choice m.before).2

/-- What the process has seen of it. -/
def reply (m : Moment M) : Reply S := ⟨m.op, m.answer⟩

/-- It ended what held before. -/
def Ends (A : M.St → Prop) (m : Moment M) : Prop := A m.before ∧ ¬A m.after

instance (A : M.St → Prop) [DecidablePred A] : DecidablePred (Moment.Ends (M := M) A) :=
  fun m => inferInstanceAs (Decidable (A m.before ∧ ¬A m.after))

/-- A moment that was answered so was this operation. -/
theorem exists_of_reply {m : Moment M} {o : S.Op} {r : Except S.Exn (S.Ans o)}
    (h : m.reply = ⟨o, r⟩) : ∃ i c s, m = ⟨i, o, c, s⟩ ∧ (M.exec i o c s).1 = r := by
  obtain ⟨i, o', c, s⟩ := m
  obtain ⟨rfl, hr⟩ := Reply.mk.inj h
  exact ⟨i, c, s, rfl, eq_of_heq hr⟩

end Moment

/-- What process `i` has been answered, the latest first. -/
def replies (i : Nat) (history : List (Moment M)) : List (Reply S) :=
  (history.filter fun m => m.process == i).map Moment.reply

/-- The system that writes down what it does. -/
@[reducible] def System.recorded (M : System S) : System S where
  St := M.St × List (Moment M)
  Choice := M.Choice
  Task := M.Task
  Ret := M.Ret
  exec i o c s := ((M.exec i o c s.1).1, (M.exec i o c s.1).2, ⟨i, o, c, s.1⟩ :: s.2)
  crash i s := (M.crash i s.1, s.2)
  killed := M.killed
  prog := M.prog

/-- The steps of `P`, whatever happened before. -/
def Policy.recorded (P : Policy M) : Policy M.recorded where
  task := P.task
  run i o c s := P.run i o c s.1

/-- The steps of `P`, with a clock that does not go back. -/
def Policy.clocked {τ : Type} [LE τ] (P : Policy M) (now : M.Choice → τ) :
    Policy M.recorded where
  task := P.task
  run i o c s := P.run i o c s.1 ∧ ∀ m ∈ s.2, now m.choice ≤ now c

instance {P : Policy M} [P.Checkable] : P.recorded.Checkable where
  task t := inferInstanceAs (Decidable (P.task t))
  run i o c s := inferInstanceAs (Decidable (P.run i o c s.1))

instance {τ : Type} [LE τ] [DecidableLE τ] {P : Policy M} [P.Checkable] {now : M.Choice → τ} :
    (P.clocked now).Checkable where
  task t := inferInstanceAs (Decidable (P.task t))
  run i o c s :=
    inferInstanceAs (Decidable (P.run i o c s.1 ∧ ∀ m ∈ s.2, now m.choice ≤ now c))

/-- `Init` holds at the start, and nothing has happened. -/
def Blank (Init : M.St → Prop) (s : M.St × List (Moment M)) : Prop := Init s.1 ∧ s.2 = []

/-- A scheduling decision, in a run that remembers. -/
def Label.recorded : Label M → Label M.recorded
  | .spawn t => .spawn t
  | .run i c => .run i c
  | .crash i => .crash i

/-! ## The present is the same -/

section

variable {P : Policy M} {Init : M.St → Prop}

/-- Remembering changes nothing: every run can be recorded. -/
theorem Reachable.recorded {w : World M} (h : Reachable P Init w) :
    ∃ history : List (Moment M),
      Reachable P.recorded (Blank Init) (⟨(w.st, history), w.procs⟩ : World M.recorded) := by
  induction h with
  | init h => exact ⟨[], .init ⟨h, rfl⟩⟩
  | @tail w w' _ hs ih =>
      obtain ⟨history, ih⟩ := ih
      cases hs with
      | spawn t ht =>
          exact ⟨history, .tail ih (Step.spawn (P := P.recorded) t ht)⟩
      | run i o k c hi hc =>
          exact ⟨⟨i, o, c, w.st⟩ :: history, .tail ih (Step.run (P := P.recorded) i o k c hi hc)⟩
      | crash i o k hi =>
          exact ⟨history, .tail ih (Step.crash (P := P.recorded) i o k hi)⟩

/-- What was recorded is a run. -/
theorem Reachable.forget {Q : Policy M.recorded} (htask : ∀ t, Q.task t → P.task t)
    (hrun : ∀ i o c s, Q.run i o c s → P.run i o c s.1) {w : World M.recorded}
    (h : Reachable Q (Blank Init) w) : Reachable P Init (⟨w.st.1, w.procs⟩ : World M) := by
  induction h with
  | init h => exact .init h.1
  | tail _ hs ih =>
      cases hs with
      | spawn t ht => exact .tail ih (Step.spawn (P := P) t (htask t ht))
      | run i o k c hi hc =>
          exact .tail ih (Step.run (P := P) i o k c hi (hrun _ _ _ _ hc))
      | crash i o k hi => exact .tail ih (Step.crash (P := P) i o k hi)

end

/-! ## Looking back -/

/-- What comes somewhere before a moment lies in the past of that moment. -/
theorem exists_suffix_of_sublist {α : Type} {a : α} {as l : List α}
    (h : (a :: as).Sublist l) : ∃ past, a :: past <:+ l ∧ as.Sublist past := by
  induction l with
  | nil => cases h
  | cons x l ih =>
      cases h with
      | cons _ h =>
          obtain ⟨past, hpast, has⟩ := ih h
          exact ⟨past, hpast.trans (List.suffix_cons x l), has⟩
      | cons_cons _ h => exact ⟨l, List.suffix_rfl, h⟩

/-- A moment in the middle of the past. -/
theorem suffix_of_append {α : Type} {a b : α} {later earlier l : List α}
    (h : a :: (later ++ b :: earlier) <:+ l) : b :: earlier <:+ l :=
  ((List.suffix_append later _).trans (List.suffix_cons a _)).trans h

/-- What lies in the past of a moment has a past of its own. -/
theorem exists_suffix_of_mem {α : Type} {a b : α} {as l : List α} (h : a :: as <:+ l)
    (hmem : b ∈ as) : ∃ past, b :: past <:+ l := by
  obtain ⟨later, past, rfl⟩ := List.append_of_mem hmem
  exact ⟨past, suffix_of_append h⟩

section

variable {P : Policy M.recorded} {Init : M.St → Prop} {w : World M.recorded} {i : Nat}

/-- A moment of the past was a step, from a world the run has been in. -/
theorem Reachable.rewind (h : Reachable P (Blank Init) w) {m : Moment M}
    {past : List (Moment M)} (hm : m :: past <:+ w.st.2) :
    ∃ w' : World M.recorded, Reachable P (Blank Init) w' ∧ w'.st = (m.before, past)
      ∧ w'.Awaits m.process m.op ∧ P.run m.process m.op m.choice w'.st := by
  induction h with
  | init h =>
      rw [h.2] at hm
      cases List.suffix_nil.mp hm
  | @tail w w' h hs ih =>
      cases hs with
      | spawn t _ => exact ih hm
      | crash j o k _ => exact ih hm
      | run j o k c hj hc =>
          rcases List.suffix_cons_iff.mp hm with heq | hm
          · obtain ⟨rfl, rfl⟩ := List.cons.inj heq
            exact ⟨w, h, rfl, ⟨k, hj⟩, hc⟩
          · exact ih hm

/-- The clock of a run does not go back. -/
theorem Reachable.clock {τ : Type} [LE τ] {P : Policy M} {now : M.Choice → τ}
    (h : Reachable (P.clocked now) (Blank Init) w) :
    w.st.2.Pairwise fun later earlier => now earlier.choice ≤ now later.choice := by
  induction h with
  | init h =>
      rw [h.2]
      exact List.Pairwise.nil
  | tail _ hs ih =>
      cases hs with
      | spawn _ _ => exact ih
      | crash _ _ _ _ => exact ih
      | run _ _ _ _ _ hc => exact List.pairwise_cons.mpr ⟨hc.2, ih⟩

/-- A preorder that every step goes up in relates any two moments of a run. -/
theorem Reachable.along {R : M.St → M.St → Prop} (hrefl : ∀ s, R s s)
    (htrans : ∀ s s' s'', R s s' → R s' s'' → R s s'') (hexec : ∀ i o c s, R s (M.exec i o c s).2)
    (hcrash : ∀ i s, R s (M.crash i s)) (h : Reachable P (Blank Init) w) :
    (∀ m ∈ w.st.2, R m.after w.st.1)
      ∧ w.st.2.Pairwise fun later earlier => R earlier.after later.before := by
  induction h with
  | init h =>
      rw [h.2]
      exact ⟨fun _ hm => (List.not_mem_nil hm).elim, List.Pairwise.nil⟩
  | tail _ hs ih =>
      cases hs with
      | spawn _ _ => exact ih
      | crash j _ _ _ => exact ⟨fun m hm => htrans _ _ _ (ih.1 m hm) (hcrash j _), ih.2⟩
      | run j o _ c _ _ =>
          refine ⟨fun m hm => ?_, List.pairwise_cons.mpr ⟨ih.1, ih.2⟩⟩
          rcases List.mem_cons.mp hm with rfl | hm
          · exact hrefl _
          · exact htrans _ _ _ (ih.1 m hm) (hexec j o c _)

/-- What a moment leaves behind, and every later step keeps, is so ever after. -/
theorem Reachable.since {A : M.St → Prop} {R : S.Op → Prop} {m : Moment M}
    (hR : ∀ t, P.task t → (M.prog t).All R) (hm : A m.after)
    (hexec : ∀ i o c s, R o → P.run i o c s → m ∈ s.2 → A s.1 → A (M.exec i o c s.1).2)
    (hcrash : ∀ i s, A s → A (M.crash i s)) (h : Reachable P (Blank Init) w)
    (hmem : m ∈ w.st.2) : A w.st.1 := by
  induction h with
  | init h =>
      rw [h.2] at hmem
      cases hmem
  | @tail w w' h hs ih =>
      cases hs with
      | spawn _ _ => exact ih hmem
      | crash j _ _ _ => exact hcrash j _ (ih hmem)
      | run j o k c hj hc =>
          rcases List.mem_cons.mp hmem with rfl | hmem
          · exact hm
          · exact hexec j o c w.st (h.awaits hR ⟨k, hj⟩) hc hmem (ih hmem)

/-- It is so whenever something happens later. -/
theorem Reachable.since_before {A : M.St → Prop} {R : S.Op → Prop} {m later : Moment M}
    {past : List (Moment M)} (hR : ∀ t, P.task t → (M.prog t).All R) (hm : A m.after)
    (hexec : ∀ i o c s, R o → P.run i o c s → m ∈ s.2 → A s.1 → A (M.exec i o c s.1).2)
    (hcrash : ∀ i s, A s → A (M.crash i s)) (h : Reachable P (Blank Init) w)
    (hlater : later :: past <:+ w.st.2) (hmem : m ∈ past) : A later.before := by
  obtain ⟨w', hw', hst, -, -⟩ := h.rewind hlater
  have hA := hw'.since hR hm hexec hcrash (by rw [hst]; exact hmem)
  rwa [hst] at hA

theorem countP_ends_cons {A : M.St → Prop} [DecidablePred A] (m : Moment M)
    (history : List (Moment M)) :
    (m :: history).countP (fun m => decide (m.Ends A))
      = history.countP (fun m => decide (m.Ends A)) + if m.Ends A then 1 else 0 := by
  simp only [List.countP_cons, decide_eq_true_eq]

/--
**What does not come back is ended once.** If whatever takes `A` away leaves `Gone`, which stays,
then as soon as `A` has been seen to hold it still holds, or exactly one moment has ended it.
-/
theorem Reachable.ends_once {A Gone : M.St → Prop} [DecidablePred A]
    (hgone : ∀ s, Gone s → ¬A s) (hlose : ∀ i o c s, A s → A (M.exec i o c s).2 ∨
      Gone (M.exec i o c s).2) (hstay : ∀ i o c s, Gone s → Gone (M.exec i o c s).2)
    (hcrash : ∀ i s, (A s → A (M.crash i s)) ∧ (Gone s → Gone (M.crash i s)))
    (h : Reachable P (Blank Init) w) (hseen : ∃ m ∈ w.st.2, A m.before ∨ A m.after) :
    w.st.2.countP (fun m => decide (m.Ends A)) = if A w.st.1 then 0 else 1 := by
  have key : (A w.st.1 ∧ w.st.2.countP (fun m => decide (m.Ends A)) = 0)
      ∨ (Gone w.st.1 ∧ w.st.2.countP (fun m => decide (m.Ends A)) = 1)
      ∨ (∀ m ∈ w.st.2, ¬A m.before ∧ ¬A m.after)
        ∧ w.st.2.countP (fun m => decide (m.Ends A)) = 0 := by
    clear hseen
    induction h with
    | init h =>
        rw [h.2]
        exact .inr (.inr ⟨fun _ hm => (List.not_mem_nil hm).elim, rfl⟩)
    | @tail w w' _ hs ih =>
        cases hs with
        | spawn _ _ => exact ih
        | crash j _ _ _ =>
            exact ih.imp (And.imp_left (hcrash j _).1) (Or.imp_left (And.imp_left (hcrash j _).2))
        | run j o _ c _ _ =>
            rw [countP_ends_cons]
            by_cases hA : A w.st.1
            · -- it held until now, so nothing has ended it yet
              have hzero : w.st.2.countP (fun m => decide (m.Ends A)) = 0 := by
                rcases ih with ih | ih | ih
                · exact ih.2
                · exact absurd hA (hgone _ ih.1)
                · exact ih.2
              rw [hzero, Nat.zero_add]
              rcases hlose j o c _ hA with hA' | hgone'
              · exact .inl ⟨hA', if_neg fun hends => hends.2 hA'⟩
              · exact .inr (.inl ⟨hgone', if_pos ⟨hA, hgone _ hgone'⟩⟩)
            · rw [if_neg fun hends => hA hends.1, Nat.add_zero]
              rcases ih with ih | ih | ih
              · exact absurd ih.1 hA
              · exact .inr (.inl ⟨hstay j o c _ ih.1, ih.2⟩)
              · by_cases hA' : A (M.exec j o c w.st.1).2
                · exact .inl ⟨hA', ih.2⟩
                · refine .inr (.inr ⟨fun m hm => ?_, ih.2⟩)
                  rcases List.mem_cons.mp hm with rfl | hm
                  · exact ⟨hA, hA'⟩
                  · exact ih.1 m hm
  rcases key with ⟨hA, hcount⟩ | ⟨hG, hcount⟩ | ⟨hnever, -⟩
  · rw [hcount, if_pos hA]
  · rw [hcount, if_neg (hgone _ hG)]
  · obtain ⟨m, hm, hA⟩ := hseen
    exact absurd hA (not_or.mpr (hnever m hm))

/-- Whoever has done something has been started. -/
theorem Reachable.process_lt (h : Reachable P (Blank Init) w) :
    ∀ m ∈ w.st.2, m.process < w.procs.length := by
  induction h with
  | init h =>
      rw [h.2]
      exact fun _ hm => by cases hm
  | tail _ hs ih =>
      intro m hm
      refine Nat.lt_of_lt_of_le ?_ hs.length_le
      cases hs with
      | spawn _ _ => exact ih m hm
      | crash _ _ _ _ => exact ih m hm
      | run j o k c hj _ =>
          rcases List.mem_cons.mp hm with rfl | hm
          · exact (List.getElem?_eq_some_iff.mp hj).1
          · exact ih m hm

/-- Who has not been started has not been answered. -/
theorem replies_eq_nil {history : List (Moment M)} (h : ∀ m ∈ history, m.process ≠ i) :
    replies i history = [] := by
  rw [replies, List.filter_eq_nil_iff.mpr fun m hm hi => h m hm (beq_iff_eq.mp hi)]
  rfl

theorem replies_cons_self (o : S.Op) (c : M.Choice) (s : M.St) (history : List (Moment M)) :
    replies i (⟨i, o, c, s⟩ :: history) = ⟨o, (M.exec i o c s).1⟩ :: replies i history := by
  have hself : (⟨i, o, c, s⟩ : Moment M).process == i := beq_self_eq_true i
  simp [replies, Moment.reply, Moment.answer]

theorem replies_cons_ne {m : Moment M} (h : m.process ≠ i) (history : List (Moment M)) :
    replies i (m :: history) = replies i history := by
  have hne : ¬m.process == i := fun hi => h (beq_iff_eq.mp hi)
  simp [replies, hne]

/-- What a process has been answered, it was answered at some moment. -/
theorem mem_replies {history : List (Moment M)} {r : Reply S} :
    r ∈ replies i history ↔ ∃ m ∈ history, m.process = i ∧ m.reply = r := by
  simp only [replies, List.mem_map, List.mem_filter, beq_iff_eq, and_assoc]

/-- A reply, and the moment it was given. -/
theorem exists_of_mem_replies {history : List (Moment M)} {o : S.Op} {r : Except S.Exn (S.Ans o)}
    (h : ⟨o, r⟩ ∈ replies i history) :
    ∃ c s, (⟨i, o, c, s⟩ : Moment M) ∈ history ∧ (M.exec i o c s).1 = r := by
  obtain ⟨m, hm, hi, hreply⟩ := mem_replies.mp h
  obtain ⟨j, c, s, rfl, hr⟩ := Moment.exists_of_reply hreply
  obtain rfl : j = i := hi
  exact ⟨c, s, hm, hr⟩

/-- Every process has been started with some task. -/
theorem Reachable.started {M : System S} {P : Policy M} {Init : M.St → Prop} {w : World M}
    {i : Nat} (h : Reachable P Init w) (hi : i < w.procs.length) :
    ∃ t, P.task t ∧ Started P Init i t w := by
  induction h with
  | init _ => cases hi
  | @tail w w' h hs ih =>
      by_cases hold : i < w.procs.length
      · obtain ⟨t, ht, hstarted⟩ := ih hold
        exact ⟨t, ht, hstarted.tail hs⟩
      · cases hs with
        | spawn t ht =>
            rw [List.length_append, List.length_singleton] at hi
            exact ⟨t, ht, .spawn h ht (by omega)⟩
        | run j o k c _ _ => exact absurd (by simpa using hi) hold
        | crash j o k _ => exact absurd (by simpa using hi) hold

end

/-! ## Programs that heed their answers -/

namespace Prog

variable {α β : Type} {J : List (Reply S) → S.Op → Prop}
  {Q Q' : Except S.Exn α → List (Reply S) → Prop} {past : List (Reply S)}

/--
Each operation of the program is justified by what the program has been answered by then, and
what it has been answered in the end satisfies `Q`.
-/
def Follows (J : List (Reply S) → S.Op → Prop) {α : Type} :
    Prog S α → (Except S.Exn α → List (Reply S) → Prop) → List (Reply S) → Prop
  | .ret a, Q, past => Q (.ok a) past
  | .raise e, Q, past => Q (.error e) past
  | .await o k, Q, past => J past o ∧ ∀ r, (k r).Follows J Q (⟨o, r⟩ :: past)

theorem Follows.mono {p : Prog S α} (h : p.Follows J Q past)
    (hQ : ∀ r past', past <:+ past' → Q r past' → Q' r past') : p.Follows J Q' past := by
  induction p generalizing past with
  | ret a => exact hQ _ _ List.suffix_rfl h
  | raise e => exact hQ _ _ List.suffix_rfl h
  | await o k ih =>
      exact ⟨h.1, fun r => ih r (h.2 r) fun r' past' hpast =>
        hQ r' past' ((List.suffix_cons ..).trans hpast)⟩

/-- The justifications may be replaced by others, as far as the past has come by then. -/
theorem Follows.imp {J' : List (Reply S) → S.Op → Prop} {p : Prog S α} (h : p.Follows J Q past)
    (hJ : ∀ past' o, past <:+ past' → J past' o → J' past' o) : p.Follows J' Q past := by
  induction p generalizing past with
  | ret a => exact h
  | raise e => exact h
  | await o k ih =>
      exact ⟨hJ past o List.suffix_rfl h.1, fun r => ih r (h.2 r) fun past' o' hpast =>
        hJ past' o' ((List.suffix_cons ..).trans hpast)⟩

theorem follows_bind {p : Prog S α} {f : α → Prog S β}
    {Q : Except S.Exn β → List (Reply S) → Prop}
    (h : p.Follows J (fun r past' => match r with
      | .ok a => (f a).Follows J Q past'
      | .error e => Q (.error e) past') past) : (p.bind f).Follows J Q past := by
  induction p generalizing past with
  | ret a => exact h
  | raise e => exact h
  | await o k ih => exact ⟨h.1, fun r => ih r (h.2 r)⟩

theorem follows_tryCatch {p : Prog S α} {f : S.Exn → Prog S α}
    (h : p.Follows J (fun r past' => match r with
      | .ok a => Q (.ok a) past'
      | .error e => (f e).Follows J Q past') past) : (p.tryCatch f).Follows J Q past := by
  induction p generalizing past with
  | ret a => exact h
  | raise e => exact h
  | await o k ih => exact ⟨h.1, fun r => ih r (h.2 r)⟩

theorem follows_perform {o : S.Op} {Q : Except S.Exn (S.Ans o) → List (Reply S) → Prop}
    (ho : J past o) (hQ : ∀ r, Q r (⟨o, r⟩ :: past)) : (perform o).Follows J Q past := by
  refine ⟨ho, fun r => ?_⟩
  cases r with
  | ok a => exact hQ (.ok a)
  | error e => exact hQ (.error e)

/-- A program whose operations are justified as long as `A` holds of its answers. -/
theorem follows_all {R : S.Op → Prop} {A : List (Reply S) → Prop} {p : Prog S α} (hp : p.All R)
    (ho : ∀ o past, R o → A past → J past o) (hA : ∀ o r past, R o → A past → A (⟨o, r⟩ :: past))
    (h : A past) : p.Follows J (fun _ => A) past := by
  induction p generalizing past with
  | ret a => exact h
  | raise e => exact h
  | await o k ih => exact ⟨ho o past hp.1 h, fun r => ih r (hp.2 r) (hA o r past hp.1 h)⟩

/-- A program whose operations need no justification. -/
theorem follows_free {p : Prog S α} (hp : p.All fun o => ∀ past, J past o) :
    p.Follows J (fun _ _ => True) past :=
  follows_all (A := fun _ => True) hp (fun _ past ho _ => ho past) (fun _ _ _ _ _ => trivial)
    trivial

/-- A loop, each iteration of which is justified by what was answered before the loop. -/
theorem follows_count {f : α → Prog S Bool} {xs : List α}
    (hf : ∀ x ∈ xs, ∀ past', past <:+ past' → (f x).Follows J (fun _ _ => True) past') :
    (count f xs).Follows J (fun _ _ => True) past := by
  induction xs generalizing past with
  | nil => trivial
  | cons x xs ih =>
      have hx := hf x List.mem_cons_self past List.suffix_rfl
      refine follows_bind (hx.mono fun r past' hpast _ => ?_)
      cases r with
      | error e => trivial
      | ok b =>
          refine follows_bind ((ih fun y hy past'' hpast' =>
            hf y (List.mem_cons_of_mem x hy) past'' (hpast.trans hpast')).mono fun r _ _ _ => ?_)
          cases r <;> trivial

/-- What all operations satisfy that have a justification at all. -/
theorem Follows.all {R : S.Op → Prop} {p : Prog S α} (h : p.Follows J Q past)
    (hR : ∀ past o, J past o → R o) : p.All R := by
  induction p generalizing past with
  | ret a => trivial
  | raise e => trivial
  | await o k ih => exact ⟨hR _ _ h.1, fun r => ih r (h.2 r)⟩

end Prog

section

variable {P : Policy M.recorded} {Init : M.St → Prop} {w : World M.recorded} {i : Nat} {t : M.Task}
  {J : List (Reply S) → S.Op → Prop}

/-- What the process has left to do is justified by what it has been answered. -/
theorem Started.follows (hprog : (M.prog t).Follows J (fun _ _ => True) [])
    (h : Started P (Blank Init) i t w) : ∀ p, w.procs[i]? = some p →
      p.Follows J (fun _ _ => True) (replies i w.st.2) := by
  induction h with
  | @spawn w h _ hi =>
      intro p hp
      rw [← hi, List.getElem?_append_right (Nat.le_refl _), Nat.sub_self] at hp
      obtain rfl := Option.some.inj hp
      have hnil : replies i w.st.2 = [] :=
        replies_eq_nil fun m hm => Nat.ne_of_lt (hi ▸ h.process_lt m hm)
      exact hnil.symm ▸ hprog
  | @tail w w' h hs ih =>
      intro p hp
      have hlt : i < w.procs.length := h.lt
      cases hs with
      | spawn t' _ =>
          rw [List.getElem?_append_left hlt] at hp
          exact ih p hp
      | crash j o k hj =>
          by_cases hji : j = i
          · subst hji
            rw [List.getElem?_set_self hlt] at hp
            obtain rfl := Option.some.inj hp
            trivial
          · rw [List.getElem?_set_ne hji] at hp
            exact ih p hp
      | run j o k c hj _ =>
          by_cases hji : j = i
          · subst hji
            rw [List.getElem?_set_self hlt] at hp
            obtain rfl := Option.some.inj hp
            exact replies_cons_self (M := M) o c w.st.1 w.st.2 ▸ (ih _ hj).2 _
          · rw [List.getElem?_set_ne hji] at hp
            exact (replies_cons_ne (m := (⟨j, o, c, w.st.1⟩ : Moment M)) hji w.st.2).symm ▸ ih p hp

/-- **Every moment of the process** was justified by what the process had been answered. -/
theorem Started.justified (hprog : (M.prog t).Follows J (fun _ _ => True) [])
    (h : Started P (Blank Init) i t w) {m : Moment M} {past : List (Moment M)}
    (hm : m :: past <:+ w.st.2) (hi : m.process = i) : J (replies i past) m.op := by
  induction h with
  | @spawn w h _ hlen =>
      have hlt := h.process_lt m (hm.subset List.mem_cons_self)
      exact absurd (hi.trans hlen.symm) (Nat.ne_of_lt hlt)
  | @tail w w' h hs ih =>
      cases hs with
      | spawn _ _ => exact ih hm
      | crash _ _ _ _ => exact ih hm
      | run j o k c hj _ =>
          rcases List.suffix_cons_iff.mp hm with heq | hm
          · obtain ⟨rfl, rfl⟩ := List.cons.inj heq
            subst hi
            exact (h.follows hprog _ hj).1
          · exact ih hm

end

end SmartDialer.Conc
