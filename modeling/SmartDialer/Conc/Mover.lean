import SmartDialer.Conc.World

/-!
# Moving a step to the front

Whether it matters when a process performs an operation is a question about two runs: the
one in which it does so when it does, and the one in which it does so first, and everything
else happens as before. If the operation commutes with every step the others take until
then, the second run ends where the first one does.

Ends are compared up to a relation on states that no operation can see through
(`Indistinct`), since a state may keep a record of the order things happened in. A step that
commutes to the left is asked to do so only where it succeeds, and may be refused elsewhere:
`K` is what is known where it is performed, and is shown to have been so all along.
-/

namespace SmartDialer.Conc

variable {S : Sig} {M : System S}

/-! ## Worlds that are alike -/

/-- States that no operation can tell apart. -/
structure Indistinct (M : System S) (E : M.St → M.St → Prop) : Prop where
  refl : ∀ s, E s s
  trans : ∀ {s₁ s₂ s₃}, E s₁ s₂ → E s₂ s₃ → E s₁ s₃
  exec : ∀ {s s'} i o c, E s s' →
    (M.exec i o c s).1 = (M.exec i o c s').1 ∧ E (M.exec i o c s).2 (M.exec i o c s').2
  crash : ∀ {s s'} i, E s s' → E (M.crash i s) (M.crash i s')

/-- A policy that does not tell them apart either. -/
def Policy.Blind (P : Policy M) (E : M.St → M.St → Prop) : Prop :=
  ∀ {s s'} i o c, E s s' → P.run i o c s → P.run i o c s'

/-- The same processes, over states that cannot be told apart. -/
structure World.Alike (E : M.St → M.St → Prop) (w w' : World M) : Prop where
  st : E w.st w'.st
  procs : w.procs = w'.procs

variable {E : M.St → M.St → Prop} {P Q : Policy M} {i : Nat} {o : S.Op} {c : M.Choice}

theorem Policy.any_blind : (Policy.any M).Blind E := fun _ _ _ _ _ => trivial

theorem World.Alike.refl (hE : Indistinct M E) (w : World M) : w.Alike E w :=
  ⟨hE.refl _, rfl⟩

theorem World.Alike.trans (hE : Indistinct M E) {w₁ w₂ w₃ : World M} (h : w₁.Alike E w₂)
    (h' : w₂.Alike E w₃) : w₁.Alike E w₃ :=
  ⟨hE.trans h.st h'.st, h.procs.trans h'.procs⟩

theorem next_spawn [P.Checkable] {t : M.Task} (ht : P.task t) (w : World M) :
    w.next P (.spawn t) = some { w with procs := w.procs ++ [M.prog t] } := by
  rw [World.next, if_pos ht]

theorem next_spawn_some [P.Checkable] {w w' : World M} {t : M.Task}
    (h : w.next P (.spawn t) = some w') :
    P.task t ∧ w' = { w with procs := w.procs ++ [M.prog t] } := by
  rw [World.next, Option.ite_none_right_eq_some] at h
  exact ⟨h.1, (Option.some.inj h.2).symm⟩

/-- The step of a process that awaits `o`. -/
theorem next_run [P.Checkable] {w : World M} {k : Except S.Exn (S.Ans o) → Prog S M.Ret}
    (hi : w.procs[i]? = some (.await o k)) (hc : P.run i o c w.st) :
    w.next P (.run i c)
      = some ⟨(M.exec i o c w.st).2, w.procs.set i (k (M.exec i o c w.st).1)⟩ := by
  rw [World.next, hi]
  exact if_pos hc

theorem next_run_some [P.Checkable] {w w' : World M} (h : w.next P (.run i c) = some w') :
    ∃ o k, w.procs[i]? = some (.await o k) ∧ P.run i o c w.st
      ∧ w' = ⟨(M.exec i o c w.st).2, w.procs.set i (k (M.exec i o c w.st).1)⟩ := by
  rw [World.next] at h
  split at h
  · rename_i o k hi
    rw [Option.ite_none_right_eq_some] at h
    exact ⟨o, k, hi, h.1, (Option.some.inj h.2).symm⟩
  · cases h

theorem next_crash_some [P.Checkable] {w w' : World M} (h : w.next P (.crash i) = some w') :
    (∃ o k, w.procs[i]? = some (.await o k))
      ∧ w' = ⟨M.crash i w.st, w.procs.set i (.raise M.killed)⟩ := by
  rw [World.next] at h
  split at h
  · rename_i o k hi
    exact ⟨⟨o, k, hi⟩, (Option.some.inj h).symm⟩
  · cases h

theorem next_crash [P.Checkable] {w : World M} {k : Except S.Exn (S.Ans o) → Prog S M.Ret}
    (hi : w.procs[i]? = some (.await o k)) :
    w.next P (.crash i) = some ⟨M.crash i w.st, w.procs.set i (.raise M.killed)⟩ := by
  rw [World.next, hi]

theorem play_append [P.Checkable] (w : World M) (ls ls' : List (Label M)) :
    w.play P (ls ++ ls') = (w.play P ls).bind fun w' => w'.play P ls' := by
  induction ls generalizing w with
  | nil => rfl
  | cons l ls ih =>
      rw [List.cons_append, World.play, World.play, Option.bind_assoc]
      exact Option.bind_congr fun w' _ => ih w'

/-- Alike worlds take the same steps. -/
theorem World.Alike.next [Q.Checkable] (hE : Indistinct M E) (hQ : Q.Blind E) {w w' v : World M}
    (h : w.Alike E w') {l : Label M} (hl : w.next Q l = some v) :
    ∃ v', w'.next Q l = some v' ∧ v.Alike E v' := by
  cases l with
  | spawn t =>
      obtain ⟨ht, rfl⟩ := next_spawn_some hl
      refine ⟨_, next_spawn ht w', h.st, ?_⟩
      dsimp only
      rw [h.procs]
  | run i c =>
      obtain ⟨o, k, hi, hc, rfl⟩ := next_run_some hl
      obtain ⟨hans, hst⟩ := hE.exec i o c h.st
      refine ⟨_, next_run (h.procs ▸ hi) (hQ i o c h.st hc), hst, ?_⟩
      dsimp only
      rw [h.procs, hans]
  | crash i =>
      obtain ⟨⟨o, k, hi⟩, rfl⟩ := next_crash_some hl
      refine ⟨_, next_crash (h.procs ▸ hi), hE.crash i h.st, ?_⟩
      dsimp only
      rw [h.procs]

theorem World.Alike.play [Q.Checkable] (hE : Indistinct M E) (hQ : Q.Blind E) {w w' v : World M}
    (h : w.Alike E w') {ls : List (Label M)} (hls : w.play Q ls = some v) :
    ∃ v', w'.play Q ls = some v' ∧ v.Alike E v' := by
  induction ls generalizing w w' with
  | nil =>
      obtain rfl := Option.some.inj hls
      exact ⟨w', rfl, h⟩
  | cons l ls ih =>
      rw [World.play, Option.bind_eq_some_iff] at hls
      obtain ⟨u, hu, hrest⟩ := hls
      obtain ⟨u', hu', halike⟩ := h.next hE hQ hu
      obtain ⟨v', hv', hend⟩ := ih halike hrest
      exact ⟨v', by rw [World.play, hu']; exact hv', hend⟩

/-! ## Left movers -/

/--
Where `K` holds after a step that another process takes under `P`, the operation `o` of
process `i` might as well have been performed before that step, which is then one under `Q`.
-/
structure LeftMover (P Q : Policy M) (E : M.St → M.St → Prop) (i : Nat) (o : S.Op)
    (c : M.Choice) (K : M.St → Prop) : Prop where
  task : ∀ t, P.task t → Q.task t
  run : ∀ j o' c' s, j ≠ i → P.run j o' c' s → K (M.exec j o' c' s).2 →
    K s ∧ Q.run j o' c' (M.exec i o c s).2
      ∧ (M.exec j o' c' (M.exec i o c s).2).1 = (M.exec j o' c' s).1
      ∧ (M.exec i o c (M.exec j o' c' s).2).1 = (M.exec i o c s).1
      ∧ E (M.exec i o c (M.exec j o' c' s).2).2 (M.exec j o' c' (M.exec i o c s).2).2
  crash : ∀ j s, K (M.crash j s) →
    K s ∧ (M.exec i o c (M.crash j s)).1 = (M.exec i o c s).1
      ∧ E (M.exec i o c (M.crash j s)).2 (M.crash j (M.exec i o c s).2)
  /-- Process `i` itself does nothing under `P`. -/
  idle : ∀ o' c' s, ¬P.run i o' c' s

variable {K : M.St → Prop}

/-- **One step** of another process is passed. -/
theorem LeftMover.next [P.Checkable] [Q.Checkable] (h : LeftMover P Q E i o c K)
    (hE : Indistinct M E) {w u u' : World M} {l : Label M} (hlt : i < w.procs.length)
    (hl : w.next P l = some u) (hi : u.Awaits i o) (hK : K u.st)
    (hu' : u.next (Policy.any M) (.run i c) = some u') :
    w.Awaits i o ∧ K w.st ∧ ∃ w' v, w.next (Policy.any M) (.run i c) = some w'
      ∧ w'.next Q l = some v ∧ u'.Alike E v := by
  obtain ⟨k, hk⟩ := hi
  obtain rfl := Option.some.inj ((next_run hk trivial).symm.trans hu')
  cases l with
  -- the moved step does not depend on how many processes there are
  | spawn t =>
      obtain ⟨ht, rfl⟩ := next_spawn_some hl
      rw [List.getElem?_append_left hlt] at hk
      have ht' := h.task t ht
      refine ⟨⟨k, hk⟩, hK, _, _, next_run hk trivial, next_spawn ht' _, hE.refl _, ?_⟩
      exact List.set_append_left i _ hlt
  | run j c' =>
      obtain ⟨o', k', hj, hc', rfl⟩ := next_run_some hl
      have hne : j ≠ i := by
        rintro rfl
        exact h.idle _ _ _ hc'
      rw [List.getElem?_set_ne hne] at hk
      obtain ⟨hKw, hQ, hans', hans, hst⟩ := h.run j o' c' w.st hne hc' hK
      have hj' : (w.procs.set i (k (M.exec i o c w.st).1))[j]? = some (.await o' k') := by
        rw [List.getElem?_set_ne hne.symm]
        exact hj
      refine ⟨⟨k, hk⟩, hKw, _, _, next_run hk trivial, next_run hj' hQ, hst, ?_⟩
      dsimp only
      rw [hans, hans', List.set_comm _ _ hne]
  | crash j =>
      obtain ⟨⟨o', k', hj⟩, rfl⟩ := next_crash_some hl
      have hne : j ≠ i := by
        rintro rfl
        rw [List.getElem?_set_self hlt] at hk
        cases hk
      rw [List.getElem?_set_ne hne] at hk
      obtain ⟨hKw, hans, hst⟩ := h.crash j w.st hK
      have hj' : (w.procs.set i (k (M.exec i o c w.st).1))[j]? = some (.await o' k') := by
        rw [List.getElem?_set_ne hne.symm]
        exact hj
      refine ⟨⟨k, hk⟩, hKw, _, _, next_run hk trivial, next_crash hj', hst, ?_⟩
      dsimp only
      rw [hans, List.set_comm _ _ hne]

/-- **A run** of the others is passed: the step comes first, and all else as before. -/
theorem LeftMover.play [P.Checkable] [Q.Checkable] (h : LeftMover P Q E i o c K)
    (hE : Indistinct M E) (hQ : Q.Blind E) {w w₁ w₂ : World M} {ls : List (Label M)}
    (hlt : i < w.procs.length) (hls : w.play P ls = some w₁) (hi : w₁.Awaits i o) (hK : K w₁.st)
    (hnext : w₁.next (Policy.any M) (.run i c) = some w₂) :
    w.Awaits i o ∧ K w.st ∧ ∃ w' v, w.next (Policy.any M) (.run i c) = some w'
      ∧ w'.play Q ls = some v ∧ w₂.Alike E v := by
  induction ls generalizing w with
  | nil =>
      obtain rfl := Option.some.inj hls
      exact ⟨hi, hK, w₂, w₂, hnext, rfl, .refl hE w₂⟩
  | cons l ls ih =>
      rw [World.play, Option.bind_eq_some_iff] at hls
      obtain ⟨u, hu, hrest⟩ := hls
      have hlt' : i < u.procs.length := Nat.lt_of_lt_of_le hlt (Step.of_next hu).length_le
      obtain ⟨hi', hK', u', v, hu', hv, halike⟩ := ih hlt' hrest
      obtain ⟨hi'', hK'', w', v', hw', hv', hswap⟩ := h.next hE hlt hu hi' hK' hu'
      obtain ⟨v'', hv'', hend⟩ := hswap.play hE hQ hv
      refine ⟨hi'', hK'', w', v'', hw', ?_, halike.trans hE hend⟩
      rw [World.play, hv']
      exact hv''

end SmartDialer.Conc
