import SmartDialer.Conc.World

/-!
# Rely–guarantee reasoning about interleaved programs

An invariant of a world with arbitrarily many processes cannot be proved by
looking at the shared state alone: whether a write is harmless depends on what
its author read some operations ago. A `Logic` says what a proof may use of that
knowledge. `Inv` holds between any two operations; `Guar i` is all that process
`i` does to the state in one operation, and therefore all the *other* processes
have to put up with; and the ghost component `Γ` records ownership facts no
document of the shared state records.

`wp i p Q s` says that process `i`, having `p` left to run, keeps the invariant
and its guarantee to the end, and reaches `Q`, whatever the others do between its
operations. Facts a process learned survive as long as they are `Stable` — no
other process's guarantee can falsify them.

`Logic.Verified.good` is the soundness theorem: if every task satisfies its `wp`,
every reachable world satisfies `Inv`, and every step its author's guarantee.
-/

namespace SmartDialer.Conc

variable {S : Sig} {M : System S}

/-- What a proof about the interleavings of `M` under `P` keeps track of. -/
structure Logic (P : Policy M) (Γ : Type) where
  /-- Holds between any two operations. -/
  Inv : M.St × Γ → Prop
  /-- All that one operation of a process may do. -/
  Guar : Nat → M.St × Γ → M.St × Γ → Prop

namespace Logic

variable {P : Policy M} {Γ : Type} (L : Logic P Γ)

/-- What happens around process `i`: any number of operations of the others. -/
def Rely (i : Nat) : M.St × Γ → M.St × Γ → Prop :=
  Relation.ReflTransGen fun s s' => ∃ j, j ≠ i ∧ L.Guar j s s' ∧ L.Inv s'

/-- No other process can falsify `A`. -/
def Stable (i : Nat) (A : M.St × Γ → Prop) : Prop :=
  ∀ s s', L.Rely i s s' → A s → A s'

/--
Process `i` performs `o` from a state satisfying `A`: the invariant is kept, the
guarantee is honoured, and the answer and the new state satisfy `B`.
-/
def Atomic (i : Nat) (o : S.Op) (A : M.St × Γ → Prop)
    (B : Except S.Exn (S.Ans o) → M.St × Γ → Prop) : Prop :=
  ∀ s, L.Inv s → A s → ∀ c, P.run i o c s.1 →
    ∃ γ, L.Inv ((M.exec i o c s.1).2, γ)
      ∧ L.Guar i s ((M.exec i o c s.1).2, γ)
      ∧ B (M.exec i o c s.1).1 ((M.exec i o c s.1).2, γ)

/-- Process `i` may run `p` from `s`, amid the others, and ends in `Q`. -/
def wp (i : Nat) {α : Type} :
    Prog S α → (Except S.Exn α → M.St × Γ → Prop) → M.St × Γ → Prop
  | .ret a, Q, s => Q (.ok a) s
  | .raise e, Q, s => Q (.error e) s
  | .await o k, Q, s =>
      ∀ s₁, L.Rely i s s₁ → L.Inv s₁ → ∀ c, P.run i o c s₁.1 →
        ∃ γ, L.Inv ((M.exec i o c s₁.1).2, γ)
          ∧ L.Guar i s₁ ((M.exec i o c s₁.1).2, γ)
          ∧ wp i (k (M.exec i o c s₁.1).1) Q ((M.exec i o c s₁.1).2, γ)

variable {L} {i : Nat} {α β : Type}

/-! ## Stability -/

/-- One operation of another process at a time is enough. -/
theorem stable_of_step {A : M.St × Γ → Prop}
    (h : ∀ j s s', j ≠ i → L.Guar j s s' → L.Inv s' → A s → A s') : L.Stable i A := by
  intro s s' hr
  induction hr with
  | refl => exact id
  | tail _ hstep ih =>
      obtain ⟨j, hj, hg, hinv⟩ := hstep
      exact fun ha => h j _ _ hj hg hinv (ih ha)

theorem Stable.and {A B : M.St × Γ → Prop} (hA : L.Stable i A) (hB : L.Stable i B) :
    L.Stable i (fun s => A s ∧ B s) :=
  fun s s' hr h => ⟨hA s s' hr h.1, hB s s' hr h.2⟩

theorem stable_true : L.Stable i (fun _ => True) := fun _ _ _ _ => trivial

/-- A fact that does not mention the state. -/
theorem stable_const (p : Prop) : L.Stable i (fun _ => p) := fun _ _ _ h => h

/-! ## The rules -/

theorem wp_mono {p : Prog S α} {Q Q' : Except S.Exn α → M.St × Γ → Prop} {s : M.St × Γ}
    (h : L.wp i p Q s) (hQ : ∀ r s', Q r s' → Q' r s') : L.wp i p Q' s := by
  induction p generalizing s with
  | ret a => exact hQ _ _ h
  | raise e => exact hQ _ _ h
  | await o k ih =>
      intro s₁ hr hinv c hc
      obtain ⟨γ, h₁, h₂, h₃⟩ := h s₁ hr hinv c hc
      exact ⟨γ, h₁, h₂, ih _ h₃⟩

/-- Sequencing. -/
theorem wp_bind {p : Prog S α} {f : α → Prog S β} {Q : Except S.Exn β → M.St × Γ → Prop}
    {s : M.St × Γ}
    (h : L.wp i p (fun r s' => match r with
      | .ok a => L.wp i (f a) Q s'
      | .error e => Q (.error e) s') s) : L.wp i (p.bind f) Q s := by
  induction p generalizing s with
  | ret a => exact h
  | raise e => exact h
  | await o k ih =>
      intro s₁ hr hinv c hc
      obtain ⟨γ, h₁, h₂, h₃⟩ := h s₁ hr hinv c hc
      exact ⟨γ, h₁, h₂, ih _ h₃⟩

/-- `try`/`except`. -/
theorem wp_tryCatch {p : Prog S α} {f : S.Exn → Prog S α}
    {Q : Except S.Exn α → M.St × Γ → Prop} {s : M.St × Γ}
    (h : L.wp i p (fun r s' => match r with
      | .ok a => Q (.ok a) s'
      | .error e => L.wp i (f e) Q s') s) : L.wp i (p.tryCatch f) Q s := by
  induction p generalizing s with
  | ret a => exact h
  | raise e => exact h
  | await o k ih =>
      intro s₁ hr hinv c hc
      obtain ⟨γ, h₁, h₂, h₃⟩ := h s₁ hr hinv c hc
      exact ⟨γ, h₁, h₂, ih _ h₃⟩

/-- A single operation. -/
theorem wp_perform {o : S.Op} {A : M.St × Γ → Prop}
    {B : Except S.Exn (S.Ans o) → M.St × Γ → Prop} {s : M.St × Γ}
    (hA : L.Stable i A) (ho : L.Atomic i o A B) (hs : A s) : L.wp i (Prog.perform o) B s := by
  intro s₁ hr hinv c hc
  obtain ⟨γ, h₁, h₂, h₃⟩ := ho s₁ hinv (hA s s₁ hr hs) c hc
  refine ⟨γ, h₁, h₂, ?_⟩
  generalize (M.exec i o c s₁.1).1 = r at h₃ ⊢
  cases r with
  | ok a => exact h₃
  | error e => exact h₃

theorem Atomic.mono {o : S.Op} {A A' : M.St × Γ → Prop}
    {B B' : Except S.Exn (S.Ans o) → M.St × Γ → Prop} (h : L.Atomic i o A B)
    (hA : ∀ s, A' s → A s) (hB : ∀ r s, B r s → B' r s) : L.Atomic i o A' B' := by
  intro s hinv ha c hc
  obtain ⟨γ, h₁, h₂, h₃⟩ := h s hinv (hA s ha) c hc
  exact ⟨γ, h₁, h₂, hB _ _ h₃⟩

/--
**A program whose operations all keep `A` keeps `A`.**

The rule for the parts of a program whose order does not matter to the proof.
-/
theorem wp_all {R : S.Op → Prop} {A : M.St × Γ → Prop} {p : Prog S α} (hp : p.All R)
    (hA : L.Stable i A) (ho : ∀ o, R o → L.Atomic i o A (fun _ s => A s)) {s : M.St × Γ}
    (hs : A s) : L.wp i p (fun _ s' => A s') s := by
  induction p generalizing s with
  | ret a => exact hs
  | raise e => exact hs
  | await o k ih =>
      intro s₁ hr hinv c hc
      obtain ⟨γ, h₁, h₂, h₃⟩ := ho o hp.1 s₁ hinv (hA s s₁ hr hs) c hc
      exact ⟨γ, h₁, h₂, ih _ (hp.2 _) h₃⟩

/-- `wp_all`, with what is known of the value returned. -/
theorem wp_all_of_yields {R : S.Op → Prop} {V : α → Prop} {A : M.St × Γ → Prop} {p : Prog S α}
    (hp : p.All R) (hy : p.Yields V) (hA : L.Stable i A)
    (ho : ∀ o, R o → L.Atomic i o A (fun _ s => A s)) {s : M.St × Γ} (hs : A s) :
    L.wp i p (fun r s' => A s' ∧ ∀ a, r = .ok a → V a) s := by
  induction p generalizing s with
  | ret a => exact ⟨hs, fun _ h => Except.ok.inj h ▸ hy⟩
  | raise e => exact ⟨hs, fun _ h => by cases h⟩
  | await o k ih =>
      intro s₁ hr hinv c hc
      obtain ⟨γ, h₁, h₂, h₃⟩ := ho o hp.1 s₁ hinv (hA s s₁ hr hs) c hc
      exact ⟨γ, h₁, h₂, ih _ (hp.2 _) (hy _) h₃⟩

/-- **Frame.** What nobody's guarantee can falsify, the process' own included, stays true. -/
theorem wp_frame {A : M.St × Γ → Prop} {p : Prog S α} {Q : Except S.Exn α → M.St × Γ → Prop}
    (hA : L.Stable i A) (hown : ∀ s s', L.Guar i s s' → A s → A s') {s : M.St × Γ}
    (h : L.wp i p Q s) (hs : A s) : L.wp i p (fun r s' => Q r s' ∧ A s') s := by
  induction p generalizing s with
  | ret a => exact ⟨h, hs⟩
  | raise e => exact ⟨h, hs⟩
  | await o k ih =>
      intro s₁ hr hinv c hc
      obtain ⟨γ, h₁, h₂, h₃⟩ := h s₁ hr hinv c hc
      exact ⟨γ, h₁, h₂, ih _ h₃ (hown _ _ h₂ (hA s s₁ hr hs))⟩

/-- A loop keeps what each of its iterations keeps, as long as none raises. -/
theorem wp_count {A : M.St × Γ → Prop} {E : S.Exn → M.St × Γ → Prop} {f : α → Prog S Bool}
    {xs : List α}
    (hf : ∀ x ∈ xs, ∀ s, A s → L.wp i (f x) (fun r s' => match r with
      | .ok _ => A s'
      | .error e => E e s') s) {s : M.St × Γ} (hs : A s) :
    L.wp i (Prog.count f xs) (fun r s' => match r with
      | .ok _ => A s'
      | .error e => E e s') s := by
  induction xs generalizing s with
  | nil => exact hs
  | cons x xs ih =>
      refine wp_bind (wp_mono (hf x List.mem_cons_self s hs) ?_)
      intro r s₁ h₁
      cases r with
      | error e => exact h₁
      | ok b =>
          refine wp_bind (wp_mono (ih (fun y hy => hf y (List.mem_cons_of_mem x hy)) h₁) ?_)
          intro r s₂ h₂
          cases r with
          | error e => exact h₂
          | ok n => exact h₂

/-! ## Soundness -/

/-- Every task and every crash obeys the logic. -/
structure Verified (L : Logic P Γ) (Init : M.St → Prop) : Prop where
  /-- The invariant holds at the start. -/
  init : ∀ s, Init s → ∃ γ, L.Inv (s, γ)
  /-- A task may be started at any time. -/
  task : ∀ t, P.task t → ∀ i s, L.Inv s → L.wp i (M.prog t) (fun _ _ => True) s
  /-- A process may die at any time. -/
  crash : ∀ i s, L.Inv s → ∃ γ, L.Inv (M.crash i s.1, γ) ∧ L.Guar i s (M.crash i s.1, γ)

/-- A world in which the invariant holds, and every process may go on to what it owes. -/
def Good (L : Logic P Γ) (Q : Nat → Except S.Exn M.Ret → M.St × Γ → Prop) (w : World M) (γ : Γ) :
    Prop :=
  L.Inv (w.st, γ) ∧ ∀ i p, w.procs[i]? = some p → L.wp i p (Q i) (w.st, γ)

/-- A process is not disturbed by what the others guarantee. -/
theorem wp_rely {p : Prog S α} {Q : Except S.Exn α → M.St × Γ → Prop}
    (hQ : ∀ r, L.Stable i (Q r)) {s s' : M.St × Γ} (h : L.wp i p Q s) (hr : L.Rely i s s') :
    L.wp i p Q s' := by
  cases p with
  | ret a => exact hQ _ s s' hr h
  | raise e => exact hQ _ s s' hr h
  | await o k => exact fun s₁ hr₁ hinv c hc => h s₁ (hr.trans hr₁) hinv c hc

theorem rely_single {j : Nat} {s s' : M.St × Γ} (hj : j ≠ i) (hg : L.Guar j s s')
    (hinv : L.Inv s') : L.Rely i s s' :=
  .single ⟨j, hj, hg, hinv⟩

section

variable {Q : Nat → Except S.Exn M.Ret → M.St × Γ → Prop}

/-- The operation a process of a good world awaits obeys the logic. -/
theorem Good.run {w : World M} {γ : Γ} (hg : L.Good Q w γ) {o : S.Op}
    {k : Except S.Exn (S.Ans o) → Prog S M.Ret} {c : M.Choice}
    (hi : w.procs[i]? = some (.await o k)) (hc : P.run i o c w.st) :
    ∃ γ', L.Inv ((M.exec i o c w.st).2, γ')
      ∧ L.Guar i (w.st, γ) ((M.exec i o c w.st).2, γ')
      ∧ L.wp i (k (M.exec i o c w.st).1) (Q i) ((M.exec i o c w.st).2, γ') :=
  hg.2 i _ hi (w.st, γ) .refl hg.1 c hc

/-- One process moves to `p`, and the others put up with it. -/
theorem Good.set {w : World M} {γ γ' : Γ} {st : M.St} {q p : Prog S M.Ret}
    (hg : L.Good Q w γ) (hQ : ∀ i r, L.Stable i (Q i r)) (hi : w.procs[i]? = some q)
    (hinv : L.Inv (st, γ')) (hguar : L.Guar i (w.st, γ) (st, γ'))
    (hp : L.wp i p (Q i) (st, γ')) : L.Good Q ⟨st, w.procs.set i p⟩ γ' := by
  refine ⟨hinv, ?_⟩
  intro j p' hp'
  rcases Nat.decEq i j with hne | rfl
  · rw [List.getElem?_set_ne hne] at hp'
    exact wp_rely (hQ j) (hg.2 j p' hp') (rely_single hne hguar hinv)
  · rw [List.getElem?_set_self (List.getElem?_eq_some_iff.mp hi).1] at hp'
    obtain rfl := Option.some.inj hp'
    exact hp

/-- **One step.** A good world stays good. -/
theorem Good.step {w w' : World M} {γ : Γ} (hg : L.Good Q w γ) (hQ : ∀ i r, L.Stable i (Q i r))
    (htask : ∀ t, P.task t →
      L.wp w.procs.length (M.prog t) (Q w.procs.length) (w.st, γ))
    (hcrash : ∀ i, ∃ γ', L.Inv (M.crash i w.st, γ') ∧ L.Guar i (w.st, γ) (M.crash i w.st, γ')
      ∧ Q i (.error M.killed) (M.crash i w.st, γ'))
    (hs : Step P w w') : ∃ γ', L.Good Q w' γ' := by
  cases hs with
  | spawn t ht =>
      refine ⟨γ, hg.1, ?_⟩
      intro i p hp
      rcases Nat.lt_or_ge i w.procs.length with hlt | hge
      · rw [List.getElem?_append_left hlt] at hp
        exact hg.2 i p hp
      · rw [List.getElem?_append_right hge] at hp
        obtain ⟨hlen, hp⟩ := List.getElem?_eq_some_iff.mp hp
        rw [List.length_singleton] at hlen
        obtain rfl : i = w.procs.length := by omega
        rw [List.getElem_singleton] at hp
        subst hp
        exact htask t ht
  | run i o k c hi hc =>
      obtain ⟨γ', hinv, hguar, hwp⟩ := hg.run hi hc
      exact ⟨γ', hg.set hQ hi hinv hguar hwp⟩
  | crash i o k hi =>
      obtain ⟨γ', hinv, hguar, hpost⟩ := hcrash i
      exact ⟨γ', hg.set hQ hi hinv hguar hpost⟩

end

/-- **A run** of the processes that are there, from a good world, ends in a good world. -/
theorem Good.steps {Q : Nat → Except S.Exn M.Ret → M.St × Γ → Prop} {w w' : World M} {γ : Γ}
    (hg : L.Good Q w γ) (hQ : ∀ i r, L.Stable i (Q i r)) (htask : ∀ t, ¬P.task t)
    (hcrash : ∀ i s, L.Inv s → ∃ γ', L.Inv (M.crash i s.1, γ')
      ∧ L.Guar i s (M.crash i s.1, γ') ∧ Q i (.error M.killed) (M.crash i s.1, γ'))
    (h : Relation.ReflTransGen (Step P) w w') : ∃ γ', L.Good Q w' γ' := by
  induction h with
  | refl => exact ⟨γ, hg⟩
  | tail _ hs ih =>
      obtain ⟨γ', hg'⟩ := ih
      exact hg'.step hQ (fun t ht => absurd ht (htask t)) (fun i => hcrash i _ hg'.1) hs

/-- What a process of a good world that has ended without an exception has achieved. -/
theorem Good.returned {Q : Nat → Except S.Exn M.Ret → M.St × Γ → Prop} {w : World M} {γ : Γ}
    (hg : L.Good Q w γ) {i : Nat} {r : M.Ret} (hi : w.procs[i]? = some (.ret r)) :
    Q i (.ok r) (w.st, γ) :=
  hg.2 i _ hi

theorem Verified.good_step {Init : M.St → Prop} (hv : L.Verified Init) {w w' : World M} {γ : Γ}
    (hg : L.Good (fun _ _ _ => True) w γ) (hs : Step P w w') :
    ∃ γ', L.Good (fun _ _ _ => True) w' γ' := by
  refine hg.step (fun _ _ => stable_true) (fun t ht => hv.task t ht _ _ hg.1) ?_ hs
  intro i
  obtain ⟨γ', hinv, hguar⟩ := hv.crash i _ hg.1
  exact ⟨γ', hinv, hguar, trivial⟩

/-- **Soundness.** Every reachable world is good. -/
theorem Verified.good {Init : M.St → Prop} (hv : L.Verified Init) {w : World M}
    (h : Reachable P Init w) : ∃ γ, L.Good (fun _ _ _ => True) w γ := by
  induction h with
  | init hs =>
      obtain ⟨γ, hγ⟩ := hv.init _ hs
      exact ⟨γ, hγ, fun i p hp => by cases hp⟩
  | tail _ hs ih =>
      obtain ⟨γ, hγ⟩ := ih
      exact hv.good_step hγ hs

/-- The invariant holds in every reachable world. -/
theorem Verified.inv {Init : M.St → Prop} (hv : L.Verified Init) {w : World M}
    (h : Reachable P Init w) : ∃ γ, L.Inv (w.st, γ) := by
  obtain ⟨γ, hγ⟩ := hv.good h
  exact ⟨γ, hγ.1⟩

/-- Every operation of a run honours its author's guarantee. -/
theorem Verified.guar {Init : M.St → Prop} (hv : L.Verified Init) {w : World M}
    (h : Reachable P Init w) {o : S.Op} {c : M.Choice} (hi : w.Awaits i o)
    (hc : P.run i o c w.st) :
    ∃ γ γ', L.Inv (w.st, γ) ∧ L.Guar i (w.st, γ) ((M.exec i o c w.st).2, γ') := by
  obtain ⟨γ, hγ⟩ := hv.good h
  obtain ⟨k, hk⟩ := hi
  obtain ⟨γ', -, h₂, -⟩ := hγ.run hk hc
  exact ⟨γ, γ', hγ.1, h₂⟩

/-! ## What one process promises -/

/-- The logic in which process `i` also promises `E` of every operation of its own. -/
def promising (L : Logic P Γ) (i : Nat) (E : M.St × Γ → M.St × Γ → Prop) : Logic P Γ where
  Inv := L.Inv
  Guar j s s' := L.Guar j s s' ∧ (j = i → E s s')

variable {E : M.St × Γ → M.St × Γ → Prop}

theorem rely_of_promising {j : Nat} {s s' : M.St × Γ} (h : (L.promising i E).Rely j s s') :
    L.Rely j s s' := by
  induction h with
  | refl => exact .refl
  | tail _ hstep ih =>
      obtain ⟨k, hk, hg, hinv⟩ := hstep
      exact ih.tail ⟨k, hk, hg.1, hinv⟩

/-- What is stable stays so when more is promised. -/
theorem Stable.promising {j : Nat} {A : M.St × Γ → Prop} (h : L.Stable j A) :
    (L.promising i E).Stable j A :=
  fun s s' hr => h s s' (rely_of_promising hr)

/-- The others promise nothing. -/
theorem wp_promising {j : Nat} (hj : j ≠ i) {p : Prog S α}
    {Q : Except S.Exn α → M.St × Γ → Prop} {s : M.St × Γ} (h : L.wp j p Q s) :
    (L.promising i E).wp j p Q s := by
  induction p generalizing s with
  | ret a => exact h
  | raise e => exact h
  | await o k ih =>
      intro s₁ hr hinv c hc
      obtain ⟨γ, h₁, h₂, h₃⟩ := h s₁ (rely_of_promising hr) hinv c hc
      exact ⟨γ, h₁, ⟨h₂, fun hi => absurd hi hj⟩, ih _ h₃⟩

/-- A world in which process `i` keeps its promise stays so. -/
theorem Verified.promise {Init : M.St → Prop} (hv : L.Verified Init) {t : M.Task}
    (ht : ∀ s, L.Inv s → (L.promising i E).wp i (M.prog t) (fun _ _ => True) s)
    (hcrash : ∀ s γ, E s (M.crash i s.1, γ)) {w : World M} (h : Started P Init i t w) :
    ∃ γ, (L.promising i E).Good (fun _ _ _ => True) w γ := by
  induction h with
  | @spawn w h hP hi =>
      obtain ⟨γ, hinv, hgood⟩ := hv.good h
      refine ⟨γ, hinv, ?_⟩
      intro j p hp
      -- the others are as they were, and the new one is `i`
      rcases Nat.lt_or_ge j w.procs.length with hlt | hge
      · rw [List.getElem?_append_left hlt] at hp
        exact wp_promising (by omega) (hgood j p hp)
      · rw [List.getElem?_append_right hge] at hp
        obtain ⟨hlen, hp⟩ := List.getElem?_eq_some_iff.mp hp
        rw [List.length_singleton] at hlen
        obtain rfl : j = i := by omega
        rw [List.getElem_singleton] at hp
        subst hp
        exact ht _ hinv
  | @tail w w' h hs ih =>
      obtain ⟨γ, hgood⟩ := ih
      have hlt : i < w.procs.length := h.lt
      refine hgood.step (fun _ _ => stable_true) ?_ ?_ hs
      · intro t' ht'
        exact wp_promising (by omega) (hv.task t' ht' _ _ hgood.1)
      · intro j
        obtain ⟨γ', hinv, hguar⟩ := hv.crash j _ hgood.1
        refine ⟨γ', hinv, ⟨hguar, ?_⟩, trivial⟩
        rintro rfl
        exact hcrash _ _

/-- **Every operation of the process keeps the promise.** -/
theorem Verified.promised {Init : M.St → Prop} (hv : L.Verified Init) {t : M.Task}
    (ht : ∀ s, L.Inv s → (L.promising i E).wp i (M.prog t) (fun _ _ => True) s)
    (hcrash : ∀ s γ, E s (M.crash i s.1, γ)) {w : World M} (h : Started P Init i t w)
    {o : S.Op} {c : M.Choice} (hi : w.Awaits i o) (hc : P.run i o c w.st) :
    ∃ γ γ', L.Inv (w.st, γ) ∧ E (w.st, γ) ((M.exec i o c w.st).2, γ') := by
  obtain ⟨γ, hγ⟩ := hv.promise ht hcrash h
  obtain ⟨k, hk⟩ := hi
  obtain ⟨γ', -, h₂, -⟩ := hγ.run hk hc
  exact ⟨γ, γ', hγ.1, h₂.2 rfl⟩

end Logic

/-! ## Programs that do not raise -/

section

variable {P : Policy M} {Γ : Type} {L : Logic P Γ} {i : Nat} {α β : Type}

/-- The program ends without an exception. -/
def Finishes {ε σ : Type} (f : α → σ → Prop) : Except ε α → σ → Prop
  | .ok a, s => f a s
  | .error _, _ => False

theorem wp_bind_finishes {f : α → M.St × Γ → Prop} {Q : Except S.Exn β → M.St × Γ → Prop}
    {p : Prog S α} {k : α → Prog S β} {s : M.St × Γ} (hp : L.wp i p (Finishes f) s)
    (hk : ∀ a s', f a s' → L.wp i (k a) Q s') : L.wp i (p.bind k) Q s := by
  refine Logic.wp_bind (Logic.wp_mono hp ?_)
  intro r s' hr
  cases r with
  | ok a => exact hk a s' hr
  | error e => exact hr.elim

theorem wp_tryCatch_finishes {f : α → M.St × Γ → Prop} {p : Prog S α} {h : S.Exn → Prog S α}
    {s : M.St × Γ} (hp : L.wp i p (Finishes f) s) : L.wp i (p.tryCatch h) (Finishes f) s := by
  refine Logic.wp_tryCatch (Logic.wp_mono hp ?_)
  intro r s' hr
  cases r with
  | ok a => exact hr
  | error e => exact hr.elim

/-- A loop that takes its items off a list. -/
theorem wp_count_finishes {I : List α → M.St × Γ → Prop} {f : α → Prog S Bool}
    (hf : ∀ x xs s, I (x :: xs) s → L.wp i (f x) (Finishes fun _ => I xs) s) {xs : List α}
    {s : M.St × Γ} (hs : I xs s) : L.wp i (Prog.count f xs) (Finishes fun _ => I []) s := by
  induction xs generalizing s with
  | nil => exact hs
  | cons x xs ih =>
      refine wp_bind_finishes (hf x xs s hs) fun _ s₁ hs₁ => ?_
      exact wp_bind_finishes (ih hs₁) fun _ _ hs₂ => hs₂

theorem finishes_mono {f g : α → M.St × Γ → Prop} {p : Prog S α} {s : M.St × Γ}
    (hp : L.wp i p (Finishes f) s) (hfg : ∀ a s', f a s' → g a s') :
    L.wp i p (Finishes g) s := by
  refine Logic.wp_mono hp ?_
  intro r s' hr
  cases r with
  | ok a => exact hfg a s' hr
  | error e => exact hr

/-- A program that does not raise keeps what each of its operations keeps. -/
theorem wp_total_finishes {R : S.Op → Prop} {A : M.St × Γ → Prop} {p : Prog S α}
    (hp : p.Total R) (hA : L.Stable i A)
    (ho : ∀ o, R o → L.Atomic i o A (Finishes fun _ => A)) {s : M.St × Γ} (hs : A s) :
    L.wp i p (Finishes fun _ => A) s := by
  induction p generalizing s with
  | ret a => exact hs
  | raise e => exact hp.elim
  | await o k ih =>
      intro s₁ hr hinv c hc
      obtain ⟨γ, h₁, h₂, h₃⟩ := ho o hp.1 s₁ hinv (hA s s₁ hr hs) c hc
      refine ⟨γ, h₁, h₂, ?_⟩
      generalize (M.exec i o c s₁.1).1 = r at h₃ ⊢
      cases r with
      | ok a => exact ih _ (hp.2 a) h₃
      | error e => exact h₃.elim

end

end SmartDialer.Conc
