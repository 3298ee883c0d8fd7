import Mathlib.Logic.Relation
import SmartDialer.Conc.Prog

/-!
# Many programs over one shared state

The interleaving semantics. A world is a shared state and a list of processes,
each with the program it has left to run. One step lets one process perform the
operation it awaits, atomically, with whatever the environment feeds it (a clock
reading, an answer from outside, a fault); or starts a task; or kills a process
where it stands.

A *policy* restricts the steps of a run. It sees the task that is started, and
for an operation who performs it, what it is, the environment's input and the
shared state just before — never what the step makes of them. Statements about
"every run" take the policy that permits everything; a statement about the runs
in which some branch is not taken takes the policy that forbids that branch.
-/

namespace SmartDialer.Conc

/-- What the operations mean, and which programs may be started. -/
structure System (S : Sig) where
  /-- The shared state. -/
  St : Type
  /-- The environment's input to one operation. -/
  Choice : Type
  /-- The programs that can be started. -/
  Task : Type
  /-- What they return. -/
  Ret : Type
  /-- Process `i` performs `o`: its answer, and the state after. -/
  exec : Nat → (o : S.Op) → Choice → St → Except S.Exn (S.Ans o) × St
  /-- Process `i` dies. -/
  crash : Nat → St → St
  /-- What a process that dies is taken to have ended in. -/
  killed : S.Exn
  /-- The program of a task. -/
  prog : Task → Prog S Ret

variable {S : Sig}

/-- A shared state and the programs its processes have left to run. -/
structure World (M : System S) where
  st : M.St
  procs : List (Prog S M.Ret)

/-- Which steps a run may take. -/
structure Policy (M : System S) where
  /-- Tasks that may be started. -/
  task : M.Task → Prop
  /-- Operations that may be performed. -/
  run : Nat → (o : S.Op) → M.Choice → M.St → Prop

/-- No restriction. -/
def Policy.any (M : System S) : Policy M where
  task _ := True
  run _ _ _ _ := True

variable {M : System S}

/-- Process `i` awaits `o` next. -/
def World.Awaits (w : World M) (i : Nat) (o : S.Op) : Prop :=
  ∃ k, w.procs[i]? = some (.await o k)

/-- What process `i` awaits, if it has not finished. -/
def World.awaited (w : World M) (i : Nat) : Option S.Op :=
  match w.procs[i]? with
  | some (.await o _) => some o
  | _ => none

theorem awaits_of_awaited {w : World M} {i : Nat} {o : S.Op} (h : w.awaited i = some o) :
    w.Awaits i o := by
  rw [World.awaited] at h
  split at h
  · rename_i o' k hi
    obtain rfl := Option.some.inj h
    exact ⟨k, hi⟩
  · cases h

/-- Every process has finished, and none with an exception. -/
def World.Finished (w : World M) : Prop := ∀ p ∈ w.procs, ∃ r, p = .ret r

instance (w : World M) : Decidable w.Finished :=
  decidable_of_iff (∀ p ∈ w.procs, p.returned = true)
    (forall₂_congr fun _ _ => Prog.returned_iff)

/-- One step of the world, under a policy. -/
inductive Step (P : Policy M) (w : World M) : World M → Prop where
  /-- A task is started, as a new process. -/
  | spawn (t : M.Task) (h : P.task t) : Step P w { w with procs := w.procs ++ [M.prog t] }
  /-- Process `i` performs the operation it awaits. -/
  | run (i : Nat) (o : S.Op) (k : Except S.Exn (S.Ans o) → Prog S M.Ret) (c : M.Choice)
      (hi : w.procs[i]? = some (.await o k)) (h : P.run i o c w.st) :
      Step P w ⟨(M.exec i o c w.st).2, w.procs.set i (k (M.exec i o c w.st).1)⟩
  /-- Process `i` dies before it performs the operation it awaits. -/
  | crash (i : Nat) (o : S.Op) (k : Except S.Exn (S.Ans o) → Prog S M.Ret)
      (hi : w.procs[i]? = some (.await o k)) :
      Step P w ⟨M.crash i w.st, w.procs.set i (.raise M.killed)⟩

/-- The worlds a run under `P` reaches from an initial one with no process in it. -/
inductive Reachable (P : Policy M) (Init : M.St → Prop) : World M → Prop where
  | init {s : M.St} (h : Init s) : Reachable P Init ⟨s, []⟩
  | tail {w w' : World M} (h : Reachable P Init w) (hs : Step P w w') : Reachable P Init w'

theorem Step.mono {P Q : Policy M} (ht : ∀ t, P.task t → Q.task t) {w w' : World M}
    (hr : ∀ i o c, w.Awaits i o → P.run i o c w.st → Q.run i o c w.st)
    (h : Step P w w') : Step Q w w' := by
  cases h with
  | spawn t h => exact .spawn t (ht t h)
  | run i o k c hi h => exact .run i o k c hi (hr i o c ⟨k, hi⟩ h)
  | crash i o k hi => exact .crash i o k hi

/--
**A policy may be strengthened by what is known of its runs.**

If every operation a `P`-run performs satisfies `F`, then `P`-runs are runs of
the policy that asks for `F` as well.
-/
theorem Reachable.strengthen {P Q : Policy M} {Init : M.St → Prop}
    (ht : ∀ t, P.task t → Q.task t)
    (hr : ∀ w, Reachable P Init w → ∀ i o c, w.Awaits i o → P.run i o c w.st → Q.run i o c w.st)
    {w : World M} (h : Reachable P Init w) : Reachable Q Init w := by
  induction h with
  | init h => exact .init h
  | tail h hs ih => exact .tail ih (hs.mono ht (hr _ h))

/-- The policy that asks for `F` as well. -/
def Policy.also (P : Policy M) (F : M.St → S.Op → Prop) : Policy M where
  task := P.task
  run i o c s := P.run i o c s ∧ F s o

theorem Reachable.also {P : Policy M} {Init : M.St → Prop} {F : M.St → S.Op → Prop}
    (hF : ∀ w, Reachable P Init w → ∀ i o, w.Awaits i o → F w.st o) {w : World M}
    (h : Reachable P Init w) : Reachable (P.also F) Init w := by
  refine Reachable.strengthen (P := P) (Q := P.also F) (fun _ ht => ht) ?_ h
  exact fun w hw i o _ hi hP => ⟨hP, hF w hw i o hi⟩

/-- Whatever the answers, a process awaits no operations but those of its task. -/
theorem Reachable.all {P : Policy M} {Init : M.St → Prop} {R : S.Op → Prop}
    (hR : ∀ t, P.task t → (M.prog t).All R) {w : World M} (h : Reachable P Init w) :
    ∀ (i : Nat) (p : Prog S M.Ret), w.procs[i]? = some p → p.All R := by
  induction h with
  | init _ => exact fun i p hp => by cases hp
  | tail _ hs ih =>
      intro j p hp
      cases hs with
      | spawn t ht =>
          rcases List.mem_append.mp (List.mem_of_getElem? hp) with hold | hnew
          · obtain ⟨i, hi⟩ := List.mem_iff_getElem?.mp hold
            exact ih i p hi
          · obtain rfl := List.mem_singleton.mp hnew
            exact hR t ht
      | run i o k c hi _ =>
          rcases List.mem_or_eq_of_mem_set (List.mem_of_getElem? hp) with hold | rfl
          · obtain ⟨i, hi⟩ := List.mem_iff_getElem?.mp hold
            exact ih i p hi
          · exact (ih i _ hi).2 _
      | crash i o k hi =>
          rcases List.mem_or_eq_of_mem_set (List.mem_of_getElem? hp) with hold | rfl
          · obtain ⟨i, hi⟩ := List.mem_iff_getElem?.mp hold
            exact ih i p hi
          · trivial

theorem Reachable.awaits {P : Policy M} {Init : M.St → Prop} {R : S.Op → Prop}
    (hR : ∀ t, P.task t → (M.prog t).All R) {w : World M} (h : Reachable P Init w) {i : Nat}
    {o : S.Op} (hi : w.Awaits i o) : R o := by
  obtain ⟨k, hk⟩ := hi
  exact (h.all hR i _ hk).1

/-- **The invariant rule**, with what is known of a process that awaits an operation. -/
theorem Reachable.invariant_of_awaits {P : Policy M} {Init I : M.St → Prop}
    (hinit : ∀ s, Init s → I s)
    (hexec : ∀ w i o c, Reachable P Init w → w.Awaits i o → P.run i o c w.st → I w.st →
      I (M.exec i o c w.st).2)
    (hcrash : ∀ i s, I s → I (M.crash i s)) {w : World M} (h : Reachable P Init w) : I w.st := by
  induction h with
  | init h => exact hinit _ h
  | tail h hs ih =>
      cases hs with
      | spawn t ht => exact ih
      | run i o k c hi hc => exact hexec _ i o c h ⟨k, hi⟩ hc ih
      | crash i o k hi => exact hcrash i _ ih

/-- The invariant rule, when all that matters of an operation is what kind it is of. -/
theorem Reachable.invariant {P : Policy M} {Init I : M.St → Prop} {R : S.Op → Prop}
    (hR : ∀ t, P.task t → (M.prog t).All R) (hinit : ∀ s, Init s → I s)
    (hexec : ∀ i o c s, R o → P.run i o c s → I s → I (M.exec i o c s).2)
    (hcrash : ∀ i s, I s → I (M.crash i s)) {w : World M} (h : Reachable P Init w) : I w.st :=
  h.invariant_of_awaits hinit (fun _ i o c hw hi hc => hexec i o c _ (hw.awaits hR hi) hc) hcrash

/-- A run in which process `i` was started with task `t`. -/
inductive Started (P : Policy M) (Init : M.St → Prop) (i : Nat) (t : M.Task) :
    World M → Prop where
  | spawn {w : World M} (h : Reachable P Init w) (ht : P.task t) (hi : w.procs.length = i) :
      Started P Init i t { w with procs := w.procs ++ [M.prog t] }
  | tail {w w' : World M} (h : Started P Init i t w) (hs : Step P w w') : Started P Init i t w'

theorem Started.reachable {P : Policy M} {Init : M.St → Prop} {i : Nat} {t : M.Task}
    {w : World M} (h : Started P Init i t w) : Reachable P Init w := by
  induction h with
  | spawn h ht _ => exact .tail h (.spawn t ht)
  | tail _ hs ih => exact .tail ih hs

/-- No step takes a process away. -/
theorem Step.length_le {P : Policy M} {w w' : World M} (h : Step P w w') :
    w.procs.length ≤ w'.procs.length := by
  cases h with
  | spawn t _ =>
      rw [List.length_append]
      exact Nat.le_add_right ..
  | run i o k c _ _ => exact Nat.le_of_eq List.length_set.symm
  | crash i o k _ => exact Nat.le_of_eq List.length_set.symm

theorem Step.length_le_of_steps {P : Policy M} {w w' : World M}
    (h : Relation.ReflTransGen (Step P) w w') : w.procs.length ≤ w'.procs.length := by
  induction h with
  | refl => exact Nat.le_refl _
  | tail _ hs ih => exact Nat.le_trans ih hs.length_le

theorem Started.lt {P : Policy M} {Init : M.St → Prop} {i : Nat} {t : M.Task} {w : World M}
    (h : Started P Init i t w) : i < w.procs.length := by
  induction h with
  | spawn _ _ hi =>
      rw [List.length_append, hi]
      exact Nat.lt_succ_self i
  | tail _ hs ih => exact Nat.lt_of_lt_of_le ih hs.length_le

theorem Started.also {P : Policy M} {Init : M.St → Prop} {i : Nat} {t : M.Task}
    {F : M.St → S.Op → Prop}
    (hF : ∀ w, Reachable P Init w → ∀ i o, w.Awaits i o → F w.st o) {w : World M}
    (h : Started P Init i t w) : Started (P.also F) Init i t w := by
  induction h with
  | spawn h ht hi => exact .spawn (h.also hF) ht hi
  | tail h hs ih =>
      refine .tail ih (Step.mono (P := P) (Q := P.also F) (fun _ ht => ht) ?_ hs)
      exact fun j o _ hj hP => ⟨hP, hF _ h.reachable j o hj⟩

/-- A restricted run is a run. -/
theorem Reachable.unrestricted {P : Policy M} {Init Init' : M.St → Prop}
    (hinit : ∀ s, Init s → Init' s) {w : World M} (h : Reachable P Init w) :
    Reachable (Policy.any M) Init' w := by
  induction h with
  | init h => exact .init (hinit _ h)
  | tail h hs ih => exact .tail ih (hs.mono (fun _ _ => trivial) fun _ _ _ _ _ => trivial)

/-! ## Executing a schedule -/

/-- A policy that can be checked as a run goes. -/
class Policy.Checkable (P : Policy M) where
  task : ∀ t, Decidable (P.task t)
  run : ∀ i o c s, Decidable (P.run i o c s)

instance (P : Policy M) [P.Checkable] (t : M.Task) : Decidable (P.task t) :=
  Policy.Checkable.task t

instance (P : Policy M) [P.Checkable] (i : Nat) (o : S.Op) (c : M.Choice) (s : M.St) :
    Decidable (P.run i o c s) :=
  Policy.Checkable.run i o c s

instance : (Policy.any M).Checkable where
  task _ := .isTrue trivial
  run _ _ _ _ := .isTrue trivial

/-- One scheduling decision. -/
inductive Label (M : System S) where
  | spawn (t : M.Task)
  | run (i : Nat) (c : M.Choice)
  | crash (i : Nat)

variable {P : Policy M}

/-- The step a label stands for, when the process is there to take it and the policy lets it. -/
def World.next (P : Policy M) [P.Checkable] (w : World M) : Label M → Option (World M)
  | .spawn t => if P.task t then some { w with procs := w.procs ++ [M.prog t] } else none
  | .run i c =>
      match w.procs[i]? with
      | some (.await o k) =>
          if P.run i o c w.st then
            some ⟨(M.exec i o c w.st).2, w.procs.set i (k (M.exec i o c w.st).1)⟩
          else none
      | _ => none
  | .crash i =>
      match w.procs[i]? with
      | some (.await _ _) => some ⟨M.crash i w.st, w.procs.set i (.raise M.killed)⟩
      | _ => none

/-- A whole schedule. -/
def World.play (P : Policy M) [P.Checkable] (w : World M) : List (Label M) → Option (World M)
  | [] => some w
  | l :: ls => (w.next P l).bind (fun w' => w'.play P ls)

theorem Step.of_next [P.Checkable] {w w' : World M} {l : Label M}
    (h : w.next P l = some w') : Step P w w' := by
  cases l with
  | spawn t =>
      simp only [World.next, Option.ite_none_right_eq_some, Option.some.injEq] at h
      obtain ⟨ht, rfl⟩ := h
      exact .spawn t ht
  | run i c =>
      simp only [World.next] at h
      split at h
      · rename_i o k hi
        simp only [Option.ite_none_right_eq_some, Option.some.injEq] at h
        obtain ⟨hc, rfl⟩ := h
        exact .run i o k c hi hc
      · simp at h
  | crash i =>
      simp only [World.next] at h
      split at h
      · rename_i o k hi
        simp only [Option.some.injEq] at h
        subst h
        exact .crash i o k hi
      · simp at h

/-- A schedule is a run. -/
theorem steps_of_play [P.Checkable] {ls : List (Label M)} {w w' : World M}
    (h : w.play P ls = some w') : Relation.ReflTransGen (Step P) w w' := by
  induction ls generalizing w with
  | nil =>
      simp only [World.play, Option.some.injEq] at h
      exact h ▸ .refl
  | cons l ls ih =>
      simp only [World.play, Option.bind_eq_some_iff] at h
      obtain ⟨w₁, h₁, h₂⟩ := h
      exact .head (.of_next h₁) (ih h₂)

theorem Reachable.steps {Init : M.St → Prop} {w w' : World M} (hw : Reachable P Init w)
    (h : Relation.ReflTransGen (Step P) w w') : Reachable P Init w' := by
  induction h with
  | refl => exact hw
  | tail _ hs ih => exact .tail ih hs

theorem Reachable.play [P.Checkable] {Init : M.St → Prop} {ls : List (Label M)} {w w' : World M}
    (hw : Reachable P Init w) (h : w.play P ls = some w') : Reachable P Init w' :=
  hw.steps (steps_of_play h)

/-- A schedule that runs to an end state passing `test` reaches such a world. -/
theorem Reachable.of_play (P : Policy M) [P.Checkable] {Init : M.St → Prop} {s : M.St}
    (hs : Init s) (ls : List (Label M)) (test : World M → Bool)
    (h : ((World.mk s []).play P ls).any test = true) :
    ∃ w, Reachable P Init w ∧ test w = true := by
  obtain ⟨w, hw, ht⟩ := Option.any_eq_true _ _ |>.mp h
  exact ⟨w, (Reachable.init hs).play hw, ht⟩

theorem Started.play [P.Checkable] {Init : M.St → Prop} {i : Nat} {t : M.Task}
    {ls : List (Label M)} {w w' : World M} (hw : Started P Init i t w)
    (h : w.play P ls = some w') : Started P Init i t w' := by
  have hrun := steps_of_play h
  clear h
  induction hrun with
  | refl => exact hw
  | tail _ hs ih => exact .tail ih hs

/-- A schedule that starts a task at some point. -/
theorem Started.of_play (P : Policy M) [P.Checkable] {Init : M.St → Prop} {s : M.St}
    (hs : Init s) (ls ls' : List (Label M)) (i : Nat) (t : M.Task) (ht : P.task t)
    (test : World M → Bool)
    (h : ((World.mk s []).play P ls).any (fun w => w.procs.length == i
      && (({ w with procs := w.procs ++ [M.prog t] } : World M).play P ls').any test) = true) :
    ∃ w, Started P Init i t w ∧ test w = true := by
  obtain ⟨w, hw, hrest⟩ := Option.any_eq_true _ _ |>.mp h
  obtain ⟨hi, hplay⟩ := Bool.and_eq_true_iff.mp hrest
  obtain ⟨w', hw', htest⟩ := Option.any_eq_true _ _ |>.mp hplay
  have hstart : Started P Init i t { w with procs := w.procs ++ [M.prog t] } :=
    .spawn ((Reachable.init hs).play hw) ht (beq_iff_eq.mp hi)
  exact ⟨w', hstart.play hw', htest⟩

end SmartDialer.Conc
