import SmartDialer.Conc.Retrospect
import SmartDialer.Workers.Refinement

/-!
# Workers that go on

An iteration of a worker may fail anywhere: the database does not answer, a provider is unknown, a
state machine refuses a transition. The loops are written so that a failure costs as little as
possible. A campaign whose tick fails does not take the tick away from the others, a sweep that
fails does not keep the next one from being made, and whatever an iteration comes to, the loop
goes on to the next. Only a cancellation ends it.

None of this follows from the programs alone: a handler that logs a failure might fail itself.
`Credible` says which answers a run gives.
-/

namespace SmartDialer

open Conc

variable {cfg : Settings} {pacing : PacingSettings}

/-! ## Operations that do not fail -/

/-- An operation of the loops that does not fail, except by a cancellation. -/
def Steady : Op ⊕ AppOp → Prop
  | .inl .utcNow | .inl (.logEvent ..) => True
  | .inr .waitForStop | .inr .sleep | .inr (.logFailure _) => True
  | _ => False

/-- An answer that a run gives. -/
def Credible (r : Reply appSig) : Prop :=
  Steady r.op → ∀ e, r.answer = .error e → e = .cancelledError

theorem attempt_steady {o : Op} {c : Choice} {s : State} {e : Exn} (ho : Steady (.inl o))
    (h : (attempt o c s).1 = .error e) : e = .cancelledError := by
  have hdatabase : o.isDatabase = false := by
    cases o <;> first | rfl | exact ho.elim
  have heffect : ∃ a, (effect o c s).1 = .ok a := by
    cases o <;> first | exact ⟨_, rfl⟩ | exact ho.elim
  obtain ⟨a, ha⟩ := heffect
  unfold attempt at h
  split at h
  · rw [ha] at h
    cases h
  · rw [hdatabase, if_neg Bool.false_ne_true, ha] at h
    cases h
  · split at h
    · exact (Except.error.inj h).symm
    · rw [ha] at h
      cases h

theorem Application.attempt_steady {o : AppOp} {c : AppChoice} {s : AppState} {e : Exn}
    (ho : Steady (.inr o)) (h : (attempt o c s).1 = .error e) : e = .cancelledError := by
  have hdatabase : o.isDatabase = false := by
    cases o <;> first | rfl | exact ho.elim
  have heffect : ∃ a, (effect o c s).1 = .ok a := by
    cases o <;> first | exact ⟨_, rfl⟩ | exact ho.elim
  obtain ⟨a, ha⟩ := heffect
  unfold attempt at h
  split at h
  · rw [ha] at h
    cases h
  · rw [hdatabase, if_neg Bool.false_ne_true, ha] at h
    cases h
  · split at h
    · exact (Except.error.inj h).symm
    · rw [ha] at h
      cases h

/-- **All answers of a run are credible.** -/
theorem credible_replies {i : Nat} {history : List (Moment (application cfg pacing))} :
    ∀ r ∈ replies i history, Credible r := by
  intro r hr ho e he
  obtain ⟨m, -, -, rfl⟩ := mem_replies.mp hr
  obtain ⟨j, o, c, s⟩ := m
  cases o with
  | inl o => exact attempt_steady ho he
  | inr o => exact Application.attempt_steady ho he

/-! ## The loops -/

section

variable {α : Type} {past : List (Reply appSig)} {A B : List (Reply appSig) → Prop}
  {J : List (Reply appSig) → Op ⊕ AppOp → Prop}

/-- If that is what the run has answered, then `A`. -/
def IfCredible (A : List (Reply appSig) → Prop) (past : List (Reply appSig)) : Prop :=
  (∀ r ∈ past, Credible r) → A past

theorem IfCredible.cons (h : IfCredible A past) {r : Reply appSig} (hAB : A past → B (r :: past)) :
    IfCredible B (r :: past) := fun hcredible =>
  hAB (h fun x hx => hcredible x (List.mem_cons_of_mem r hx))

/-- An exception that gets out is a cancellation. -/
def OnlyCancelled (result : Except Exn α) : Prop := ∀ e, result = .error e → e = .cancelledError

theorem onlyCancelled_ok (a : α) : OnlyCancelled (.ok a) := fun _ h => by cases h

theorem onlyCancelled_error {e : Exn} (h : ¬e.isException = true) :
    OnlyCancelled (α := α) (.error e) := by
  intro e' he'
  obtain rfl := Except.error.inj he'
  cases e with
  | cancelledError => rfl
  | _ => exact absurd rfl h

/-- An iteration fails, and the loop goes on. -/
theorem guardIteration_follows {event : String} {iteration : AppAsync Unit}
    (h : iteration.Follows J (fun result =>
      IfCredible fun past' => result ≠ .error .cancelledError → A past') past)
    (hlog : ∀ past', J past' (.inr (.logFailure event)))
    (hA : ∀ past' r, A past' → A (⟨.inr (.logFailure event), r⟩ :: past')) :
    (Application.guardIteration event iteration).Follows J (fun result =>
      IfCredible fun past' => OnlyCancelled result ∧ (result = .ok () → A past')) past := by
  refine Prog.follows_tryCatch (h.mono fun result past₁ _ h₁ => ?_)
  cases result with
  | ok _ => exact fun hcredible => ⟨onlyCancelled_ok (), fun _ => h₁ hcredible (by simp)⟩
  | error e =>
      dsimp only
      split
      · rename_i hexception
        have hne : (.error e : Except Exn Unit) ≠ .error .cancelledError := by
          rintro heq
          rw [Except.error.inj heq] at hexception
          cases hexception
        refine Prog.follows_perform (hlog past₁) fun r hcredible => ⟨fun e' he' => ?_, fun _ => ?_⟩
        · exact hcredible _ List.mem_cons_self trivial e' he'
        · exact h₁.cons (fun h => hA past₁ r (h hne)) hcredible
      · rename_i hexception
        exact fun _ => ⟨onlyCancelled_error hexception, fun he => by cases he⟩

end

/-! ## The dialer worker -/

/-- Within an iteration. -/
def During (o : Op ⊕ AppOp) : Prop := o ≠ .inr .findRunning ∧ o ≠ .inr .waitForStop

/-- Of the campaigns that were found, all but those in `rest` have been tried since. -/
def Trying (campaigns rest : List CampaignDocument) (past : List (Reply appSig)) : Prop :=
  ∃ (since older : List (Reply appSig)), past = since ++ ⟨.inr .findRunning, .ok campaigns⟩ :: older
    ∧ (∀ r ∈ since, During r.op)
    ∧ ∀ campaign ∈ campaigns, campaign ∈ rest
      ∨ ∃ r ∈ since, r.op = .inl (.countAgentsByState campaign.id)

/-- An iteration has looked for campaigns, and if it found any it has tried them all. -/
def RoundMade (past : List (Reply appSig)) : Prop :=
  ∃ (since : List (Reply appSig)) (answer : Except Exn (List CampaignDocument))
    (older : List (Reply appSig)), past = since ++ ⟨.inr .findRunning, answer⟩ :: older
      ∧ (∀ r ∈ since, During r.op)
      ∧ ∀ campaigns, answer = .ok campaigns → ∀ campaign ∈ campaigns,
        ∃ r ∈ since, r.op = .inl (.countAgentsByState campaign.id)

/-- A worker that waits has made its round. -/
def WaitsAfterRound (past : List (Reply appSig)) (o : Op ⊕ AppOp) : Prop :=
  o = .inr .waitForStop → IfCredible RoundMade past

section

variable {campaigns rest : List CampaignDocument} {campaign : CampaignDocument}
  {past : List (Reply appSig)} {r : Reply appSig}

theorem WaitsAfterRound.during {o : Op ⊕ AppOp} (ho : During o) : WaitsAfterRound past o :=
  fun heq => absurd heq ho.2

theorem Trying.cons (h : Trying campaigns rest past) (hr : During r.op) :
    Trying campaigns rest (r :: past) := by
  obtain ⟨since, older, rfl, hsince, hrest⟩ := h
  refine ⟨r :: since, older, rfl, List.forall_mem_cons.mpr ⟨hr, hsince⟩, fun campaign hmem => ?_⟩
  rcases hrest campaign hmem with hleft | ⟨x, hx, hop⟩
  · exact .inl hleft
  · exact .inr ⟨x, List.mem_cons_of_mem r hx, hop⟩

/-- To have counted its agents is to have tried it. -/
theorem Trying.count (h : Trying campaigns (campaign :: rest) past)
    (hr : r.op = .inl (.countAgentsByState campaign.id)) : Trying campaigns rest (r :: past) := by
  obtain ⟨since, older, rfl, hsince, hrest⟩ := h
  have hduring : During r.op := hr ▸ ⟨Sum.inl_ne_inr, Sum.inl_ne_inr⟩
  refine ⟨r :: since, older, rfl, List.forall_mem_cons.mpr ⟨hduring, hsince⟩, fun c hmem => ?_⟩
  rcases hrest c hmem with hleft | ⟨x, hx, hop⟩
  · rcases List.mem_cons.mp hleft with rfl | hleft
    · exact .inr ⟨r, List.mem_cons_self, hr⟩
    · exact .inl hleft
  · exact .inr ⟨x, List.mem_cons_of_mem r hx, hop⟩

theorem Trying.roundMade (h : Trying campaigns [] past) : RoundMade past := by
  obtain ⟨since, older, rfl, hsince, hrest⟩ := h
  refine ⟨since, .ok campaigns, older, rfl, hsince, fun campaigns' heq campaign hmem => ?_⟩
  obtain rfl := Except.ok.inj heq
  exact (hrest campaign hmem).resolve_left List.not_mem_nil

theorem RoundMade.cons (h : RoundMade past) (hr : During r.op) : RoundMade (r :: past) := by
  obtain ⟨since, answer, older, rfl, hsince, hall⟩ := h
  refine ⟨r :: since, answer, older, rfl, List.forall_mem_cons.mpr ⟨hr, hsince⟩, ?_⟩
  intro campaigns heq campaign hmem
  obtain ⟨x, hx, hop⟩ := hall campaigns heq campaign hmem
  exact ⟨x, List.mem_cons_of_mem r hx, hop⟩

theorem during_shared (o : Op) : During (.inl o) := ⟨Sum.inl_ne_inr, Sum.inl_ne_inr⟩

theorem during_task {α : Type} (p : Async α) : (runTask p).All During :=
  Prog.All.lift (fun o _ => during_shared o) (Prog.all_of_forall (fun _ => trivial) p)

theorem during_of_reads {o : Op ⊕ AppOp} (h : MetricsSnapshotBuilder.Reads o) : During o := by
  constructor <;>
  · rintro rfl
    exact h

/-- **A campaign is tried**, and what becomes of it is nobody else's concern. -/
theorem tickCampaign_tried (workerId : String)
    (h : IfCredible (Trying campaigns (campaign :: rest)) past) :
    (Application.tickCampaign cfg pacing campaign workerId).Follows WaitsAfterRound
      (fun result => IfCredible fun past' =>
        OnlyCancelled result ∧ (result = .ok () → Trying campaigns rest past')) past := by
  have hall : ((Application.tick cfg pacing campaign workerId).bind fun _ =>
      runTask (DialerWorker.releaseFinishedWrapUps cfg campaign.id)).All During := by
    refine Prog.all_bind ?_ fun _ => during_task _
    have hsnapshot : (MetricsSnapshotBuilder.buildSnapshot cfg campaign).All During :=
      Prog.all_bind (MetricsSnapshotBuilder.observe_all.mono fun _ => during_of_reads)
        fun _ => trivial
    exact Prog.all_bind hsnapshot fun _ => during_task _
  -- a failure that is logged was not one of the clock
  have hhandler : ∀ (e : Exn) (past' : List (Reply appSig)),
      IfCredible (fun past' => e.isException = true → Trying campaigns rest past') past' →
      (if e.isException then awaitShared (.logEvent "campaign_tick_failed" campaign.id)
        else .raise e : AppAsync Unit).Follows WaitsAfterRound (fun result =>
          IfCredible fun past' =>
            OnlyCancelled result ∧ (result = .ok () → Trying campaigns rest past')) past' := by
    intro e past' htrying
    split
    · rename_i hexception
      refine Prog.follows_perform (WaitsAfterRound.during (during_shared _)) fun r hcredible =>
        ⟨fun e' he' => hcredible _ List.mem_cons_self trivial e' he', fun _ => ?_⟩
      exact htrying.cons (fun h => (h hexception).cons (during_shared _)) hcredible
    · rename_i hexception
      exact fun _ => ⟨onlyCancelled_error hexception, fun he => by cases he⟩
  refine Prog.follows_tryCatch ⟨WaitsAfterRound.during (during_shared _), fun r => ?_⟩
  cases r with
  | error e =>
      refine hhandler e _ fun hcredible hexception => ?_
      rw [hcredible _ List.mem_cons_self trivial e rfl] at hexception
      cases hexception
  | ok now =>
      refine ⟨WaitsAfterRound.during (during_shared _), fun r => ?_⟩
      have hclock : IfCredible (Trying campaigns (campaign :: rest))
          (⟨.inl .utcNow, .ok now⟩ :: past) := h.cons fun h => h.cons (during_shared _)
      have hcount : IfCredible (Trying campaigns rest) (⟨.inl (.countAgentsByState campaign.id), r⟩
          :: ⟨.inl .utcNow, .ok now⟩ :: past) := hclock.cons fun h => h.count rfl
      refine (Prog.follows_all (A := IfCredible (Trying campaigns rest))
        ((hall.2 (.ok now)).2 r) (fun o _ ho _ => WaitsAfterRound.during ho)
        (fun _ _ _ ho h => h.cons fun h => h.cons ho) hcount).mono ?_
      intro result past' _ htrying
      cases result with
      | ok _ => exact fun hcredible => ⟨onlyCancelled_ok (), fun _ => htrying hcredible⟩
      | error e => exact hhandler e past' fun hcredible _ => htrying hcredible

theorem tickAll_tried (workerId : String) (h : IfCredible (Trying campaigns rest) past) :
    (Application.tickAll cfg pacing workerId rest).Follows WaitsAfterRound
      (fun result => IfCredible fun past' => result ≠ .error .cancelledError → RoundMade past')
      past := by
  induction rest generalizing past with
  | nil => exact fun hcredible _ => (h hcredible).roundMade
  | cons campaign rest ih =>
      refine Prog.follows_bind ((tickCampaign_tried workerId h).mono ?_)
      intro result past₁ _ h₁
      cases result with
      | error e =>
          exact fun hcredible hne => absurd (by rw [(h₁ hcredible).1 e rfl]) hne
      | ok _ => exact ih fun hcredible => (h₁ hcredible).2 rfl

theorem runOnce_tried (workerId : String) :
    (Application.runOnce cfg pacing workerId).Follows WaitsAfterRound
      (fun result => IfCredible fun past' => result ≠ .error .cancelledError → RoundMade past')
      past := by
  refine Prog.follows_perform_bind (fun h => by cases h) (fun e _ _ => ?_) fun campaigns => ?_
  · exact ⟨[], .error e, past, rfl, by simp, fun _ h => by cases h⟩
  · exact tickAll_tried workerId fun _ => ⟨[], past, rfl, by simp, fun _ hmem => .inl hmem⟩

/-- **All iterations** of a dialer worker. -/
theorem runDialer_rounds (workerId : String) (iterations : Nat) (past : List (Reply appSig)) :
    (Application.runDialer cfg pacing workerId iterations).Follows WaitsAfterRound
      (fun result => IfCredible fun _ => OnlyCancelled result) past := by
  induction iterations generalizing past with
  | zero => exact fun _ => onlyCancelled_ok ()
  | succ iterations ih =>
      refine Prog.follows_bind ((guardIteration_follows (runOnce_tried workerId)
        (fun _ h => by cases h) fun _ _ h => h.cons ⟨by simp, by simp⟩).mono
          fun result past₁ _ h₁ => ?_)
      cases result with
      | error e => exact fun hcredible => (h₁ hcredible).1
      | ok _ =>
          refine Prog.follows_perform_bind (fun _ hcredible => (h₁ hcredible).2 rfl)
            (fun e hcredible e' he' => ?_) fun stopping => ?_
          · obtain rfl := Except.error.inj he'
            exact hcredible _ List.mem_cons_self trivial e rfl
          · split
            · exact fun _ => onlyCancelled_ok ()
            · exact ih _

end

/-! ## The recovery worker -/

/-- `sweeps` of `run_sweeps`: their names. -/
def sweepNames : List String :=
  ["expired_agent_leases", "expired_borrower_leases", "orphaned_calls", "heartbeat_timeouts",
    "stuck_wrap_ups"]

/-- It is the first thing a sweep does. -/
def Op.startsSweep (name : String) : Op → Bool
  | .findExpiredAgentLeases .. => name == "expired_agent_leases"
  | .findExpiredBorrowerLeases .. => name == "expired_borrower_leases"
  | .findStaleCalls .. => name == "orphaned_calls"
  | .findHeartbeatExpired .. => name == "heartbeat_timeouts"
  | .findExpiredWrapUps .. => name == "stuck_wrap_ups"
  | _ => false

/-- The sweeps of these names have been started since `base`. -/
def SweptSince (base : List (Reply sig)) (names : List String) (past : List (Reply sig)) : Prop :=
  ∃ new, past = new ++ base ∧ ∀ name ∈ names, ∃ r ∈ new, r.op.startsSweep name = true

/-- All sweeps have been started since the worker slept last. -/
def RoundOfSweeps (past : List (Reply appSig)) : Prop :=
  ∃ since older : List (Reply appSig), past = since ++ older ∧ (∀ r ∈ since, r.op ≠ .inr .sleep)
    ∧ ∀ name ∈ sweepNames, ∃ r ∈ since, ∃ o, r.op = .inl o ∧ o.startsSweep name = true

/-- A recovery worker that sleeps has made all of its sweeps. -/
def SleepsAfterRound (past : List (Reply appSig)) (o : Op ⊕ AppOp) : Prop :=
  o = .inr .sleep → IfCredible RoundOfSweeps past

section

variable {base past : List (Reply sig)} {names : List String}

theorem SweptSince.cons (h : SweptSince base names past) (r : Reply sig) :
    SweptSince base names (r :: past) := by
  obtain ⟨new, rfl, hnames⟩ := h
  refine ⟨r :: new, rfl, fun name hname => ?_⟩
  obtain ⟨x, hx, hstarts⟩ := hnames name hname
  exact ⟨x, List.mem_cons_of_mem r hx, hstarts⟩

theorem SweptSince.start (h : SweptSince base names past) {name : String} {r : Reply sig}
    (hr : r.op.startsSweep name = true) : SweptSince base (names ++ [name]) (r :: past) := by
  obtain ⟨new, rfl, hnames⟩ := h
  refine ⟨r :: new, rfl, fun name' hname' => ?_⟩
  rcases List.mem_append.mp hname' with hold | hnew
  · obtain ⟨x, hx, hstarts⟩ := hnames name' hold
    exact ⟨x, List.mem_cons_of_mem r hx, hstarts⟩
  · obtain rfl := List.mem_singleton.mp hnew
    exact ⟨r, List.mem_cons_self, hr⟩

/-- **A sweep is started**, and does not keep the next one from being. -/
theorem guarded_started {J : List (Reply sig) → Op → Prop} (hJ : ∀ past o, J past o)
    {name : String} {set : Nat → RecoverySweepCounts → RecoverySweepCounts}
    {counts : RecoverySweepCounts} {o : Op} {k : Except Exn (Ans o) → Async Nat}
    (ho : o.startsSweep name = true) (h : SweptSince base names past) :
    (RecoveryWorker.guarded name set (.await o k) counts).Follows J
      (fun result past' => OnlyCancelled result ∧ SweptSince base (names ++ [name]) past')
      past := by
  have hkept : ∀ {r}, ((k r).bind fun n => pure (set n counts)).Follows J
      (fun _ past' => SweptSince base (names ++ [name]) past') (⟨o, r⟩ :: past) := fun {r} =>
    Prog.follows_all (R := fun _ => True) (Prog.all_of_forall (fun _ => trivial) _)
      (fun _ _ _ _ => hJ _ _) (fun _ r _ _ h => h.cons _) (h.start ho)
  refine Prog.follows_tryCatch ⟨hJ _ _, fun r => hkept.mono fun result past' _ hswept => ?_⟩
  cases result with
  | ok counts' => exact ⟨onlyCancelled_ok _, hswept⟩
  | error e =>
      dsimp only
      split
      · exact ⟨onlyCancelled_ok _, hswept⟩
      · rename_i hexception
        exact ⟨onlyCancelled_error hexception, hswept⟩

theorem RoundOfSweeps.cons {past : List (Reply appSig)} (h : RoundOfSweeps past)
    {r : Reply appSig} (hr : r.op ≠ .inr .sleep) : RoundOfSweeps (r :: past) := by
  obtain ⟨since, older, rfl, hsince, hnames⟩ := h
  refine ⟨r :: since, older, rfl, List.forall_mem_cons.mpr ⟨hr, hsince⟩, fun name hname => ?_⟩
  obtain ⟨x, hx, hstarts⟩ := hnames name hname
  exact ⟨x, List.mem_cons_of_mem r hx, hstarts⟩

/-- The sweeps, as the worker has seen them. -/
theorem SweptSince.round {new : List (Reply sig)} (h : SweptSince [] sweepNames new)
    (past : List (Reply appSig)) : RoundOfSweeps (new.map Reply.lift ++ past) := by
  obtain ⟨since, rfl, hnames⟩ := h
  rw [List.append_nil]
  refine ⟨since.map Reply.lift, past, rfl, fun r hr => ?_, fun name hname => ?_⟩
  · obtain ⟨x, -, rfl⟩ := List.mem_map.mp hr
    exact Sum.inl_ne_inr
  · obtain ⟨x, hx, hstarts⟩ := hnames name hname
    exact ⟨x.lift, List.mem_map_of_mem hx, x.op, rfl, hstarts⟩

theorem guarded_bind_started {α : Type} {J : List (Reply sig) → Op → Prop} (hJ : ∀ past o, J past o)
    {name : String} {set : Nat → RecoverySweepCounts → RecoverySweepCounts}
    {counts : RecoverySweepCounts} {o : Op} {k : Except Exn (Ans o) → Async Nat}
    {f : RecoverySweepCounts → Async α} {Q : Except Exn α → List (Reply sig) → Prop}
    (ho : o.startsSweep name = true) (h : SweptSince base names past)
    (hcancelled : ∀ past', Q (.error .cancelledError) past')
    (hnext : ∀ counts past', SweptSince base (names ++ [name]) past' →
      (f counts).Follows J Q past') :
    ((RecoveryWorker.guarded name set (.await o k) counts).bind f).Follows J Q past := by
  refine Prog.follows_bind ((guarded_started hJ ho h).mono fun result past' _ h' => ?_)
  cases result with
  | ok counts' => exact hnext counts' past' h'.2
  | error e => exact h'.1 e rfl ▸ hcancelled past'

/-- **All five sweeps are made**, unless the clock fails or the worker is cancelled. -/
theorem runSweeps_started {J : List (Reply sig) → Op → Prop} (hJ : ∀ past o, J past o) :
    (RecoveryWorker.runSweeps cfg).Follows J (fun result past' =>
      (∃ e, result = .error e ∧ (⟨.utcNow, .error e⟩ : Reply sig) ∈ past')
        ∨ OnlyCancelled result ∧ (∀ counts, result = .ok counts → SweptSince base sweepNames past'))
      base := by
  have hcancelled : OnlyCancelled (.error .cancelledError : Except Exn RecoverySweepCounts) :=
    onlyCancelled_error Bool.false_ne_true
  refine Prog.follows_perform_bind (hJ _ _) (fun e => .inl ⟨e, rfl, List.mem_cons_self⟩)
    fun now => ?_
  have h₀ : SweptSince base [] (⟨.utcNow, .ok now⟩ :: base) := ⟨[_], rfl, by simp⟩
  refine guarded_bind_started hJ rfl h₀ (fun _ => .inr ⟨hcancelled, fun _ h => by cases h⟩)
    fun counts past₁ h₁ => ?_
  refine guarded_bind_started hJ rfl h₁ (fun _ => .inr ⟨hcancelled, fun _ h => by cases h⟩)
    fun counts past₂ h₂ => ?_
  refine guarded_bind_started hJ rfl h₂ (fun _ => .inr ⟨hcancelled, fun _ h => by cases h⟩)
    fun counts past₃ h₃ => ?_
  refine guarded_bind_started hJ rfl h₃ (fun _ => .inr ⟨hcancelled, fun _ h => by cases h⟩)
    fun counts past₄ h₄ => ?_
  exact (guarded_started hJ rfl h₄).mono fun result past' _ h => .inr ⟨h.1, fun _ _ => h.2⟩

end

theorem runRecovery_rounds (iterations : Nat) (past : List (Reply appSig)) :
    (Application.runRecovery cfg iterations).Follows SleepsAfterRound
      (fun result => IfCredible fun _ => OnlyCancelled result) past := by
  have hshared : ∀ {past : List (Reply appSig)} {o : Op}, SleepsAfterRound past (.inl o) :=
    fun h => by cases h
  induction iterations generalizing past with
  | zero => exact fun _ => onlyCancelled_ok ()
  | succ iterations ih =>
      have hround : (runTask (Task.program cfg .runSweeps)).Follows SleepsAfterRound
          (fun result => IfCredible fun past' => result ≠ .error .cancelledError →
            RoundOfSweeps past') past := by
        have hsweeps : (RecoveryWorker.runSweeps cfg).Follows
            (fun new o => SleepsAfterRound (new.map Reply.lift ++ past) (.inl o)) _ [] :=
          runSweeps_started fun _ _ => hshared
        refine Prog.Follows.lift (A := AppAns)
          (Prog.follows_bind (hsweeps.mono fun result new _ h => ?_))
        cases result with
        | ok counts =>
            rintro - -
            rcases h with ⟨e, heq, -⟩ | ⟨-, hswept⟩
            · cases heq
            · exact (hswept counts rfl).round past
        | error e =>
            refine fun hcredible hne => absurd ?_ hne
            rcases h with ⟨e', heq, hmem⟩ | ⟨honly, -⟩
            · obtain rfl := Except.error.inj heq
              have hclock := List.mem_append_left past (List.mem_map_of_mem (f := Reply.lift) hmem)
              rw [hcredible _ hclock trivial e rfl]
            · rw [honly e rfl]
      refine Prog.follows_bind ((guardIteration_follows hround
        (fun _ h => by cases h) fun _ _ h => h.cons (by simp)).mono fun result past₁ _ h₁ => ?_)
      cases result with
      | error e => exact fun hcredible => (h₁ hcredible).1
      | ok _ =>
          refine Prog.follows_perform_bind (fun _ hcredible => (h₁ hcredible).2 rfl)
            (fun e hcredible e' he' => ?_) fun _ => ih _
          obtain rfl := Except.error.inj he'
          exact hcredible _ List.mem_cons_self trivial e rfl

/-! ## The runs -/

section

variable {P : Policy (application cfg pacing).recorded} {Init : AppState → Prop} {i : Nat}
  {w : World (application cfg pacing).recorded}

/-- The workers of the application. -/
inductive AppTask.IsWorker : AppTask → Prop where
  | dialer (workerId : String) (iterations : Nat) : IsWorker (.dialerWorker workerId iterations)
  | recovery (iterations : Nat) : IsWorker (.recoveryWorker iterations)

/--
**Only a cancellation ends a worker.** In every run, whatever fails under a worker and whatever is
raised in its iterations, the worker is still at work, has done all its iterations or was stopped,
or has been cancelled.
-/
theorem only_cancelled {t : AppTask} (ht : t.IsWorker) (h : Started P (Blank Init) i t w)
    {e : Exn} (he : w.procs[i]? = some (.raise e)) : e = .cancelledError := by
  have hkilled : ∀ past, IfCredible (fun _ => OnlyCancelled (α := Unit) (.error .cancelledError))
      past := fun _ _ => onlyCancelled_error Bool.false_ne_true
  cases ht with
  | dialer workerId iterations =>
      have hleft := h.left (runDialer_rounds workerId iterations []) hkilled _ he
      exact hleft credible_replies e rfl
  | recovery iterations =>
      have hleft := h.left (runRecovery_rounds iterations []) hkilled _ he
      exact hleft credible_replies e rfl

/-- It has ended in an exception. -/
def raised : AppAsync Unit → Bool
  | .raise _ => true
  | _ => false

/-- It is cancelled as it looks for campaigns. -/
theorem only_cancelled_atOnce : ∃ w : World (application {} {}).recorded,
    w.procs[0]? = some (.raise .cancelledError) := by
  obtain ⟨w, hw, htest⟩ := Started.of_play (Policy.any (application {} {})).recorded
    (show Blank (M := application {} {}) (fun _ => True) (readyToDial, []) from ⟨trivial, rfl⟩)
    [] [.run 0 { fault := .cancelled false }] 0 (.dialerWorker "worker" 1) trivial
    (fun w => w.procs[0]?.any raised) (by decide +kernel)
  obtain ⟨p, hp, hraised⟩ := Option.any_eq_true _ _ |>.mp htest
  cases p with
  | raise e => exact ⟨w, only_cancelled (.dialer "worker" 1) hw hp ▸ hp⟩
  | ret _ => cases hraised
  | await _ _ => cases hraised

/--
**No campaign is passed over.** Whenever a dialer worker waits for its next tick, it has looked
for running campaigns since it waited last; and if it was answered, it has tried every one that it
found, whatever became of those before.
-/
theorem no_campaign_passed_over {workerId : String} {iterations : Nat}
    (h : Started P (Blank Init) i (.dialerWorker workerId iterations) w)
    {m : Moment (application cfg pacing)} {past : List (Moment (application cfg pacing))}
    (hm : m :: past <:+ w.st.2) (hi : m.process = i) (ho : m.op = .inr .waitForStop) :
    ∃ since looked older, past = since ++ looked :: older ∧ looked.process = i
      ∧ looked.op = .inr .findRunning ∧ (∀ x ∈ since, x.process = i → During x.op)
      ∧ (looked.choice.fault = .none →
        ∀ campaign ∈ CampaignRepository.findRunning looked.before.campaigns,
          ∃ x ∈ since, x.process = i ∧ x.op = .inl (.countAgentsByState campaign.id)) := by
  have hprog : (Application.runDialer cfg pacing workerId iterations).Follows WaitsAfterRound
      (fun _ _ => True) [] := (runDialer_rounds workerId iterations []).mono fun _ _ _ _ => trivial
  obtain ⟨replies₁, answer, replies₂, hpast, hduring, htried⟩ :=
    h.justified hprog hm hi ho credible_replies
  obtain ⟨since, looked, older, rfl, hlooked, hreply, hsince, -⟩ := replies_split hpast
  obtain ⟨j, c, s, rfl, hexec⟩ := Moment.exists_of_reply hreply
  refine ⟨since, _, older, rfl, hlooked, rfl, fun x hx hxi => ?_, fun hfault campaign hmem => ?_⟩
  · exact hduring x.reply (hsince ▸ mem_replies.mpr ⟨x, hx, hxi, rfl⟩)
  · have hanswer : answer = .ok (CampaignRepository.findRunning s.campaigns) := by
      rw [← hexec]
      change (Application.attempt .findRunning c s).1 = _
      rw [Application.attempt, hfault]
      rfl
    obtain ⟨r, hr, hop⟩ := htried _ hanswer campaign hmem
    obtain ⟨x, hx, hxi, rfl⟩ := mem_replies.mp (hsince ▸ hr)
    exact ⟨x, hx, hxi, hop⟩

/-- Two campaigns that have been started. -/
def twoCampaigns : Store.Collection CampaignDocument :=
  ⟨[{ id := "first", status := .running }, { id := "second", status := .running }],
    List.nodup_cons.mpr ⟨fun h => absurd (List.mem_singleton.mp h) (by decide),
      List.nodup_singleton _⟩⟩

/-- A tick in which the agents cannot be counted. -/
def failingTick : List (Label (application {} {})) :=
  [.run 0 {}, .run 0 { fault := .dbError "AutoReconnect" false }, .run 0 {}]

/-- Two of them, and the wait for the next. -/
def failingTicks : List (Label (application {} {})) :=
  .run 0 {} :: failingTick ++ failingTick ++ [.run 0 {}]

/-- It waits for the next tick. -/
def waits : Op ⊕ AppOp → Bool
  | .inr .waitForStop => true
  | _ => false

theorem eq_of_waits {o : Op ⊕ AppOp} (h : waits o = true) : o = .inr .waitForStop := by
  rcases o with o | o
  · cases h
  · cases o <;> first | rfl | cases h

/-- If it looks for campaigns, it finds the second. -/
def findsSecond (m : Moment (application {} {})) : Bool :=
  match m.op with
  | .inr .findRunning => decide (m.choice.fault = .none)
      && (CampaignRepository.findRunning m.before.campaigns).any fun c => c.id == "second"
  | _ => true

/-- The tick of the first fails, and the second is tried, and fails too. -/
theorem no_campaign_passed_over_failing :
    ∃ (w : World (application {} {}).recorded) (x : Moment (application {} {})),
      x ∈ w.st.2 ∧ x.op = .inl (.countAgentsByState "second") := by
  obtain ⟨w, hw, htest⟩ := Started.of_play (Policy.any (application {} {})).recorded
    (show Blank (M := application {} {}) (fun _ => True) (⟨oneAgent, twoCampaigns⟩, []) from
      ⟨trivial, rfl⟩)
    [] (failingTicks.map Label.recorded) 0 (.dialerWorker "worker" 1) trivial
    (fun w => w.st.2.all findsSecond
      && w.st.2.head?.any fun m => m.process == 0 && waits m.op) (by decide +kernel)
  obtain ⟨hfinds, htest⟩ := Bool.and_eq_true_iff.mp htest
  obtain ⟨m, hhead, hm⟩ := Option.any_eq_true _ _ |>.mp htest
  obtain ⟨past, hpast⟩ := List.head?_eq_some_iff.mp hhead
  obtain ⟨hi, hwaits⟩ := Bool.and_eq_true_iff.mp hm
  have hsuffix : m :: past <:+ w.st.2 := hpast ▸ List.suffix_rfl
  obtain ⟨since, looked, older, rfl, -, hlooked, -, htried⟩ :=
    no_campaign_passed_over hw hsuffix (beq_iff_eq.mp hi) (eq_of_waits hwaits)
  have hmem : looked ∈ w.st.2 := hpast ▸ by simp
  have hfound := List.all_eq_true.mp hfinds looked hmem
  rw [findsSecond, hlooked] at hfound
  obtain ⟨hfault, hsecond⟩ := Bool.and_eq_true_iff.mp hfound
  obtain ⟨campaign, hcampaign, hid⟩ := List.any_eq_true.mp hsecond
  obtain ⟨x, hx, -, hop⟩ := htried (of_decide_eq_true hfault) campaign hcampaign
  exact ⟨w, x, hpast ▸ by simp [hx], beq_iff_eq.mp hid ▸ hop⟩

/--
**No sweep is passed over.** Whenever a recovery worker sleeps, it has started each of its five
sweeps since it slept last, whatever became of the sweeps before.
-/
theorem no_sweep_passed_over {iterations : Nat}
    (h : Started P (Blank Init) i (.recoveryWorker iterations) w)
    {m : Moment (application cfg pacing)} {past : List (Moment (application cfg pacing))}
    (hm : m :: past <:+ w.st.2) (hi : m.process = i) (ho : m.op = .inr .sleep) :
    ∃ since older, past = since ++ older ∧ (∀ x ∈ since, x.process = i → x.op ≠ .inr .sleep)
      ∧ ∀ name ∈ sweepNames,
        ∃ x ∈ since, x.process = i ∧ ∃ o, x.op = .inl o ∧ o.startsSweep name = true := by
  have hprog : (Application.runRecovery cfg iterations).Follows SleepsAfterRound
      (fun _ _ => True) [] := (runRecovery_rounds iterations []).mono fun _ _ _ _ => trivial
  obtain ⟨replies₁, replies₂, hpast, hsleep, hswept⟩ := h.justified hprog hm hi ho credible_replies
  obtain ⟨since, older, rfl, hsince, -⟩ := replies_append hpast
  refine ⟨since, older, rfl, fun x hx hxi => ?_, fun name hname => ?_⟩
  · exact hsleep x.reply (hsince ▸ mem_replies.mpr ⟨x, hx, hxi, rfl⟩)
  · obtain ⟨r, hr, o, hop, hstarts⟩ := hswept name hname
    obtain ⟨x, hx, hxi, rfl⟩ := mem_replies.mp (hsince ▸ hr)
    exact ⟨x, hx, hxi, o, hop, hstarts⟩

/-- It sleeps. -/
def sleeps : Op ⊕ AppOp → Bool
  | .inr .sleep => true
  | _ => false

theorem eq_of_sleeps {o : Op ⊕ AppOp} (h : sleeps o = true) : o = .inr .sleep := by
  rcases o with o | o
  · cases h
  · cases o <;> first | rfl | cases h

/-- A round in which none of the sweeps finds out what there is to be done. -/
def failingRound : List (Label (application {} {})) :=
  .run 0 {} :: List.replicate 5 (.run 0 { fault := .dbError "AutoReconnect" false })
    ++ [.run 0 {}]

/-- All sweeps fail, and the last has been started. -/
theorem no_sweep_passed_over_failing :
    ∃ (w : World (application {} {}).recorded) (x : Moment (application {} {})),
      x ∈ w.st.2 ∧ ∃ o, x.op = .inl o ∧ o.startsSweep "stuck_wrap_ups" = true := by
  obtain ⟨w, hw, htest⟩ := Started.of_play (Policy.any (application {} {})).recorded
    (show Blank (M := application {} {}) (fun _ => True) (readyToDial, []) from ⟨trivial, rfl⟩)
    [] (failingRound.map Label.recorded) 0 (.recoveryWorker 1) trivial
    (fun w => w.st.2.head?.any fun m => m.process == 0 && sleeps m.op) (by decide +kernel)
  obtain ⟨m, hhead, hm⟩ := Option.any_eq_true _ _ |>.mp htest
  obtain ⟨past, hpast⟩ := List.head?_eq_some_iff.mp hhead
  obtain ⟨hi, hsleeps⟩ := Bool.and_eq_true_iff.mp hm
  have hsuffix : m :: past <:+ w.st.2 := hpast ▸ List.suffix_rfl
  obtain ⟨since, older, rfl, -, hswept⟩ :=
    no_sweep_passed_over hw hsuffix (beq_iff_eq.mp hi) (eq_of_sleeps hsleeps)
  obtain ⟨x, hx, -, hstarts⟩ := hswept "stuck_wrap_ups" (by simp [sweepNames])
  exact ⟨w, x, hpast ▸ by simp [hx], hstarts⟩

end

end SmartDialer
