import SmartDialer.Protocol.Lifecycle
import SmartDialer.Workers.WorkerLoops

/-!
# The application is a dialer

Everything about the protocol is proved of the `dialer`: a system in which ticks, sweeps and
deliveries are tasks, started at any time, a tick with any pacing request it might be given. The
application starts them from its loops, one after the other, with the requests its snapshots lead
to. That is a special case, and `application_refines` says that it is: what the application does
to the documents, the dialer can do.

A policy carries over if it looks at neither of the two things the systems disagree on: the number
of the process that performs an operation, and the log.
-/

namespace SmartDialer

open Store Conc

variable {cfg : Settings} {pacing : PacingSettings}

/-! ## Operations that leave no trace -/

/-- What the application awaits between the tasks, of the operations it shares with them. -/
def Op.Silent : Op → Prop
  | .utcNow | .countAgentsByState _ | .countCallsByState _ | .outcomeCountsBetween .. | .getHealth _
  | .logEvent .. => True
  | _ => False

theorem attempt_silent {o : Op} (ho : o.Silent) (c : Choice) (s : State) :
    (attempt o c s).2 = s := by
  have heffect : (effect o c s).2 = s := by
    cases o with
    | utcNow | countAgentsByState | countCallsByState | outcomeCountsBetween | getHealth
    | logEvent => rfl
    | _ => exact ho.elim
  rcases attempt_state o c s with h | h
  · exact h
  · exact h.trans heffect

/-! ## What the application is composed of -/

/-- The tasks of the dialer that a task of the application is made of. -/
def AppTask.Starts : AppTask → Task → Prop
  | .dialerWorker workerId _, .tick _ _ workerId' => workerId' = workerId
  | .recoveryWorker _, .runSweeps => True
  | .onEvent event, .processEvent event' => event' = event
  | .agentAction agentId action, .agentAction agentId' action' =>
      agentId' = agentId ∧ action' = action
  | _, _ => False

namespace Application

variable {starts : Task → Prop}

theorem composed_task {t : Task} (h : starts t) :
    Composed (dialer cfg) starts Op.Silent (runTask (Task.program cfg t)) :=
  Composed.of_task (M := dialer cfg) h

theorem composed_countLongConnected (campaignId : String) (now : Time) (avgTalkTime : ℚ) :
    Composed (dialer cfg) starts Op.Silent
      (MetricsSnapshotBuilder.countLongConnected campaignId now avgTalkTime) := by
  rw [MetricsSnapshotBuilder.countLongConnected]
  split
  · exact .perform _
  · exact .ret _

theorem composed_observe (campaign : CampaignDocument) :
    Composed (dialer cfg) starts Op.Silent (MetricsSnapshotBuilder.observe cfg campaign) := by
  refine (Composed.perform_silent trivial).bind fun now => ?_
  refine (Composed.perform_silent trivial).bind fun agentCounts => ?_
  refine (Composed.perform_silent trivial).bind fun callCounts => ?_
  refine (Composed.perform _).bind fun avgTalkTime => ?_
  refine (Composed.perform _).bind fun avgSetupTime => ?_
  refine (Composed.perform_silent trivial).bind fun recent => ?_
  refine (Composed.perform_silent trivial).bind fun previous => ?_
  refine (composed_countLongConnected _ _ _).bind fun longConnected => ?_
  refine (Composed.perform _).bind fun previousAvailable => ?_
  refine (Composed.perform_silent trivial).bind fun healthStatus => ?_
  exact (Composed.perform_silent trivial).bind fun factorStatus => .ret _

/-- After its snapshot, the tick of a campaign is one of the dialer's. -/
theorem tickCampaign_eq (campaign : CampaignDocument) (workerId : String) :
    tickCampaign cfg pacing campaign workerId
      = ((MetricsSnapshotBuilder.observe cfg campaign).bind fun seen =>
          runTask ((DialerBase.tick cfg campaign.toCampaign (pacingRequest pacing campaign
            (MetricsSnapshotBuilder.snapshotOf campaign seen)) workerId).bind fun _ =>
              DialerWorker.releaseFinishedWrapUps cfg campaign.id)).tryCatch
        fun e => runTask (if e.isException then await (.logEvent "campaign_tick_failed" campaign.id)
          else throw e) := by
  have hhandler : (fun e : Exn => (if e.isException then
        awaitShared (.logEvent "campaign_tick_failed" campaign.id) else .raise e : AppAsync Unit))
      = fun e => runTask (if e.isException then
          await (.logEvent "campaign_tick_failed" campaign.id) else throw e) := by
    funext e
    split
    · exact (Prog.lift_perform (S := sig) (.logEvent "campaign_tick_failed" campaign.id)).symm
    · rfl
  rw [tickCampaign, hhandler]
  simp only [tick, MetricsSnapshotBuilder.buildSnapshot, Prog.bind_eq, Prog.pure_eq,
    Prog.bind_assoc, Prog.ret_bind, Prog.lift_bind]

theorem composed_tickCampaign (campaign : CampaignDocument) (workerId : String)
    (hstarts : ∀ request, starts (.tick campaign.toCampaign request workerId)) :
    Composed (dialer cfg) starts Op.Silent (tickCampaign cfg pacing campaign workerId) := by
  rw [tickCampaign_eq]
  refine (composed_observe campaign).bind_tryCatch (fun seen => ?_) fun e => ?_
  · rw [← Prog.lift_tryCatch]
    exact composed_task (hstarts (pacingRequest pacing campaign
      (MetricsSnapshotBuilder.snapshotOf campaign seen)))
  · split
    · rw [runTask, Prog.lift_perform]
      exact Composed.perform_silent trivial
    · exact .raise e

theorem composed_tickAll (workerId : String)
    (hstarts : ∀ campaign request, starts (.tick campaign request workerId))
    (campaigns : List CampaignDocument) :
    Composed (dialer cfg) starts Op.Silent (tickAll cfg pacing workerId campaigns) := by
  induction campaigns with
  | nil => exact .ret ()
  | cons campaign rest ih =>
      exact (composed_tickCampaign campaign workerId fun _ => hstarts _ _).bind fun _ => ih

theorem composed_guardIteration (event : String) {iteration : AppAsync Unit}
    (h : Composed (dialer cfg) starts Op.Silent iteration) :
    Composed (dialer cfg) starts Op.Silent (guardIteration event iteration) := by
  refine h.tryCatch fun e => ?_
  split
  · exact .perform _
  · exact .raise e

theorem composed_runDialer (workerId : String)
    (hstarts : ∀ campaign request, starts (.tick campaign request workerId)) (iterations : Nat) :
    Composed (dialer cfg) starts Op.Silent (runDialer cfg pacing workerId iterations) := by
  induction iterations with
  | zero => exact .ret ()
  | succ iterations ih =>
      refine (composed_guardIteration _ ?_).bind fun _ =>
        (Composed.perform _).bind fun stopping => ?_
      · exact (Composed.perform _).bind fun campaigns => composed_tickAll workerId hstarts campaigns
      · split
        · exact .ret ()
        · exact ih

theorem composed_runRecovery (hstarts : starts .runSweeps) (iterations : Nat) :
    Composed (dialer cfg) starts Op.Silent (runRecovery cfg iterations) := by
  induction iterations with
  | zero => exact .ret ()
  | succ iterations ih =>
      exact (composed_guardIteration _ (composed_task hstarts)).bind fun _ =>
        (Composed.perform _).bind fun _ => ih

theorem composed_requireCampaign (campaignId : String) :
    Composed (dialer cfg) starts Op.Silent (requireCampaign campaignId) := by
  refine (Composed.perform _).bind fun found => ?_
  cases found with
  | none => exact .raise _
  | some campaign => exact .ret campaign

/-- **Every task of the application** is made of tasks of the dialer. -/
theorem composed_program (t : AppTask) (hstarts : ∀ u, t.Starts u → starts u) :
    Composed (dialer cfg) starts Op.Silent (t.program cfg pacing) := by
  cases t with
  | dialerWorker workerId iterations =>
      exact composed_runDialer workerId (fun _ _ => hstarts _ rfl) iterations
  | recoveryWorker iterations => exact composed_runRecovery (hstarts _ trivial) iterations
  | onEvent event => exact composed_task (hstarts (.processEvent event) rfl)
  | agentAction agentId action => 
      exact composed_task (hstarts (.agentAction agentId action) ⟨rfl, rfl⟩)
  | createCampaign dialingMode providerName maxConcurrentCalls pacingConfig => exact .perform _
  | changeStatus campaignId action =>
      exact (composed_requireCampaign campaignId).bind fun _ =>
        (Composed.perform _).bind fun _ => .ret ()
  | setMode campaignId mode =>
      exact (composed_requireCampaign campaignId).bind fun _ =>
        (Composed.perform _).bind fun _ => .ret ()

end Application

/-! ## The refinement -/

/-- The policy does not look at who performs an operation, or at the log. -/
def Anonymous (P : Policy (dialer cfg)) : Prop :=
  ∀ {s s' : State} (i j : Nat) (o : Op) (c : Choice), SameDocuments s s' → P.run i o c s →
    P.run j o c s'

/-- The runs of the application whose work the dialer may do under `P`. -/
def ofApplication (P : Policy (dialer cfg)) (pacing : PacingSettings) :
    Policy (application cfg pacing) where
  task t := ∀ u, t.Starts u → P.task u
  run i o c s :=
    match o with
    | .inl o => P.run i o c.toChoice s.st
    | .inr _ => True

instance : (ofApplication (Policy.any (dialer cfg)) pacing).Checkable where
  task _ := .isTrue fun _ _ => trivial
  run _ o _ _ :=
    match o with
    | .inl _ => .isTrue trivial
    | .inr _ => .isTrue trivial

theorem application_layer {P : Policy (dialer cfg)} (hP : Anonymous P) :
    Layer (application cfg pacing) (dialer cfg) (ofApplication P pacing) P
      (fun s' s => SameDocuments s'.st s) Op.Silent where
  task t ht := Application.composed_program t ht
  below i j o c' s' s h hrun := by
    obtain ⟨hans, hst⟩ := h.attempt o c'.toChoice
    exact ⟨c'.toChoice, hP i j o _ h hrun, hans, hst.congr (.record _ _) (.record _ _)⟩
  silent i o c s' s ho h := by
    have hst : (attempt o c.toChoice s'.st).2 = s'.st := attempt_silent ho _ _
    have hrecord : SameDocuments (exec i o c.toChoice s'.st).2 (attempt o c.toChoice s'.st).2 :=
      .record _ _
    rw [hst] at hrecord
    exact hrecord.trans h
  own i o c s' s h := by
    have hst := Application.attempt_st o c s'
    exact hst ▸ h
  crash i s' s h := h.congr (.record _ _) (.refl _)
  crash_below j s' s h := h.congr (.refl _) (.record _ _)

/--
**The application refines the dialer.** In every run of the application — loops, snapshots, pacing,
campaigns started and stopped — the documents are those of some run of the dialer; and what a
process is about to do to them, a process of such a run is about to do.
-/
theorem application_refines {P : Policy (dialer cfg)} (hP : Anonymous P) {Init : State → Prop}
    {w : World (application cfg pacing)}
    (h : Reachable (ofApplication P pacing) (fun s => Init s.st) w) :
    (∃ w₀, Reachable P Init w₀ ∧ SameDocuments w.st.st w₀.st)
      ∧ ∀ i o, w.Awaits i (.inl o) → ¬o.Silent →
        ∃ w₀ j, Reachable P Init w₀ ∧ SameDocuments w.st.st w₀.st ∧ w₀.Awaits j o := by
  have hinit : ∀ s' : AppState, Init s'.st → ∃ s, Init s ∧ SameDocuments s'.st s :=
    fun s' hs' => ⟨s'.st, hs', .refl _⟩
  have hlayer : Layer (application cfg pacing) (dialer cfg) (ofApplication P pacing) P
      (fun s' s => SameDocuments s'.st s) Op.Silent := application_layer hP
  refine ⟨?_, fun i o hi ho => hlayer.awaits hinit h hi ho⟩
  obtain ⟨w₀, _, hw₀, hover⟩ := hlayer.reachable hinit h
  exact ⟨w₀, hw₀, hover.st⟩

/-! ## A worker that dials -/

/-- A campaign that has been started. -/
def runningCampaign : Collection CampaignDocument :=
  ⟨[{ id := "campaign", status := .running }], by decide⟩

/-- It has an agent, and borrowers. -/
def readyToDial : AppState := ⟨oneAgent, runningCampaign⟩

/-- The dialer worker, up to the moment it asks the provider. -/
def firstOriginate : List (Label (application {} {})) :=
  .spawn (.dialerWorker "worker" 1) :: List.replicate 30 (.run 0 { newId := "call" })

/-- What process `i` is about to ask the provider for. -/
def originating (w : World (application {} {})) (i : Nat) : Option OriginateRequest :=
  match w.awaited i with
  | some (.inl (.originateCall _ _ request)) => some request
  | _ => none

/-- The call the worker is about to make for that campaign, a dialer may be about to make. -/
theorem application_refines_firstOriginate :
    ∃ w₀ j, Reachable (Policy.any (dialer {})) Fresh w₀ ∧ ∃ providerName pair request,
      request.campaignId = "campaign" ∧ w₀.Awaits j (.originateCall providerName pair request) := by
  obtain ⟨w, hw, htest⟩ : ∃ w : World (application {} {}),
      Reachable (ofApplication (Policy.any (dialer {})) {}) (fun s => Fresh s.st) w
        ∧ ((originating w 0).any fun request => request.campaignId == "campaign") = true :=
    Reachable.of_play (s := readyToDial) _ oneAgent_fresh firstOriginate _ (by decide +kernel)
  obtain ⟨request, hrequest, hcampaign⟩ := Option.any_eq_true _ _ |>.mp htest
  rw [originating] at hrequest
  split at hrequest
  · rename_i providerName pair request' ho
    obtain rfl := Option.some.inj hrequest
    have hany : Anonymous (Policy.any (dialer {})) := fun _ _ _ _ _ _ => trivial
    obtain ⟨w₀, j, hw₀, -, hj⟩ :=
      (application_refines hany hw).2 0 _ (awaits_of_awaited ho) id
    exact ⟨w₀, j, hw₀, providerName, pair, request', beq_iff_eq.mp hcampaign, hj⟩
  · cases hrequest

end SmartDialer
