import SmartDialer.Conc.Retrospect
import SmartDialer.Metrics.CampaignMetrics
import SmartDialer.Workers.Refinement

/-!
# Watching changes nothing

Samplers and requests read the database while the dialer works on it, and leave samples and peaks
behind. `monitoring_refines` says that they do no more: whatever becomes of the agents, borrowers,
calls, events and campaigns while they are watched can become of them when nobody looks. So what
is known of the application, and through `application_refines` of the dialer, is true of a server
with all its metrics.
-/

namespace SmartDialer

open Store Conc

variable {cfg : Settings} {pacing : PacingSettings}

/-! ## Nobody looks at the log -/

/-- The same documents and the same campaigns; the logs may differ. -/
structure SameDatabase (s s' : AppState) : Prop where
  documents : SameDocuments s.st s'.st
  campaigns : s.campaigns = s'.campaigns

theorem SameDatabase.refl (s : AppState) : SameDatabase s s := ⟨.refl _, rfl⟩

theorem SameDatabase.trans {s s' s'' : AppState} (h : SameDatabase s s')
    (h' : SameDatabase s' s'') : SameDatabase s s'' :=
  ⟨h.documents.trans h'.documents, h.campaigns.trans h'.campaigns⟩

theorem SameDatabase.symm {s s' : AppState} (h : SameDatabase s s') : SameDatabase s' s :=
  ⟨h.documents.symm, h.campaigns.symm⟩

namespace Application

/-- The state with another log. -/
def withLog (log : List Entry) (s : AppState) : AppState :=
  { s with st := { s.st with log := log } }

theorem effect_withLog (o : AppOp) (c : AppChoice) (log : List Entry) (s : AppState) :
    effect o c (withLog log s) = ((effect o c s).1, withLog log (effect o c s).2) := by
  cases o with
  | insertCampaign dialingMode providerName maxConcurrentCalls pacingConfig =>
      cases hins : CampaignRepository.insert (newCampaign c.newId dialingMode providerName
          maxConcurrentCalls pacingConfig) s.campaigns with
      | some campaigns => simp only [effect, withLog, hins]
      | none => simp only [effect, withLog, hins]
  | _ => rfl

theorem attempt_withLog (o : AppOp) (c : AppChoice) (log : List Entry) (s : AppState) :
    attempt o c (withLog log s) = ((attempt o c s).1, withLog log (attempt o c s).2) := by
  rw [attempt, attempt, effect_withLog]
  cases c.fault with
  | none => rfl
  | dbError name performed =>
      dsimp only
      split
      · cases performed <;> rfl
      · rfl
  | cancelled performed =>
      dsimp only
      split
      · cases performed <;> rfl
      · rfl

end Application

theorem SameDatabase.eq {s s' : AppState} (h : SameDatabase s s') :
    s' = Application.withLog s'.st.log s := by
  obtain ⟨st, campaigns⟩ := s
  obtain ⟨st', campaigns'⟩ := s'
  obtain ⟨hst, rfl⟩ := h
  exact congrArg (AppState.mk · campaigns) hst.eq

/-- Databases that are the same answer the same, and are left the same. -/
theorem SameDatabase.exec {s s' : AppState} (h : SameDatabase s s') (i j : Nat) (o : Op ⊕ AppOp)
    (c : AppChoice) :
    (Application.exec i o c s).1 = (Application.exec j o c s').1
      ∧ SameDatabase (Application.exec i o c s).2 (Application.exec j o c s').2 := by
  cases o with
  | inl o =>
      obtain ⟨hans, hst⟩ := h.documents.attempt o c.toChoice
      exact ⟨hans, hst.congr (.record _ _) (.record _ _), h.campaigns⟩
  | inr o =>
      have heq := Application.attempt_withLog o c s'.st.log s
      rw [← h.eq] at heq
      rw [Application.exec, Application.exec, heq]
      exact ⟨rfl, ⟨rfl, rfl, rfl, rfl⟩, rfl⟩

/-! ## Nothing but reading -/

/-- What the metrics await of what the application awaits. -/
def Watches : Op ⊕ AppOp → Prop
  | .inl o => o.Silent
  | .inr .findRunning | .inr (.findCampaignById _) | .inr (.averageTalkTimeSeconds _)
  | .inr (.averageSetupTimeMs _) | .inr .sleep | .inr (.logFailure _) => True
  | _ => False

theorem exec_watches {o : Op ⊕ AppOp} (ho : Watches o) (i : Nat) (c : AppChoice) (s : AppState) :
    SameDatabase (Application.exec i o c s).2 s := by
  cases o with
  | inl o =>
      refine ⟨?_, rfl⟩
      have hrecord : SameDocuments (exec i o c.toChoice s.st).2 (attempt o c.toChoice s.st).2 :=
        .record _ _
      rwa [attempt_silent ho] at hrecord
  | inr o =>
      have heffect : (Application.effect o c s).2 = s := by
        cases o with
        | findRunning | findCampaignById | averageTalkTimeSeconds | averageSetupTimeMs | sleep
        | logFailure => rfl
        | _ => exact ho.elim
      have hattempt : (Application.attempt o c s).2 = s := by
        rw [Application.attempt]
        cases c.fault with
        | none => exact heffect
        | dbError name performed =>
            dsimp only
            split
            · cases performed
              · rfl
              · exact heffect
            · exact heffect
        | cancelled performed =>
            dsimp only
            split
            · cases performed
              · rfl
              · exact heffect
            · exact heffect
      rw [Application.exec, hattempt]
      exact .refl s

namespace Monitoring

theorem effect_app (o : MetricsOp) (c : MonitoringChoice) (s : MonitoringState) :
    (effect o c s).2.app = s.app := by
  cases o <;> rfl

theorem attempt_app (o : MetricsOp) (c : MonitoringChoice) (s : MonitoringState) :
    (attempt o c s).2.app = s.app := by
  rcases attempt_state o c s with heq | heq
  · rw [heq]
  · rw [heq, effect_app]

variable {starts : AppTask → Prop} {server : Nat}

theorem composed_collect (campaign : CampaignDocument) :
    Composed (application cfg pacing) starts Watches
      (CampaignMetricsCollector.collect cfg server campaign) := by
  refine Composed.bind ?_ fun read => .ret _
  refine (Composed.perform_silent trivial).bind fun now => ?_
  refine (Composed.perform_silent trivial).bind fun callCounts => ?_
  refine (Composed.perform_silent trivial).bind fun agentCounts => ?_
  refine (Composed.perform _).bind fun agents => ?_
  refine (Composed.perform_silent trivial).bind fun moment => ?_
  refine (Composed.perform_silent trivial).bind fun outcomes => ?_
  refine (Composed.perform _).bind fun peak => ?_
  refine (Composed.perform _).bind fun verdicts => ?_
  refine (Composed.perform_silent trivial).bind fun averageTalkTime => ?_
  refine (Composed.perform_silent trivial).bind fun averageSetupTime => ?_
  exact (Composed.perform _).bind fun registry => .ret _

theorem composed_sampleAll (campaigns : List CampaignDocument) :
    Composed (application cfg pacing) starts Watches
      (MetricsSampler.sampleAll cfg server campaigns) := by
  induction campaigns with
  | nil => exact .ret _
  | cons campaign rest ih =>
      exact (composed_collect campaign).bind fun _ => (Composed.perform _).bind fun _ =>
        ih.bind fun _ => .ret _

theorem composed_run (iterations : Nat) :
    Composed (application cfg pacing) starts Watches
      (MetricsSampler.run cfg server iterations) := by
  induction iterations with
  | zero => exact .ret _
  | succ iterations ih =>
      refine Composed.bind ?_ fun _ => (Composed.perform_silent trivial).bind fun _ => ih
      refine Composed.tryCatch ?_ fun e => ?_
      · refine Composed.bind ?_ fun _ => .ret _
        exact (Composed.perform_silent trivial).bind fun campaigns => composed_sampleAll campaigns
      · split
        · exact .perform_silent trivial
        · exact .raise e

theorem composed_getMetrics (campaignId : String) :
    Composed (application cfg pacing) starts Watches
      (RoutesMetrics.getMetrics cfg server campaignId) := by
  refine Composed.bind (Composed.of_all ?_) fun campaign => composed_collect campaign
  refine Prog.all_bind (Prog.all_perform trivial) fun found => ?_
  cases found <;> trivial

/-- **Every task** is a task of the application, or watches. -/
theorem composed_program (t : MonitoringTask) (hstarts : ∀ u, t = .app u → starts u) :
    Composed (application cfg pacing) starts Watches (t.program cfg pacing) := by
  cases t with
  | app t =>
      exact (Composed.of_task (M := application cfg pacing) (hstarts t rfl)).bind fun _ => .ret _
  | sampler server iterations => exact (composed_run iterations).bind fun _ => .ret _
  | getMetrics server campaignId => exact (composed_getMetrics campaignId).bind fun _ => .ret _

end Monitoring

/-! ## The refinement -/

/-- The policy does not look at who performs an operation, or at the log. -/
def LooksAtDatabase (P : Policy (application cfg pacing)) : Prop :=
  ∀ {s s' : AppState} (i j : Nat) (o : Op ⊕ AppOp) (c : AppChoice), SameDatabase s s' →
    P.run i o c s → P.run j o c s'

/-- The runs of the application under `P`, watched. -/
def watched (P : Policy (application cfg pacing)) : Policy (monitoring cfg pacing) where
  task t := ∀ u, t = .app u → P.task u
  run i o c s :=
    match o with
    | .inl o => P.run i o c.toAppChoice s.app
    | .inr _ => True

instance : (watched (Policy.any (application cfg pacing))).Checkable where
  task _ := .isTrue fun _ _ => trivial
  run _ o _ _ :=
    match o with
    | .inl _ => .isTrue trivial
    | .inr _ => .isTrue trivial

theorem monitoring_layer {P : Policy (application cfg pacing)} (hP : LooksAtDatabase P) :
    Layer (monitoring cfg pacing) (application cfg pacing) (watched P) P
      (fun s' s => SameDatabase s'.app s) Watches where
  task t ht := Monitoring.composed_program t ht
  below i j o c' s' s h hrun := by
    obtain ⟨hans, hst⟩ := h.exec i j o c'.toAppChoice
    exact ⟨c'.toAppChoice, hP i j o _ h hrun, hans, hst⟩
  silent i o c s' s ho h := (exec_watches ho i c.toAppChoice s'.app).trans h
  own i o c s' s h := by
    have happ := Monitoring.attempt_app o c s'
    exact happ ▸ h
  crash i s' s h := ⟨h.documents.congr (.record _ _) (.refl _), h.campaigns⟩
  crash_below j s' s h := ⟨h.documents.congr (.refl _) (.record _ _), h.campaigns⟩

/--
**Watching changes nothing.** In every run with samplers and requests for metrics, the database is
that of some run of the application without them; and what a process is about to do to it, a
process of such a run is about to do.
-/
theorem monitoring_refines {P : Policy (application cfg pacing)} (hP : LooksAtDatabase P)
    {Init : AppState → Prop} {w : World (monitoring cfg pacing)}
    (h : Reachable (watched P) (fun s => Init s.app) w) :
    (∃ w₀, Reachable P Init w₀ ∧ SameDatabase w.st.app w₀.st)
      ∧ ∀ i o, w.Awaits i (.inl o) → ¬Watches o →
        ∃ w₀ j, Reachable P Init w₀ ∧ SameDatabase w.st.app w₀.st ∧ w₀.Awaits j o := by
  have hinit : ∀ s' : MonitoringState, Init s'.app → ∃ s, Init s ∧ SameDatabase s'.app s :=
    fun s' hs' => ⟨s'.app, hs', .refl _⟩
  have hlayer : Layer (monitoring cfg pacing) (application cfg pacing) (watched P) P
      (fun s' s => SameDatabase s'.app s) Watches := monitoring_layer hP
  refine ⟨?_, fun i o hi ho => hlayer.awaits hinit h hi ho⟩
  obtain ⟨w₀, _, hw₀, hover⟩ := hlayer.reachable hinit h
  exact ⟨w₀, hw₀, hover.st⟩

/-! ## A worker that is watched -/

/-- A sample is taken, and then the dialer worker goes on to its first call. -/
def watchedOriginate : List (Label (monitoring {} {})) :=
  .spawn (.sampler 0 1) :: .spawn (.app (.dialerWorker "worker" 1)) ::
    (List.replicate 13 (.run 0 {}) ++ List.replicate 30 (.run 1 { newId := "call" }))

/-- The servers when nothing has been watched yet. -/
def unwatched : MonitoringState := { app := readyToDial }

/-- The application, before anything has happened. -/
def FreshDatabase (s : AppState) : Prop := Fresh s.st

/-- What process `i` is about to ask the provider for. -/
def originatingWatched (w : World (monitoring {} {})) (i : Nat) : Option OriginateRequest :=
  match w.awaited i with
  | some (.inl (.inl (.originateCall _ _ request))) => some request
  | _ => none

/-- The call that is about to be made may be about to be made by a worker nobody watches. -/
theorem monitoring_refines_watchedOriginate :
    ∃ w₀ j, Reachable (Policy.any (application {} {})) FreshDatabase w₀
      ∧ ∃ providerName pair request, request.campaignId = "campaign"
        ∧ w₀.Awaits j (.inl (.originateCall providerName pair request)) := by
  obtain ⟨w, hw, htest⟩ : ∃ w : World (monitoring {} {}),
      Reachable (watched (Policy.any (application {} {}))) (fun s => FreshDatabase s.app) w
        ∧ (w.st.samples.length == 1 && (originatingWatched w 1).any fun request =>
          request.campaignId == "campaign") = true :=
    Reachable.of_play (s := unwatched) _ oneAgent_fresh watchedOriginate _ (by decide +kernel)
  obtain ⟨request, hrequest, hcampaign⟩ :=
    Option.any_eq_true _ _ |>.mp (Bool.and_eq_true_iff.mp htest).2
  rw [originatingWatched] at hrequest
  split at hrequest
  · rename_i providerName pair request' ho
    obtain rfl := Option.some.inj hrequest
    have hany : LooksAtDatabase (Policy.any (application {} {})) := fun _ _ _ _ _ _ => trivial
    obtain ⟨w₀, j, hw₀, -, hj⟩ :=
      (monitoring_refines hany hw).2 1 _ (awaits_of_awaited ho) id
    exact ⟨w₀, j, hw₀, providerName, pair, request', beq_iff_eq.mp hcampaign, hj⟩
  · cases hrequest

end SmartDialer
