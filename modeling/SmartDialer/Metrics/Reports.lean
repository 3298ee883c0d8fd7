import SmartDialer.Metrics.Monitoring
import SmartDialer.Protocol.Cap

/-!
# What a report is true of

A report is put together from readings made one after the other, and what is read at different
times need not fit together. `reports_true` says what each part of a report is true of: its calls
were counted at one moment, its agents at another, the decisions at a third, and its peak is the
greatest number of calls its server has counted for the campaign by the time it was noted. In the
history that a sampler leaves, the peak never goes down (`history_rises`).
-/

namespace SmartDialer

open Store Conc

variable {cfg : Settings} {pacing : PacingSettings}

/-! ## Counts of calls -/

/-- The calls of the campaign in one of these states, counted state by state. -/
theorem sum_countByState_of_nodup (campaignId : String) (calls : Collection Call)
    {states : List CallState} (h : states.Nodup) :
    (states.map (CallRepository.countByState campaignId calls)).sum
      = calls.count fun d => d.campaignId == campaignId && states.contains d.state := by
  induction states with
  | nil => simp [Collection.count]
  | cons t states ih =>
      obtain ⟨ht, hrest⟩ := List.nodup_cons.mp h
      rw [List.map_cons, List.sum_cons, ih hrest, CallRepository.countByState, Collection.find,
        Collection.count, Collection.count, ← List.countP_eq_length_filter]
      induction calls.docs with
      | nil => rfl
      | cons d docs ih =>
          simp only [List.countP_cons]
          rw [← ih]
          -- a call is in one state only
          cases d.campaignId == campaignId with
          | false => simp
          | true =>
              by_cases hd : d.state = t
              · simp [hd, ht]
                omega
              · simp [hd]
                omega

/-- What a report tells of the calls, as they are in the state `s`. -/
structure TellsCalls (metrics : CampaignMetrics) (s : State) : Prop where
  initiated : metrics.callsInitiated
    = s.calls.count fun d => d.campaignId == metrics.campaignId && d.state != .queued
  active : metrics.activeCalls = activeCalls metrics.campaignId s
  ringing : metrics.callsRinging
    = CallRepository.countByState metrics.campaignId s.calls .ringing
  connected : metrics.callsConnected
    = CallRepository.countByState metrics.campaignId s.calls .connected
  completed : metrics.callsCompleted
    = CallRepository.countByState metrics.campaignId s.calls .completed
  failed : metrics.callsFailed = CallRepository.countByState metrics.campaignId s.calls .failed
  cancelled : metrics.callsCancelled
    = CallRepository.countByState metrics.campaignId s.calls .cancelled
  /-- Every call that is not queued is counted in one of the four. -/
  accounted : metrics.callsInitiated = metrics.activeCalls + metrics.callsCompleted
    + metrics.callsFailed + metrics.callsCancelled

/-- The fields of a report that are made of the counts of calls. -/
structure CountsAs (metrics : CampaignMetrics) (counts : CallState → Nat) :
    Prop where
  initiated : metrics.callsInitiated = (initiatedCallStates.map counts).sum
  active : metrics.activeCalls = CampaignMetricsCollector.activeOf counts
  ringing : metrics.callsRinging = counts .ringing
  connected : metrics.callsConnected = counts .connected
  completed : metrics.callsCompleted = counts .completed
  failed : metrics.callsFailed = counts .failed
  cancelled : metrics.callsCancelled = counts .cancelled

theorem activeOf_countByState (campaignId : String) (s : State) :
    CampaignMetricsCollector.activeOf (CallRepository.countByState campaignId s.calls)
      = activeCalls campaignId s :=
  sum_countByState campaignId s.calls

theorem contains_initiatedCallStates (t : CallState) :
    initiatedCallStates.contains t = (t != .queued) := by
  cases t <;> rfl

theorem CountsAs.tells {metrics : CampaignMetrics} {s : State}
    (h : CountsAs metrics (CallRepository.countByState metrics.campaignId s.calls)) :
    TellsCalls metrics s where
  initiated := by
    rw [h.initiated, sum_countByState_of_nodup _ _ (by decide)]
    simp only [contains_initiatedCallStates]
  active := h.active.trans (activeOf_countByState _ s)
  ringing := h.ringing
  connected := h.connected
  completed := h.completed
  failed := h.failed
  cancelled := h.cancelled
  accounted := by
    rw [h.initiated, h.active, h.completed, h.failed, h.cancelled,
      CampaignMetricsCollector.activeOf]
    simp only [initiatedCallStates, activeCallStates, List.map_cons, List.map_nil, List.sum_cons,
      List.sum_nil]
    omega

/-! ## How a report is put together -/

/-- The operation records a sample. -/
def RecordsSample (o : (Op ⊕ AppOp) ⊕ MetricsOp) : Prop :=
  ∃ metrics, o = .inr (.recordSample metrics)

/--
What the report says has been answered: the counts of calls and of agents while `reading`, and
that of the decisions since its peak was noted. No sample has been recorded meanwhile.
-/
structure ReadBy (metrics : CampaignMetrics) (counts : CallState → Nat)
    (since reading : List (Reply metricsSig)) : Prop where
  calls : ⟨.inl (.inl (.countCallsByState metrics.campaignId)), .ok counts⟩ ∈ reading
  counted : CountsAs metrics counts
  agents : ⟨.inl (.inl (.countAgentsByState metrics.campaignId)), .ok metrics.agentStates⟩
    ∈ reading
  verdicts : ⟨.inr (.countByVerdict metrics.campaignId), .ok metrics.safetyVerdicts⟩ ∈ since
  fresh : ∀ r ∈ since ++ reading, ¬RecordsSample r.op

/-- All that the report says has been read. -/
def Collected (server : Nat) (metrics : CampaignMetrics) (past : List (Reply metricsSig)) : Prop :=
  ∃ counts since reading before,
    past = since ++ ⟨.inr (.notePeak server metrics.campaignId metrics.activeCalls),
      .ok metrics.peakConcurrentCalls⟩ :: (reading ++ before)
    ∧ ReadBy metrics counts since reading

/-- What is noted has been counted, and what is recorded has been collected. -/
structure JustifiedFor (server : Nat) (past : List (Reply metricsSig))
    (o : (Op ⊕ AppOp) ⊕ MetricsOp) : Prop where
  noted : ∀ server' campaignId active, o = .inr (.notePeak server' campaignId active) →
    ∃ counts, active = CampaignMetricsCollector.activeOf counts
      ∧ ⟨.inl (.inl (.countCallsByState campaignId)), .ok counts⟩ ∈ past
  recorded : ∀ metrics, o = .inr (.recordSample metrics) → Collected server metrics past

variable {server : Nat} {past : List (Reply metricsSig)}

/-- Most of what a server does notes and records nothing. -/
theorem justifiedFor_inl (o : Op ⊕ AppOp) : JustifiedFor server past (.inl o) where
  noted _ _ _ h := by cases h
  recorded _ h := by cases h

theorem lift_follows {α : Type} (p : AppAsync α) (past : List (Reply metricsSig)) :
    (p.lift (A := MetricsAns)).Follows (JustifiedFor server) (fun _ _ => True) past := by
  have hinl : (p.lift (A := MetricsAns)).All fun o => ∃ o', o = Sum.inl o' :=
    Prog.All.lift (R := fun _ => True) (fun o _ => ⟨o, rfl⟩)
      (Prog.all_of_forall (fun _ => trivial) p)
  refine Prog.follows_free (hinl.mono fun o ho past' => ?_)
  obtain ⟨o', rfl⟩ := ho
  exact justifiedFor_inl o'

/-- **A report is collected.** -/
theorem CampaignMetricsCollector.collect_follows (campaign : CampaignDocument)
    (past : List (Reply metricsSig)) :
    (CampaignMetricsCollector.collect cfg server campaign).Follows (JustifiedFor server)
      (fun result past' => ∀ metrics, result = .ok metrics → Collected server metrics past')
      past := by
  have hfailed : ∀ (e : Exn) (past' : List (Reply metricsSig)) metrics,
      (.error e : Except Exn CampaignMetrics) = .ok metrics → Collected server metrics past' :=
    fun _ _ _ h => by cases h
  refine Prog.follows_bind ?_
  refine Prog.follows_perform_bind (justifiedFor_inl _) (hfailed · _) fun now => ?_
  refine Prog.follows_perform_bind (justifiedFor_inl _) (hfailed · _) fun callCounts => ?_
  refine Prog.follows_perform_bind (justifiedFor_inl _) (hfailed · _) fun agentCounts => ?_
  refine Prog.follows_perform_bind ⟨fun _ _ _ h => (by cases h), fun _ h => (by cases h)⟩
    (hfailed · _) fun agents => ?_
  refine Prog.follows_perform_bind (justifiedFor_inl _) (hfailed · _) fun moment => ?_
  refine Prog.follows_perform_bind (justifiedFor_inl _) (hfailed · _) fun outcomes => ?_
  refine Prog.follows_perform_bind ⟨fun server' campaignId active h => ?_, fun _ h => (by cases h)⟩
    (hfailed · _) fun peak => ?_
  · -- what is noted was counted five answers ago
    obtain ⟨rfl, rfl, rfl⟩ := MetricsOp.notePeak.inj (Sum.inr.inj h)
    exact ⟨callCounts, rfl, by simp⟩
  refine Prog.follows_perform_bind ⟨fun _ _ _ h => (by cases h), fun _ h => (by cases h)⟩
    (hfailed · _) fun verdicts => ?_
  refine Prog.follows_perform_bind (justifiedFor_inl _) (hfailed · _) fun averageTalkTime => ?_
  refine Prog.follows_perform_bind (justifiedFor_inl _) (hfailed · _) fun averageSetupTime => ?_
  refine Prog.follows_perform_bind ⟨fun _ _ _ h => (by cases h), fun _ h => (by cases h)⟩
    (hfailed · _) fun registry => ?_
  rintro metrics hmetrics
  obtain rfl := Except.ok.inj hmetrics
  refine ⟨callCounts, [_, _, _, _], [_, _, _, _, _, _], past, rfl,
    ⟨?_, ⟨rfl, rfl, rfl, rfl, rfl, rfl, rfl⟩, ?_, ?_, ?_⟩⟩
  · simp [CampaignMetricsCollector.reportOf]
  · simp [CampaignMetricsCollector.reportOf]
  · simp [CampaignMetricsCollector.reportOf]
  · simp [RecordsSample]

namespace MetricsSampler

theorem sampleAll_follows (campaigns : List CampaignDocument) (past : List (Reply metricsSig)) :
    (sampleAll cfg server campaigns).Follows (JustifiedFor server)
      (fun _ _ => True) past := by
  induction campaigns generalizing past with
  | nil => trivial
  | cons campaign rest ih =>
      refine Prog.follows_bind ((CampaignMetricsCollector.collect_follows campaign past).mono
        fun result past₁ _ h => ?_)
      cases result with
      | error e => trivial
      | ok metrics =>
          have hrecord : JustifiedFor server past₁ (.inr (.recordSample metrics)) := by
            refine ⟨fun _ _ _ h => (by cases h), fun metrics' heq => ?_⟩
            obtain rfl := MetricsOp.recordSample.inj (Sum.inr.inj heq)
            exact h metrics rfl
          refine Prog.follows_perform_bind hrecord (fun _ => trivial) fun _ => ?_
          refine Prog.follows_bind ((ih _).mono fun result past₂ _ _ => ?_)
          cases result <;> trivial

theorem guardSample_follows (past : List (Reply metricsSig)) :
    (guardSample cfg server).Follows (JustifiedFor server) (fun _ _ => True)
      past := by
  have hhandler : ∀ (e : Exn) past', (if e.isException then
      awaitLook (.logFailure "metrics_sampling_failed") else .raise e).Follows
      (JustifiedFor server) (fun _ _ => True) past' := by
    intro e past'
    split
    · exact Prog.follows_perform (justifiedFor_inl _) fun _ => trivial
    · trivial
  refine Prog.follows_tryCatch (Prog.follows_bind ?_)
  refine Prog.follows_perform_bind (justifiedFor_inl _) (fun e => hhandler e _) fun campaigns => ?_
  refine (sampleAll_follows campaigns _).mono fun result past' _ _ => ?_
  cases result with
  | ok _ => trivial
  | error e => exact hhandler e past'

theorem run_follows (iterations : Nat) (past : List (Reply metricsSig)) :
    (run cfg server iterations).Follows (JustifiedFor server) (fun _ _ => True) past := by
  induction iterations generalizing past with
  | zero => trivial
  | succ iterations ih =>
      refine Prog.follows_bind ((guardSample_follows past).mono fun result past₁ _ _ => ?_)
      cases result with
      | error e => trivial
      | ok _ =>
          exact Prog.follows_perform_bind (justifiedFor_inl _) (fun _ => trivial) fun _ => ih _

end MetricsSampler

theorem RoutesMetrics.getMetrics_follows (campaignId : String) :
    (RoutesMetrics.getMetrics cfg server campaignId).Follows (JustifiedFor server)
      (fun result past' => ∀ metrics, result = .ok metrics → Collected server metrics past')
      [] := by
  refine Prog.follows_bind ((lift_follows _ _).mono fun result past' _ _ => ?_)
  cases result with
  | ok campaign => exact CampaignMetricsCollector.collect_follows campaign past'
  | error e => exact fun _ h => by cases h

/-- A request is answered with a report that has been collected. -/
theorem MonitoringTask.getMetrics_follows (campaignId : String) :
    ((MonitoringTask.getMetrics server campaignId).program cfg pacing).Follows
      (JustifiedFor server) (fun result past' => ∀ metrics, result = .ok (some metrics) →
        Collected server metrics past') [] := by
  refine Prog.follows_bind ((RoutesMetrics.getMetrics_follows campaignId).mono
    fun result past' _ h => ?_)
  cases result with
  | error e => exact fun _ heq => by cases heq
  | ok metrics =>
      intro metrics' heq
      obtain rfl := Option.some.inj (Except.ok.inj heq)
      exact h metrics rfl

theorem MonitoringTask.sampler_follows (iterations : Nat) :
    ((MonitoringTask.sampler server iterations).program cfg pacing).Follows (JustifiedFor server)
      (fun _ _ => True) [] := by
  refine Prog.follows_bind ((MetricsSampler.run_follows iterations []).mono fun result _ _ _ => ?_)
  cases result <;> trivial

/-- **Every task** notes what it has counted, and a task of the application notes nothing. -/
theorem MonitoringTask.program_follows (t : MonitoringTask) :
    ∃ server, (t.program cfg pacing).Follows (JustifiedFor server) (fun _ _ => True) [] := by
  cases t with
  | app t =>
      refine ⟨0, Prog.follows_bind ((lift_follows _ _).mono fun result _ _ _ => ?_)⟩
      cases result <;> trivial
  | sampler server iterations => exact ⟨server, MonitoringTask.sampler_follows iterations⟩
  | getMetrics server campaignId =>
      exact ⟨server, (MonitoringTask.getMetrics_follows campaignId).mono fun _ _ _ _ => trivial⟩

/-! ## The peak -/

/-- What the operation notes for the campaign on the server. -/
def noted (server : Nat) (campaignId : String) : (Op ⊕ AppOp) ⊕ MetricsOp → Option Nat
  | .inr (.notePeak server' campaignId' active) =>
      if server' = server ∧ campaignId' = campaignId then some active else none
  | _ => none

/-- What has been noted for the campaign on the server, the latest first. -/
def notes (server : Nat) (campaignId : String) (history : List (Moment (monitoring cfg pacing))) :
    List Nat :=
  history.filterMap fun m => noted server campaignId m.op

/-- No server remembers anything. -/
def NothingNoted (s : MonitoringState) : Prop := s.peaks = fun _ _ => 0

theorem notePeak_of_noted {campaignId : String} {o : (Op ⊕ AppOp) ⊕ MetricsOp} {active : Nat}
    (h : noted server campaignId o = some active) :
    o = .inr (.notePeak server campaignId active) := by
  rw [noted.eq_def] at h
  split at h
  · split at h
    · rename_i heq
      obtain ⟨rfl, rfl⟩ := heq
      obtain rfl := Option.some.inj h
      rfl
    · cases h
  · cases h

theorem noted_notePeak (server : Nat) (campaignId : String) (active : Nat) :
    noted server campaignId (.inr (.notePeak server campaignId active)) = some active :=
  if_pos ⟨rfl, rfl⟩

/-- Only what is noted moves a peak. -/
theorem Monitoring.exec_peaks (i : Nat) (o : (Op ⊕ AppOp) ⊕ MetricsOp) (c : MonitoringChoice)
    (s : MonitoringState) (server : Nat) (campaignId : String) :
    (Monitoring.exec i o c s).2.peaks server campaignId
      = (noted server campaignId o).elim (s.peaks server campaignId)
        (max (s.peaks server campaignId)) := by
  cases o with
  | inl o => rfl
  | inr o =>
      cases o with
      | notePeak server' campaignId' active =>
          change Function.update s.peaks server' _ server campaignId = _
          rw [noted]
          by_cases hserver : server = server'
          · subst hserver
            rw [Function.update_self]
            by_cases hcampaign : campaignId = campaignId'
            · subst hcampaign
              rw [Function.update_self, if_pos ⟨rfl, rfl⟩]
              rfl
            · rw [Function.update_of_ne hcampaign, if_neg fun h => hcampaign h.2.symm]
              rfl
          · rw [Function.update_of_ne hserver, if_neg fun h => hserver h.1.symm]
            rfl
      | findForCampaign _ | countByVerdict _ | recordSample _ | readRegistry _ =>
          change (attempt _ c s).2.peaks server campaignId = _
          rcases attempt_state _ c s with heq | heq
          · rw [heq]
            rfl
          · rw [heq]
            rfl

/-- The greatest of what has been noted, and 0 if that is nothing. -/
structure PeakOf (ns : List Nat) (peak : Nat) : Prop where
  upper : ∀ n ∈ ns, n ≤ peak
  attained : peak = 0 ∨ peak ∈ ns

theorem PeakOf.note {ns : List Nat} {peak : Nat} (h : PeakOf ns peak) (n : Nat) :
    IsGreatest {x | x ∈ n :: ns} (max peak n) := by
  constructor
  · rcases Nat.le_total n peak with hle | hle
    · rw [max_eq_left hle]
      rcases h.attained with rfl | hmem
      · exact List.mem_cons.mpr (.inl (Nat.le_zero.mp hle).symm)
      · exact List.mem_cons_of_mem n hmem
    · rw [max_eq_right hle]
      exact List.mem_cons_self
  · intro x hx
    rcases List.mem_cons.mp hx with rfl | hx
    · exact le_max_right peak x
    · exact le_max_of_le_left (h.upper x hx)

variable {P : Policy (monitoring cfg pacing).recorded} {w : World (monitoring cfg pacing).recorded}
  {i : Nat}

/-- Each server remembers the greatest number it has noted for each campaign. -/
def PeaksKept (s : MonitoringState × List (Moment (monitoring cfg pacing))) : Prop :=
  ∀ server campaignId, PeakOf (notes server campaignId s.2) (s.1.peaks server campaignId)

theorem peaksKept_reachable (h : Reachable P (Blank NothingNoted) w) : PeaksKept w.st := by
  refine h.invariant (I := PeaksKept) (R := fun _ => True)
    (fun t _ => Prog.all_of_forall (fun _ => trivial) _) ?_ ?_ (fun _ _ hs => hs)
  · rintro ⟨s, history⟩ ⟨hs, rfl⟩ server campaignId
    exact ⟨fun n hn => (by cases hn), .inl (congrFun (congrFun hs server) campaignId)⟩
  · rintro j o c ⟨s, history⟩ _ _ hs server campaignId
    change PeakOf (notes server campaignId (⟨j, o, c, s⟩ :: history))
      ((Monitoring.exec j o c s).2.peaks server campaignId)
    rw [Monitoring.exec_peaks, notes, List.filterMap_cons]
    cases hnoted : noted server campaignId o with
    | none => exact hs server campaignId
    | some n =>
        have hgreatest := (hs server campaignId).note n
        exact ⟨fun x hx => hgreatest.2 hx, .inr hgreatest.1⟩

/-- What the server answers when a number is noted is the greatest by then. -/
theorem isGreatest_of_noted (h : Reachable P (Blank NothingNoted) w)
    {m : Moment (monitoring cfg pacing)} {past : List (Moment (monitoring cfg pacing))}
    (hm : m :: past <:+ w.st.2) {campaignId : String} {active peak : Nat}
    (hreply : m.reply = ⟨.inr (.notePeak server campaignId active), .ok peak⟩) :
    IsGreatest {n | n ∈ notes server campaignId (m :: past)} peak := by
  obtain ⟨j, c, s, rfl, hans⟩ := Moment.exists_of_reply hreply
  obtain ⟨w', hw', hst, -, -⟩ := h.rewind hm
  have hkept := peaksKept_reachable hw'
  rw [hst] at hkept
  obtain rfl : max (s.peaks server campaignId) active = peak := Except.ok.inj hans
  rw [notes, List.filterMap_cons, noted_notePeak]
  exact (hkept server campaignId).note active

/-! ## What is true of a report -/

/-- What is read is read as it is at that moment. -/
theorem effect_of_read {c : MonitoringChoice} {s : MonitoringState} {o : Op} {a : Ans o}
    (h : ((monitoring cfg pacing).exec i (.inl (.inl o)) c s).1 = .ok a) :
    (effect o c.toChoice s.app.st).1 = .ok a :=
  (exec_ok (i := i) h).1

theorem eq_countByState_of_read {c : MonitoringChoice} {s : MonitoringState} {campaignId : String}
    {counts : CallState → Nat}
    (h : ((monitoring cfg pacing).exec i (.inl (.inl (.countCallsByState campaignId))) c s).1
      = .ok counts) :
    counts = CallRepository.countByState campaignId s.app.st.calls :=
  (Except.ok.inj (effect_of_read h)).symm

/-- A number that is noted has been counted, by the same process. -/
theorem counted_of_noted {Init : MonitoringState → Prop} (h : Reachable P (Blank Init) w)
    {m : Moment (monitoring cfg pacing)} {past : List (Moment (monitoring cfg pacing))}
    (hm : m :: past <:+ w.st.2) {campaignId : String} {active : Nat}
    (hop : m.op = .inr (.notePeak server campaignId active)) :
    ∃ x ∈ past, x.process = m.process ∧ activeCalls campaignId x.before.app.st = active := by
  obtain ⟨t, -, hstarted⟩ := h.started (h.process_lt m (hm.subset List.mem_cons_self))
  obtain ⟨_, hprogram⟩ : ∃ server', (t.program cfg pacing).Follows (JustifiedFor server')
      (fun _ _ => True) [] := MonitoringTask.program_follows t
  obtain ⟨counts, rfl, hcounts⟩ :=
    (hstarted.justified hprogram hm rfl).noted server campaignId active hop
  obtain ⟨c, s, hmem, hans⟩ := exists_of_mem_replies hcounts
  refine ⟨_, hmem, rfl, ?_⟩
  rw [eq_countByState_of_read hans]
  exact (activeOf_countByState campaignId s.app.st).symm

/--
What is true of a report by process `i` of the server, when `history` is what has happened by then.
Its calls and its agents are as they were at two moments while it was reading, and the decisions as
they were at one since it noted its peak. The peak is the greatest number that the server has noted
for the campaign by then, and there were so many active calls at some moment. The process has
recorded no sample meanwhile.
-/
def TrueReport (i server : Nat) (metrics : CampaignMetrics)
    (history : List (Moment (monitoring cfg pacing))) : Prop :=
  ∃ (later : List (Moment (monitoring cfg pacing))) (peak : Moment (monitoring cfg pacing))
    (reading earlier : List (Moment (monitoring cfg pacing))),
    history = later ++ peak :: (reading ++ earlier)
      ∧ peak.process = i
      ∧ peak.op = .inr (.notePeak server metrics.campaignId metrics.activeCalls)
      ∧ IsGreatest {n | n ∈ notes server metrics.campaignId (peak :: (reading ++ earlier))}
        metrics.peakConcurrentCalls
      ∧ (∃ m ∈ reading ++ earlier,
        activeCalls metrics.campaignId m.before.app.st = metrics.peakConcurrentCalls)
      ∧ (∃ m ∈ reading, m.process = i ∧ TellsCalls metrics m.before.app.st)
      ∧ (∃ m ∈ reading, m.process = i ∧ metrics.agentStates
        = AgentRepository.countByState metrics.campaignId m.before.app.st.agents)
      ∧ (∃ m ∈ later, m.process = i ∧ metrics.safetyVerdicts
        = DecisionRepository.countByVerdict metrics.campaignId m.before.decisions)
      ∧ ∀ m ∈ later ++ reading, m.process = i → ¬RecordsSample m.op

/-- What has been collected is true. -/
theorem Collected.trueReport {metrics : CampaignMetrics}
    {history : List (Moment (monitoring cfg pacing))}
    (hcollected : Collected server metrics (replies i history))
    (h : Reachable P (Blank NothingNoted) w) (hhistory : history <:+ w.st.2) :
    TrueReport i server metrics history := by
  obtain ⟨counts, since, reading', before, hpast, hread⟩ := hcollected
  obtain ⟨later, peak, rest, rfl, hi, hpeak, rfl, hrest⟩ := replies_split hpast
  obtain ⟨reading, earlier, rfl, rfl, -⟩ := replies_append hrest
  have hsuffix : peak :: (reading ++ earlier) <:+ w.st.2 :=
    (List.suffix_append later _).trans hhistory
  have hgreatest := isGreatest_of_noted h hsuffix hpeak
  refine ⟨later, peak, reading, earlier, rfl, hi, (Reply.mk.inj hpeak).1, hgreatest, ?_, ?_, ?_,
    ?_, ?_⟩
  · -- the greatest was noted at some moment, and counted before
    obtain ⟨m, hm, hnoted⟩ := List.mem_filterMap.mp hgreatest.1
    obtain ⟨older, past, hsplit⟩ := List.append_of_mem hm
    have hm' : m :: past <:+ w.st.2 := by
      rw [hsplit] at hsuffix
      exact (List.suffix_append older _).trans hsuffix
    obtain ⟨x, hx, -, hactive⟩ := counted_of_noted h hm' (notePeak_of_noted hnoted)
    refine ⟨x, ?_, hactive⟩
    cases older with
    | nil =>
        obtain ⟨-, rfl⟩ := List.cons.inj hsplit
        exact hx
    | cons y older =>
        obtain ⟨-, hsplit⟩ := List.cons.inj hsplit
        rw [hsplit]
        exact List.mem_append_right _ (List.mem_cons_of_mem m hx)
  · obtain ⟨c, s, hmem, hans⟩ := exists_of_mem_replies hread.calls
    refine ⟨_, hmem, rfl, CountsAs.tells ?_⟩
    rw [← eq_countByState_of_read hans]
    exact hread.counted
  · obtain ⟨c, s, hmem, hans⟩ := exists_of_mem_replies hread.agents
    exact ⟨_, hmem, rfl, (Except.ok.inj (effect_of_read hans)).symm⟩
  · obtain ⟨c, s, hmem, hans⟩ := exists_of_mem_replies hread.verdicts
    exact ⟨_, hmem, rfl, (Except.ok.inj (Monitoring.attempt_ok hans)).symm⟩
  · intro m hm hprocess
    refine hread.fresh m.reply ?_
    rcases List.mem_append.mp hm with hm | hm
    · exact List.mem_append_left _ (mem_replies.mpr ⟨m, hm, hprocess, rfl⟩)
    · exact List.mem_append_right _ (mem_replies.mpr ⟨m, hm, hprocess, rfl⟩)

/-- What a sampler records is true. -/
theorem trueReport_of_sample {iterations : Nat}
    (h : Started P (Blank NothingNoted) i (.sampler server iterations) w)
    {m : Moment (monitoring cfg pacing)} {past : List (Moment (monitoring cfg pacing))}
    (hm : m :: past <:+ w.st.2) (hi : m.process = i) {metrics : CampaignMetrics}
    (hop : m.op = .inr (.recordSample metrics)) : TrueReport i server metrics past := by
  have hsampler : ((MonitoringTask.sampler server iterations).program cfg pacing).Follows
      (JustifiedFor server) (fun _ _ => True) [] := MonitoringTask.sampler_follows iterations
  have hcollected : Collected server metrics (replies i past) :=
    (h.justified hsampler hm hi).recorded metrics hop
  exact hcollected.trueReport h.reachable ((List.suffix_cons m past).trans hm)

/-- Process `i` of the server makes a report, after `history`. -/
inductive Makes (P : Policy (monitoring cfg pacing).recorded) (i server : Nat)
    (metrics : CampaignMetrics) (w : World (monitoring cfg pacing).recorded) :
    List (Moment (monitoring cfg pacing)) → Prop where
  /-- A sampler records it. -/
  | sample {iterations : Nat} {m : Moment (monitoring cfg pacing)}
      {past : List (Moment (monitoring cfg pacing))}
      (h : Started P (Blank NothingNoted) i (.sampler server iterations) w)
      (hm : m :: past <:+ w.st.2) (hi : m.process = i)
      (hop : m.op = .inr (.recordSample metrics)) : Makes P i server metrics w past
  /-- A request is answered with it. -/
  | answer {campaignId : String}
      (h : Started P (Blank NothingNoted) i (.getMetrics server campaignId) w)
      (hret : w.procs[i]? = some (.ret (some metrics))) : Makes P i server metrics w w.st.2

/--
**A report is true**, in every run, whatever the dialer does while it is put together: of the
calls at one moment since the sampler recorded its last sample, of the agents at another, and of
the decisions at a third. Its peak is the greatest number the server has noted for the campaign by
then, and there were so many active calls at some moment of the run.
-/
theorem reports_true {metrics : CampaignMetrics}
    {history : List (Moment (monitoring cfg pacing))} (h : Makes P i server metrics w history) :
    TrueReport i server metrics history := by
  cases h with
  | sample h hm hi hop => exact trueReport_of_sample h hm hi hop
  | @answer campaignId h hret =>
      have hrequest : ((MonitoringTask.getMetrics server campaignId).program cfg pacing).Follows
          (JustifiedFor server) (fun result past => ∀ metrics, result = .ok (some metrics) →
            Collected server metrics past) [] := MonitoringTask.getMetrics_follows campaignId
      have hcollected : Collected server metrics (replies i w.st.2) :=
        h.left hrequest (fun _ _ heq => by cases heq) _ hret metrics rfl
      exact hcollected.trueReport h.reachable List.suffix_rfl

/-- The sample that a moment records. -/
def sampleOf (i : Nat) (m : Moment (monitoring cfg pacing)) : Option CampaignMetrics :=
  match m.op with
  | .inr (.recordSample metrics) => if m.process = i then some metrics else none
  | _ => none

theorem recordSample_of_sampleOf {m : Moment (monitoring cfg pacing)} {metrics : CampaignMetrics}
    (h : sampleOf i m = some metrics) : m.process = i ∧ m.op = .inr (.recordSample metrics) := by
  rw [sampleOf] at h
  split at h
  · rename_i hop
    split at h
    · rename_i hi
      obtain rfl := Option.some.inj h
      exact ⟨hi, hop⟩
    · cases h
  · cases h

/-- A worker has made its first call, and a sample is taken. -/
theorem reports_true_firstCall : ∃ (w : World (monitoring {} {}).recorded)
    (metrics : CampaignMetrics) (m : Moment (monitoring {} {}))
    (past : List (Moment (monitoring {} {}))),
    Started (Policy.any (monitoring {} {})).recorded (Blank NothingNoted) 1 (.sampler 0 1) w
      ∧ w.st.2 = m :: past ∧ m.op = .inr (.recordSample metrics) ∧ metrics.activeCalls = 1
      ∧ TrueReport 1 0 metrics past := by
  obtain ⟨w, hw, htest⟩ := Started.of_play (Policy.any (monitoring {} {})).recorded
    (show Blank (M := monitoring {} {}) NothingNoted (unwatched, []) from ⟨rfl, rfl⟩)
    (.spawn (.app (.dialerWorker "worker" 1)) :: List.replicate 31 (.run 0 { newId := "call" }))
    (List.replicate 13 (.run 1 {})) 1 (.sampler 0 1) trivial
    (fun w => w.st.2.head?.any fun m => (sampleOf 1 m).any fun metrics =>
      metrics.activeCalls == 1) (by decide +kernel)
  obtain ⟨m, hhead, hm⟩ := Option.any_eq_true _ _ |>.mp htest
  obtain ⟨metrics, hsample, hactive⟩ := Option.any_eq_true _ _ |>.mp hm
  obtain ⟨past, hpast⟩ := List.head?_eq_some_iff.mp hhead
  obtain ⟨hi, hop⟩ := recordSample_of_sampleOf hsample
  have hmade : Makes (Policy.any (monitoring {} {})).recorded 1 0 metrics w past :=
    .sample hw (hpast ▸ List.suffix_rfl) hi hop
  exact ⟨w, metrics, m, past, hw, hpast, hop, beq_iff_eq.mp hactive, reports_true hmade⟩

/-! ## The history of a sampler -/

/--
**The peak of a history never goes down.** Of two samples that a sampler records of a campaign in
one run, the later has at least the peak of the earlier.
-/
theorem history_rises {iterations : Nat}
    (h : Started P (Blank NothingNoted) i (.sampler server iterations) w)
    {m m' : Moment (monitoring cfg pacing)} {between past : List (Moment (monitoring cfg pacing))}
    (hm : m' :: (between ++ m :: past) <:+ w.st.2) (hi : m.process = i) (hi' : m'.process = i)
    {metrics metrics' : CampaignMetrics} (hop : m.op = .inr (.recordSample metrics))
    (hop' : m'.op = .inr (.recordSample metrics'))
    (hcampaign : metrics.campaignId = metrics'.campaignId) :
    metrics.peakConcurrentCalls ≤ metrics'.peakConcurrentCalls := by
  obtain ⟨later', peak', reading', earlier', hpast', -, hpeak', hgreatest', -, -, -, -, hfresh'⟩ :=
    trueReport_of_sample h hm hi' hop'
  obtain ⟨later, peak, reading, earlier, rfl, -, -, hgreatest, -⟩ :=
    trueReport_of_sample h (suffix_of_append hm) hi hop
  refine hgreatest.mono hgreatest' fun n hn => ?_
  -- the peak of the later sample is noted after the earlier one is recorded
  have hmem : m :: (later ++ peak :: (reading ++ earlier)) <:+ peak' :: (reading' ++ earlier') := by
    rcases List.append_eq_append_iff.mp hpast' with ⟨rest, rfl, hrest⟩ | ⟨rest, rfl, hrest⟩
    · cases rest with
      | nil => exact ⟨[], hrest⟩
      | cons x rest =>
          obtain ⟨rfl, -⟩ := List.cons.inj hrest
          exact absurd ⟨metrics, hop⟩ (hfresh' m (by simp) hi)
    · exact ⟨rest, hrest.symm⟩
  have hsuffix : peak :: (reading ++ earlier) <:+ peak' :: (reading' ++ earlier') :=
    suffix_of_append hmem
  rw [← hcampaign]
  exact (hsuffix.sublist.filterMap _).subset hn

/-- A sampler, and a worker that makes its first call between two samples. -/
theorem history_rises_firstCall : ∃ (w : World (monitoring {} {}).recorded)
    (metrics metrics' : CampaignMetrics),
    Started (Policy.any (monitoring {} {})).recorded (Blank NothingNoted) 0 (.sampler 0 2) w
      ∧ metrics.peakConcurrentCalls = 0 ∧ metrics'.peakConcurrentCalls = 1
      ∧ metrics.peakConcurrentCalls ≤ metrics'.peakConcurrentCalls := by
  obtain ⟨w, hw, htest⟩ := Started.of_play (Policy.any (monitoring {} {})).recorded
    (show Blank (M := monitoring {} {}) NothingNoted (unwatched, []) from ⟨rfl, rfl⟩) []
    (List.replicate 14 (.run 0 {}) ++ .spawn (.app (.dialerWorker "worker" 1)) ::
      (List.replicate 31 (.run 1 { newId := "call" }) ++ List.replicate 13 (.run 0 {})))
    0 (.sampler 0 2) trivial
    (fun w => (w.st.2.filterMap (sampleOf 0)).map (fun metrics =>
      (metrics.campaignId, metrics.peakConcurrentCalls)) == [("campaign", 1), ("campaign", 0)])
    (by decide +kernel)
  obtain ⟨metrics', rest, hsamples, hfirst, hrest⟩ := List.map_eq_cons_iff.mp (beq_iff_eq.mp htest)
  obtain ⟨metrics, _, rfl, hsecond, -⟩ := List.map_eq_cons_iff.mp hrest
  obtain ⟨newer, m', older, hhistory, -, hm', hrest⟩ := List.filterMap_eq_cons_iff.mp hsamples
  obtain ⟨between, m, past, rfl, -, hm, -⟩ := List.filterMap_eq_cons_iff.mp hrest
  obtain ⟨hi', hop'⟩ := recordSample_of_sampleOf hm'
  obtain ⟨hi, hop⟩ := recordSample_of_sampleOf hm
  obtain ⟨hcampaign, hpeak⟩ := Prod.mk.inj hsecond
  obtain ⟨hcampaign', hpeak'⟩ := Prod.mk.inj hfirst
  have hsuffix : m' :: (between ++ m :: past) <:+ w.st.2 := ⟨newer, hhistory.symm⟩
  exact ⟨w, metrics, metrics', hw, hpeak, hpeak',
    history_rises hw hsuffix hi hi' hop hop' (hcampaign.trans hcampaign'.symm)⟩

end SmartDialer
