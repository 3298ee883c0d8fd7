import SmartDialer.Safety.SafetyGate
import SmartDialer.Writes

/-!
# Campaigns beside one another

Two databases that agree on what belongs to a campaign, and an evaluation for that
campaign in each of them. Every read of the evaluation but one asks for the documents
of the campaign. The one that does not counts expired leases, and it is a reason to
approve nothing: the two decisions agree exactly when both databases have an expired
lease somewhere or neither does, or the campaign has no room of its own.
-/

namespace SmartDialer

open Conc Store

/-- The two databases hold the same agents and calls of the campaign. -/
structure AgreeOn (campaignId : String) (s s' : State) : Prop where
  agents : ∀ k a, a.campaignId = campaignId → (s.agents.get k = some a ↔ s'.agents.get k = some a)
  calls : ∀ k d, d.campaignId = campaignId → (s.calls.get k = some d ↔ s'.calls.get k = some d)

/-! ## An evaluation by itself changes nothing -/

/-- The operation leaves the database as it is. -/
def Op.ReadOnly (o : Op) : Prop := ∀ c s, (effect o c s).2 = s

/-- What the database answers, as long as nobody changes it. -/
def answersOf (env : Nat → Choice) (s : State) (n : Nat) (o : Op) : Except Exn (Ans o) :=
  (attempt o (env n) s).1

/-- A program that only reads is answered from the database it started on. -/
theorem eval_solo_of_readOnly {α : Type} {p : Async α} (hp : p.All Op.ReadOnly) (i : Nat)
    (env : Nat → Choice) {s s' : State} (h : SameDocuments s s') (n : Nat) :
    (p.eval (solo i env) (s', n)).1
      = (p.eval (fun o n => (answersOf env s n o, n + 1)) n).1 := by
  induction p generalizing s' n with
  | ret a => rfl
  | raise e => rfl
  | await o k ih =>
      have hans : (exec i o (env n) s').1 = answersOf env s n o := (h.attempt o (env n)).1.symm
      have hsame : (attempt o (env n) s').2 = s' := by
        rcases attempt_state o (env n) s' with hst | hst
        · exact hst
        · rw [hst, hp.1]
      have hdocs : SameDocuments s (exec i o (env n) s').2 := by
        rw [exec, hsame]
        exact h.trans (SameDocuments.record s' _).symm
      simp only [Prog.eval, solo]
      rw [hans]
      exact ih _ (hp.2 _) hdocs (n + 1)

namespace SafetyController

variable {cfg : Settings} {campaign : Campaign} {request : PacingRequest}

theorem evaluate_readOnly (cfg : Settings) (campaign : Campaign) (request : PacingRequest)
    (pacingDecisionId : Option String) (persist : Bool) :
    (evaluate cfg campaign request pacingDecisionId persist).All Op.ReadOnly := by
  refine (evaluate_all cfg campaign request pacingDecisionId persist).mono fun o ho => ?_
  cases o <;> first | exact ho.elim | exact fun _ _ => rfl

/-! ## What the reads come to -/

/-- What `evaluate` answers on a database nobody else touches. -/
def evaluateOn (cfg : Settings) (campaign : Campaign) (request : PacingRequest)
    (pacingDecisionId : Option String) (persist : Bool) (env : Nat → Choice) (s : State) :
    Except Exn SafetyDecision :=
  ((evaluate cfg campaign request pacingDecisionId persist).eval (solo 0 env) (s, 0)).1

/-- What an evaluation reads in `s`: its first operation is the clock, and so on. -/
def readingsIn (cfg : Settings) (campaign : Campaign) (request : PacingRequest)
    (env : Nat → Choice) (s : State) : Readings :=
  let now := (env 0).now
  let agentCounts := AgentRepository.countByState campaign.id s.agents
  let callCounts := CallRepository.countByState campaign.id s.calls
  let outcomes := CallRepository.outcomeCountsBetween campaign.id
    (now - truncate (1000 * cfg.answerRateWindowSeconds)) now s.calls
  { reading :=
      { availableAgents := agentCounts .available
        reservedAgents := agentCounts .reserved
        activeCalls := (activeCallStates.map callCounts).sum
        ringingCalls := callCounts .ringing
        expiredLeases := AgentRepository.countExpiredLeases now s.agents
        callFailureRate :=
          if outcomes.total ≠ 0 then (outcomes.systemFailed : ℚ) / outcomes.total else 0
        providerStatus := (env 5).health }
    snapshotAgeMs := max 0 (wholeMs ((env 6).now - request.snapshotCapturedAt))
    previousAvailable := (env 7).previousAvailable }

/-- One of the four queries of an evaluation fails. -/
def QueryFails (env : Nat → Choice) : Prop :=
  (env 1).fault ≠ .none ∨ (env 2).fault ≠ .none ∨ (env 3).fault ≠ .none ∨ (env 4).fault ≠ .none

theorem attempt_local {o : Op} (hd : o.isDatabase = false) (hc : o.isCancellable = false)
    (c : Choice) (s : State) : attempt o c s = effect o c s := by
  rw [attempt]
  cases c.fault with
  | none => rfl
  | dbError name performed => simp [hd]
  | cancelled performed => simp [hc]

theorem attempt_of_fault {o : Op} (hd : o.isDatabase = true) (hc : o.isCancellable = true)
    {c : Choice} (h : c.fault ≠ .none) (s : State) : ∃ e, (attempt o c s).1 = .error e := by
  rw [attempt]
  cases hf : c.fault with
  | none => exact absurd hf h
  | dbError name performed => exact ⟨.pyMongoError name, by simp [hd]⟩
  | cancelled performed => exact ⟨.cancelledError, by simp [hc]⟩

/-- The clock and the caches of the worker are always there to be read. -/
theorem answersOf_local {o : Op} (hd : o.isDatabase = false) (hc : o.isCancellable = false)
    (env : Nat → Choice) (s : State) (n : Nat) :
    answersOf env s n o = (effect o (env n) s).1 := by
  rw [answersOf, attempt_local hd hc]

theorem answersOf_query {env : Nat → Choice} {n : Nat} (hn : (env n).fault = .none) (o : Op)
    (s : State) : answersOf env s n o = (effect o (env n) s).1 := by
  rw [answersOf, attempt, hn]

theorem replay_readings (env : Nat → Choice) (s : State) (h : ¬QueryFails env) :
    (readings cfg campaign request).replay (answersOf env s)
      = .ok (readingsIn cfg campaign request env s) := by
  simp only [QueryFails, not_or, not_not] at h
  obtain ⟨h1, h2, h3, h4⟩ := h
  have hread : (readCapacity cfg campaign).eval (fun o n => (answersOf env s n o, n + 1)) 0
      = (.ok (readingsIn cfg campaign request env s).reading, 6) := by
    refine (Prog.eval_perform_bind (answersOf_local (o := .utcNow) rfl rfl env s 0) _).trans ?_
    refine (Prog.eval_perform_bind (answersOf_query h1 (.countAgentsByState _) s) _).trans ?_
    refine (Prog.eval_perform_bind (answersOf_query h2 (.countCallsByState _) s) _).trans ?_
    refine (Prog.eval_perform_bind (answersOf_query h3 (.countExpiredLeases _) s) _).trans ?_
    refine (Prog.eval_perform_bind (answersOf_query h4 (.outcomeCountsBetween ..) s) _).trans ?_
    exact Prog.eval_perform_bind (answersOf_local (o := .getHealth _) rfl rfl env s 5) _
  have hage : (snapshotAgeMs request).eval (fun o n => (answersOf env s n o, n + 1)) 6
      = (.ok (readingsIn cfg campaign request env s).snapshotAgeMs, 7) :=
    Prog.eval_perform_bind (answersOf_local (o := .utcNow) rfl rfl env s 6) _
  have hrest : (readings cfg campaign request).eval (fun o n => (answersOf env s n o, n + 1)) 0
      = (.ok (readingsIn cfg campaign request env s), 8) := by
    rw [readings, Prog.bind_eq, Prog.eval_bind, hread]
    refine (Prog.eval_bind _ _ _ _).trans ?_
    rw [hage]
    exact Prog.eval_perform_bind (answersOf_local (o := .recordAvailable ..) rfl rfl env s 7) _
  rw [Prog.replay, hrest]

/-- The first query that fails ends the reads. -/
theorem replay_readings_error (env : Nat → Choice) (s : State) (h : QueryFails env) :
    ∃ e, (readings cfg campaign request).replay (answersOf env s) = .error e := by
  have hfails : ∀ n, ∀ o : Op, o.isDatabase = true → o.isCancellable = true →
      (env n).fault ≠ .none → ∃ e, answersOf env s n o = .error e :=
    fun n o hd hc hn => attempt_of_fault hd hc hn s
  have hread : (readCapacity cfg campaign).Raises (fun o n => (answersOf env s n o, n + 1)) 0 := by
    refine Prog.raises_perform_bind (answersOf_local (o := .utcNow) rfl rfl env s 0) ?_
    by_cases h1 : (env 1).fault = .none
    · refine Prog.raises_perform_bind (answersOf_query h1 (.countAgentsByState _) s) ?_
      by_cases h2 : (env 2).fault = .none
      · refine Prog.raises_perform_bind (answersOf_query h2 (.countCallsByState _) s) ?_
        by_cases h3 : (env 3).fault = .none
        · refine Prog.raises_perform_bind (answersOf_query h3 (.countExpiredLeases _) s) ?_
          have h4 : (env 4).fault ≠ .none := by
            rcases h with h | h | h | h
            · exact absurd h1 h
            · exact absurd h2 h
            · exact absurd h3 h
            · exact h
          exact (Prog.raises_perform (hfails 4 (.outcomeCountsBetween ..) rfl rfl h4)).bind _
        · exact (Prog.raises_perform (hfails 3 (.countExpiredLeases _) rfl rfl h3)).bind _
      · exact (Prog.raises_perform (hfails 2 (.countCallsByState _) rfl rfl h2)).bind _
    · exact (Prog.raises_perform (hfails 1 (.countAgentsByState _) rfl rfl h1)).bind _
  exact hread.bind _

/-- What is approved, by what the reads come to. -/
theorem approved_of_evaluateOn {pacingDecisionId : Option String} {persist : Bool}
    {env : Nat → Choice} {s : State} {d : SafetyDecision}
    (h : evaluateOn cfg campaign request pacingDecisionId persist env s = .ok d) :
    d = evaluated cfg campaign request pacingDecisionId
      ((readings cfg campaign request).replay (answersOf env s)) := by
  have hsame : SameDocuments s s := ⟨rfl, rfl, rfl, rfl⟩
  rw [evaluateOn, eval_solo_of_readOnly (evaluate_readOnly ..) 0 env hsame 0] at h
  rcases replay_evaluate (answersOf env s) cfg campaign request pacingDecisionId persist with
    hd | ⟨hd, -⟩
  · exact Except.ok.inj (h.symm.trans hd)
  · cases h.symm.trans hd

/-! ## The room a campaign has -/

/-- The campaign itself is a reason to approve nothing. -/
def NoRoom (cfg : Settings) (campaign : Campaign) (request : PacingRequest) (r : Readings) : Prop :=
  request.requested ≤ 0 ∨ r.reading.availableAgents ≤ r.reading.reservedAgents
    ∨ campaign.maxConcurrentCalls ≤ r.reading.activeCalls
    ∨ ringingCeiling cfg r.reading ≤ r.reading.ringingCalls
    ∨ r.reading.providerStatus = .unhealthy ∨ SnapshotTooOld cfg r

theorem approvedOf_pos {requested : Int} {constraints : List SafetyConstraintResult} :
    0 < approvedOf requested constraints ↔ 0 < requested ∧ ∀ x ∈ constraints, 0 < x.limit := by
  have hmin : (requested :: constraints.map (·.limit)).min?
      = some ((constraints.map (·.limit)).foldl min requested) := List.min?_cons'
  obtain ⟨hmem, hle⟩ := List.min?_eq_some_iff.mp hmin
  rw [approvedOf, lt_max_iff, or_iff_right (lt_irrefl _)]
  constructor
  · intro hpos
    refine ⟨hpos.trans_le (hle _ List.mem_cons_self), fun x hx => ?_⟩
    exact hpos.trans_le (hle _ (List.mem_cons_of_mem _ (List.mem_map_of_mem hx)))
  · rintro ⟨hpos, hlim⟩
    rcases List.mem_cons.mp hmem with heq | hin
    · rw [heq]
      exact hpos
    · obtain ⟨x, hx, hxa⟩ := List.mem_map.mp hin
      rw [← hxa]
      exact hlim x hx

/-- Something is approved exactly when there is room, and no lease has expired. -/
theorem approved_pos_iff {r : Readings} :
    0 < approvedOf request.requested (constraintsOf cfg campaign request r)
      ↔ ¬NoRoom cfg campaign request r ∧ r.reading.expiredLeases = 0 := by
  have hstale : snapshotIsStale cfg r = true
      ↔ SnapshotTooOld cfg r ∨ 0 < r.reading.expiredLeases := snapshotIsStale_iff
  rw [approvedOf_pos]
  simp only [constraintsOf, buildConstraints, List.forall_mem_cons, NoRoom, not_or]
  constructor
  · rintro ⟨hreq, hcapacity, hconcurrency, hringing, hhealth, -, hfresh, -⟩
    have hnot : ¬snapshotIsStale cfg r = true := by
      intro h
      rw [if_pos h] at hfresh
      exact lt_irrefl _ hfresh
    rw [hstale, not_or] at hnot
    refine ⟨⟨by omega, by omega, by omega, by omega, ?_, hnot.1⟩, by omega⟩
    intro h
    rw [h] at hhealth
    exact lt_irrefl _ hhealth
  · rintro ⟨⟨hreq, hcapacity, hconcurrency, hringing, hhealth, hold⟩, hlease⟩
    have hnot : ¬snapshotIsStale cfg r = true := by
      rw [hstale]
      rintro (h | h)
      · exact hold h
      · omega
    have havailable : (0 : Int) < r.reading.availableAgents := by omega
    -- one limit for each constraint, in the order in which they are built
    refine ⟨by omega, by omega, by omega, by omega, ?_, ?_, ?_, ?_, ?_, fun x hx => by cases hx⟩
    · cases hs : r.reading.providerStatus with
      | healthy => exact not_le.mp hreq
      | degraded => exact havailable
      | unhealthy => exact absurd hs hhealth
    · split <;> omega
    · rw [if_neg hnot]
      omega
    · split <;> omega
    · split <;> omega

/-! ## Two databases -/

/-- The same reads, but for the number of expired leases. -/
def withExpiredLeases (r : Readings) (n : Nat) : Readings :=
  { r with reading := { r.reading with expiredLeases := n } }

/-- The reads of two evaluations, when the databases agree on the campaign. -/
theorem readingsIn_agree {env : Nat → Choice} {s s' : State} (h : AgreeOn campaign.id s s') :
    readingsIn cfg campaign request env s'
      = withExpiredLeases (readingsIn cfg campaign request env s)
        (AgentRepository.countExpiredLeases (env 0).now s'.agents) := by
  have hagents : ∀ p : Agent → Bool, (∀ a, p a = true → a.campaignId = campaign.id) →
      (s'.agents.find p).length = (s.agents.find p).length := by
    intro p hp
    exact (Collection.find_perm fun a ha => (h.agents a.id a (hp a ha)).symm).length_eq
  have hcalls : ∀ p : Call → Bool, (∀ d, p d = true → d.campaignId = campaign.id) →
      (s'.calls.find p).Perm (s.calls.find p) := by
    intro p hp
    exact Collection.find_perm fun d hd => (h.calls d.id d (hp d hd)).symm
  have hagentCounts : AgentRepository.countByState campaign.id s'.agents
      = AgentRepository.countByState campaign.id s.agents := by
    funext st
    exact hagents _ fun a ha => by simp_all
  have hcallCounts : CallRepository.countByState campaign.id s'.calls
      = CallRepository.countByState campaign.id s.calls := by
    funext st
    exact (hcalls _ fun d hd => by simp_all).length_eq
  have houtcomes : ∀ start stop, CallRepository.outcomeCountsBetween campaign.id start stop s'.calls
      = CallRepository.outcomeCountsBetween campaign.id start stop s.calls := by
    intro start stop
    have hended := hcalls (fun c => c.campaignId == campaign.id && c.terminal
      && c.endedAt.any (fun t => decide (start ≤ t ∧ t < stop))) fun d hd => by simp_all
    simp only [CallRepository.outcomeCountsBetween, hended.length_eq, (hended.filter _).length_eq]
  simp only [readingsIn, withExpiredLeases, hagentCounts, hcallCounts, houtcomes]

/-- How many leases have expired does not matter, only whether any has. -/
theorem approvedOf_congr {r : Readings} {n : Nat} (h : 0 < r.reading.expiredLeases ↔ 0 < n) :
    approvedOf request.requested (constraintsOf cfg campaign request (withExpiredLeases r n))
      = approvedOf request.requested (constraintsOf cfg campaign request r) := by
  have hstale : snapshotIsStale cfg (withExpiredLeases r n) = snapshotIsStale cfg r := by
    rw [Bool.eq_iff_iff, snapshotIsStale_iff, snapshotIsStale_iff]
    exact or_congr_right h.symm
  simp only [constraintsOf, hstale]
  rfl

/-- An expired lease on one side only shows, unless the campaign has no room. -/
theorem approvedOf_eq_iff {r : Readings} {n : Nat} :
    approvedOf request.requested (constraintsOf cfg campaign request r)
        = approvedOf request.requested (constraintsOf cfg campaign request (withExpiredLeases r n))
      ↔ (0 < r.reading.expiredLeases ↔ 0 < n) ∨ NoRoom cfg campaign request r := by
  have hpos : 0 < approvedOf request.requested (constraintsOf cfg campaign request r)
      ↔ ¬NoRoom cfg campaign request r ∧ r.reading.expiredLeases = 0 := approved_pos_iff
  have hpos' : 0 < approvedOf request.requested
        (constraintsOf cfg campaign request (withExpiredLeases r n))
      ↔ ¬NoRoom cfg campaign request r ∧ n = 0 := approved_pos_iff
  have hnonneg : 0 ≤ approvedOf request.requested (constraintsOf cfg campaign request r) :=
    le_max_left _ _
  have hnonneg' : 0 ≤ approvedOf request.requested
      (constraintsOf cfg campaign request (withExpiredLeases r n)) := le_max_left _ _
  constructor
  · intro heq
    rw [← heq, hpos] at hpos'
    by_cases hno : NoRoom cfg campaign request r
    · exact .inr hno
    · have hzero := and_congr_right_iff.mp hpos' hno
      exact .inl (by omega)
  -- the constraints are the same, or there is no room and nothing is approved on either side
  · rintro (hsame | hno)
    · exact (approvedOf_congr hsame).symm
    · have h : ¬0 < approvedOf request.requested (constraintsOf cfg campaign request r) :=
        fun h => (hpos.mp h).1 hno
      have h' : ¬0 < approvedOf request.requested
          (constraintsOf cfg campaign request (withExpiredLeases r n)) :=
        fun h => (hpos'.mp h).1 hno
      omega

/--
**Campaigns are not isolated.** Two databases that agree on the campaign are given the
same approval exactly when both have an expired lease somewhere or neither does, or the
evaluation approves nothing in any case.
-/
theorem evaluate_isolated (cfg : Settings) (campaign : Campaign) (request : PacingRequest)
    (pacingDecisionId : Option String) (persist : Bool) (env : Nat → Choice) (s s' : State)
    (d d' : SafetyDecision) (hagree : AgreeOn campaign.id s s')
    (hd : evaluateOn cfg campaign request pacingDecisionId persist env s = .ok d)
    (hd' : evaluateOn cfg campaign request pacingDecisionId persist env s' = .ok d') :
    d.approved = d'.approved
      ↔ (0 < AgentRepository.countExpiredLeases (env 0).now s.agents
          ↔ 0 < AgentRepository.countExpiredLeases (env 0).now s'.agents)
        ∨ QueryFails env ∨ NoRoom cfg campaign request (readingsIn cfg campaign request env s) := by
  have heval := approved_of_evaluateOn hd
  have heval' := approved_of_evaluateOn hd'
  by_cases hfails : QueryFails env
  · have herror : ∀ t, ∃ e, (readings cfg campaign request).replay (answersOf env t) = .error e :=
      fun t => replay_readings_error env t hfails
    obtain ⟨e, he⟩ := herror s
    obtain ⟨e', he'⟩ := herror s'
    rw [he] at heval
    rw [he'] at heval'
    refine iff_of_true ?_ (.inr (.inl hfails))
    rw [heval, heval']
    rfl
  · rw [replay_readings env s hfails] at heval
    rw [replay_readings env s' hfails, readingsIn_agree hagree] at heval'
    rw [heval, heval', or_iff_right hfails]
    exact approvedOf_eq_iff

/-- An agent of the campaign, with nothing to do. -/
def waiting : Agent where
  id := "agent"
  campaignId := "campaign"
  state := .available
  stateChangedAt := 0

/-- Another campaign's agent, whose reservation was not renewed. -/
def lapsed : Agent where
  id := "other agent"
  campaignId := "other campaign"
  state := .reserved
  reservedBy := some "worker"
  leaseExpiresAt := some 30000
  stateChangedAt := 0

/-- A database with these agents in it, and nothing else. -/
def staffed (docs : List Agent) (h : (docs.map key).Nodup) : State :=
  ⟨⟨docs, h⟩, .empty, .empty, .empty, []⟩

/-- Every clock reads 40 seconds. -/
def later (_ : Nat) : Choice := { now := 40000 }

/-- The campaign's own agent is all there is, and then there is the other campaign's too. -/
theorem staffed_agree :
    AgreeOn "campaign" (staffed [waiting] (by decide)) (staffed [waiting, lapsed] (by decide)) := by
  refine ⟨fun k a ha => ?_, fun _ _ _ => Iff.rfl⟩
  have hne : a ≠ lapsed := by
    rintro rfl
    exact absurd ha (by decide)
  rw [Collection.get_eq_some_iff, Collection.get_eq_some_iff]
  simp [staffed, hne]

/-- Both evaluations return, and they agree only if the campaign has no room. -/
theorem evaluate_isolated_lapsed :
    ∃ d d', evaluateOn {} { id := "campaign" } ⟨1, .progressive, 40000⟩ none false later
          (staffed [waiting] (by decide)) = .ok d
      ∧ evaluateOn {} { id := "campaign" } ⟨1, .progressive, 40000⟩ none false later
          (staffed [waiting, lapsed] (by decide)) = .ok d'
      ∧ (d.approved = d'.approved
        ↔ NoRoom {} { id := "campaign" } ⟨1, .progressive, 40000⟩
          (readingsIn {} { id := "campaign" } ⟨1, .progressive, 40000⟩ later
            (staffed [waiting] (by decide)))) := by
  have hreturns : ∀ s : State, (evaluateOn {} { id := "campaign" } ⟨1, .progressive, 40000⟩ none
      false later s).isOk = true → ∃ d, evaluateOn {} { id := "campaign" }
        ⟨1, .progressive, 40000⟩ none false later s = .ok d := by
    intro s hs
    cases he : evaluateOn {} { id := "campaign" } ⟨1, .progressive, 40000⟩ none false later s with
    | ok d => exact ⟨d, rfl⟩
    | error e =>
        rw [he] at hs
        cases hs
  obtain ⟨d, hd⟩ := hreturns (staffed [waiting] (by decide)) (by decide +kernel)
  obtain ⟨d', hd'⟩ := hreturns (staffed [waiting, lapsed] (by decide)) (by decide +kernel)
  refine ⟨d, d', hd, hd', ?_⟩
  have hiff := evaluate_isolated {} { id := "campaign" } ⟨1, .progressive, 40000⟩ none false later
    _ _ d d' staffed_agree hd hd'
  rw [hiff, or_iff_right (by decide +kernel), or_iff_right]
  simp [QueryFails, later]

/-- An agent of another campaign stops this one. -/
theorem evaluate_not_isolated :
    AgreeOn "campaign" (staffed [waiting] (by decide)) (staffed [waiting, lapsed] (by decide))
      ∧ (evaluateOn {} { id := "campaign" } ⟨1, .progressive, 40000⟩ none false later
          (staffed [waiting] (by decide))).map (·.approved) = .ok 1
      ∧ (evaluateOn {} { id := "campaign" } ⟨1, .progressive, 40000⟩ none false later
          (staffed [waiting, lapsed] (by decide))).map (·.approved) = .ok 0 :=
  ⟨staffed_agree, by decide +kernel, by decide +kernel⟩

end SafetyController

end SmartDialer
