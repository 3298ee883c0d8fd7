import SmartDialer.Workers.PacedDialing

/-!
# The audit trail

A pacing request that is not idle is recorded, and so is the decision of the safety controller
that answers it, with the id of the request. The decisions are there to explain the calls: who
asks why a call was made is shown a decision that approved it, and the request it approved.

That the explanation exists takes more than the two records. The record of a decision may fail,
and is then skipped; a request without calls is not recorded at all; and it is the allocator that
makes the calls, long after. `originates_audited` says that nothing gets by: before each originate
of a worker there is a decision, which was submitted to the record, and the request it names,
which is on record; and there have not been more originates since than the decision approved.
-/

namespace SmartDialer

open Conc

variable {cfg : Settings} {pacing : PacingSettings}

/-! ## What is on record -/

/-- The decision is about the request that was recorded as `id`, and approves no more. -/
structure SafetyDecision.Answers (d : SafetyDecision) (campaignId : String)
    (request : PacingRequest) (id : String) : Prop where
  campaign : d.campaignId = campaignId
  requested : d.requested = request.requested
  pacing : d.pacingDecisionId = some id
  approved_le : d.approved ≤ request.requested

/-- On record is a request, and a decision that answers it; of what it approved, `n` calls are
left to be made. -/
def OnRecord (campaignId : String) (request : PacingRequest) (past : List (Reply sig)) (n : Int) :
    Prop :=
  ∃ (later : List (Reply sig)) (d : SafetyDecision) (r : Except Exn Unit)
    (between : List (Reply sig)) (id : String) (earlier : List (Reply sig)),
    past = later ++ ⟨.recordSafetyDecision d, r⟩ :: (between
        ++ ⟨.recordPacingRequest campaignId request, .ok id⟩ :: earlier)
      ∧ d.Answers campaignId request id ∧ Prog.tally Op.originates later + n ≤ d.approved

/-- An originate, when `past` is what the tick has been answered: it is accounted for. -/
def Op.Audited (campaign : Campaign) (request : PacingRequest) (past : List (Reply sig))
    (o : Op) : Prop :=
  o.AsksFor campaign ∧ (o.originates = true → OnRecord campaign.id request past 1)

variable {campaign : Campaign} {request : PacingRequest} {past : List (Reply sig)}

theorem Op.audited_of_quiet {o : Op} (h : o.NoOriginate) : o.Audited campaign request past :=
  ⟨Op.asksFor_of_quiet h, fun ho => Bool.noConfusion (h.symm.trans ho)⟩

theorem OnRecord.since {campaignId : String} {n n' : Int} (h : OnRecord campaignId request past n)
    {since : List (Reply sig)} (hn : Prog.tally Op.originates since + n' ≤ n) :
    OnRecord campaignId request (since ++ past) n' := by
  obtain ⟨later, d, r, between, id, earlier, rfl, hanswers, hleft⟩ := h
  refine ⟨since ++ later, d, r, between, id, earlier, (List.append_assoc ..).symm, hanswers, ?_⟩
  rw [Prog.tally_append]
  push_cast
  omega

/-! ## The evaluation -/

namespace SafetyController

/-- What is decided is decided about the request. -/
structure About (campaign : Campaign) (request : PacingRequest) (pacingDecisionId : Option String)
    (d : SafetyDecision) : Prop where
  campaign : d.campaignId = campaign.id
  requested : d.requested = request.requested
  pacing : d.pacingDecisionId = pacingDecisionId
  approved : 0 < d.approved → d.approved ≤ request.requested

theorem decideOrReject_yields (pacingDecisionId : Option String) :
    (decideOrReject cfg campaign request pacingDecisionId).Yields
      (About campaign request pacingDecisionId) := by
  refine Prog.yields_tryCatch (Prog.yields_bind fun r => ?_) fun e => ?_
  · constructor
    · rfl
    · rfl
    · rfl
    · exact fun hpos => approved_le_requested (requested_nonneg_of_approved hpos) pacingDecisionId
  · split
    · exact ⟨rfl, rfl, rfl, fun hpos => absurd hpos (lt_irrefl 0)⟩
    · trivial

theorem decideOrReject_quiet (pacingDecisionId : Option String) :
    (decideOrReject cfg campaign request pacingDecisionId).All Op.NoOriginate := by
  have hevaluate : (evaluate cfg campaign request pacingDecisionId false).All Op.Evaluation :=
    evaluate_all ..
  refine hevaluate.of_bind.mono fun o ho => ?_
  cases o <;> first | rfl | exact ho.elim

/-- **A decision is submitted to the record** before it is acted on, if it is to be recorded. -/
theorem evaluate_recorded (pacingDecisionId : Option String) (persist : Bool) :
    (evaluate cfg campaign request pacingDecisionId persist).Follows
      (Op.Audited campaign request) (fun result past' => ∀ d, result = .ok d →
        About campaign request pacingDecisionId d ∧ (persist = true →
          ∃ r between, past' = ⟨.recordSafetyDecision d, r⟩ :: (between ++ past))) past := by
  have hyields : (decideOrReject cfg campaign request pacingDecisionId).Yields
      (About campaign request pacingDecisionId) := decideOrReject_yields pacingDecisionId
  refine Prog.follows_bind ((hyields.follows (decideOrReject_quiet pacingDecisionId)
    fun _ _ => Op.audited_of_quiet).mono fun result past₁ _ h => ?_)
  obtain ⟨habout, between, rfl, -⟩ := h
  cases result with
  | error e => exact fun _ heq => by cases heq
  | ok d =>
      cases persist with
      | false =>
          rintro d' heq
          obtain rfl := Except.ok.inj heq
          exact ⟨habout d rfl, fun h => by cases h⟩
      | true =>
          refine Prog.follows_bind (Prog.follows_tryCatch
            (Prog.follows_perform (Op.audited_of_quiet rfl) fun r => ?_))
          have hrecorded : ∀ d', (.ok d : Except Exn SafetyDecision) = .ok d' →
              About campaign request pacingDecisionId d' ∧ (true = true → ∃ r' between',
                (⟨.recordSafetyDecision d, r⟩ :: (between ++ past) : List (Reply sig))
                  = ⟨.recordSafetyDecision d', r'⟩ :: (between' ++ past)) := by
            rintro d' heq
            obtain rfl := Except.ok.inj heq
            exact ⟨habout d rfl, fun _ => ⟨r, between, rfl⟩⟩
          cases r with
          | ok _ => exact hrecorded
          | error e =>
              dsimp only
              split
              · exact hrecorded
              · exact fun _ heq => by cases heq

end SafetyController

/-! ## The tick -/

/-- **Each originate of a tick** is accounted for. -/
theorem tick_audited (workerId : String) (past : List (Reply sig)) :
    (DialerBase.tick cfg campaign request workerId).Follows (Op.Audited campaign request)
      (fun _ _ => True) past := by
  have hallocate : ∀ (d : SafetyDecision) (past' : List (Reply sig)),
      (0 < d.approved → OnRecord campaign.id request past' d.approved) →
      (do
        let allocation ← CallAllocator.allocate cfg campaign d.approved workerId
        await (.logEvent "dialer_tick" campaign.id)
        pure allocation : Async AllocationResult).Follows (Op.Audited campaign request)
        (fun _ _ => True) past' := by
    intro d past₁ hrecord
    obtain ⟨hcount, hasks⟩ : (CallAllocator.allocate cfg campaign d.approved workerId).AtMost
        Op.originates d.approved.toNat
        ∧ (CallAllocator.allocate cfg campaign d.approved workerId).All (Op.AsksFor campaign) :=
      CallAllocator.allocate_atMost d.approved workerId
    refine Prog.follows_bind (((hcount.follows past₁).and_all hasks).imp ?_ |>.mono
      fun r past₂ _ _ => ?_)
    · rintro past₂ o - ⟨⟨since, rfl, hsince⟩, ho⟩
      refine ⟨ho, fun horiginates => ?_⟩
      have hlt := hsince horiginates
      refine (hrecord (by omega)).since ?_
      omega
    · cases r with
      | error e => trivial
      | ok _ =>
          exact Prog.follows_perform_bind (Op.audited_of_quiet rfl) (fun _ => trivial)
            fun _ => trivial
  refine Prog.follows_bind ?_
  rw [DialerBase.recordRequest]
  split
  · rename_i hidle
    refine Prog.follows_bind ((SafetyController.evaluate_recorded none _).mono
      fun result past₁ _ h => ?_)
    cases result with
    | error e => trivial
    | ok d =>
        refine hallocate d past₁ fun hpos => ?_
        have hle := (h d rfl).1.approved hpos
        omega
  · rename_i hbusy
    refine Prog.follows_perform_bind (Op.audited_of_quiet rfl) (fun _ => trivial) fun id => ?_
    refine Prog.follows_bind ((SafetyController.evaluate_recorded (some id) _).mono
      fun result past₁ _ h => ?_)
    cases result with
    | error e => trivial
    | ok d =>
        obtain ⟨habout, hrecorded⟩ := h d rfl
        obtain ⟨r, between, rfl⟩ := hrecorded (bne_iff_ne.mpr hbusy)
        refine hallocate d _ fun hpos => ⟨[], d, r, between, id, past, rfl, ?_, by simp⟩
        exact ⟨habout.campaign, habout.requested, habout.pacing, habout.approved hpos⟩

/-! ## The worker -/

/-- If it is an originate, it is accounted for in what the worker has been answered. -/
def OnTrail (past : List (Reply appSig)) (o : Op ⊕ AppOp) : Prop :=
  ∀ providerName pair request, o = .inl (.originateCall providerName pair request) →
    ∃ (paced : PacingRequest) (later : List (Reply appSig)) (d : SafetyDecision)
      (r : Except Exn Unit) (between : List (Reply appSig)) (id : String)
      (earlier : List (Reply appSig)),
      past = later ++ ⟨.inl (.recordSafetyDecision d), r⟩ :: (between
          ++ ⟨.inl (.recordPacingRequest request.campaignId paced), .ok id⟩ :: earlier)
        ∧ d.Answers request.campaignId paced id
        ∧ (Prog.tally appOriginates later : Int) + 1 ≤ d.approved

theorem licenses_onTrail (workerId : String) : Licenses cfg pacing workerId OnTrail where
  quiet past o ho := by
    rintro providerName pair request rfl
    cases ho
  tick {campaigns campaign seen observed earlier} hfound hmem hobserved := by
    refine (tick_audited workerId []).imp ?_
    rintro new o - ⟨hasks, hrecord⟩ providerName pair request ho
    obtain rfl := Sum.inl.inj ho
    obtain ⟨later, d, r, between, id, older, rfl, hanswers, hleft⟩ := hrecord rfl
    obtain ⟨-, hcampaign⟩ := hasks
    rw [hcampaign]
    refine ⟨_, later.map Reply.lift, d, r, between.map Reply.lift, id,
      older.map Reply.lift ++ (observed
        ++ ⟨.inl (.countAgentsByState campaign.id), .ok seen.agentCounts⟩ :: earlier),
      ?_, hanswers, ?_⟩
    · rw [List.map_append, List.map_cons, List.map_append, List.map_cons, List.append_assoc,
        List.cons_append, List.append_assoc, List.cons_append]
      rfl
    · rw [tally_task]
      exact hleft

/--
**Every originate of a dialer worker is on the audit trail.** In every run of the application, an
originate of a worker comes after a decision of the safety controller that was submitted to the
record; the decision names a pacing request that is on record, for the same campaign, and approves
no more than it asked for; and with this one there have been no more originates of the worker since
than the decision approves.
-/
theorem originates_audited {P : Policy (application cfg pacing).recorded} {Init : AppState → Prop}
    {i : Nat} {workerId : String} {iterations : Nat} {w : World (application cfg pacing).recorded}
    (h : Started P (Blank Init) i (.dialerWorker workerId iterations) w)
    {m : Moment (application cfg pacing)} {past : List (Moment (application cfg pacing))}
    (hm : m :: past <:+ w.st.2) (hi : m.process = i) {providerName : String}
    {pair : ReservationPair} {request : OriginateRequest}
    (ho : m.op = .inl (.originateCall providerName pair request)) :
    ∃ (later : List (Moment (application cfg pacing))) (record : Moment (application cfg pacing))
      (between : List (Moment (application cfg pacing))) (asked : Moment (application cfg pacing))
      (earlier : List (Moment (application cfg pacing))) (d : SafetyDecision)
      (paced : PacingRequest) (id : String),
      past = later ++ record :: (between ++ asked :: earlier)
        ∧ record.process = i ∧ record.op = .inl (.recordSafetyDecision d)
        ∧ asked.process = i
        ∧ asked.reply = ⟨.inl (.recordPacingRequest request.campaignId paced), .ok id⟩
        ∧ d.Answers request.campaignId paced id
        ∧ (Performed appOriginates i later : Int) + 1 ≤ d.approved := by
  obtain ⟨paced, later, d, r, between, id, earlier, hpast, hanswers, hleft⟩ :=
    h.justified ((licenses_onTrail workerId).runDialer iterations []) hm hi providerName pair
      request ho
  obtain ⟨later, record, rest, rfl, hrecord, hdecision, hlater, hrest⟩ := replies_split hpast
  obtain ⟨between, asked, earlier, rfl, hasked, hrequest, -, -⟩ := replies_split hrest
  obtain ⟨j, c, s, rfl, -⟩ := Moment.exists_of_reply hdecision
  refine ⟨later, _, between, asked, earlier, d, paced, id, rfl, hrecord, rfl, hasked, hrequest,
    hanswers, ?_⟩
  rw [← tally_replies, hlater]
  exact hleft

/-- The first call of a worker, and the decision that approved it. -/
theorem originates_audited_firstOriginate :
    ∃ (w : World (application {} {}).recorded) (m record : Moment (application {} {}))
      (d : SafetyDecision), m ∈ w.st.2 ∧ record ∈ w.st.2 ∧ appOriginates m.op = true
        ∧ record.op = .inl (.recordSafetyDecision d) ∧ 1 ≤ d.approved := by
  obtain ⟨w, m, past, providerName, pair, request, hw, hpast, hi, hop⟩ := exists_originate
  have hsuffix : m :: past <:+ w.st.2 := hpast ▸ List.suffix_rfl
  obtain ⟨later, record, between, asked, earlier, d, paced, id, rfl, -, hrecord, -, -, -, hleft⟩ :=
    originates_audited hw hsuffix hi hop
  exact ⟨w, m, record, d, hpast ▸ by simp, hpast ▸ by simp, by rw [hop]; rfl, hrecord, by omega⟩

end SmartDialer
