import SmartDialer.Conc.Retrospect
import SmartDialer.Safety.SafetyGate
import SmartDialer.Workers.DialerWorker

/-!
# What a tick may ask for

A tick asks the provider for as many calls as the safety controller approved, and no more; and
what was approved is within the readings the controller took at the head of the evaluation. While
the tick works its way through what was approved, others change the database, and the readings are
no longer true. But they are the tick's own answers: `tick_budgeted` holds each originate against
them, however many there have been since.
-/

namespace SmartDialer

open Conc

/-- It asks the provider for a call. -/
def Op.originates : Op → Bool
  | .originateCall .. => true
  | _ => false

/-- It does not. -/
def Op.NoOriginate (o : Op) : Prop := o.originates = false

/-- If it asks for a call, it is one of the campaign. -/
def Op.AsksFor (campaign : Campaign) : Op → Prop
  | .originateCall providerName _ request =>
      providerName = campaign.providerName ∧ request.campaignId = campaign.id
  | _ => True

variable {cfg : Settings} {campaign : Campaign} {request : PacingRequest}

theorem Op.asksFor_of_quiet {o : Op} (h : o.NoOriginate) : o.AsksFor campaign := by
  cases o with
  | originateCall => cases h
  | _ => trivial

/-! ## One dial, one call -/

namespace ReservationService

theorem releaseAgent_quiet (agentId workerId : String) (shielded : Bool) :
    (releaseAgent agentId workerId shielded).All Op.NoOriginate :=
  Prog.all_bind (Agents.releaseAgent_all rfl) fun _ => trivial

theorem releasePair_quiet (pair : ReservationPair) (outcome : BorrowerReleaseOutcome)
    (shielded : Bool) :
    (releasePair cfg pair outcome shielded).All Op.NoOriginate :=
  Prog.all_bind (releaseAgent_quiet ..) fun _ =>
    Prog.all_bind (Prog.all_perform rfl) fun _ => trivial

theorem claimFirstAgent_quiet (campaignId workerId : String) (candidates : List Agent) :
    (claimFirstAgent cfg campaignId workerId candidates).All Op.NoOriginate := by
  induction candidates with
  | nil => trivial
  | cons candidate rest ih =>
      refine Prog.all_bind (Prog.all_perform rfl) fun answer => ?_
      cases answer with
      | none => exact ih
      | some _ => trivial

theorem claimFirstBorrower_quiet (campaignId workerId : String) (candidates : List Borrower) :
    (claimFirstBorrower cfg campaignId workerId candidates).All Op.NoOriginate := by
  induction candidates with
  | nil => trivial
  | cons candidate rest ih =>
      refine Prog.all_bind (Prog.all_perform rfl) fun answer => ?_
      cases answer with
      | none => exact ih
      | some _ => trivial

theorem reservePair_quiet (campaignId workerId : String) :
    (reservePair cfg campaignId workerId).All Op.NoOriginate := by
  refine Prog.all_bind (Prog.all_bind (Prog.all_perform rfl) fun _ =>
    claimFirstAgent_quiet ..) fun answer => ?_
  cases answer with
  | none => trivial
  | some agent =>
      refine Prog.all_bind (Prog.all_tryCatch (Prog.all_bind (Prog.all_perform rfl)
        fun _ => claimFirstBorrower_quiet ..) fun e => ?_) fun borrower => ?_
      · split
        · exact Prog.all_bind (releaseAgent_quiet ..) fun _ => trivial
        · trivial
      · cases borrower with
        | none => exact Prog.all_bind (releaseAgent_quiet ..) fun _ => trivial
        | some _ => trivial

end ReservationService

namespace CallAllocator

theorem retrySuppressed_quiet (pair : ReservationPair) :
    (retrySuppressed cfg campaign pair).All Op.NoOriginate := by
  rw [retrySuppressed]
  split
  · refine Prog.all_bind ?_ fun _ => trivial
    rw [shouldRetry]
    split
    · trivial
    · refine Prog.all_bind (Prog.all_perform rfl) fun now => ?_
      split
      · trivial
      · exact Prog.all_perform rfl
  · trivial

theorem createCall_quiet (campaignId agentId borrowerId providerName workerId : String)
    (attempt : Nat) :
    (Calls.createCall campaignId agentId borrowerId providerName workerId attempt).All
      Op.NoOriginate := by
  refine Prog.all_tryCatch (Prog.all_perform rfl) fun e => ?_
  split
  · refine Prog.all_bind (Prog.all_perform rfl) fun existing => ?_
    cases existing <;> trivial
  · trivial

theorem hangup_quiet (providerName : String) (providerCallId : Option String) :
    (hangup providerName providerCallId).All Op.NoOriginate := by
  rw [hangup]
  split
  · trivial
  · refine Prog.all_tryCatch (Prog.all_perform rfl) fun e => ?_
    split <;> trivial

theorem failDial_quiet (pair : ReservationPair) (callId : String) (reason : Option String) :
    (failDial cfg pair callId reason).All Op.NoOriginate :=
  Prog.all_bind (Prog.all_perform rfl) fun _ =>
    Prog.all_bind (ReservationService.releasePair_quiet ..) fun _ => trivial

theorem concludeDial_quiet (pair : ReservationPair) (callId : String)
    (result : Option OriginateResult) :
    (concludeDial cfg campaign pair callId result).All Op.NoOriginate := by
  rw [concludeDial.eq_def]
  split
  · exact failDial_quiet ..
  · split
    · exact failDial_quiet ..
    · refine Prog.all_bind (Prog.all_perform rfl) fun answer => ?_
      cases answer with
      | none => exact Prog.all_bind (hangup_quiet ..) fun _ => failDial_quiet ..
      | some _ => trivial

theorem compensate_quiet (pair : ReservationPair) :
    (compensateCancelledDial cfg pair).All Op.NoOriginate := by
  refine Prog.all_tryCatch (ReservationService.releasePair_quiet ..) fun e => ?_
  split <;> trivial

/-- A request to the provider is the one operation of `_originate`. -/
theorem originate_atMost (pair : ReservationPair) (callId : String) :
    (originate cfg campaign pair callId).AtMost Op.originates 1
      ∧ (originate cfg campaign pair callId).All (Op.AsksFor campaign) := by
  rw [originate]
  split
  · exact ⟨trivial, trivial⟩
  · refine ⟨Prog.AtMost.tryCatch (n := 0) (Prog.AtMost.bind (n := 0) (.perform _) fun _ => trivial)
      fun e => ?_, ?_⟩
    · split <;> trivial
    · refine Prog.all_tryCatch (Prog.all_bind (Prog.all_perform ⟨rfl, rfl⟩) fun _ => trivial)
        fun e => ?_
      split <;> trivial

/-- **A dial asks for one call at most**, of its own campaign. -/
theorem dial_atMost (pair : ReservationPair) :
    (dial cfg campaign pair).AtMost Op.originates 1
      ∧ (dial cfg campaign pair).All (Op.AsksFor campaign) := by
  have hrelease : (do
      ReservationService.releasePair cfg pair .released false
      pure false : Async Bool).All Op.NoOriginate :=
    Prog.all_bind (ReservationService.releasePair_quiet ..) fun _ => trivial
  have hlaunch : ∀ callId, (launch cfg campaign pair callId).AtMost Op.originates 1
      ∧ (launch cfg campaign pair callId).All (Op.AsksFor campaign) := by
    intro callId
    have hdialing : (Agents.transitionAgent pair.agent.id .reserved .dialing .allocator
        pair.agent.stateVersion).All Op.NoOriginate :=
      Agents.transitionAgent_all fun _ _ => rfl
    obtain ⟨hcount, hasks⟩ : (originate cfg campaign pair callId).AtMost Op.originates 1
        ∧ (originate cfg campaign pair callId).All (Op.AsksFor campaign) :=
      originate_atMost pair callId
    refine ⟨.after hdialing fun _ => .after (Prog.all_perform rfl) fun _ =>
      hcount.bind (n := 0) fun _ => .of_all (concludeDial_quiet ..), ?_⟩
    exact Prog.all_bind (hdialing.mono fun _ => Op.asksFor_of_quiet) fun _ =>
      Prog.all_bind (Prog.all_perform trivial) fun _ => Prog.all_bind hasks fun _ =>
        (concludeDial_quiet ..).mono fun _ => Op.asksFor_of_quiet
  refine ⟨.after (retrySuppressed_quiet pair) fun suppressed => ?_, Prog.all_bind
    ((retrySuppressed_quiet pair).mono fun _ => Op.asksFor_of_quiet) fun suppressed => ?_⟩
  · cases suppressed with
    | true => exact (Prog.AtMost.of_all hrelease).mono (Nat.zero_le 1)
    | false =>
        refine .after (createCall_quiet ..) fun call => ?_
        split
        · exact (Prog.AtMost.of_all hrelease).mono (Nat.zero_le 1)
        · refine .after (Prog.all_perform rfl) fun _ => .after (Prog.all_perform rfl)
            fun initiated => ?_
          split
          · exact (Prog.AtMost.of_all hrelease).mono (Nat.zero_le 1)
          · exact (hlaunch call.id).1
  · cases suppressed with
    | true => exact hrelease.mono fun _ => Op.asksFor_of_quiet
    | false =>
        refine Prog.all_bind ((createCall_quiet ..).mono fun _ => Op.asksFor_of_quiet)
          fun call => ?_
        split
        · exact hrelease.mono fun _ => Op.asksFor_of_quiet
        · refine Prog.all_bind (Prog.all_perform trivial) fun _ =>
            Prog.all_bind (Prog.all_perform trivial) fun initiated => ?_
          split
          · exact hrelease.mono fun _ => Op.asksFor_of_quiet
          · exact (hlaunch call.id).2

theorem dialOrCompensate_atMost (pair : ReservationPair) :
    (dialOrCompensate cfg campaign pair).AtMost Op.originates 1
      ∧ (dialOrCompensate cfg campaign pair).All (Op.AsksFor campaign) := by
  obtain ⟨hcount, hasks⟩ : (dial cfg campaign pair).AtMost Op.originates 1
      ∧ (dial cfg campaign pair).All (Op.AsksFor campaign) := dial_atMost pair
  have hhandler : ∀ e : Exn, (if e = .cancelledError then do
        compensateCancelledDial cfg pair
        throw e
      else throw e : Async Bool).All Op.NoOriginate := by
    intro e
    split
    · exact Prog.all_bind (compensate_quiet pair) fun _ => trivial
    · trivial
  exact ⟨hcount.tryCatch (n := 0) fun e => .of_all (hhandler e),
    Prog.all_tryCatch hasks fun e => (hhandler e).mono fun _ => Op.asksFor_of_quiet⟩

/-- **An allocation asks for as many calls as were approved**, at most. -/
theorem allocate_atMost (approved : Int) (workerId : String) :
    (allocate cfg campaign approved workerId).AtMost Op.originates approved.toNat
      ∧ (allocate cfg campaign approved workerId).All (Op.AsksFor campaign) := by
  have hreserve : (reservePair cfg campaign.id workerId).All Op.NoOriginate := by
    refine Prog.all_tryCatch (ReservationService.reservePair_quiet ..) fun e => ?_
    split <;> trivial
  rw [allocate]
  generalize approved.toNat = n, (0 : Nat) = consecutive, ({} : AllocationResult) = result
  induction n generalizing consecutive result with
  | zero => exact ⟨trivial, trivial⟩
  | succ n ih =>
      refine ⟨.after hreserve fun answer => ?_, Prog.all_bind
        (hreserve.mono fun _ => Op.asksFor_of_quiet) fun answer => ?_⟩
      · cases answer with
        | none =>
            dsimp only
            split
            · trivial
            · exact (ih _ _).1.mono (Nat.le_succ n)
        | some pair =>
            refine Nat.add_comm 1 n ▸ (dialOrCompensate_atMost pair).1.bind fun dialled => ?_
            split
            · exact (ih _ _).1
            · exact (ih _ _).1
      · cases answer with
        | none =>
            dsimp only
            split
            · trivial
            · exact (ih _ _).2
        | some pair =>
            refine Prog.all_bind (dialOrCompensate_atMost pair).2 fun dialled => ?_
            split
            · exact (ih _ _).2
            · exact (ih _ _).2

end CallAllocator

/-! ## What stands behind an approval -/

/--
The readings allow `n` calls. Agents were counted first, as `agentCounts`; the rest is among the
answers given `later`.
-/
structure Backed (cfg : Settings) (campaign : Campaign) (request : PacingRequest)
    (agentCounts : AgentState → Nat) (later : List (Reply sig)) (n : Int) : Prop where
  requested : n ≤ request.requested
  /-- No more than agents are free and not spoken for. -/
  capacity : n ≤ (agentCounts .available : Int) - agentCounts .reserved
  /-- No more than the campaign has left of its concurrency, and of its ringing calls. -/
  calls : ∃ callCounts, ⟨.countCallsByState campaign.id, .ok callCounts⟩ ∈ later
    ∧ n ≤ (campaign.maxConcurrentCalls : Int) - ((activeCallStates.map callCounts).sum : Nat)
    ∧ n ≤ truncate (cfg.maxRingingRatio * agentCounts .available) - callCounts .ringing
  healthy : ∃ status, ⟨.getHealth campaign.providerName, .ok status⟩ ∈ later
    ∧ status ≠ .unhealthy
  /-- No lease had expired, of whatever campaign. -/
  leases : ∃ now, ⟨.countExpiredLeases now, .ok 0⟩ ∈ later
  fresh : ∃ now, ⟨.utcNow, .ok now⟩ ∈ later
    ∧ (wholeMs (now - request.snapshotCapturedAt) : ℚ) ≤ cfg.maxSnapshotAgeSeconds * 1000

/-- Of the answers, the count of agents that stands behind `n` calls; so many more may be asked
for now. -/
def Approved (cfg : Settings) (campaign : Campaign) (request : PacingRequest)
    (past : List (Reply sig)) (n : Int) : Prop :=
  ∃ (later : List (Reply sig)) (agentCounts : AgentState → Nat) (earlier : List (Reply sig)),
    past = later ++ ⟨.countAgentsByState campaign.id, .ok agentCounts⟩ :: earlier
      ∧ Prog.tally Op.originates earlier = 0
      ∧ Backed cfg campaign request agentCounts later (Prog.tally Op.originates later + n)

/-- An originate, when `past` is what the tick has been answered: one more was approved. -/
def Op.Budgeted (cfg : Settings) (campaign : Campaign) (request : PacingRequest)
    (past : List (Reply sig)) (o : Op) : Prop :=
  o.AsksFor campaign ∧ (o.originates = true → Approved cfg campaign request past 1)

theorem Backed.mono {agentCounts : AgentState → Nat} {later later' : List (Reply sig)} {n n' : Int}
    (h : Backed cfg campaign request agentCounts later n) (hn : n' ≤ n)
    (hlater : ∀ r ∈ later, r ∈ later') :
    Backed cfg campaign request agentCounts later' n' where
  requested := hn.trans h.requested
  capacity := hn.trans h.capacity
  calls := by
    obtain ⟨callCounts, hmem, hactive, hringing⟩ := h.calls
    exact ⟨callCounts, hlater _ hmem, hn.trans hactive, hn.trans hringing⟩
  healthy := by
    obtain ⟨status, hmem, hstatus⟩ := h.healthy
    exact ⟨status, hlater _ hmem, hstatus⟩
  leases := by
    obtain ⟨now, hmem⟩ := h.leases
    exact ⟨now, hlater _ hmem⟩
  fresh := by
    obtain ⟨now, hmem, hage⟩ := h.fresh
    exact ⟨now, hlater _ hmem, hage⟩

/-- Of what was approved, some has been asked for since. -/
theorem Approved.since {past since : List (Reply sig)} {n n' : Int}
    (h : Approved cfg campaign request past n)
    (hn : Prog.tally Op.originates since + n' ≤ n) :
    Approved cfg campaign request (since ++ past) n' := by
  obtain ⟨later, agentCounts, earlier, rfl, hearlier, hbacked⟩ := h
  refine ⟨since ++ later, agentCounts, earlier, (List.append_assoc ..).symm, hearlier, ?_⟩
  refine hbacked.mono ?_ fun r hr => List.mem_append_right since hr
  rw [Prog.tally_append]
  push_cast
  omega

/-! ## The evaluation -/

namespace SafetyController

variable {r : Readings} {pacingDecisionId : Option String}

theorem foldl_min_le (xs : List Int) (a : Int) : xs.foldl min a ≤ a := by
  induction xs generalizing a with
  | nil => exact le_refl a
  | cons x xs ih => exact (ih (min a x)).trans (min_le_left a x)

/-- Nobody has anything approved who asks for less than nothing. -/
theorem requested_nonneg_of_approved
    (h : 0 < (decisionOf cfg campaign request pacingDecisionId r).approved) :
    0 ≤ request.requested := by
  have hle : ((constraintsOf cfg campaign request r).map (·.limit)).foldl min request.requested
      ≤ request.requested := foldl_min_le ..
  rcases lt_max_iff.mp h with h | h
  · exact absurd h (lt_irrefl 0)
  · exact (h.trans_le hle).le

/-- The answers a reading was made from: a count of agents, and after it the rest. -/
structure ReadFrom (cfg : Settings) (campaign : Campaign) (request : PacingRequest)
    (r : Readings) (agentCounts : AgentState → Nat) (later : List (Reply sig)) : Prop where
  quiet : Prog.tally Op.originates later = 0
  available : r.reading.availableAgents = agentCounts .available
  reserved : r.reading.reservedAgents = agentCounts .reserved
  calls : ∃ callCounts, ⟨.countCallsByState campaign.id, .ok callCounts⟩ ∈ later
    ∧ r.reading.activeCalls = (activeCallStates.map callCounts).sum
    ∧ r.reading.ringingCalls = callCounts .ringing
  leases : ∃ now, ⟨.countExpiredLeases now, .ok r.reading.expiredLeases⟩ ∈ later
  status : ⟨.getHealth campaign.providerName, .ok r.reading.providerStatus⟩ ∈ later
  age : ∃ now, ⟨.utcNow, .ok now⟩ ∈ later
    ∧ r.snapshotAgeMs = max 0 (wholeMs (now - request.snapshotCapturedAt))

/-- **What is approved is backed** by what was read. -/
theorem ReadFrom.backed {agentCounts : AgentState → Nat} {later : List (Reply sig)}
    (h : ReadFrom cfg campaign request r agentCounts later)
    (hpos : 0 < (decisionOf cfg campaign request pacingDecisionId r).approved) :
    Backed cfg campaign request agentCounts later
      (decisionOf cfg campaign request pacingDecisionId r).approved := by
  have hreq := requested_nonneg_of_approved hpos
  have hlimits : ∀ x ∈ constraintsOf cfg campaign request r,
      (decisionOf cfg campaign request pacingDecisionId r).approved ≤ x.limit :=
    fun _ hx => approved_le_limit hreq pacingDecisionId hx
  simp only [constraintsOf, buildConstraints, List.forall_mem_cons] at hlimits
  have hopen : ¬(r.reading.providerStatus = .unhealthy ∨ SnapshotTooOld cfg r
      ∨ 0 < r.reading.expiredLeases) := fun hclosed =>
    hpos.ne' (approved_eq_zero hreq pacingDecisionId hclosed)
  -- a positive number that is at most `max 0 x` is at most `x`
  have hmax : ∀ x : Int, (decisionOf cfg campaign request pacingDecisionId r).approved ≤ max 0 x →
      (decisionOf cfg campaign request pacingDecisionId r).approved ≤ x := by
    intro x hx
    rcases le_max_iff.mp hx with hzero | hx
    · exact absurd hpos (not_lt.mpr hzero)
    · exact hx
  obtain ⟨callCounts, hcalls, hactive, hringing⟩ := h.calls
  obtain ⟨now, hnow, hage⟩ := h.age
  constructor
  · exact approved_le_requested hreq pacingDecisionId
  · rw [← h.available, ← h.reserved]
    exact hmax _ hlimits.1
  · refine ⟨callCounts, hcalls, ?_, ?_⟩
    · rw [← hactive]
      exact hmax _ hlimits.2.1
    · rw [← hringing, ← h.available]
      exact hmax _ hlimits.2.2.1
  · exact ⟨_, h.status, fun hunhealthy => hopen (.inl hunhealthy)⟩
  · obtain ⟨now, hleases⟩ := h.leases
    have hnone : r.reading.expiredLeases = 0 :=
      Nat.eq_zero_of_not_pos fun hsome => hopen (.inr (.inr hsome))
    exact ⟨now, hnone ▸ hleases⟩
  · refine ⟨now, hnow, ?_⟩
    have hfresh : (r.snapshotAgeMs : ℚ) ≤ cfg.maxSnapshotAgeSeconds * 1000 :=
      not_lt.mp fun hold => hopen (.inr (.inl hold))
    refine le_trans ?_ hfresh
    rw [hage]
    exact_mod_cast le_max_right _ _

end SafetyController

theorem Op.budgeted_of_quiet {o : Op} {past : List (Reply sig)} (h : o.NoOriginate) :
    o.Budgeted cfg campaign request past :=
  ⟨Op.asksFor_of_quiet h, fun ho => Bool.noConfusion (h.symm.trans ho)⟩

/-- The decision is backed by the answers so far, and nothing has been asked for yet. -/
def Decided (cfg : Settings) (campaign : Campaign) (request : PacingRequest)
    (past : List (Reply sig)) (approved : Int) : Prop :=
  0 < approved → Approved cfg campaign request past approved

theorem Decided.cons {past : List (Reply sig)} {approved : Int} {r : Reply sig}
    (h : Decided cfg campaign request past approved) (hr : r.op.NoOriginate) :
    Decided cfg campaign request (r :: past) approved := by
  intro hpos
  have hnone : Prog.tally Op.originates [r] = 0 := by
    rw [Prog.tally_cons, if_neg (by rw [hr]; exact Bool.false_ne_true)]
    rfl
  have hleft : (Prog.tally Op.originates [r] : Int) + approved ≤ approved := by
    rw [hnone]
    simp
  exact (h hpos).since hleft

namespace SafetyController

variable {past : List (Reply sig)} {pacingDecisionId : Option String}

theorem readings_follows (hpast : Prog.tally Op.originates past = 0) :
    (readings cfg campaign request).Follows (Op.Budgeted cfg campaign request)
      (fun result past' => ∀ r, result = .ok r →
        ∃ (later : List (Reply sig)) (agentCounts : AgentState → Nat) (earlier : List (Reply sig)),
        past' = later ++ ⟨.countAgentsByState campaign.id, .ok agentCounts⟩ :: earlier
          ∧ Prog.tally Op.originates earlier = 0
          ∧ ReadFrom cfg campaign request r agentCounts later) past := by
  have herror : ∀ {e : Exn} {P : Readings → Prop},
      ∀ r, (.error e : Except Exn Readings) = .ok r → P r := fun _ h => by cases h
  have hquiet : ∀ {past : List (Reply sig)} {o : Op}, o.NoOriginate →
      o.Budgeted cfg campaign request past := Op.budgeted_of_quiet
  refine Prog.follows_bind ?_
  refine Prog.follows_perform_bind (hquiet rfl) (fun _ => herror) fun now => ?_
  refine Prog.follows_perform_bind (hquiet rfl) (fun _ => herror) fun agentCounts => ?_
  refine Prog.follows_perform_bind (hquiet rfl) (fun _ => herror) fun callCounts => ?_
  refine Prog.follows_perform_bind (hquiet rfl) (fun _ => herror) fun expiredLeases => ?_
  refine Prog.follows_perform_bind (hquiet rfl) (fun _ => herror) fun outcomes => ?_
  refine Prog.follows_perform_bind (hquiet rfl) (fun _ => herror) fun status => ?_
  refine Prog.follows_bind ?_
  refine Prog.follows_perform_bind (hquiet rfl) (fun _ => herror) fun now' => ?_
  change ((await (.recordAvailable campaign.id (agentCounts .available))).bind _).Follows _ _ _
  refine Prog.follows_perform_bind (hquiet rfl) (fun _ => herror) fun previous => ?_
  rintro r heq
  obtain rfl := Except.ok.inj heq
  refine ⟨[_, _, _, _, _, _], agentCounts, _, rfl, ?_, rfl, rfl, rfl, ⟨callCounts, ?_, rfl, rfl⟩,
    ⟨now, ?_⟩, ?_, ⟨now', ?_, rfl⟩⟩
  · rw [Prog.tally_cons, hpast]
    rfl
  all_goals simp

theorem evaluate_follows (persist : Bool) (hpast : Prog.tally Op.originates past = 0) :
    (evaluate cfg campaign request pacingDecisionId persist).Follows
      (Op.Budgeted cfg campaign request)
      (fun result past' => ∀ d, result = .ok d →
        Decided cfg campaign request past' d.approved) past := by
  refine Prog.follows_bind ?_
  have hdecide : (decideOrReject cfg campaign request pacingDecisionId).Follows
      (Op.Budgeted cfg campaign request)
      (fun result past' => ∀ d, result = .ok d →
        Decided cfg campaign request past' d.approved) past := by
    refine Prog.follows_tryCatch (Prog.follows_bind ((readings_follows hpast).mono ?_))
    intro result past' _ hread
    cases result with
    | ok r =>
        obtain ⟨later, agentCounts, earlier, rfl, hearlier, hfrom⟩ := hread r rfl
        rintro d heq
        obtain rfl := Except.ok.inj heq
        intro hpos
        refine ⟨later, agentCounts, earlier, rfl, hearlier, ?_⟩
        rw [hfrom.quiet]
        exact (hfrom.backed hpos).mono (by simp) fun _ h => h
    | error e =>
        dsimp only
        split
        · rintro d heq
          obtain rfl := Except.ok.inj heq
          exact fun hpos => absurd hpos (lt_irrefl 0)
        · exact fun _ heq => by cases heq
  refine hdecide.mono fun result past' _ hd => ?_
  cases result with
  | error e => exact fun _ heq => by cases heq
  | ok d =>
      cases persist with
      | false =>
          rintro d' heq
          obtain rfl := Except.ok.inj heq
          exact hd d rfl
      | true =>
          refine Prog.follows_bind ?_
          refine Prog.follows_tryCatch (Prog.follows_perform (Op.budgeted_of_quiet rfl) fun r => ?_)
          have hkept := (hd d rfl).cons (r := ⟨.recordSafetyDecision d, r⟩) rfl
          cases r with
          | ok _ =>
              rintro d' heq
              obtain rfl := Except.ok.inj heq
              exact hkept
          | error e =>
              dsimp only
              split
              · rintro d' heq
                obtain rfl := Except.ok.inj heq
                exact hkept
              · exact fun _ heq => by cases heq

end SafetyController

/-! ## The tick -/

/--
**Each originate of a tick** is one more than the tick has asked for since it counted the agents,
and what it read then allows one more.
-/
theorem tick_budgeted {past : List (Reply sig)} (workerId : String)
    (hpast : Prog.tally Op.originates past = 0) :
    (DialerBase.tick cfg campaign request workerId).Follows (Op.Budgeted cfg campaign request)
      (fun _ _ => True) past := by
  have hrecord : (DialerBase.recordRequest campaign request).Follows
      (Op.Budgeted cfg campaign request)
      (fun _ past' => Prog.tally Op.originates past' = 0) past := by
    rw [DialerBase.recordRequest]
    split
    · exact hpast
    · refine Prog.follows_perform_bind (Op.budgeted_of_quiet rfl) (fun e => ?_) fun id => ?_
      · exact hpast
      · exact hpast
  refine Prog.follows_bind (hrecord.mono fun id past₁ _ h₁ => ?_)
  cases id with
  | error e => trivial
  | ok id =>
      refine Prog.follows_bind ((SafetyController.evaluate_follows _ h₁).mono
        fun result past₂ _ hdecided => ?_)
      cases result with
      | error e => trivial
      | ok d =>
          obtain ⟨hcount, hasks⟩ : (CallAllocator.allocate cfg campaign d.approved workerId).AtMost
              Op.originates d.approved.toNat
              ∧ (CallAllocator.allocate cfg campaign d.approved workerId).All
                (Op.AsksFor campaign) := CallAllocator.allocate_atMost d.approved workerId
          refine Prog.follows_bind (((hcount.follows past₂).and_all hasks).imp ?_ |>.mono
            fun r past₃ _ _ => ?_)
          · rintro past₃ o - ⟨⟨since, rfl, hsince⟩, ho⟩
            refine ⟨ho, fun horiginates => ?_⟩
            have hlt := hsince horiginates
            refine (hdecided d rfl (by omega)).since ?_
            omega
          · cases r with
            | error e => trivial
            | ok _ =>
                refine Prog.follows_perform_bind (Op.budgeted_of_quiet rfl) (fun _ => trivial)
                  fun _ => trivial

end SmartDialer
