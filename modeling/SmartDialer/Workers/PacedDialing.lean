import SmartDialer.Protocol.Outside
import SmartDialer.Workers.Refinement
import SmartDialer.Workers.TickBudget

/-!
# Paced dialing

A dialer worker goes round its campaigns for as long as it lives, and the database is never at
rest. What holds each of its originates to anything is a chain of looks: the worker found the
campaign running, it read a snapshot, the pacing engine made a request of the snapshot, the safety
controller read again, and approved some of it. `dialing_paced` takes an originate, anywhere in a
run, and finds the looks that stand behind it, with the state of the database at each of them.
-/

namespace SmartDialer

open Store Conc

variable {cfg : Settings} {pacing : PacingSettings}

/-! ## What a worker has been answered -/

/-- It asks the provider for a call. -/
def appOriginates : Op ⊕ AppOp → Bool
  | .inl o => o.originates
  | .inr _ => false

theorem exists_of_originates {o : Op ⊕ AppOp} (h : appOriginates o = true) :
    ∃ providerName pair request, o = .inl (.originateCall providerName pair request) := by
  rcases o with o | o
  · cases o with
    | originateCall providerName pair request => exact ⟨providerName, pair, request, rfl⟩
    | _ => cases h
  · cases h

/-- It does not, and does not look at the campaigns. -/
def Interim (o : Op ⊕ AppOp) : Prop := appOriginates o = false ∧ o ≠ .inr .findRunning

/-- The last look at the campaigns found `campaigns` running. -/
def LastFound (campaigns : List CampaignDocument) (past : List (Reply appSig)) : Prop :=
  ∃ (since older : List (Reply appSig)), past = since ++ ⟨.inr .findRunning, .ok campaigns⟩ :: older
    ∧ ∀ r ∈ since, r.op ≠ .inr .findRunning

/-- The answers a snapshot was made from, after the count of agents. -/
structure ObservedIn (campaign : CampaignDocument) (seen : MetricsSnapshotBuilder.Observations)
    (later : List (Reply appSig)) : Prop where
  quiet : Prog.tally appOriginates later = 0
  calls : ⟨.inl (.countCallsByState campaign.id), .ok seen.callCounts⟩ ∈ later
  recent : ∃ start stop,
    ⟨.inl (.outcomeCountsBetween campaign.id start stop), .ok seen.recent⟩ ∈ later
  previous : ∃ start stop,
    ⟨.inl (.outcomeCountsBetween campaign.id start stop), .ok seen.previous⟩ ∈ later

/-- What stands behind an originate, in what the worker has been answered. -/
structure Warranted (cfg : Settings) (pacing : PacingSettings) (campaign : CampaignDocument)
    (campaigns : List CampaignDocument) (seen : MetricsSnapshotBuilder.Observations)
    (agentCounts : AgentState → Nat) (later between : List (Reply sig))
    (observed earlier : List (Reply appSig)) : Prop where
  found : LastFound campaigns earlier ∧ campaign ∈ campaigns
  observed : ObservedIn campaign seen observed
  quiet : Prog.tally Op.originates between = 0
  backed : Backed cfg campaign.toCampaign
    (Application.pacingRequest pacing campaign (MetricsSnapshotBuilder.snapshotOf campaign seen))
    agentCounts later (Prog.tally Op.originates later + 1)

/-- If it is an originate, something stands behind it. -/
def MayDial (cfg : Settings) (pacing : PacingSettings) (past : List (Reply appSig))
    (o : Op ⊕ AppOp) : Prop :=
  ∀ providerName pair request, o = .inl (.originateCall providerName pair request) →
    ∃ (campaign : CampaignDocument) (campaigns : List CampaignDocument)
      (seen : MetricsSnapshotBuilder.Observations) (agentCounts : AgentState → Nat)
      (later between : List (Reply sig)) (observed earlier : List (Reply appSig)),
      request.campaignId = campaign.id ∧ providerName = campaign.providerName
        ∧ past = (later ++ ⟨.countAgentsByState campaign.id, .ok agentCounts⟩ :: between).map
            Reply.lift
          ++ (observed ++ ⟨.inl (.countAgentsByState campaign.id), .ok seen.agentCounts⟩ :: earlier)
        ∧ Warranted cfg pacing campaign campaigns seen agentCounts later between observed earlier

variable {campaigns : List CampaignDocument} {past : List (Reply appSig)}

theorem LastFound.cons (h : LastFound campaigns past) {r : Reply appSig}
    (hr : r.op ≠ .inr .findRunning) : LastFound campaigns (r :: past) := by
  obtain ⟨since, older, rfl, hsince⟩ := h
  refine ⟨r :: since, older, rfl, fun x hx => ?_⟩
  rcases List.mem_cons.mp hx with rfl | hx
  · exact hr
  · exact hsince x hx

/-- A task of the dialer does not look at the campaigns. -/
theorem LastFound.lift (h : LastFound campaigns past) (new : List (Reply sig)) :
    LastFound campaigns (new.map Reply.lift ++ past) := by
  induction new with
  | nil => exact h
  | cons r new ih => exact ih.cons Sum.inl_ne_inr

/-! ## The snapshot -/

section

variable {campaign : CampaignDocument}

/-- Reading a snapshot asks for nothing, and does not look at the campaigns. -/
theorem interim_of_reads {o : Op ⊕ AppOp} (h : MetricsSnapshotBuilder.Reads o) : Interim o := by
  rcases o with o | o
  · refine ⟨?_, Sum.inl_ne_inr⟩
    cases o <;> first | rfl | exact h.elim
  · refine ⟨rfl, fun heq => ?_⟩
    obtain rfl := Sum.inr.inj heq
    exact h

/-- A snapshot is made of what was read, and the agents were counted before the calls. -/
theorem observe_reads : (MetricsSnapshotBuilder.observe cfg campaign).Follows (fun _ _ => True)
    (fun result past' => ∀ seen, result = .ok seen →
      ∃ (observed : List (Reply appSig)) (clock : Reply appSig), past' = observed
          ++ ⟨.inl (.countAgentsByState campaign.id), .ok seen.agentCounts⟩ :: clock :: past
        ∧ clock.op = .inl .utcNow ∧ ObservedIn campaign seen observed) past := by
  have hfail : ∀ {e : Exn} {P : MetricsSnapshotBuilder.Observations → Prop},
      ∀ seen, (.error e : Except Exn MetricsSnapshotBuilder.Observations) = .ok seen → P seen :=
    fun _ h => by cases h
  refine Prog.follows_perform_bind trivial (fun _ => hfail) fun (now : Time) => ?_
  refine Prog.follows_perform_bind trivial (fun _ => hfail) fun agentCounts => ?_
  refine Prog.follows_perform_bind trivial (fun _ => hfail) fun callCounts => ?_
  refine Prog.follows_perform_bind trivial (fun _ => hfail) fun avgTalkTime => ?_
  refine Prog.follows_perform_bind trivial (fun _ => hfail) fun avgSetupTime => ?_
  refine Prog.follows_perform_bind trivial (fun _ => hfail) fun recent => ?_
  refine Prog.follows_perform_bind trivial (fun _ => hfail) fun previous => ?_
  generalize hpast₇ : (_ :: _ : List (Reply appSig)) = past₇
  have hlong : (MetricsSnapshotBuilder.countLongConnected campaign.id now avgTalkTime).Follows
      (fun _ _ => True) (fun _ past' => ∃ new, past' = new ++ past₇
        ∧ Prog.tally appOriginates new = 0) past₇ := by
    unfold MetricsSnapshotBuilder.countLongConnected
    split
    · exact Prog.follows_perform trivial fun r => ⟨[_], rfl, rfl⟩
    · exact ⟨[], rfl, rfl⟩
  refine Prog.follows_bind (hlong.mono fun result past₈ _ h₈ => ?_)
  obtain ⟨new, rfl, hnew⟩ := h₈
  cases result with
  | error e => exact hfail
  | ok longConnected =>
      refine Prog.follows_perform_bind trivial (fun _ => hfail) fun previousAvailable => ?_
      refine Prog.follows_perform_bind trivial (fun _ => hfail) fun healthStatus => ?_
      refine Prog.follows_perform_bind trivial (fun _ => hfail) fun factorStatus => ?_
      rintro seen heq
      obtain rfl := Except.ok.inj heq
      subst hpast₇
      refine ⟨(_ :: _ :: _ :: new) ++ [_, _, _, _, _], ⟨.inl .utcNow, .ok now⟩,
        (List.append_assoc (_ :: _ :: _ :: new) [_, _, _, _, _] (_ :: _ :: past)).symm, rfl, ?_,
        by simp, ⟨now - truncate (1000 * cfg.answerRateWindowSeconds), now, by simp⟩,
        ⟨now - truncate (1000 * cfg.answerRateWindowSeconds) * 2,
          now - truncate (1000 * cfg.answerRateWindowSeconds), by simp⟩⟩
      change Prog.tally appOriginates ([_, _, _] ++ new ++ [_, _, _, _, _]) = 0
      rw [Prog.tally_append, Prog.tally_append, hnew]
      rfl

/-- A snapshot leaves the worker with a campaign it has found, and a count of agents. -/
theorem observe_follows {J : List (Reply appSig) → Op ⊕ AppOp → Prop}
    (hquiet : ∀ past o, appOriginates o = false → J past o) (hfound : LastFound campaigns past) :
    (MetricsSnapshotBuilder.observe cfg campaign).Follows J
      (fun result past' => LastFound campaigns past' ∧ ∀ seen, result = .ok seen →
        ∃ observed earlier : List (Reply appSig), past' = observed
            ++ ⟨.inl (.countAgentsByState campaign.id), .ok seen.agentCounts⟩ :: earlier
          ∧ LastFound campaigns earlier ∧ ObservedIn campaign seen observed) past := by
  have hinterim : (MetricsSnapshotBuilder.observe cfg campaign).Follows J
      (fun _ => LastFound campaigns) past :=
    Prog.follows_all (MetricsSnapshotBuilder.observe_all.mono fun _ => interim_of_reads)
      (fun _ _ ho _ => hquiet _ _ ho.1) (fun _ _ _ ho h => h.cons ho.2) hfound
  refine ((hinterim.and observe_reads).imp fun _ _ _ h => h.1).mono fun result past' _ h => ?_
  refine ⟨h.1, fun seen hseen => ?_⟩
  obtain ⟨observed, clock, hpast, hclock, hobserved⟩ := h.2 seen hseen
  have hnot : clock.op ≠ .inr .findRunning := hclock ▸ Sum.inl_ne_inr
  exact ⟨observed, clock :: past, hpast, hfound.cons hnot, hobserved⟩

end

/-! ## The worker -/

/--
`J` is so of all that a worker does, if it is so of whatever is no originate, and of the ticks:
with the campaigns the worker has found, and the requests its snapshots lead to.
-/
structure Licenses (cfg : Settings) (pacing : PacingSettings) (workerId : String)
    (J : List (Reply appSig) → Op ⊕ AppOp → Prop) : Prop where
  quiet : ∀ past o, appOriginates o = false → J past o
  tick : ∀ {campaigns : List CampaignDocument} {campaign : CampaignDocument}
    {seen : MetricsSnapshotBuilder.Observations} {observed earlier : List (Reply appSig)},
    LastFound campaigns earlier → campaign ∈ campaigns → ObservedIn campaign seen observed →
    (DialerBase.tick cfg campaign.toCampaign (Application.pacingRequest pacing campaign
      (MetricsSnapshotBuilder.snapshotOf campaign seen)) workerId).Follows
      (fun new o => J (new.map Reply.lift ++ (observed
        ++ ⟨.inl (.countAgentsByState campaign.id), .ok seen.agentCounts⟩ :: earlier)) (.inl o))
      (fun _ _ => True) []

namespace Licenses

variable {workerId : String} {J : List (Reply appSig) → Op ⊕ AppOp → Prop}

theorem tickCampaign (hJ : Licenses cfg pacing workerId J) {campaign : CampaignDocument}
    (hmem : campaign ∈ campaigns) (hfound : LastFound campaigns past) :
    (Application.tickCampaign cfg pacing campaign workerId).Follows J (fun _ => LastFound campaigns)
      past := by
  rw [Application.tickCampaign_eq]
  have hhandler : ∀ (e : Exn) (past' : List (Reply appSig)), LastFound campaigns past' →
      (runTask (if e.isException then await (.logEvent "campaign_tick_failed" campaign.id)
        else throw e)).Follows J (fun _ => LastFound campaigns) past' := by
    intro e past' h
    split
    · rw [runTask, Prog.lift_perform]
      exact Prog.follows_perform (hJ.quiet _ _ rfl) fun _ => h.cons Sum.inl_ne_inr
    · exact h
  refine Prog.follows_tryCatch (Prog.follows_bind ((observe_follows hJ.quiet hfound).mono ?_))
  intro result past₁ _ h₁
  cases result with
  | error e => exact hhandler e past₁ h₁.1
  | ok seen =>
      obtain ⟨hfound₁, hseen⟩ := h₁
      obtain ⟨observed, earlier, rfl, hearlier, hobserved⟩ := hseen seen rfl
      refine Prog.Follows.lift (A := AppAns)
        (Prog.follows_bind ((hJ.tick hearlier hmem hobserved).mono ?_))
      intro result new _ _
      cases result with
      | error e => exact hhandler e _ (hfound₁.lift new)
      | ok _ =>
          have hrelease : (DialerWorker.releaseFinishedWrapUps cfg campaign.id).All
              Op.NoOriginate := by
            refine (DialerWorker.releaseFinishedWrapUps_quiet ..).mono fun o ho => ?_
            cases o <;> first | rfl | exact ho.elim
          refine (Prog.follows_all (A := fun _ => True) hrelease
            (fun o _ ho _ => hJ.quiet _ (.inl o) ho) (fun _ _ _ _ _ => trivial) trivial).mono ?_
          intro result new' _ _
          cases result with
          | error e => exact hhandler e _ (hfound₁.lift new')
          | ok _ => exact hfound₁.lift new'

theorem tickAll (hJ : Licenses cfg pacing workerId J) (hfound : LastFound campaigns past)
    {rest : List CampaignDocument} (hrest : rest ⊆ campaigns) :
    (Application.tickAll cfg pacing workerId rest).Follows J (fun _ _ => True) past := by
  induction rest generalizing past with
  | nil => trivial
  | cons campaign rest ih =>
      obtain ⟨hmem, hrest⟩ := List.cons_subset.mp hrest
      refine Prog.follows_bind ((hJ.tickCampaign hmem hfound).mono ?_)
      intro result past' _ hfound'
      cases result with
      | error e => trivial
      | ok _ => exact ih hfound' hrest

theorem runOnce (hJ : Licenses cfg pacing workerId J) (past : List (Reply appSig)) :
    (Application.runOnce cfg pacing workerId).Follows J (fun _ _ => True) past := by
  refine Prog.follows_perform_bind (hJ.quiet _ _ rfl) (fun _ => trivial) fun campaigns => ?_
  exact hJ.tickAll ⟨[], past, rfl, by simp⟩ (List.Subset.refl campaigns)

/-- **All iterations of a worker.** -/
theorem runDialer (hJ : Licenses cfg pacing workerId J) (iterations : Nat)
    (past : List (Reply appSig)) :
    (Application.runDialer cfg pacing workerId iterations).Follows J (fun _ _ => True) past := by
  induction iterations generalizing past with
  | zero => trivial
  | succ iterations ih =>
      refine Prog.follows_bind ?_
      refine Prog.follows_tryCatch ((hJ.runOnce past).mono fun result past₁ _ _ => ?_)
      have hnext : ∀ past₂ : List (Reply appSig), (do
          let stopping ← awaitApp .waitForStop
          if stopping then pure () else
            Application.runDialer cfg pacing workerId iterations : AppAsync Unit).Follows
          J (fun _ _ => True) past₂ := by
        intro past₂
        refine Prog.follows_perform_bind (hJ.quiet _ _ rfl) (fun _ => trivial) fun stopping => ?_
        split
        · trivial
        · exact ih _
      cases result with
      | ok _ => exact hnext past₁
      | error e =>
          dsimp only
          split
          · refine Prog.follows_perform (hJ.quiet _ _ rfl) fun r => ?_
            cases r with
            | ok _ => exact hnext _
            | error e => trivial
          · trivial

end Licenses

/-- **Each originate of a worker** is one the campaign, the snapshot and the readings allow. -/
theorem licenses_mayDial (workerId : String) :
    Licenses cfg pacing workerId (MayDial cfg pacing) where
  quiet past o ho := by
    rintro providerName pair request rfl
    cases ho
  tick {campaigns campaign seen observed earlier} hfound hmem hobserved := by
    have hbudget : (DialerBase.tick cfg campaign.toCampaign (Application.pacingRequest pacing
        campaign (MetricsSnapshotBuilder.snapshotOf campaign seen)) workerId).Follows
        (Op.Budgeted cfg campaign.toCampaign (Application.pacingRequest pacing campaign
          (MetricsSnapshotBuilder.snapshotOf campaign seen))) (fun _ _ => True) [] :=
      tick_budgeted workerId rfl
    refine hbudget.imp ?_
    rintro new o - ⟨hasks, happroved⟩ providerName pair request ho
    obtain rfl := Sum.inl.inj ho
    obtain ⟨later, agentCounts, between, rfl, hquiet, hbacked⟩ := happroved rfl
    exact ⟨campaign, campaigns, seen, agentCounts, later, between, observed, earlier, hasks.2,
      hasks.1, rfl, ⟨hfound, hmem⟩, hobserved, hquiet, hbacked⟩

/-! ## At the moments -/

namespace PacingEngine

/-- The progressive dialer is no less sound. -/
theorem select_sound (h : (DialerBase.engineConfig pacing).Sound) (mode : DialingMode) :
    (ModeRouter.select pacing mode).Sound := by
  cases mode with
  | predictive => exact h
  | progressive =>
      constructor
      · exact ⟨zero_le_one, le_refl 1⟩
      · exact h.volatility
      · exact h.min
      · exact h.min_le_max
      · exact h.max
      · intro r hr
        obtain rfl := Option.some.inj hr
        exact ⟨zero_lt_one, le_refl 1⟩
      · exact le_refl 0
      · exact h.cap

/-- So much of a request stays within the cap, and within the free capacity. -/
theorem within_request {snapshot : PacingSnapshot} {config : PacingEngineConfig} {n : Int}
    (hc : config.Sound) (hs : snapshot.Sound) (hpos : 0 < n)
    (hn : n ≤ (computeRequest snapshot config).requested) :
    n ≤ config.maxRequestPerTick ∧ ((n : ℚ) + inFlight snapshot)
      * effectiveAnswerRate snapshot config ≤ freeCapacity snapshot config := by
  rw [computeRequest_requested hc] at hn
  refine ⟨hn.trans (min_le_right ..), ?_⟩
  refine le_trans ?_ (expected_le_capacity hc hs (hpos.trans_le hn))
  have hle : (n : ℚ) ≤ requested snapshot config := Int.cast_le.mpr hn
  exact mul_le_mul_of_nonneg_right (by linarith) (effectiveAnswerRate_pos hc).le

/-- For the progressive dialer, the free agents. -/
theorem within_progressive {snapshot : PacingSnapshot} {n : Int}
    (hc : (ProgressiveDialer.engineConfig pacing).Sound) (hs : snapshot.Sound) (hpos : 0 < n)
    (hn : n ≤ (computeRequest snapshot (ProgressiveDialer.engineConfig pacing)).requested) :
    n + inFlight snapshot ≤ snapshot.availableAgents := by
  rw [computeRequest_requested hc] at hn
  have hroom : n ≤ max 0 ((snapshot.availableAgents : Int) - inFlight snapshot) :=
    hn.trans (requested_progressive hc hs)
  omega

end PacingEngine

section

variable {P : Policy (application cfg pacing).recorded} {Init : AppState → Prop} {i : Nat}

/-- At one of the moments process `i` performed `o`, and `A` was so. -/
def Looked (i : Nat) (o : Op) (history : List (Moment (application cfg pacing)))
    (A : AppChoice → State → Prop) : Prop :=
  ∃ m ∈ history, m.process = i ∧ m.op = .inl o ∧ A m.choice m.before.st

theorem effect_of_exec {j : Nat} {o : Op} {c : AppChoice} {s : AppState} {a : Ans o}
    (h : ((application cfg pacing).exec j (.inl o) c s).1 = .ok a) :
    (effect o c.toChoice s.st).1 = .ok a := by
  have hexec : (exec j o c.toChoice s.st).1 = .ok a := h
  exact (exec_ok hexec).1

/-- An answer, and what the database was like when it was given. -/
theorem looked_of_mem {history : List (Moment (application cfg pacing))} {o : Op} {a : Ans o}
    (h : ⟨.inl o, .ok a⟩ ∈ replies i history) :
    Looked i o history fun c s => (effect o c.toChoice s).1 = .ok a := by
  obtain ⟨c, s, hmem, hexec⟩ := exists_of_mem_replies h
  exact ⟨_, hmem, rfl, rfl, effect_of_exec hexec⟩

theorem Looked.imp {history : List (Moment (application cfg pacing))} {o : Op}
    {A B : AppChoice → State → Prop} (h : Looked i o history A) (hAB : ∀ c s, A c s → B c s) :
    Looked i o history B := by
  obtain ⟨m, hm, hi, ho, hA⟩ := h
  exact ⟨m, hm, hi, ho, hAB _ _ hA⟩

/-- The moment of an answer, between what came after it and what came before. -/
theorem moment_of_reply {history : List (Moment (application cfg pacing))} {o : Op} {a : Ans o}
    {later earlier : List (Reply appSig)}
    (h : replies i history = later ++ ⟨.inl o, .ok a⟩ :: earlier) :
    ∃ (after : List (Moment (application cfg pacing))) (m : Moment (application cfg pacing))
      (before : List (Moment (application cfg pacing))), history = after ++ m :: before
        ∧ m.process = i ∧ m.op = .inl o ∧ (effect o m.choice.toChoice m.before.st).1 = .ok a
        ∧ replies i after = later ∧ replies i before = earlier := by
  obtain ⟨after, m, before, rfl, hi, hreply, hafter, hbefore⟩ := replies_split h
  obtain ⟨j, c, s, rfl, hexec⟩ := Moment.exists_of_reply hreply
  exact ⟨after, _, before, rfl, hi, rfl, effect_of_exec hexec, hafter, hbefore⟩

/--
What stands behind `n` calls of a worker for a campaign: two counts of its agents, at the moments
`safety` and `snapshot`, and what the worker did and saw `later`, `between` the two, and `earlier`.
-/
structure Paced (cfg : Settings) (pacing : PacingSettings) (i : Nat) (campaign : CampaignDocument)
    (n : Int) (later : List (Moment (application cfg pacing)))
    (safety : Moment (application cfg pacing)) (between : List (Moment (application cfg pacing)))
    (snapshot : Moment (application cfg pacing))
    (earlier : List (Moment (application cfg pacing))) : Prop where
  counts : safety.process = i ∧ safety.op = .inl (.countAgentsByState campaign.id)
    ∧ snapshot.process = i ∧ snapshot.op = .inl (.countAgentsByState campaign.id)
  /-- The campaign was running when the worker last looked. -/
  found : ∃ since looked older, earlier = since ++ looked :: older ∧ looked.process = i
    ∧ looked.op = .inr .findRunning ∧ (∀ m ∈ since, m.process = i → m.op ≠ .inr .findRunning)
    ∧ campaign ∈ looked.before.campaigns.docs ∧ campaign.status = .running
  /-- Nothing was asked for between the snapshot and the count of the safety controller. -/
  quiet : Performed appOriginates i between = 0
  /-- No more than the agents that were free then. -/
  capacity : n + AgentRepository.countByState campaign.id safety.before.st.agents .reserved
    ≤ AgentRepository.countByState campaign.id safety.before.st.agents .available
  concurrency : Looked i (.countCallsByState campaign.id) later fun _ s =>
    n + ((activeCallStates.map (CallRepository.countByState campaign.id s.calls)).sum : Nat)
        ≤ campaign.maxConcurrentCalls
      ∧ n + CallRepository.countByState campaign.id s.calls .ringing ≤ truncate
        (cfg.maxRingingRatio
          * AgentRepository.countByState campaign.id safety.before.st.agents .available)
  healthy : Looked i (.getHealth campaign.providerName) later fun c _ => c.health ≠ .unhealthy
  leases : ∃ now, Looked i (.countExpiredLeases now) later fun _ s =>
    AgentRepository.countExpiredLeases now s.agents = 0
  cap : n ≤ pacing.maxRequestPerTick
  /-- The answers to be expected, of these calls and those in flight, did not exceed the free
  capacity of the snapshot. -/
  expected : ∃ seen : MetricsSnapshotBuilder.Observations,
    seen.agentCounts = AgentRepository.countByState campaign.id snapshot.before.st.agents
      ∧ Looked i (.countCallsByState campaign.id) between (fun _ s =>
        seen.callCounts = CallRepository.countByState campaign.id s.calls)
      ∧ ((n : ℚ) + PacingEngine.inFlight (MetricsSnapshotBuilder.snapshotOf campaign seen))
          * PacingEngine.effectiveAnswerRate (MetricsSnapshotBuilder.snapshotOf campaign seen)
            (ModeRouter.select pacing campaign.dialingMode)
        ≤ PacingEngine.freeCapacity (MetricsSnapshotBuilder.snapshotOf campaign seen)
          (ModeRouter.select pacing campaign.dialingMode)
  /-- One call for each agent who was free, those under way included. -/
  progressive : campaign.dialingMode = .progressive →
    Looked i (.countCallsByState campaign.id) between fun _ s =>
      n + (CallRepository.countByState campaign.id s.calls .ringing
          + CallRepository.countByState campaign.id s.calls .initiated
          + AgentRepository.countByState campaign.id snapshot.before.st.agents .reserved)
        ≤ AgentRepository.countByState campaign.id snapshot.before.st.agents .available

theorem tally_task (new : List (Reply sig)) :
    Prog.tally (S := appSig) appOriginates (new.map Reply.lift) = Prog.tally Op.originates new :=
  tally_lift appOriginates new

/-- The moment of the last look. -/
theorem LastFound.moment {history : List (Moment (application cfg pacing))}
    {campaign : CampaignDocument} (h : LastFound campaigns (replies i history))
    (hmem : campaign ∈ campaigns) :
    ∃ since looked older, history = since ++ looked :: older ∧ looked.process = i
      ∧ looked.op = .inr .findRunning ∧ (∀ m ∈ since, m.process = i → m.op ≠ .inr .findRunning)
      ∧ campaign ∈ looked.before.campaigns.docs ∧ campaign.status = .running := by
  obtain ⟨replies₁, replies₂, hreplies, hsince⟩ := h
  obtain ⟨since, looked, older, rfl, hi, hreply, hafter, -⟩ := replies_split hreplies
  obtain ⟨j, c, s, rfl, hexec⟩ := Moment.exists_of_reply hreply
  have hfound : CampaignRepository.findRunning s.campaigns = campaigns :=
    Except.ok.inj (Application.attempt_ok hexec)
  refine ⟨since, _, older, rfl, hi, rfl, fun m hm hmi => ?_, ?_⟩
  · exact hsince m.reply (hafter ▸ mem_replies.mpr ⟨m, hm, hmi, rfl⟩)
  · exact CampaignRepository.running_of_mem (hfound ▸ hmem)

/-- The moments at which the worker was answered what it is entitled by. -/
theorem Warranted.paced {campaign : CampaignDocument}
    {seen : MetricsSnapshotBuilder.Observations} {agentCounts : AgentState → Nat}
    {later between : List (Reply sig)} {observed earlier : List (Reply appSig)}
    (hpacing : (DialerBase.engineConfig pacing).Sound)
    (h : Warranted cfg pacing campaign campaigns seen agentCounts later between observed earlier)
    {history : List (Moment (application cfg pacing))}
    (hpast : replies i history
      = (later ++ ⟨.countAgentsByState campaign.id, .ok agentCounts⟩ :: between).map Reply.lift
        ++ (observed
          ++ ⟨.inl (.countAgentsByState campaign.id), .ok seen.agentCounts⟩ :: earlier)) :
    ∃ later safety between snapshot earlier, history = later ++ safety :: (between
        ++ snapshot :: earlier)
      ∧ Paced cfg pacing i campaign (Performed appOriginates i later + 1) later safety between
        snapshot earlier := by
  have hpast' : replies i history = later.map Reply.lift
      ++ ⟨.inl (.countAgentsByState campaign.id), .ok agentCounts⟩ :: ((between.map Reply.lift
        ++ observed) ++ ⟨.inl (.countAgentsByState campaign.id), .ok seen.agentCounts⟩
          :: earlier) := by
    rw [hpast, List.map_append, List.append_assoc, List.append_assoc]
    rfl
  obtain ⟨history₁, safety, rest, rfl, hi₁, ho₁, hcount₁, hlater, hrest⟩ := moment_of_reply hpast'
  obtain ⟨history₂, snapshot, history₃, rfl, hi₂, ho₂, hcount₂, hbetween, hearlier⟩ :=
    moment_of_reply hrest
  obtain rfl := Except.ok.inj hcount₁
  have hseen : _ = seen.agentCounts := Except.ok.inj hcount₂
  -- what was answered later, it was answered at a moment
  have hlook : ∀ {o : Op} {a : Ans o}, ⟨o, .ok a⟩ ∈ later →
      Looked i o history₁ fun c s => (effect o c.toChoice s).1 = .ok a := fun hmem =>
    looked_of_mem (hlater ▸ List.mem_map_of_mem (f := Reply.lift) hmem)
  have hlook' : ∀ {o : Op} {a : Ans o}, ⟨.inl o, .ok a⟩ ∈ observed →
      Looked i o history₂ fun c s => (effect o c.toChoice s).1 = .ok a := fun hmem =>
    looked_of_mem (hbetween ▸ List.mem_append_right _ hmem)
  have hbacked := h.backed
  rw [← tally_task, ← hlater, tally_replies] at hbacked
  have hsound : (MetricsSnapshotBuilder.snapshotOf campaign seen).Sound := by
    obtain ⟨start, stop, hrecent⟩ := h.observed.recent
    obtain ⟨start', stop', hprevious⟩ := h.observed.previous
    obtain ⟨m, -, -, -, hm⟩ := hlook' hrecent
    obtain ⟨m', -, -, -, hm'⟩ := hlook' hprevious
    exact MetricsSnapshotBuilder.sound_snapshotOf
      (Except.ok.inj hm ▸ CallRepository.answered_le_total ..)
      (Except.ok.inj hm' ▸ CallRepository.answered_le_total ..)
  have hpos : 0 < (Performed appOriginates i history₁ : Int) + 1 := by omega
  obtain ⟨hcap, hexpected⟩ := PacingEngine.within_request
    (PacingEngine.select_sound hpacing campaign.dialingMode) hsound hpos hbacked.requested
  refine ⟨history₁, safety, history₂, snapshot, history₃, rfl, ?_⟩
  constructor
  · exact ⟨hi₁, ho₁, hi₂, ho₂⟩
  · exact (hearlier ▸ h.found.1).moment h.found.2
  · rw [← tally_replies, hbetween, Prog.tally_append, tally_task, h.quiet, h.observed.quiet]
  · have := hbacked.capacity
    omega
  · obtain ⟨callCounts, hmem, hactive, hringing⟩ := hbacked.calls
    refine (hlook hmem).imp fun c s hs => ?_
    obtain rfl := Except.ok.inj hs
    constructor <;> omega
  · obtain ⟨status, hmem, hstatus⟩ := hbacked.healthy
    refine (hlook hmem).imp fun c s hs => ?_
    exact Except.ok.inj hs ▸ hstatus
  · obtain ⟨now, hmem⟩ := hbacked.leases
    exact ⟨now, (hlook hmem).imp fun c s hs => Except.ok.inj hs⟩
  · refine hcap.trans (le_of_eq ?_)
    cases campaign.dialingMode <;> rfl
  · exact ⟨seen, hseen.symm, (hlook' h.observed.calls).imp fun c s hs => (Except.ok.inj hs).symm,
      by exact_mod_cast hexpected⟩
  · intro hmode
    have hrequested := hbacked.requested
    rw [Application.pacingRequest, hmode] at hrequested
    have hfree := PacingEngine.within_progressive
      (PacingEngine.select_sound hpacing .progressive) hsound hpos hrequested
    refine (hlook' h.observed.calls).imp fun c s hs => ?_
    have hcalls : CallRepository.countByState campaign.id s.calls = seen.callCounts :=
      Except.ok.inj hs
    rw [hseen, hcalls]
    exact_mod_cast hfree

/--
**Every originate of a dialer worker is paced.** In every run of the application, an originate of
a worker is for a campaign that was running when the worker last looked; and with all that the
worker has asked for since the safety controller counted, it is within what the counts of the
controller, and the snapshot before them, allow.
-/
theorem dialing_paced {workerId : String} {iterations : Nat}
    {w : World (application cfg pacing).recorded}
    (hpacing : (DialerBase.engineConfig pacing).Sound)
    (h : Started P (Blank Init) i (.dialerWorker workerId iterations) w)
    {m : Moment (application cfg pacing)} {past : List (Moment (application cfg pacing))}
    (hm : m :: past <:+ w.st.2) (hi : m.process = i) {providerName : String}
    {pair : ReservationPair} {request : OriginateRequest}
    (ho : m.op = .inl (.originateCall providerName pair request)) :
    ∃ (campaign : CampaignDocument) (later : List (Moment (application cfg pacing)))
      (safety : Moment (application cfg pacing))
      (between : List (Moment (application cfg pacing)))
      (snapshot : Moment (application cfg pacing))
      (earlier : List (Moment (application cfg pacing))),
      past = later ++ safety :: (between ++ snapshot :: earlier)
        ∧ request.campaignId = campaign.id ∧ providerName = campaign.providerName
        ∧ Paced cfg pacing i campaign (Performed appOriginates i later + 1) later safety between
          snapshot earlier := by
  obtain ⟨campaign, campaigns, seen, agentCounts, later, between, observed, earlier, hcampaign,
    hprovider, hpast, hwarranted⟩ :=
    h.justified ((licenses_mayDial workerId).runDialer iterations []) hm hi providerName pair
      request ho
  obtain ⟨later, safety, between, snapshot, earlier, hpast, hpaced⟩ :=
    hwarranted.paced hpacing hpast
  exact ⟨campaign, later, safety, between, snapshot, earlier, hpast, hcampaign, hprovider, hpaced⟩

end

/-- A run in which a worker has just asked for its first call. -/
theorem exists_originate : ∃ (w : World (application {} {}).recorded)
    (m : Moment (application {} {})) (past : List (Moment (application {} {})))
    (providerName : String) (pair : ReservationPair) (request : OriginateRequest),
    Started (Policy.any (application {} {})).recorded (Blank fun s => Fresh s.st) 0
        (.dialerWorker "worker" 1) w
      ∧ w.st.2 = m :: past ∧ m.process = 0
      ∧ m.op = .inl (.originateCall providerName pair request) := by
  obtain ⟨w, hw, htest⟩ := Started.of_play (Policy.any (application {} {})).recorded
    (show Blank (M := application {} {}) (fun s => Fresh s.st) (readyToDial, []) from
      ⟨oneAgent_fresh, rfl⟩)
    [] (List.replicate 31 (.run 0 { newId := "call" })) 0 (.dialerWorker "worker" 1) trivial
    (fun w => w.st.2.head?.any fun m => m.process == 0 && appOriginates m.op) (by decide +kernel)
  obtain ⟨m, hhead, hm⟩ := Option.any_eq_true _ _ |>.mp htest
  obtain ⟨past, hpast⟩ := List.head?_eq_some_iff.mp hhead
  obtain ⟨hi, horiginates⟩ := Bool.and_eq_true_iff.mp hm
  obtain ⟨providerName, pair, request, hop⟩ := exists_of_originates horiginates
  exact ⟨w, m, past, providerName, pair, request, hw, hpast, beq_iff_eq.mp hi, hop⟩

/-- The first call of a worker: the campaign was running, and an agent was free. -/
theorem dialing_paced_firstOriginate :
    ∃ (w : World (application {} {}).recorded) (m : Moment (application {} {}))
      (campaign : CampaignDocument) (later : List (Moment (application {} {})))
      (safety : Moment (application {} {})) (between : List (Moment (application {} {})))
      (snapshot : Moment (application {} {})) (earlier : List (Moment (application {} {}))),
      m :: (later ++ safety :: (between ++ snapshot :: earlier)) = w.st.2
        ∧ appOriginates m.op = true
        ∧ Paced {} {} 0 campaign (Performed appOriginates 0 later + 1) later safety between snapshot
          earlier := by
  obtain ⟨w, m, past, providerName, pair, request, hw, hpast, hi, hop⟩ := exists_originate
  have hsuffix : m :: past <:+ w.st.2 := hpast ▸ List.suffix_rfl
  obtain ⟨campaign, later, safety, between, snapshot, earlier, rfl, -, -, hpaced⟩ :=
    dialing_paced PacingEngine.engineConfig_sound hw hsuffix hi hop
  exact ⟨w, m, campaign, later, safety, between, snapshot, earlier, hpast.symm, by rw [hop]; rfl,
    hpaced⟩

end SmartDialer
