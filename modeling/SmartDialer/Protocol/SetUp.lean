import SmartDialer.Protocol.OwnCalls
import SmartDialer.Protocol.Rounds

/-!
# A call that is being set up

From the reservation of its pair to the provider's answer, a dial has an agent, a borrower and
a call, and nothing but time keeps recovery away from them. Three cutoffs matter: the leases of
the two parties, the age of the call, and the agent's heartbeat. The validator of the settings
compares the provider's timeout and the lease with the age at which a call is stale, so that
the call is safe from the sweep that looks at calls. The sweeps that look at leases need the
timeout not to exceed the lease, and nothing says so: with 60 s to wait for the provider and
30 s of lease, the call is cancelled and its pair released while the provider is being asked.

Where the lease is long enough, the cutoffs are never reached. What is left are rounds that are
late: one that has ended another call of the same worker, and is still to release its parties
by name; and one that has reported a queued call which the dial then finds and takes over.
-/

namespace SmartDialer

open Store Conc

/-! ## Statement -/

section

variable {cfg : Settings}

/-- Process `i` reserved the agent for the worker. -/
def ReservesAgent (i : Nat) (workerId agentId : String) (m : Moment (dialer cfg)) : Prop :=
  m.process = i ∧ ∃ campaignId ttlSeconds, ∃ agent : Agent,
    m.reply = ⟨.tryReserveAgent campaignId agentId workerId ttlSeconds, .ok (some agent)⟩

/-- Process `i` reserved the borrower for the worker. -/
def ReservesBorrower (i : Nat) (workerId borrowerId : String) (m : Moment (dialer cfg)) : Prop :=
  m.process = i ∧ ∃ campaignId ttlSeconds, ∃ borrower : Borrower,
    m.reply = ⟨.tryReserveBorrower campaignId borrowerId workerId ttlSeconds, .ok (some borrower)⟩

/-- Process `i` inserted the call, for the agent. -/
def InsertsCall (i : Nat) (agentId callId : String) (m : Moment (dialer cfg)) : Prop :=
  m.process = i ∧ ∃ campaignId borrowerId providerName workerId attempt, ∃ call : Call,
    m.reply = ⟨.insertCall campaignId agentId borrowerId providerName workerId attempt, .ok call⟩
      ∧ call.id = callId

/-- Process `i` moved the call, which names the agent, a step ahead. -/
def TakesOverCall (i : Nat) (agentId callId : String) (m : Moment (dialer cfg)) : Prop :=
  m.process = i ∧ ∃ targetState, isTerminal targetState = false ∧ ∃ call : Call,
    m.reply = ⟨.transitionCall callId targetState none, .ok (some call)⟩ ∧ call.agentId = agentId

/-- The moment is a look-up that reports the call. -/
def ReportsCall (callId : String) (m : Moment (dialer cfg)) : Prop :=
  Op.reports callId m.op m.answer = some true

/--
The call process `i` is setting up, `since` being what has happened since it reserved the agent,
and `past` what had happened by then. A call it has not inserted counts from when it is moved,
unless round `j` had reported it by then.
-/
inductive SetsUpCall (i j : Nat) (agentId callId : String)
    (since past : List (Moment (dialer cfg))) : Prop where
  | inserted {m : Moment (dialer cfg)} (hm : m ∈ since) (h : InsertsCall i agentId callId m)
  | takenOver {later earlier : List (Moment (dialer cfg))} {m : Moment (dialer cfg)}
      (hm : since = later ++ m :: earlier) (h : TakesOverCall i agentId callId m)
      (hfree : ∀ m' ∈ earlier ++ past, m'.process = j → ¬ReportsCall callId m')

/-- The agent has been heard of within its timeout. -/
def HeardOf (agentId : String) (m : Moment (dialer cfg)) : Prop :=
  ∀ a, m.before.agents.get agentId = some a → ∀ t ∈ a.lastHeartbeatAt,
    m.choice.now ≤ t + seconds cfg.agentHeartbeatTimeoutSeconds

/--
The step `m` is made while process `i` sets a call up for the agent it reserved in `start`: the
provider is waited for no longer than its timeout from there, and the agent is heard of.
-/
structure DuringSetUp (i : Nat) (workerId agentId : String) (m : Moment (dialer cfg))
    (since : List (Moment (dialer cfg))) (start : Moment (dialer cfg)) : Prop where
  reserved : ReservesAgent i workerId agentId start
  time : (m.choice.now : ℚ) ≤ start.choice.now + 1000 * cfg.providerTimeoutSeconds
  heard : ∀ m' ∈ since, HeardOf agentId m'

/--
If round `j` has ended a call of the worker's and is still to release that call's parties, one of
which it shares, it is the call process `i` is setting up.
-/
def TidiesNoOther (i j : Nat) (workerId agentId : String) (shares : Call → Prop)
    (since past : List (Moment (dialer cfg))) : Prop :=
  ∀ d, tidying (replies j (since ++ past)) = some d → d.createdByWorker = workerId → shares d →
    SetsUpCall i j agentId d.id since past

/--
No step round `j` makes during a set-up touches the call, the agent while it is held, or the
borrower once it is reserved.
-/
def SetUpsSpared (j : Nat) (w : World (dialer cfg).recorded) : Prop :=
  ∀ m since start past, m :: (since ++ start :: past) <:+ w.st.2 → m.process = j →
    ∀ i workerId agentId, DuringSetUp i workerId agentId m since start →
      (∀ callId, SetsUpCall i j agentId callId since (start :: past) →
        m.after.calls.get callId = m.before.calls.get callId)
      ∧ (TidiesNoOther i j workerId agentId (·.agentId = agentId) since (start :: past) →
        ∀ a, m.before.agents.get agentId = some a → a.reservedBy = some workerId →
          a.state.held = true → m.after.agents.get agentId = some a)
      ∧ ∀ borrowerId, (∃ m' ∈ since, ReservesBorrower i workerId borrowerId m') →
        TidiesNoOther i j workerId agentId (·.borrowerId = borrowerId) since (start :: past) →
        ∀ b, m.before.borrowers.get borrowerId = some b → b.reservedBy = some workerId →
          m.after.borrowers.get borrowerId = some b

/-! ## What time keeps -/

/-- The lease of the agent, if there is one, does not end before. -/
def AgentLeased (until_ : Time) (agentId : String) (s : State) : Prop :=
  ∀ a, s.agents.get agentId = some a → ∀ t ∈ a.leaseExpiresAt, until_ ≤ t

/-- The lease of the borrower, if there is one, does not end before. -/
def BorrowerLeased (until_ : Time) (borrowerId : String) (s : State) : Prop :=
  ∀ b, s.borrowers.get borrowerId = some b → ∀ t ∈ b.leaseExpiresAt, until_ ≤ t

/-- The call is there, names the agent, and was touched at that time or later. -/
def CallSince (from_ : Time) (callId agentId : String) (s : State) : Prop :=
  ∃ d, s.calls.get callId = some d ∧ d.agentId = agentId ∧ from_ ≤ d.updatedAt

/-- The call is on file as over. -/
def CallOver (callId : String) (s : State) : Prop :=
  ∃ d, s.calls.get callId = some d ∧ d.terminal = true

section

variable {i : Nat} {o : Op} {c : Choice} {s : State} {until_ from_ : Time} {k agentId : String}

theorem agentLeased_exec (ho : o.Issued cfg)
    (hnow : until_ ≤ c.now + seconds cfg.reservationTtlSeconds) (h : AgentLeased until_ k s) :
    AgentLeased until_ k (exec i o c s).2 := by
  intro a' ha' t ht
  obtain ⟨actor, past, ho⟩ := ho
  obtain ⟨a, ha, hre⟩ := agent_of_exec ha'
  cases hre with
  | same => exact h _ ha t ht
  | written w hw _ _ =>
      cases o, w, hw using Op.agentWrite_cases with
      | tryReserveAgent campaignId agentId workerId ttlSeconds =>
          obtain ⟨-, rfl⟩ := ho
          obtain rfl := Option.some.inj ht
          exact hnow
      | releaseAgent agentId workerId target releaser shielded => cases ht
      | transitionAgent agentId fromState toState expectedVersion =>
          exact h a ha t (AgentRepository.timeAccountingUpdates_leaseExpiresAt .. ▸ ht)
      | bindCall agentId workerId callId => exact h a ha t ht
      | releaseExpiredAgentLease agent now => cases ht
      | heartbeat agentId => exact h a ha t ht

theorem borrowerLeased_exec (ho : o.Issued cfg)
    (hnow : until_ ≤ c.now + seconds cfg.reservationTtlSeconds) (h : BorrowerLeased until_ k s) :
    BorrowerLeased until_ k (exec i o c s).2 := by
  intro b' hb' t ht
  obtain ⟨actor, past, ho⟩ := ho
  obtain ⟨b, hb, hre⟩ := borrower_of_exec hb'
  cases hre with
  | same => exact h _ hb t ht
  | written w hw _ _ =>
      cases o, w, hw using Op.borrowerWrite_cases with
      | tryReserveBorrower campaignId borrowerId workerId ttlSeconds =>
          obtain ⟨-, rfl⟩ := ho
          obtain rfl := Option.some.inj ht
          exact hnow
      | releaseBorrower borrowerId workerId outcome maxAttempts backoffBaseSeconds shielded =>
          cases outcome <;> cases ht
      | reclaimExpiredBorrowerLease candidate now => cases ht

theorem callSince_exec (hnow : from_ ≤ c.now) (h : CallSince from_ k agentId s) :
    CallSince from_ k agentId (exec i o c s).2 := by
  obtain ⟨d, hd, hagent, hfrom⟩ := h
  obtain ⟨d', hd', hre⟩ := call_exec (i := i) (o := o) (c := c) hd
  refine ⟨d', hd', ?_⟩
  cases hre with
  | same => exact ⟨hagent, hfrom⟩
  | written w hw _ _ =>
      cases o, w, hw using Op.callWrite_cases with
      | transitionCall callId targetState failureReason => exact ⟨hagent, hnow⟩
      | attachProviderCallId callId providerCallId => exact ⟨hagent, hnow⟩

theorem callOver_exec (h : CallOver k s) : CallOver k (exec i o c s).2 := by
  obtain ⟨d, hd, hover⟩ := h
  obtain ⟨d', hd', hre⟩ := call_exec (i := i) (o := o) (c := c) hd
  refine ⟨d', hd', ?_⟩
  cases hre with
  | same => exact hover
  | written w hw _ hp =>
      cases o, w, hw using Op.callWrite_cases with
      | transitionCall callId targetState failureReason =>
          cases hover.symm.trans (CallRepository.advanceable_iff.mp hp).1
      | attachProviderCallId callId providerCallId => exact hover

theorem callStored_exec (h : (s.calls.get k).isSome = true) :
    ((exec i o c s).2.calls.get k).isSome = true := by
  obtain ⟨d, hd⟩ := Option.isSome_iff_exists.mp h
  obtain ⟨d', hd', -⟩ := call_exec (i := i) (o := o) (c := c) hd
  exact Option.isSome_iff_exists.mpr ⟨d', hd'⟩

end

/-! ## How a set-up begins -/

theorem CallSince.mono {from_ from' : Time} {callId agentId : String} {s : State}
    (h : CallSince from_ callId agentId s) (hle : from' ≤ from_) :
    CallSince from' callId agentId s := by
  obtain ⟨d, hd, hagent, hfrom⟩ := h
  exact ⟨d, hd, hagent, hle.trans hfrom⟩

/-- With this moment, the call is one of the agent's, and not over. -/
structure BeginsCall (agentId callId : String) (m : Moment (dialer cfg)) : Prop where
  since : CallSince m.choice.now callId agentId m.after
  wasOpen : ¬CallOver callId m.before
  isOpen : ¬CallOver callId m.after
  silent : ¬ReportsCall callId m

section

variable {i : Nat} {workerId agentId borrowerId callId : String} {m : Moment (dialer cfg)}

theorem ReservesAgent.leased (h : ReservesAgent i workerId agentId m) (hissued : m.op.Issued cfg) :
    AgentLeased (m.choice.now + seconds cfg.reservationTtlSeconds) agentId m.after := by
  obtain ⟨-, campaignId, ttlSeconds, agent, hreply⟩ := h
  obtain ⟨i, c, s, rfl, hanswer⟩ := Moment.exists_of_reply hreply
  obtain ⟨actor, past, -, rfl⟩ := hissued
  obtain rfl := tryReserveAgent_id hanswer
  obtain ⟨a, -, -, rfl, hget⟩ := tryReserveAgent_some hanswer
  intro a' ha' t ht
  obtain rfl := Option.some.inj (hget.symm.trans ha')
  obtain rfl := Option.some.inj ht
  exact le_rfl

theorem ReservesBorrower.leased (h : ReservesBorrower i workerId borrowerId m)
    (hissued : m.op.Issued cfg) :
    BorrowerLeased (m.choice.now + seconds cfg.reservationTtlSeconds) borrowerId m.after := by
  obtain ⟨-, campaignId, ttlSeconds, borrower, hreply⟩ := h
  obtain ⟨i, c, s, rfl, hanswer⟩ := Moment.exists_of_reply hreply
  obtain ⟨actor, past, -, rfl⟩ := hissued
  obtain rfl := tryReserveBorrower_id hanswer
  obtain ⟨b, -, -, rfl, hget⟩ := tryReserveBorrower_some hanswer
  intro b' hb' t ht
  obtain rfl := Option.some.inj (hget.symm.trans hb')
  obtain rfl := Option.some.inj ht
  exact le_rfl

/-- Reserving an agent raises the version. -/
theorem ReservesAgent.version (h : ReservesAgent i workerId agentId m) {a : Agent}
    (ha : m.before.agents.get agentId = some a) :
    ∃ a', m.after.agents.get agentId = some a' ∧ a'.stateVersion = a.stateVersion + 1 := by
  obtain ⟨-, campaignId, ttlSeconds, agent, hreply⟩ := h
  obtain ⟨i, c, s, rfl, hanswer⟩ := Moment.exists_of_reply hreply
  obtain rfl := tryReserveAgent_id hanswer
  obtain ⟨x, hx, -, rfl, hget⟩ := tryReserveAgent_some hanswer
  obtain rfl := Option.some.inj (hx.symm.trans ha)
  exact ⟨_, hget, rfl⟩

theorem InsertsCall.absent (h : InsertsCall i agentId callId m) :
    m.before.calls.get callId = none := by
  obtain ⟨-, campaignId, borrowerId, providerName, workerId, attempt, call, hreply, rfl⟩ := h
  obtain ⟨i, c, s, rfl, hanswer⟩ := Moment.exists_of_reply hreply
  exact (insertCall_ok hanswer).2.1

theorem InsertsCall.begins (h : InsertsCall i agentId callId m) :
    BeginsCall agentId callId m := by
  have habsent := h.absent
  obtain ⟨-, campaignId, borrowerId, providerName, workerId, attempt, call, hreply, rfl⟩ := h
  obtain ⟨i, c, s, rfl, hanswer⟩ := Moment.exists_of_reply hreply
  obtain ⟨hnew, -, -, hget⟩ := insertCall_ok hanswer
  refine ⟨⟨call, hget, by rw [hnew]; rfl, by rw [hnew]; exact le_rfl⟩, ?_, ?_, ?_⟩
  · rintro ⟨d, hd, -⟩
    cases habsent.symm.trans hd
  · rintro ⟨d, hd, hover⟩
    obtain rfl := Option.some.inj (hget.symm.trans hd)
    rw [hnew] at hover
    cases hover
  · intro hreports
    rcases found_of_reports hreports with ⟨_, _, _, ⟨⟩, -⟩ | ⟨_, _, _, ⟨⟩, -⟩ | ⟨_, _, _, ⟨⟩, -⟩

theorem TakesOverCall.begins (h : TakesOverCall i agentId callId m) :
    BeginsCall agentId callId m := by
  obtain ⟨-, targetState, hongoing, call, hreply, hagent⟩ := h
  obtain ⟨i, c, s, rfl, hanswer⟩ := Moment.exists_of_reply hreply
  obtain ⟨d, hd, hp, rfl, hget⟩ := transitionCall_some hanswer
  refine ⟨⟨_, hget, hagent, le_rfl⟩, ?_, ?_, ?_⟩
  · rintro ⟨d', hd', hover⟩
    obtain rfl := Option.some.inj (hd.symm.trans hd')
    cases hover.symm.trans (CallRepository.advanceable_iff.mp hp).1
  · rintro ⟨d', hd', hover⟩
    obtain rfl := Option.some.inj (hget.symm.trans hd')
    cases hongoing.symm.trans hover
  · intro hreports
    rcases found_of_reports hreports with ⟨_, _, _, ⟨⟩, -⟩ | ⟨_, _, _, ⟨⟩, -⟩ | ⟨_, _, _, ⟨⟩, -⟩

end

/-! ## Along a run -/

section

variable {w : World (dialer cfg).recorded} {m later : Moment (dialer cfg)}
  {past : List (Moment (dialer cfg))} {j : Nat} {agentId callId : String}

theorem issued_of_suffix {P : Policy (dialer cfg).recorded} {Init : State → Prop}
    (h : Reachable P (Blank Init) w) (hm : m :: past <:+ w.st.2) : m.op.Issued cfg := by
  obtain ⟨w', hw', -, hawaits, -⟩ := h.rewind hm
  exact hw'.awaits (R := Op.Issued cfg) (fun t _ => Task.program_issued t) hawaits

/-- The clock has not gone back since. -/
theorem now_le_of_suffix {P : Policy (dialer cfg)}
    (h : Reachable (P.clocked Choice.now) (Blank Orderly) w) (hm : later :: past <:+ w.st.2)
    (hmem : m ∈ past) : m.choice.now ≤ later.choice.now :=
  (List.pairwise_cons.mp (h.clock.sublist hm.sublist)).1 m hmem

/-- What a moment leaves behind, and every step keeps that is not earlier, is so later. -/
theorem kept_since {A : State → Prop} {P : Policy (dialer cfg)}
    (h : Reachable (P.clocked Choice.now) (Blank Orderly) w) (hA : A m.after)
    (hexec : ∀ i o c s, o.Issued cfg → m.choice.now ≤ c.now → A s → A (exec i o c s).2)
    (hcrash : ∀ i s, A s → A (crash i s)) (hlater : later :: past <:+ w.st.2)
    (hmem : m ∈ past) : A later.before :=
  Reachable.since_before (P := P.clocked Choice.now) (R := Op.Issued cfg)
    (fun t _ => Task.program_issued t) hA
    (fun i o c s ho hrun hm => hexec i o c s.1 ho (hrun.2 m hm)) hcrash h hlater hmem

theorem boundToOwn_before (h : Reachable ((newIds cfg).clocked Choice.now) (Blank Orderly) w)
    (hm : m :: past <:+ w.st.2) : BoundToOwn m.before := by
  obtain ⟨w', hw', hst, -, -⟩ := h.rewind hm
  have hbound : BoundToOwn w'.st.1 := boundToOwn_reachable
    (hw'.forget (P := newIds cfg) (Q := (newIds cfg).clocked Choice.now) (fun _ ht => ht)
      fun _ _ _ _ hrun => hrun.1)
  rwa [hst] at hbound

/-- A round compares with a time that its clock has read. -/
theorem sweep_now_le {P : Policy (dialer cfg)} {now : Time}
    (h : Reachable (P.clocked Choice.now) (Blank Orderly) w) (hm : m :: past <:+ w.st.2)
    (hnow : ⟨.utcNow, .ok now⟩ ∈ replies j past) : now ≤ m.choice.now := by
  obtain ⟨c, s, hmem, hanswer⟩ := exists_of_mem_replies hnow
  exact now_of_utcNow hanswer ▸ now_le_of_suffix h hm hmem

/-- A call that is reported is on file. -/
theorem stored_of_reported (h : Reachable ((newIds cfg).clocked Choice.now) (Blank Orderly) w)
    (hm : m :: past <:+ w.st.2) (hreports : ReportsCall callId m) :
    (m.before.calls.get callId).isSome = true := by
  have hbound := boundToOwn_before h hm
  rcases found_of_reports hreports with ⟨_, _, x, -, hx, hcall, -⟩ | ⟨_, _, x, -, hx, hcall, -⟩
    | ⟨_, _, d, -, hd, -⟩
  · obtain ⟨d, hd, -⟩ := hbound _ x hx callId hcall
    exact Option.isSome_iff_exists.mpr ⟨d, hd⟩
  · obtain ⟨d, hd, -⟩ := hbound _ x hx callId hcall
    exact Option.isSome_iff_exists.mpr ⟨d, hd⟩
  · exact Option.isSome_iff_exists.mpr ⟨d, hd⟩

/--
No look-up reports the call of an agent whose lease runs, who is heard of, and which is not
stale yet.
-/
theorem not_reports {from_ until_ : Time} {past : List (Reply sig)}
    (hrecovers : m.op.Recovers cfg past) (hcall : CallSince from_ callId agentId m.before)
    (hlease : AgentLeased until_ agentId m.before) (hbound : BoundToOwn m.before)
    (hheard : HeardOf agentId m) (hnow : ∀ now, ⟨.utcNow, .ok now⟩ ∈ past → now ≤ m.choice.now)
    (huntil : m.choice.now ≤ until_)
    (hstale : m.choice.now - seconds cfg.callStaleTimeoutSeconds ≤ from_) :
    ¬ReportsCall callId m := by
  intro hreports
  obtain ⟨d, hd, hagent, hfrom⟩ := hcall
  have hown : ∀ x : Agent, m.before.agents.get x.id = some x → x.currentCallId = some callId →
      x.id = agentId := by
    intro x hx hcall
    obtain ⟨d', hd', hagent'⟩ := hbound _ x hx callId hcall
    obtain rfl := Option.some.inj (hd.symm.trans hd')
    exact hagent'.symm.trans hagent
  rcases found_of_reports hreports with ⟨now, _, x, hop, hx, hcall, hlost⟩
    | ⟨olderThan, _, x, hop, hx, hcall, hsilent⟩ | ⟨olderThan, _, d', hop, hd', hold⟩
  · -- the lease has run out
    rw [hop] at hrecovers
    obtain ⟨-, -, hexpired⟩ := AgentRepository.leaseReclaimable_iff.mp hlost
    obtain ⟨t, ht, hlt⟩ := AgentRepository.leaseExpired_iff.mp hexpired
    have hleft : until_ ≤ t := hlease x (hown x hx hcall ▸ hx) t ht
    have hread := hnow now hrecovers
    exact absurd hlt (not_lt.mpr (hread.trans (huntil.trans hleft)))
  · -- nothing has been heard of the agent
    rw [hop] at hrecovers
    obtain ⟨now, hmem, rfl⟩ := hrecovers
    rw [Option.any_eq_true] at hsilent
    obtain ⟨t, ht, hlt⟩ := hsilent
    have hfresh := hheard x (hown x hx hcall ▸ hx) t ht
    have hread := hnow now hmem
    rw [decide_eq_true_eq] at hlt
    linarith
  · -- nothing has happened to the call
    rw [hop] at hrecovers
    obtain ⟨now, hmem, rfl⟩ := hrecovers
    obtain rfl := Option.some.inj (hd.symm.trans hd')
    have hread := hnow now hmem
    linarith

end

/-! ## The settings -/

/-- The lease lasts as long as the provider is waited for, on a clock of whole milliseconds. -/
def Settings.LeaseOutlasts (cfg : Settings) : Prop :=
  1000 * cfg.providerTimeoutSeconds < 1000 * cfg.reservationTtlSeconds + 1

section

variable {i : Nat} {workerId agentId : String} {m m' start : Moment (dialer cfg)}
  {since later earlier : List (Moment (dialer cfg))}

/-- Whatever happened earlier in a set-up happened during it. -/
theorem DuringSetUp.rewind
    (hd : DuringSetUp i workerId agentId m (later ++ m' :: earlier) start)
    (hnow : m'.choice.now ≤ m.choice.now) :
    DuringSetUp i workerId agentId m' earlier start where
  reserved := hd.reserved
  time := (Int.cast_le.mpr hnow).trans hd.time
  heard x hx := hd.heard x (List.mem_append_right _ (List.mem_cons_of_mem _ hx))

/-- The lease has not run out yet. -/
theorem DuringSetUp.now_le (hd : DuringSetUp i workerId agentId m since start)
    (hlease : cfg.LeaseOutlasts) :
    m.choice.now ≤ start.choice.now + seconds cfg.reservationTtlSeconds := by
  have hbefore : (m.choice.now : ℚ)
      < ((start.choice.now + 1000 * cfg.reservationTtlSeconds + 1 : Int) : ℚ) := by
    have htime := hd.time
    rw [Settings.LeaseOutlasts] at hlease
    push_cast
    linarith
  exact Int.lt_add_one_iff.mp (Int.cast_lt.mp hbefore)

/-- The call is not stale yet. -/
theorem DuringSetUp.not_stale (hd : DuringSetUp i workerId agentId m since start)
    (hpos : 0 < cfg.reservationTtlSeconds) (hcheck : cfg.checkRecoveryTimeoutInvariant) :
    m.choice.now - seconds cfg.callStaleTimeoutSeconds ≤ start.choice.now := by
  have hbefore : ((m.choice.now - 1000 * cfg.callStaleTimeoutSeconds : Int) : ℚ)
      ≤ start.choice.now := by
    have htime := hd.time
    have hpos' : (0 : ℚ) < cfg.reservationTtlSeconds := Int.cast_pos.mpr hpos
    rw [Settings.checkRecoveryTimeoutInvariant] at hcheck
    push_cast
    linarith
  exact Int.cast_le.mp hbefore

end

/-! ## No reason to end the call -/

section

variable {w : World (dialer cfg).recorded} {i j : Nat} {workerId agentId callId : String}
  {m m₁ m' start : Moment (dialer cfg)} {since past later earlier : List (Moment (dialer cfg))}

/-- A call that is being set up has begun at some moment, and was not reported before. -/
theorem SetsUpCall.begun (h : Reachable ((newIds cfg).clocked Choice.now) (Blank Orderly) w)
    (hm : m :: (since ++ past) <:+ w.st.2) (hset : SetsUpCall i j agentId callId since past) :
    ∃ later m₁ earlier, since = later ++ m₁ :: earlier ∧ BeginsCall agentId callId m₁
      ∧ ∀ m' ∈ earlier ++ past, m'.process = j → ¬ReportsCall callId m' := by
  cases hset with
  | takenOver hsince htakes hfree => exact ⟨_, _, _, hsince, htakes.begins, hfree⟩
  | @inserted m₁ hmem hinserts =>
      obtain ⟨later, earlier, rfl⟩ := List.append_of_mem hmem
      refine ⟨later, m₁, earlier, rfl, hinserts.begins, fun m' hm' _ hreports => ?_⟩
      -- what was reported was on file, and could not be inserted any more
      rw [List.append_assoc, List.cons_append] at hm
      have hm₁ : m₁ :: (earlier ++ past) <:+ w.st.2 := suffix_of_append hm
      obtain ⟨past', hpast'⟩ := exists_suffix_of_mem hm₁ hm'
      have hstored : (m'.after.calls.get callId).isSome = true :=
        callStored_exec (stored_of_reported h hpast' hreports)
      have hstill : (m₁.before.calls.get callId).isSome = true :=
        kept_since (A := fun s => (s.calls.get callId).isSome = true) h hstored
          (fun _ _ _ _ _ _ => callStored_exec) (fun _ _ hs => hs) hm₁ hm'
      rw [hinserts.absent] at hstill
      cases hstill

/-- From then on it is the agent's, and not stale. -/
theorem BeginsCall.callSince (h : Reachable ((newIds cfg).clocked Choice.now) (Blank Orderly) w)
    (hbegins : BeginsCall agentId callId m₁) (hstart : start.choice.now ≤ m₁.choice.now)
    (hm : m :: past <:+ w.st.2) (hmem : m₁ ∈ past) :
    CallSince start.choice.now callId agentId m.before :=
  kept_since h (hbegins.since.mono hstart)
    (fun _ _ _ _ _ hnow => callSince_exec (hstart.trans hnow)) (fun _ _ hs => hs) hm hmem

/-- The lease of the agent that was reserved. -/
theorem ReservesAgent.leased_before
    (h : Reachable ((newIds cfg).clocked Choice.now) (Blank Orderly) w)
    (hres : ReservesAgent i workerId agentId start) (hm : m :: past <:+ w.st.2)
    (hmem : start ∈ past) :
    AgentLeased (start.choice.now + seconds cfg.reservationTtlSeconds) agentId m.before := by
  obtain ⟨past', hpast'⟩ := exists_suffix_of_mem hm hmem
  exact kept_since h (hres.leased (issued_of_suffix h hpast'))
    (fun _ _ _ _ ho hnow => agentLeased_exec ho (Int.add_le_add_right hnow _))
    (fun _ _ hs => hs) hm hmem

theorem ReservesBorrower.leased_before {borrowerId : String}
    (h : Reachable ((newIds cfg).clocked Choice.now) (Blank Orderly) w)
    (hres : ReservesBorrower i workerId borrowerId m₁) (hm : m :: past <:+ w.st.2)
    (hmem : m₁ ∈ past) :
    BorrowerLeased (m₁.choice.now + seconds cfg.reservationTtlSeconds) borrowerId m.before := by
  obtain ⟨past', hpast'⟩ := exists_suffix_of_mem hm hmem
  exact kept_since h (hres.leased (issued_of_suffix h hpast'))
    (fun _ _ _ _ ho hnow => borrowerLeased_exec ho (Int.add_le_add_right hnow _))
    (fun _ _ hs => hs) hm hmem

/-- The step `m` is made during a set-up, whose call has begun in `m₁` without being reported. -/
structure BegunCall (w : World (dialer cfg).recorded) (i j : Nat)
    (workerId agentId callId : String) (m : Moment (dialer cfg))
    (later : List (Moment (dialer cfg))) (m₁ : Moment (dialer cfg))
    (earlier : List (Moment (dialer cfg))) (start : Moment (dialer cfg))
    (past : List (Moment (dialer cfg))) : Prop where
  suffix : m :: (later ++ m₁ :: (earlier ++ start :: past)) <:+ w.st.2
  during : DuringSetUp i workerId agentId m (later ++ m₁ :: earlier) start
  begins : BeginsCall agentId callId m₁
  free : ∀ m' ∈ earlier ++ start :: past, m'.process = j → ¬ReportsCall callId m'

namespace BegunCall

/-- So has whatever has been done since the call began. -/
theorem rewind (hb : BegunCall w i j workerId agentId callId m later m₁ earlier start past)
    (h : Reachable ((newIds cfg).clocked Choice.now) (Blank Orderly) w) (hmem : m' ∈ later) :
    ∃ later', BegunCall w i j workerId agentId callId m' later' m₁ earlier start past := by
  obtain ⟨l, later', rfl⟩ := List.append_of_mem hmem
  have hsuffix := hb.suffix
  have hd := hb.during
  rw [List.append_assoc, List.cons_append] at hsuffix hd
  have hnow : m'.choice.now ≤ m.choice.now := now_le_of_suffix h hsuffix (by simp)
  exact ⟨later', suffix_of_append hsuffix, hd.rewind hnow, hb.begins, hb.free⟩

theorem start_le (hb : BegunCall w i j workerId agentId callId m later m₁ earlier start past)
    (h : Reachable ((newIds cfg).clocked Choice.now) (Blank Orderly) w) :
    start.choice.now ≤ m₁.choice.now :=
  now_le_of_suffix h (suffix_of_append hb.suffix) (by simp)

theorem callSince (hb : BegunCall w i j workerId agentId callId m later m₁ earlier start past)
    (h : Reachable ((newIds cfg).clocked Choice.now) (Blank Orderly) w) :
    CallSince start.choice.now callId agentId m.before :=
  hb.begins.callSince h (hb.start_le h) hb.suffix (by simp)

theorem of_setsUp (h : Reachable ((newIds cfg).clocked Choice.now) (Blank Orderly) w)
    (hm : m :: (since ++ start :: past) <:+ w.st.2)
    (hd : DuringSetUp i workerId agentId m since start)
    (hset : SetsUpCall i j agentId callId since (start :: past)) :
    ∃ later m₁ earlier, since = later ++ m₁ :: earlier
      ∧ BegunCall w i j workerId agentId callId m later m₁ earlier start past := by
  obtain ⟨later, m₁, earlier, rfl, hbegins, hfree⟩ := hset.begun h hm
  rw [List.append_assoc, List.cons_append] at hm
  exact ⟨later, m₁, earlier, rfl, hm, hd, hbegins, hfree⟩

variable (hpos : 0 < cfg.reservationTtlSeconds) (hcheck : cfg.checkRecoveryTimeoutInvariant)
  (hlease : cfg.LeaseOutlasts)

include hpos hcheck hlease

/-- A round that has not reported the call before it began has not reported it since. -/
theorem not_reported (hb : BegunCall w i j workerId agentId callId m later m₁ earlier start past)
    (h : Started ((newIds cfg).clocked Choice.now) (Blank Orderly) j .runSweeps w)
    (hmem : m' ∈ later ++ m₁ :: (earlier ++ start :: past)) (hj : m'.process = j) :
    ¬ReportsCall callId m' := by
  rcases List.mem_append.mp hmem with hlater | hrest
  · obtain ⟨later', hb'⟩ := hb.rewind h.reachable hlater
    exact not_reports (h.justified (Task.runSweeps_recovers cfg) hb'.suffix hj)
      (hb'.callSince h.reachable)
      (hb.during.reserved.leased_before h.reachable hb'.suffix (by simp))
      (boundToOwn_before h.reachable hb'.suffix) (hb.during.heard m' (by simp [hlater]))
      (fun now => sweep_now_le h.reachable hb'.suffix) (hb'.during.now_le hlease)
      (hb'.during.not_stale hpos hcheck)
  · rcases List.mem_cons.mp hrest with rfl | hrest
    · exact hb.begins.silent
    · exact hb.free m' hrest hj

/-- So it has no reason to end the call. -/
theorem spared (hb : BegunCall w i j workerId agentId callId m later m₁ earlier start past)
    (h : Started ((newIds cfg).clocked Choice.now) (Blank Orderly) j .runSweeps w)
    (hj : m.process = j) : m.after.calls.get callId = m.before.calls.get callId := by
  have hrecovers := h.justified (Task.runSweeps_recovers cfg) hb.suffix hj
  obtain ⟨d, hd, -⟩ := hb.callSince h.reachable
  have hunreported : ¬HasReported (replies j (later ++ m₁ :: (earlier ++ start :: past)))
      callId := by
    rintro ⟨r, hr, hreports⟩
    obtain ⟨m', hm', hj', rfl⟩ := mem_replies.mp hr
    exact hb.not_reported hpos hcheck hlease h hm' hj' hreports
  obtain ⟨i', o, c, s⟩ := m
  obtain ⟨d', hd', hre⟩ := call_exec (i := i') (o := o) (c := c) hd
  cases hre with
  | same => exact hd'.trans hd.symm
  | written v hv hk hp =>
      cases o, v, hv using Op.callWrite_cases with
      | attachProviderCallId _ _ => exact hrecovers.elim
      | transitionCall callId' targetState reason =>
          obtain rfl : d.id = callId := Collection.key_of_get hd
          obtain rfl : d.id = callId' := hk
          obtain ⟨-, reported, hreported, hid⟩ := hrecovers
          refine absurd ?_ hunreported
          rcases hid with rfl | ⟨call, hfound, hid⟩
          · exact hreported
          · -- the call that was looked up is the one that was reported
            obtain ⟨c', s', -, hanswer⟩ := exists_of_mem_replies hfound
            have hget : s'.calls.get reported = some call := Except.ok.inj (exec_ok hanswer).1
            obtain rfl : call.id = reported := Collection.key_of_get hget
            exact hid ▸ hreported

end BegunCall

/-! ## No parties to release -/

theorem ended_of_tidying {replies : List (Reply sig)} {d : Call} (h : tidying replies = some d) :
    ∃ callId targetState reason,
      ⟨.transitionCall callId targetState reason, .ok (some d)⟩ ∈ replies := by
  unfold tidying at h
  split at h
  · subst h
    exact ⟨_, _, _, List.mem_cons_self⟩
  · subst h
    exact ⟨_, _, _, List.mem_cons_of_mem _ List.mem_cons_self⟩
  · cases h

/-- What is moved to a terminal state was not over, and is. -/
theorem callOver_of_ended {targetState : CallState} {reason : Option String} {d : Call}
    (hreply : m.reply = ⟨.transitionCall callId targetState reason, .ok (some d)⟩)
    (hterminal : isTerminal targetState = true) :
    ¬CallOver d.id m.before ∧ CallOver d.id m.after := by
  obtain ⟨i, c, s, rfl, hanswer⟩ := Moment.exists_of_reply hreply
  obtain ⟨d₀, hd₀, hp, rfl, hget⟩ := transitionCall_some hanswer
  obtain rfl : d₀.id = callId := Collection.key_of_get hd₀
  refine ⟨?_, _, hget, hterminal⟩
  rintro ⟨d', hd', hover⟩
  obtain rfl := Option.some.inj (hd₀.symm.trans hd')
  cases hover.symm.trans (CallRepository.advanceable_iff.mp hp).1

/-- A round that has just ended a call has not ended the one that is being set up. -/
theorem BegunCall.not_tidying (hpos : 0 < cfg.reservationTtlSeconds)
    (hcheck : cfg.checkRecoveryTimeoutInvariant) (hlease : cfg.LeaseOutlasts) {d : Call}
    (hb : BegunCall w i j workerId agentId d.id m later m₁ earlier start past)
    (h : Started ((newIds cfg).clocked Choice.now) (Blank Orderly) j .runSweeps w) :
    tidying (replies j (later ++ m₁ :: (earlier ++ start :: past))) ≠ some d := by
  intro htidying
  obtain ⟨callId, targetState, reason, hmem⟩ := ended_of_tidying htidying
  obtain ⟨m', hm', hj', hreply⟩ := mem_replies.mp hmem
  obtain ⟨past', hpast'⟩ := exists_suffix_of_mem hb.suffix hm'
  have hrecovers := h.justified (Task.runSweeps_recovers cfg) hpast' hj'
  have hterminal : isTerminal targetState = true := by
    obtain ⟨i', c, s, rfl, -⟩ := Moment.exists_of_reply hreply
    exact hrecovers.1
  obtain ⟨hopen, hover⟩ := callOver_of_ended hreply hterminal
  rcases List.mem_append.mp hm' with hlater | hrest
  · -- since the call began, the round has left it alone
    obtain ⟨later', hb'⟩ := hb.rewind h.reachable hlater
    obtain ⟨d', hd', hover⟩ := hover
    exact hopen ⟨d', (hb'.spared hpos hcheck hlease h hj').symm.trans hd', hover⟩
  · rcases List.mem_cons.mp hrest with rfl | hrest
    · exact hb.begins.isOpen hover
    · -- and a call that is over does not begin
      exact hb.begins.wasOpen (kept_since h.reachable hover (fun _ _ _ _ _ _ => callOver_exec)
        (fun _ _ hs => hs) (suffix_of_append hb.suffix) hrest)

/-- Nor has it ended another call with the same worker and party. -/
theorem not_tidying_party (hpos : 0 < cfg.reservationTtlSeconds)
    (hcheck : cfg.checkRecoveryTimeoutInvariant) (hlease : cfg.LeaseOutlasts)
    (h : Started ((newIds cfg).clocked Choice.now) (Blank Orderly) j .runSweeps w)
    (hm : m :: (since ++ start :: past) <:+ w.st.2)
    (hd : DuringSetUp i workerId agentId m since start) {shares : Call → Prop}
    (htidy : TidiesNoOther i j workerId agentId shares since (start :: past)) {d : Call}
    (hworker : d.createdByWorker = workerId) (hshares : shares d) :
    tidying (replies j (since ++ start :: past)) ≠ some d := by
  intro htidying
  obtain ⟨later, m₁, earlier, rfl, hb⟩ :=
    BegunCall.of_setsUp h.reachable hm hd (htidy d htidying hworker hshares)
  rw [List.append_assoc, List.cons_append] at htidying
  exact hb.not_tidying hpos hcheck hlease h htidying

/-- Who was found before being reserved has another version now. -/
theorem version_lt_of_reserved {P : Policy (dialer cfg).recorded} {Init : State → Prop}
    (h : Reachable P (Blank Init) w) (hres : ReservesAgent i workerId agentId start)
    (hm : m :: (since ++ start :: past) <:+ w.st.2) (hmem : m' ∈ past) {x a : Agent}
    (hx : m'.before.agents.get agentId = some x) (ha : m.before.agents.get agentId = some a) :
    x.stateVersion < a.stateVersion := by
  have hpairs := List.pairwise_cons.mp ((agents_along h).2.sublist hm.sublist)
  have hstart := (List.pairwise_cons.mp (List.pairwise_append.mp hpairs.2).2.1).1 m' hmem
  obtain ⟨x₁, hx₁, hle₁⟩ := agentsPrecede_exec m'.process m'.op m'.choice m'.before agentId x hx
  obtain ⟨x₂, hx₂, hle₂⟩ := hstart agentId x₁ hx₁
  obtain ⟨x₃, hx₃, hversion⟩ := hres.version hx₂
  obtain ⟨x₄, hx₄, hle₃⟩ := hpairs.1 start (by simp) agentId x₃ hx₃
  obtain rfl := Option.some.inj (hx₄.symm.trans ha)
  have h₁ := hle₁.version_le
  have h₂ := hle₂.version_le
  have h₃ := hle₃.version_le
  omega

/-- A round that has found the agent silent has found another version of it. -/
theorem not_foundSilent
    (h : Started ((newIds cfg).clocked Choice.now) (Blank Orderly) j .runSweeps w)
    (hm : m :: (since ++ start :: past) <:+ w.st.2)
    (hd : DuringSetUp i workerId agentId m since start) {a : Agent}
    (ha : m.before.agents.get agentId = some a) :
    ¬FoundSilent (replies j (since ++ start :: past)) agentId a.stateVersion := by
  rintro ⟨olderThan, limit, agents, hreply, x, hx, rfl, hversion⟩
  obtain ⟨c, s, hmem, hanswer⟩ := exists_of_mem_replies hreply
  obtain rfl := Except.ok.inj (exec_ok hanswer).1
  obtain ⟨hget, hsilent⟩ := stored_of_search hx
  rcases List.mem_append.mp hmem with hsince | hrest
  · -- the agent has been heard of since it was reserved
    obtain ⟨past', hsuffix⟩ := exists_suffix_of_mem hm hmem
    obtain ⟨now, hnow, rfl⟩ := h.justified (Task.runSweeps_recovers cfg) hsuffix rfl
    simp only [Bool.and_eq_true, Option.any_eq_true, decide_eq_true_eq] at hsilent
    obtain ⟨-, t, ht, hlt⟩ := hsilent
    have hfresh := hd.heard _ hsince x hget t ht
    have hread := sweep_now_le h.reachable hsuffix hnow
    linarith
  · rcases List.mem_cons.mp hrest with hstart | hpast
    · obtain ⟨-, campaignId, ttlSeconds, agent, hreserve⟩ := hd.reserved
      rw [← hstart] at hreserve
      cases congrArg Reply.op hreserve
    · exact absurd hversion
        (Nat.ne_of_lt (version_lt_of_reserved h.reachable hd.reserved hm hpast hget ha))

/-- The agent is left as it is. -/
theorem agent_spared (hpos : 0 < cfg.reservationTtlSeconds)
    (hcheck : cfg.checkRecoveryTimeoutInvariant) (hlease : cfg.LeaseOutlasts)
    (h : Started ((newIds cfg).clocked Choice.now) (Blank Orderly) j .runSweeps w)
    (hm : m :: (since ++ start :: past) <:+ w.st.2) (hj : m.process = j)
    (hd : DuringSetUp i workerId agentId m since start)
    (htidy : TidiesNoOther i j workerId agentId (·.agentId = agentId) since (start :: past))
    {a : Agent} (ha : m.before.agents.get agentId = some a) (hby : a.reservedBy = some workerId)
    (hheld : a.state.held = true) : m.after.agents.get agentId = some a := by
  have hrecovers := h.justified (Task.runSweeps_recovers cfg) hm hj
  have hleased := hd.reserved.leased_before h.reachable hm (by simp)
  have hunexpired := hd.now_le hlease
  have hread : ∀ now, ⟨.utcNow, .ok now⟩ ∈ replies j (since ++ start :: past) →
      now ≤ m.choice.now := fun now => sweep_now_le h.reachable hm
  have hfound := not_foundSilent h hm hd ha
  obtain ⟨i', o, c, s⟩ := m
  obtain ⟨a', ha', hre⟩ := agent_exec (i := i') (o := o) (c := c) ha
  cases hre with
  | same => exact ha'
  | written v hv hk hp =>
      obtain rfl : a.id = agentId := Collection.key_of_get ha
      cases o, v, hv using Op.agentWrite_cases with
      | tryReserveAgent _ _ _ _ => exact hrecovers.elim
      | bindCall _ _ _ => exact hrecovers.elim
      | heartbeat _ => exact hrecovers.elim
      | releaseAgent agentId' workerId' target actor shielded =>
          -- the parties of a call the round has ended, which is not this one
          obtain ⟨d, htidying, hagent, hworker⟩ := hrecovers
          obtain ⟨hby', -⟩ := AgentRepository.releasable_iff.mp hp
          obtain rfl : workerId = workerId' := Option.some.inj (hby.symm.trans hby')
          obtain rfl : a.id = agentId' := hk
          exact absurd htidying
            (not_tidying_party hpos hcheck hlease h hm hd htidy hworker hagent)
      | transitionAgent agentId' fromState toState version =>
          obtain ⟨hstate, hversion⟩ := AgentRepository.movable_iff.mp hp
          obtain rfl : a.id = agentId' := hk
          rcases hrecovers with hwrapUp | hsilent
          · rw [hstate, hwrapUp] at hheld
            cases hheld
          · exact absurd (hversion ▸ hsilent) hfound
      | releaseExpiredAgentLease agent now =>
          obtain ⟨-, -, hexpired⟩ := AgentRepository.leaseUnchanged_iff.mp hp
          obtain ⟨t, ht, hlt⟩ := AgentRepository.leaseExpired_iff.mp hexpired
          exact absurd hlt (not_lt.mpr
            ((hread now hrecovers).trans (hunexpired.trans (hleased a ha t ht))))

/-- The borrower is left as it is, from when it is reserved. -/
theorem borrower_spared (hpos : 0 < cfg.reservationTtlSeconds)
    (hcheck : cfg.checkRecoveryTimeoutInvariant) (hlease : cfg.LeaseOutlasts)
    (h : Started ((newIds cfg).clocked Choice.now) (Blank Orderly) j .runSweeps w)
    (hm : m :: (since ++ start :: past) <:+ w.st.2) (hj : m.process = j)
    (hd : DuringSetUp i workerId agentId m since start) {borrowerId : String}
    (hmem : m' ∈ since) (hres : ReservesBorrower i workerId borrowerId m')
    (htidy : TidiesNoOther i j workerId agentId (·.borrowerId = borrowerId) since (start :: past))
    {b : Borrower} (hb : m.before.borrowers.get borrowerId = some b)
    (hby : b.reservedBy = some workerId) : m.after.borrowers.get borrowerId = some b := by
  have hrecovers := h.justified (Task.runSweeps_recovers cfg) hm hj
  have hleased := hres.leased_before h.reachable hm (List.mem_append_left _ hmem)
  have hread : ∀ now, ⟨.utcNow, .ok now⟩ ∈ replies j (since ++ start :: past) →
      now ≤ m.choice.now := fun now => sweep_now_le h.reachable hm
  have hunexpired : m.choice.now ≤ m'.choice.now + seconds cfg.reservationTtlSeconds := by
    obtain ⟨later, earlier, rfl⟩ := List.append_of_mem hmem
    have hsuffix := hm
    rw [List.append_assoc, List.cons_append] at hsuffix
    have hle : start.choice.now ≤ m'.choice.now :=
      now_le_of_suffix h.reachable (suffix_of_append hsuffix) (by simp)
    exact (hd.now_le hlease).trans (Int.add_le_add_right hle _)
  obtain ⟨i', o, c, s⟩ := m
  obtain ⟨b', hb', hre⟩ := borrower_exec (i := i') (o := o) (c := c) hb
  cases hre with
  | same => exact hb'
  | written v hv hk hp =>
      obtain rfl : b.id = borrowerId := Collection.key_of_get hb
      cases o, v, hv using Op.borrowerWrite_cases with
      | tryReserveBorrower _ _ _ _ => exact hrecovers.elim
      | releaseBorrower borrowerId' workerId' outcome maxAttempts backoffBaseSeconds shielded =>
          obtain ⟨d, htidying, hborrower, hworker⟩ := hrecovers
          obtain ⟨hby', -⟩ := BorrowerRepository.releasable_iff.mp hp
          obtain rfl : workerId = workerId' := Option.some.inj (hby.symm.trans hby')
          obtain rfl : b.id = borrowerId' := hk
          exact absurd htidying
            (not_tidying_party hpos hcheck hlease h hm hd htidy hworker hborrower)
      | reclaimExpiredBorrowerLease candidate now =>
          obtain ⟨-, -, hexpired⟩ := BorrowerRepository.leaseUnchanged_iff.mp hp
          obtain ⟨t, ht, hlt⟩ := AgentRepository.leaseExpired_iff.mp hexpired
          exact absurd hlt (not_lt.mpr
            ((hread now hrecovers).trans (hunexpired.trans (hleased b hb t ht))))

/--
**A set-up is left alone**, if the lease outlasts the wait for the provider. In every run of any
tasks, in any interleaving, with failures, cancellations and crashes anywhere and a clock that
does not go back, under any settings the validator accepts whose lease is positive: as long as
the provider's timeout has not passed since the agent was reserved, and the agent is heard of, no
step of any round of recovery, whenever it was begun, touches the call that is being set up. Nor
does it touch the agent or the borrower, unless it has ended another call of the worker's that
names them, and is only now releasing its parties.
-/
theorem setUp_spared (hpos : 0 < cfg.reservationTtlSeconds)
    (hcheck : cfg.checkRecoveryTimeoutInvariant) (hlease : cfg.LeaseOutlasts)
    (h : Started ((newIds cfg).clocked Choice.now) (Blank Orderly) j .runSweeps w) :
    SetUpsSpared j w := by
  intro m since start past hm hj i workerId agentId hd
  refine ⟨fun callId hset => ?_, fun htidy a => ?_, fun borrowerId hborrower htidy b => ?_⟩
  · obtain ⟨later, m₁, earlier, -, hb⟩ := BegunCall.of_setsUp h.reachable hm hd hset
    exact hb.spared hpos hcheck hlease h hj
  · exact agent_spared hpos hcheck hlease h hm hj hd htidy
  · obtain ⟨m', hmem, hres⟩ := hborrower
    exact borrower_spared hpos hcheck hlease h hm hj hd hmem hres htidy

end

/-! ## Sixty seconds for the provider -/

/-- A reservation of the agent for the worker. -/
def isReservation (workerId agentId : String) : Reply sig → Bool
  | ⟨.tryReserveAgent _ agentId' workerId' _, .ok (some _)⟩ =>
      agentId' == agentId && workerId' == workerId
  | _ => false

/-- An insertion of the call for the agent. -/
def isInsertion (agentId callId : String) : Reply sig → Bool
  | ⟨.insertCall _ agentId' _ _ _ _, .ok call⟩ => agentId' == agentId && call.id == callId
  | _ => false

/-- The provider is about to be asked. -/
def Op.isOriginate : Op → Bool
  | .originateCall .. => true
  | _ => false

/-- Process 0 reserved the agent of these runs. -/
def isStart (m : Moment (dialer cfg)) : Bool :=
  m.process == 0 && isReservation "worker" "agent" m.reply

/-- The latest moment is one of round `j`, while process 0 sets up the call of these runs. -/
def isSetUpStep (j : Nat) : List (Moment (dialer cfg)) → Bool
  | [] => false
  | m :: rest =>
      m.process == j
        && (rest.dropWhile (!isStart ·)).head?.any (fun start => isStart start
          && decide ((m.choice.now : ℚ)
            ≤ start.choice.now + 1000 * cfg.providerTimeoutSeconds))
        && (rest.takeWhile (!isStart ·)).all (fun m' => (m'.before.agents.get "agent").all fun a =>
          a.lastHeartbeatAt.all fun t =>
            decide (m'.choice.now ≤ t + seconds cfg.agentHeartbeatTimeoutSeconds))
        && (rest.takeWhile (!isStart ·)).any fun m' =>
          m'.process == 0 && isInsertion "agent" "call" m'.reply

theorem reservesAgent_of_isStart {m : Moment (dialer cfg)} (h : isStart m = true) :
    ReservesAgent 0 "worker" "agent" m := by
  rw [isStart, Bool.and_eq_true, beq_iff_eq] at h
  obtain ⟨hi, hreply⟩ := h
  unfold isReservation at hreply
  split at hreply
  · rename_i heq
    rw [Bool.and_eq_true, beq_iff_eq, beq_iff_eq] at hreply
    obtain ⟨rfl, rfl⟩ := hreply
    exact ⟨hi, _, _, _, heq⟩
  · cases hreply

theorem insertsCall_of_isInsertion {m : Moment (dialer cfg)} (hi : m.process = 0)
    (h : isInsertion "agent" "call" m.reply = true) : InsertsCall 0 "agent" "call" m := by
  unfold isInsertion at h
  split at h
  · rename_i heq
    rw [Bool.and_eq_true, beq_iff_eq, beq_iff_eq] at h
    obtain ⟨rfl, hid⟩ := h
    exact ⟨hi, _, _, _, _, _, _, heq, hid⟩
  · cases h

theorem setUp_of_isSetUpStep {j : Nat} {history : List (Moment (dialer cfg))}
    (h : isSetUpStep j history = true) :
    ∃ m since start past, history = m :: (since ++ start :: past) ∧ m.process = j
      ∧ DuringSetUp 0 "worker" "agent" m since start
      ∧ SetsUpCall 0 j "agent" "call" since (start :: past) := by
  unfold isSetUpStep at h
  split at h
  · cases h
  · rename_i m rest
    simp only [Bool.and_eq_true, beq_iff_eq, Option.any_eq_true, List.any_eq_true,
      List.all_eq_true, Option.all_eq_true, decide_eq_true_eq] at h
    obtain ⟨⟨⟨hj, start, hstart, hres, htime⟩, hheard⟩, m', hm', hi, hins⟩ := h
    obtain ⟨past, hpast⟩ := List.head?_eq_some_iff.mp hstart
    refine ⟨m, _, start, past, ?_, hj, ⟨reservesAgent_of_isStart hres, htime, ?_⟩,
      .inserted hm' (insertsCall_of_isInsertion hi hins)⟩
    · rw [← hpast, List.takeWhile_append_dropWhile]
    · exact fun m' hm' a ha t ht => hheard m' hm' a ha t ht

end

theorem oneAgent_orderly : Orderly oneAgent where
  calls := oneAgent_fresh.noCalls.wellFormed
  ids := oneAgent_allIdle.ids
  bound k a ha callId hcall := by
    obtain rfl := List.mem_singleton.mp (Collection.mem_of_get ha)
    cases hcall

/-- The provider is given twice as long as the lease lasts, and the validator accepts that. -/
def slowProvider : Settings := { providerTimeoutSeconds := 60 }

/-- A worker is started, to dial once. -/
def dialOnceUnder (cfg : Settings) : Label (dialer cfg) :=
  .spawn (.allocate { id := "campaign" } 1 "worker")

/-- A heartbeat of the agent arrives. -/
def beatUnder (cfg : Settings) : Label (dialer cfg) := .spawn (.agentAction "agent" "heartbeat")

/-- The worker dials, up to the originate, and the agent is heard of after so many seconds. -/
def waitsForProvider (cfg : Settings) (n : Int) : List (Label (dialer cfg)) :=
  dialOnceUnder cfg :: List.replicate 4 (.run 0 {}) ++ .run 0 { newId := "call" }
    :: List.replicate 4 (.run 0 {}) ++ beatUnder cfg
    :: List.replicate 3 (.run 1 { now := seconds n })

/-- The call is cancelled, and its parties are free. -/
def Lost (s : State) : Prop :=
  (s.calls.get "call").map Call.state = some .cancelled
    ∧ (s.agents.get "agent").map Agent.state = some .available
    ∧ (s.borrowers.get "borrower").map Borrower.status = some .pending

instance (s : State) : Decidable (Lost s) := inferInstanceAs (Decidable (_ ∧ _ ∧ _))

/-- The last step but two was one of a set-up, and changed the call; all is lost since. -/
def losesSetUp (w : World (dialer slowProvider).recorded) : Bool :=
  isSetUpStep 2 (w.st.2.drop 2)
    && (w.st.2.drop 2).head?.any (fun m =>
      (m.after.calls.get "call").map Call.state != (m.before.calls.get "call").map Call.state)
    && (w.awaited 0).any Op.isOriginate && decide (Lost w.st.1)

/-- With such settings, the call is cancelled and its parties released in the middle of it. -/
theorem setUp_cancelled :
    0 < slowProvider.reservationTtlSeconds ∧ 0 < slowProvider.agentHeartbeatTimeoutSeconds
      ∧ slowProvider.checkRecoveryTimeoutInvariant
      ∧ ∃ w, Started ((newIds slowProvider).clocked Choice.now) (Blank Orderly) 2 .runSweeps w
        ∧ ¬SetUpsSpared 2 w
        ∧ (∃ providerName pair request, w.Awaits 0 (.originateCall providerName pair request))
        ∧ Lost w.st.1 := by
  have hcheck : slowProvider.checkRecoveryTimeoutInvariant := by
    norm_num [Settings.checkRecoveryTimeoutInvariant, slowProvider]
  refine ⟨by decide, by decide, hcheck, ?_⟩
  obtain ⟨w, hw, htest⟩ := Started.of_play ((newIds slowProvider).clocked Choice.now)
    (show Blank (M := dialer slowProvider) Orderly (oneAgent, []) from ⟨oneAgent_orderly, rfl⟩)
    ((waitsForProvider slowProvider 30).map Label.recorded)
    (List.replicate 6 (.run 2 { now := seconds 31 })) 2 .runSweeps trivial
    losesSetUp (by decide +kernel)
  simp only [losesSetUp, Bool.and_eq_true, Option.any_eq_true, decide_eq_true_eq, bne_iff_ne]
    at htest
  obtain ⟨⟨⟨hstep, m, hm, hchanged⟩, o, ho, horiginate⟩, hend⟩ := htest
  obtain ⟨m', since, start, past, hhistory, hj, hd, hset⟩ := setUp_of_isSetUpStep hstep
  rw [hhistory] at hm
  obtain rfl := Option.some.inj hm
  refine ⟨w, hw, fun hspared => hchanged ?_, ?_, hend⟩
  · have hsuffix : m' :: (since ++ start :: past) <:+ w.st.2 := hhistory ▸ List.drop_suffix 2 _
    rw [(hspared m' since start past hsuffix hj 0 "worker" "agent" hd).1 "call" hset]
  · cases o with
    | originateCall providerName pair request =>
        exact ⟨providerName, pair, request, awaits_of_awaited ho⟩
    | _ => cases horiginate

/-- The provider is given as long as the lease lasts. -/
def patient : Settings := { providerTimeoutSeconds := 30 }

/-- After thirty seconds of waiting for the provider, the call is still left alone. -/
theorem setUp_spared_thirtySeconds :
    ∃ w, Started ((newIds patient).clocked Choice.now) (Blank Orderly) 2 .runSweeps w
      ∧ (∃ m since start past, w.st.2 = m :: (since ++ start :: past) ∧ m.process = 2
        ∧ DuringSetUp 0 "worker" "agent" m since start
        ∧ m.after.calls.get "call" = m.before.calls.get "call")
      ∧ SetUpsSpared 2 w := by
  obtain ⟨w, hw, htest⟩ := Started.of_play ((newIds patient).clocked Choice.now)
    (show Blank (M := dialer patient) Orderly (oneAgent, []) from ⟨oneAgent_orderly, rfl⟩)
    ((waitsForProvider patient 30).map Label.recorded)
    (List.replicate 6 (.run 2 { now := seconds 30 })) 2 .runSweeps trivial
    (fun w => isSetUpStep 2 w.st.2) (by decide +kernel)
  obtain ⟨m, since, start, past, hhistory, hj, hd, hset⟩ := setUp_of_isSetUpStep htest
  have hcheck : patient.checkRecoveryTimeoutInvariant := by
    norm_num [Settings.checkRecoveryTimeoutInvariant, patient]
  have hlease : patient.LeaseOutlasts := by
    norm_num [Settings.LeaseOutlasts, patient]
  have hspared := setUp_spared (by decide) hcheck hlease hw
  have hsuffix : m :: (since ++ start :: past) <:+ w.st.2 := hhistory ▸ List.suffix_rfl
  exact ⟨w, hw, ⟨m, since, start, past, hhistory, hj, hd,
    (hspared m since start past hsuffix hj 0 "worker" "agent" hd).1 "call" hset⟩, hspared⟩

end SmartDialer
