import SmartDialer.Protocol.Driving
import SmartDialer.Protocol.Ownership
import SmartDialer.Store.Custody

/-!
# The books of an allocation

An allocation claims agents and borrowers and moves calls to INITIATED, and of each it has
to give account: it is part of a dial that went through, or it has been released, or has
FAILED. The log says what was claimed and moved; `Line`s say which dials went through; and
`Books` compares the two with the documents, while there is a pair in hand and while there
is none.

An agent or a borrower that was released may be claimed again. A call is moved to INITIATED
once only: from then on it is not QUEUED, and a dial goes on with a QUEUED call only.
-/

namespace SmartDialer

open Store Conc

/-! ## What the log tells -/

/-- What the log of an allocation comes to. -/
structure Journal where
  /-- The attempts to reserve a pair, the latest first: whether each has got it. -/
  attempts : List Bool := []
  /-- The agents and the borrowers claimed. -/
  agents : List String := []
  borrowers : List String := []
  /-- The calls moved to INITIATED. -/
  initiated : List String := []
  /-- How often a provider was asked for a call. -/
  originates : Nat := 0
  deriving DecidableEq, Repr

/-- An attempt begins when candidates are looked for, and has its pair with the borrower. -/
def Journal.note (j : Journal) : Entry → Journal
  | .answered _ (.findClaimableAgents ..) _ => { j with attempts := false :: j.attempts }
  | .answered _ (.tryReserveAgent ..) (.ok (some agent)) =>
      { j with agents := agent.id :: j.agents }
  | .answered _ (.tryReserveBorrower ..) (.ok (some borrower)) =>
      { j with
        borrowers := borrower.id :: j.borrowers
        attempts := true :: j.attempts.tail }
  | .answered _ (.transitionCall callId .initiated _) (.ok (some _)) =>
      { j with initiated := callId :: j.initiated }
  | .answered _ (.originateCall ..) _ => { j with originates := j.originates + 1 }
  | _ => j

/-- What a log comes to; its newest entry is first. -/
def journalOf (log : List Entry) : Journal := log.foldr (fun e j => j.note e) {}

variable {i : Nat} {o : Op} {c : Choice} {s s' : State}

theorem journalOf_exec (i : Nat) (o : Op) (c : Choice) (s : State) :
    journalOf (exec i o c s).2.log
      = (journalOf s.log).note (.answered i o (exec i o c s).1) := by
  rw [exec_log]
  rfl

/-- An operation that neither writes to a call nor files one. -/
theorem calls_of_idle (hw : o.callWrite c = none) (hins : o.callInsert c = none) :
    (exec i o c s).2.calls = s.calls := by
  rcases exec_calls i o c s with hsame | ⟨w, hw', -⟩ | ⟨d, hd, -⟩
  · exact hsame
  · cases hw.symm.trans hw'
  · cases hins.symm.trans hd

/-- What writes to an agent writes to nothing else. -/
theorem Op.agentWrite_only {w : Write Agent} (h : o.agentWrite c = some w) :
    o.Plain ∧ o.borrowerWrite c = none ∧ o.callWrite c = none ∧ o.callInsert c = none := by
  cases o, w, h using Op.agentWrite_cases <;> exact ⟨trivial, rfl, rfl, rfl⟩

/-- What writes to a borrower writes to nothing else. -/
theorem Op.borrowerWrite_only {w : Write Borrower} (h : o.borrowerWrite c = some w) :
    o.Plain ∧ o.agentWrite c = none ∧ o.callWrite c = none ∧ o.callInsert c = none := by
  cases o, w, h using Op.borrowerWrite_cases <;> exact ⟨trivial, rfl, rfl, rfl⟩

/-! ## Lines -/

/-- A dial that went through: who was dialled by whom, and the call. -/
structure Line where
  agentId : String
  borrowerId : String
  callId : String
  deriving DecidableEq, Repr

/-- The agent is DIALING for the worker, and bound to the call. -/
def Line.OfAgent (workerId : String) (l : Line) (a : Agent) : Prop :=
  a.state = .dialing ∧ a.reservedBy = some workerId ∧ a.currentCallId = some l.callId

/-- The borrower is RESERVED for the worker. -/
def Line.OfBorrower (workerId : String) (_ : Line) (b : Borrower) : Prop :=
  b.status = .reserved ∧ b.reservedBy = some workerId

/-- The call is INITIATED, and filed for an attempt of this agent on this borrower. -/
def Line.OfCall (campaignId : String) (l : Line) (d : Call) : Prop :=
  d.state = .initiated
    ∧ ∃ attempt, d.idempotencyKey = buildIdempotencyKey campaignId l.agentId l.borrowerId attempt

/-- Nothing is left of the reservation. -/
def Agent.Released (a : Agent) : Prop := a.Free ∧ a.currentCallId = none

/-- Nothing is left of the reservation; the borrower may have no attempts left. -/
def Borrower.Released (b : Borrower) : Prop :=
  b.status ≠ .reserved ∧ b.reservedBy = none ∧ b.reservedAt = none ∧ b.leaseExpiresAt = none

/-- Ids are as `new_id` makes them, and calls are filed under the key of what they are for. -/
structure Tidy (campaignId : String) (s : State) : Prop where
  campaign : ColonFree campaignId
  ids : IdsColonFree s
  keys : ∀ k d, s.calls.get k = some d →
    d.idempotencyKey = buildIdempotencyKey d.campaignId d.agentId d.borrowerId d.attempt

/-- A call a line is about names the parties of the line. -/
theorem Tidy.parties {campaignId : String} (h : Tidy campaignId s) {l : Line} {d : Call}
    (hd : s.calls.get l.callId = some d) (hl : l.OfCall campaignId d) {a : Agent} {b : Borrower}
    (ha : s.agents.get l.agentId = some a) (hb : s.borrowers.get l.borrowerId = some b) :
    d.agentId = l.agentId ∧ d.borrowerId = l.borrowerId := by
  obtain ⟨-, attempt, hkey⟩ := hl
  obtain ⟨hcampaign, hagent, hborrower⟩ := h.ids.calls _ d hd
  obtain ⟨-, h₁, h₂, -⟩ := buildIdempotencyKey_inj hcampaign h.campaign hagent
    (h.ids.agents _ a ha) hborrower (h.ids.borrowers _ b hb) ((h.keys _ d hd).symm.trans hkey)
  exact ⟨h₁, h₂⟩

theorem Tidy.of_sameDocuments {campaignId : String} (h : Tidy campaignId s)
    (hs : SameDocuments s' s) : Tidy campaignId s' where
  campaign := h.campaign
  ids := by
    refine ⟨?_, ?_, ?_⟩
    · rw [hs.agents]
      exact h.ids.agents
    · rw [hs.borrowers]
      exact h.ids.borrowers
    · rw [hs.calls]
      exact h.ids.calls
  keys := by
    rw [hs.calls]
    exact h.keys

/-- An operation keeps it, if the call it files is for parties with such ids. -/
theorem Tidy.step {campaignId : String} (h : Tidy campaignId s)
    (hins : ∀ d, o.callInsert c = some d →
      ColonFree d.campaignId ∧ ColonFree d.agentId ∧ ColonFree d.borrowerId) :
    Tidy campaignId (exec i o c s).2 := by
  -- a write leaves alone whom a call is for
  have hcall : ∀ k d', (exec i o c s).2.calls.get k = some d' →
      (ColonFree d'.campaignId ∧ ColonFree d'.agentId ∧ ColonFree d'.borrowerId)
        ∧ d'.idempotencyKey
          = buildIdempotencyKey d'.campaignId d'.agentId d'.borrowerId d'.attempt := by
    intro k d' hd'
    rcases call_of_exec hd' with ⟨hnew, -⟩ | ⟨d, hd, hre⟩
    · refine ⟨hins d' hnew, ?_⟩
      cases o with
      | insertCall _ _ _ _ _ _ =>
          obtain rfl := Option.some.inj hnew
          rfl
      | _ => cases hnew
    · have hwas := And.intro (h.ids.calls k d hd) (h.keys k d hd)
      cases hre with
      | same => exact hwas
      | written w hw _ _ =>
          cases o with
          | attachProviderCallId _ _ =>
              obtain rfl := Option.some.inj hw
              exact hwas
          | transitionCall _ _ _ =>
              obtain rfl := Option.some.inj hw
              exact hwas
          | _ => cases hw
  refine ⟨h.campaign, ⟨fun k a' ha' => ?_, fun k b' hb' => ?_, fun k d' hd' => (hcall k d' hd').1⟩,
    fun k d' hd' => (hcall k d' hd').2⟩
  · obtain ⟨a, ha, -⟩ := agent_of_exec ha'
    exact h.ids.agents k a ha
  · obtain ⟨b, hb, -⟩ := borrower_of_exec hb'
    exact h.ids.borrowers k b hb

/-! ## The books -/

/-- What has become of the agents `taken`. -/
abbrev AgentBooks (workerId : String) (taken : List String) (lines : List Line)
    (hand : Option Agent) (agents : Collection Agent) : Prop :=
  Custody Line.agentId (Line.OfAgent workerId) Agent.Released taken lines hand agents

/-- What has become of the borrowers `taken`. -/
abbrev BorrowerBooks (workerId : String) (taken : List String) (lines : List Line)
    (hand : Option Borrower) (borrowers : Collection Borrower) : Prop :=
  Custody Line.borrowerId (Line.OfBorrower workerId) Borrower.Released taken lines hand borrowers

/-- What has become of the calls `taken`. -/
abbrev CallBooks (campaignId : String) (taken : List String) (lines : List Line)
    (hand : Option Call) (calls : Collection Call) : Prop :=
  Custody Line.callId (Line.OfCall campaignId) (fun d => d.state = .failed) taken lines hand calls

/-- What the allocation has in hand: the documents, as they stand. -/
structure Hand where
  agent : Option Agent := none
  borrower : Option Borrower := none
  call : Option Call := none

/-- What the books keep count of. -/
structure Tally where
  attempts : List Bool := []
  originates : Nat := 0
  initiated : List String := []

/-- The count a journal gives. -/
def Journal.tally (j : Journal) : Tally where
  attempts := j.attempts
  originates := j.originates
  initiated := j.initiated

/--
Everything the log tells of is accounted for, with the lines `lines` and with `hand` in hand;
`tally` is what the log comes to. The allocation began in `s₀`.
-/
structure Books (campaignId workerId : String) (s₀ : State) (lines : List Line) (hand : Hand)
    (tally : Tally) (s : State) : Prop where
  count : (journalOf s.log).tally = tally
  agents : AgentBooks workerId (journalOf s.log).agents lines hand.agent s.agents
  borrowers : BorrowerBooks workerId (journalOf s.log).borrowers lines hand.borrower s.borrowers
  calls : CallBooks campaignId tally.initiated lines hand.call s.calls
  /-- No call is moved to INITIATED twice. -/
  initiated : tally.initiated.Nodup
  moved : ∀ l ∈ lines, l.callId ∈ tally.initiated
  tidy : Tidy campaignId s₀ → Tidy campaignId s

namespace Books

variable {campaignId workerId : String} {s₀ : State} {lines : List Line} {hand hand' : Hand}
  {tally : Tally} {attempts : List Bool}

/-- Nothing has been done. -/
theorem init (s : State) : Books campaignId workerId s [] {} {} { s with log := [] } where
  count := rfl
  agents := .init _
  borrowers := .init _
  calls := .init _
  initiated := List.nodup_nil
  moved _ hl := nomatch hl
  tidy h := h.of_sameDocuments ⟨rfl, rfl, rfl, rfl⟩

/-- Something happened that the journal does not note. -/
theorem silent (h : Books campaignId workerId s₀ lines hand tally s)
    (hj : journalOf s'.log = journalOf s.log) (htidy : Tidy campaignId s → Tidy campaignId s')
    (hagents : AgentBooks workerId (journalOf s.log).agents lines hand'.agent s'.agents)
    (hborrowers : BorrowerBooks workerId (journalOf s.log).borrowers lines hand'.borrower
      s'.borrowers)
    (hcalls : CallBooks campaignId tally.initiated lines hand'.call s'.calls) :
    Books campaignId workerId s₀ lines hand' tally s' where
  count := hj ▸ h.count
  agents := hj ▸ hagents
  borrowers := hj ▸ hborrowers
  calls := hcalls
  initiated := h.initiated
  moved := h.moved
  tidy h₀ := htidy (h.tidy h₀)

/-- Nothing was written, and the journal notes nothing. -/
theorem read (h : Books campaignId workerId s₀ lines hand tally s) (hs : SameDocuments s' s)
    (hj : journalOf s'.log = journalOf s.log) :
    Books campaignId workerId s₀ lines hand tally s' := by
  refine h.silent hj (fun ht => ht.of_sameDocuments hs) ?_ ?_ ?_
  · rw [hs.agents]
    exact h.agents
  · rw [hs.borrowers]
    exact h.borrowers
  · rw [hs.calls]
    exact h.calls

/-- An attempt begins. -/
theorem begin (hc : c.fault = .none) (h : Books campaignId workerId s₀ lines hand tally s)
    (needed : Int) :
    Books campaignId workerId s₀ lines hand { tally with attempts := false :: tally.attempts }
      (exec i (.findClaimableAgents campaignId needed) c s).2 := by
  have hlog := journalOf_exec i (.findClaimableAgents campaignId needed) c s
  rw [exec_faultless hc] at hlog ⊢
  refine ⟨?_, ?_, ?_, h.calls, h.initiated, h.moved, fun h₀ => (h.tidy h₀).of_sameDocuments
    (SameDocuments.record ..)⟩
  · rw [hlog, ← h.count]
    rfl
  · rw [hlog]
    exact h.agents
  · rw [hlog]
    exact h.borrowers

/-- A provider is asked for a call. -/
theorem ask {providerName : String} {pair : ReservationPair} {request : OriginateRequest}
    (hc : c.fault = .none) (h : Books campaignId workerId s₀ lines hand tally s) :
    Books campaignId workerId s₀ lines hand { tally with originates := tally.originates + 1 }
      (exec i (.originateCall providerName pair request) c s).2 := by
  have hlog := journalOf_exec i (.originateCall providerName pair request) c s
  have hsame : SameDocuments (exec i (.originateCall providerName pair request) c s).2 s := by
    rw [exec_faultless hc]
    refine (SameDocuments.record ..).trans ?_
    rw [effect]
    split <;> exact SameDocuments.refl s
  refine ⟨?_, ?_, ?_, ?_, h.initiated, h.moved, fun h₀ => (h.tidy h₀).of_sameDocuments hsame⟩
  · rw [hlog, ← h.count]
    rfl
  · rw [hlog, hsame.agents]
    exact h.agents
  · rw [hlog, hsame.borrowers]
    exact h.borrowers
  · rw [hsame.calls]
    exact h.calls

/-- An operation writes to the agent in hand. -/
theorem writeAgent {a : Agent} {w : Write Agent} (hc : c.fault = .none)
    (h : Books campaignId workerId s₀ lines hand tally s) (ha : hand.agent = some a)
    (hw : o.agentWrite c = some w) (htarget : w.target = a.id) (hp : w.filter a = true)
    (hj : ∀ r, (journalOf s.log).note (.answered i o r) = journalOf s.log) :
    Books campaignId workerId s₀ lines { hand with agent := some (w.update.apply a) } tally
      (exec i o c s).2 := by
  obtain ⟨hplain, hborrowers, hcalls⟩ := Op.agentWrite_only hw
  obtain ⟨answer, hans⟩ := exec_plain hplain hc i s
  refine h.silent ((journalOf_exec ..).trans (hj _)) (fun ht => ht.step ?_) ?_ ?_ ?_
  · rw [hcalls.2]
    exact fun d hd => nomatch hd
  · rw [agents_of_ok hans, hw]
    exact (ha ▸ h.agents).write htarget hp
  · rw [borrowers_of_ok hans, hborrowers]
    exact h.borrowers
  · rw [calls_of_idle hcalls.1 hcalls.2]
    exact h.calls

/-- An operation writes to the borrower in hand. -/
theorem writeBorrower {b : Borrower} {w : Write Borrower} (hc : c.fault = .none)
    (h : Books campaignId workerId s₀ lines hand tally s) (hb : hand.borrower = some b)
    (hw : o.borrowerWrite c = some w) (htarget : w.target = b.id) (hp : w.filter b = true)
    (hj : ∀ r, (journalOf s.log).note (.answered i o r) = journalOf s.log) :
    Books campaignId workerId s₀ lines { hand with borrower := some (w.update.apply b) } tally
      (exec i o c s).2 := by
  obtain ⟨hplain, hagents, hcalls⟩ := Op.borrowerWrite_only hw
  obtain ⟨answer, hans⟩ := exec_plain hplain hc i s
  refine h.silent ((journalOf_exec ..).trans (hj _)) (fun ht => ht.step ?_) ?_ ?_ ?_
  · rw [hcalls.2]
    exact fun d hd => nomatch hd
  · rw [agents_of_ok hans, hagents]
    exact h.agents
  · rw [borrowers_of_ok hans, hw]
    exact (hb ▸ h.borrowers).write htarget hp
  · rw [calls_of_idle hcalls.1 hcalls.2]
    exact h.calls

/-! ### The agent -/

/-- An agent is claimed. -/
theorem claimAgent {ttlSeconds : Int} {agentId : String} {a : Agent}
    (h : Books campaignId workerId s₀ lines {} tally s)
    (hans : (exec i (.tryReserveAgent campaignId agentId workerId ttlSeconds) c s).1
      = .ok (some a)) :
    (a.state = .reserved ∧ a.reservedBy = some workerId)
      ∧ Books campaignId workerId s₀ lines { agent := some a } tally
        (exec i (.tryReserveAgent campaignId agentId workerId ttlSeconds) c s).2 := by
  have hid := tryReserveAgent_id hans
  obtain ⟨b, hb, hp, rfl, -⟩ := tryReserveAgent_some hans
  obtain rfl : b.id = agentId := hid
  -- nobody on the list is AVAILABLE
  have hfree : ∀ l, ¬Line.OfAgent workerId l b := by
    rintro l ⟨hdialing, -⟩
    cases hdialing.symm.trans (AgentRepository.reservable_iff.mp hp).2
  have hlog := journalOf_exec i (.tryReserveAgent campaignId b.id workerId ttlSeconds) c s
  rw [hans] at hlog
  refine ⟨⟨rfl, rfl⟩, ?_, ?_, ?_, ?_, h.initiated, h.moved,
    fun h₀ => (h.tidy h₀).step fun d hd => nomatch hd⟩
  · rw [hlog]
    exact h.count
  · rw [hlog, agents_of_ok hans]
    exact ((h.agents.take hb hfree).write (w := ⟨b.id, _, _⟩) rfl hp).note
  · rw [hlog, borrowers_of_ok hans]
    exact h.borrowers
  · rw [calls_of_idle rfl rfl]
    exact h.calls

/-- An agent was not to be had. -/
theorem missAgent {ttlSeconds : Int} {agentId : String}
    (h : Books campaignId workerId s₀ lines hand tally s)
    (hans : (exec i (.tryReserveAgent campaignId agentId workerId ttlSeconds) c s).1
      = .ok none) :
    Books campaignId workerId s₀ lines hand tally
      (exec i (.tryReserveAgent campaignId agentId workerId ttlSeconds) c s).2 := by
  obtain ⟨heff, -⟩ := exec_ok hans
  refine h.silent ?_ (fun ht => ht.step fun d hd => nomatch hd) (h.agents.congr fun k => ?_) ?_ ?_
  · rw [journalOf_exec, hans]
    rfl
  · rw [agents_of_ok hans]
    exact Collection.update_of_get_filter (Option.map_eq_none_iff.mp (Except.ok.inj heff)) k
  · rw [borrowers_of_ok hans]
    exact h.borrowers
  · rw [calls_of_idle rfl rfl]
    exact h.calls

/-- The agent in hand is released. -/
theorem releaseAgent {a : Agent} (hc : c.fault = .none)
    (h : Books campaignId workerId s₀ lines hand tally s) (ha : hand.agent = some a)
    (hheld : a.HeldBy workerId) (shielded : Bool) :
    Books campaignId workerId s₀ lines { hand with agent := none } tally
      (exec i (.releaseAgent a.id workerId .available .allocator shielded) c s).2 := by
  have hrel := h.writeAgent (i := i) (o := .releaseAgent a.id workerId .available .allocator
    shielded) hc ha rfl rfl hheld.releasable fun _ => rfl
  exact hrel.silent rfl id (hrel.agents.giveBack ⟨⟨rfl, rfl, rfl, rfl⟩, rfl⟩) hrel.borrowers
    hrel.calls

/-! ### The borrower -/

/-- A borrower is claimed: the attempt has its pair. -/
theorem claimBorrower {ttlSeconds : Int} {borrowerId : String} {b : Borrower}
    (h : Books campaignId workerId s₀ lines hand { tally with attempts := false :: attempts } s)
    (hb : hand.borrower = none)
    (hans : (exec i (.tryReserveBorrower campaignId borrowerId workerId ttlSeconds) c s).1
      = .ok (some b)) :
    (b.status = .reserved ∧ b.reservedBy = some workerId)
      ∧ Books campaignId workerId s₀ lines { hand with borrower := some b }
        { tally with attempts := true :: attempts }
        (exec i (.tryReserveBorrower campaignId borrowerId workerId ttlSeconds) c s).2 := by
  have hid := tryReserveBorrower_id hans
  obtain ⟨x, hx, hp, rfl, -⟩ := tryReserveBorrower_some hans
  obtain rfl : x.id = borrowerId := hid
  -- nobody on the list is PENDING
  have hfree : ∀ l, ¬Line.OfBorrower workerId l x := by
    rintro l ⟨hreserved, -⟩
    cases hreserved.symm.trans (BorrowerRepository.claimable_iff.mp hp).2.1
  have hlog := journalOf_exec i (.tryReserveBorrower campaignId x.id workerId ttlSeconds) c s
  rw [hans] at hlog
  refine ⟨⟨rfl, rfl⟩, ?_, ?_, ?_, ?_, h.initiated, h.moved,
    fun h₀ => (h.tidy h₀).step fun d hd => nomatch hd⟩
  · rw [hlog]
    exact congrArg (fun t : Tally => { t with attempts := true :: t.attempts.tail }) h.count
  · rw [hlog, agents_of_ok hans]
    exact h.agents
  · rw [hlog, borrowers_of_ok hans]
    exact (((hb ▸ h.borrowers).take hx hfree).write (w := ⟨x.id, _, _⟩) rfl hp).note
  · rw [calls_of_idle rfl rfl]
    exact h.calls

/-- A borrower was not to be had. -/
theorem missBorrower {ttlSeconds : Int} {borrowerId : String}
    (h : Books campaignId workerId s₀ lines hand tally s)
    (hans : (exec i (.tryReserveBorrower campaignId borrowerId workerId ttlSeconds) c s).1
      = .ok none) :
    Books campaignId workerId s₀ lines hand tally
      (exec i (.tryReserveBorrower campaignId borrowerId workerId ttlSeconds) c s).2 := by
  obtain ⟨heff, -⟩ := exec_ok hans
  refine h.silent ?_ (fun ht => ht.step fun d hd => nomatch hd) ?_ (h.borrowers.congr fun k => ?_)
    ?_
  · rw [journalOf_exec, hans]
    rfl
  · rw [agents_of_ok hans]
    exact h.agents
  · rw [borrowers_of_ok hans]
    exact Collection.update_of_get_filter (Option.map_eq_none_iff.mp (Except.ok.inj heff)) k
  · rw [calls_of_idle rfl rfl]
    exact h.calls

/-- The borrower in hand is released. -/
theorem releaseBorrower {b : Borrower} (hc : c.fault = .none)
    (h : Books campaignId workerId s₀ lines hand tally s) (hb : hand.borrower = some b)
    (hheld : b.status = .reserved ∧ b.reservedBy = some workerId)
    {outcome : BorrowerReleaseOutcome} (maxAttempts backoffBaseSeconds : Int) (shielded : Bool) :
    Books campaignId workerId s₀ lines { hand with borrower := none } tally
      (exec i (.releaseBorrower b.id workerId outcome maxAttempts backoffBaseSeconds shielded) c
        s).2 := by
  have hp : BorrowerRepository.releasable workerId b = true :=
    BorrowerRepository.releasable_of_reserved hheld.1 hheld.2
  have hrel := h.writeBorrower (i := i) (o := .releaseBorrower b.id workerId outcome maxAttempts
    backoffBaseSeconds shielded) hc hb rfl rfl hp fun _ => rfl
  refine hrel.silent rfl id hrel.agents (hrel.borrowers.giveBack ?_) hrel.calls
  cases outcome with
  | released => exact ⟨fun h => (by cases h), rfl, rfl, rfl⟩
  | contacted => exact ⟨fun h => (by cases h), rfl, rfl, rfl⟩
  -- after the last attempt it is EXHAUSTED, before that PENDING
  | retry =>
      refine ⟨?_, rfl, rfl, rfl⟩
      change (if maxAttempts ≤ ((b.attemptCount + 1 : Nat) : Int) then BorrowerStatus.exhausted
        else .pending) ≠ .reserved
      split <;> decide

/-! ### The call -/

/-- A call is filed for the pair in hand, or refused. -/
theorem fileCall {a : Agent} {b : Borrower} {providerName : String} {attempt : Nat}
    (h : Books campaignId workerId s₀ lines hand tally s) (ha : hand.agent = some a)
    (hb : hand.borrower = some b) :
    Books campaignId workerId s₀ lines hand tally
      (exec i (.insertCall campaignId a.id b.id providerName workerId attempt) c s).2 := by
  have hagents : (exec i (.insertCall campaignId a.id b.id providerName workerId attempt) c
      s).2.agents = s.agents := by
    rcases exec_agents i (.insertCall campaignId a.id b.id providerName workerId attempt) c s with
      hsame | ⟨w, hw, -⟩
    · exact hsame
    · cases hw
  have hborrowers : (exec i (.insertCall campaignId a.id b.id providerName workerId attempt) c
      s).2.borrowers = s.borrowers := by
    rcases exec_borrowers i (.insertCall campaignId a.id b.id providerName workerId attempt) c s
      with hsame | ⟨w, hw, -⟩
    · exact hsame
    · cases hw
  refine h.silent (journalOf_exec ..) (fun ht => ht.step fun d hd => ?_) ?_ ?_ ?_
  · obtain rfl := Option.some.inj hd
    exact ⟨ht.campaign, ht.ids.agents _ a ((ha ▸ h.agents).inHand a rfl).1,
      ht.ids.borrowers _ b ((hb ▸ h.borrowers).inHand b rfl).1⟩
  · rw [hagents]
    exact h.agents
  · rw [hborrowers]
    exact h.borrowers
  · rcases exec_calls i (.insertCall campaignId a.id b.id providerName workerId attempt) c s with
      hsame | ⟨w, hw, -⟩ | ⟨d, -, -, -, hins⟩
    · rw [hsame]
      exact h.calls
    · cases hw
    · exact h.calls.insert hins

/-- A QUEUED call is taken in hand; it has not been moved to INITIATED before. -/
theorem takeCall {d : Call} (h : Books campaignId workerId s₀ lines hand tally s)
    (hcall : hand.call = none) (hd : s.calls.get d.id = some d) (hqueued : d.state = .queued) :
    d.id ∉ tally.initiated
      ∧ Books campaignId workerId s₀ lines { hand with call := some d } tally s := by
  have hfree : ∀ l, ¬Line.OfCall campaignId l d := by
    rintro l ⟨hinitiated, -⟩
    cases hqueued.symm.trans hinitiated
  have hnone : CallBooks campaignId tally.initiated lines none s.calls := hcall ▸ h.calls
  refine ⟨hnone.not_taken hd hfree fun hfailed => ?_, ?_⟩
  · cases hqueued.symm.trans hfailed
  · exact h.silent rfl id h.agents h.borrowers (hnone.take hd hfree)

/-- The call in hand is let go of, when it has not been moved to INITIATED. -/
theorem dropCall {d : Call} (h : Books campaignId workerId s₀ lines hand tally s)
    (hcall : hand.call = some d) (hnew : d.id ∉ tally.initiated) :
    Books campaignId workerId s₀ lines { hand with call := none } tally s :=
  h.silent rfl id h.agents h.borrowers ((hcall ▸ h.calls).drop hnew)

/-- The call in hand is let go of, when it has FAILED. -/
theorem closeCall {d : Call} (h : Books campaignId workerId s₀ lines hand tally s)
    (hcall : hand.call = some d) (hfailed : d.state = .failed) :
    Books campaignId workerId s₀ lines { hand with call := none } tally s :=
  h.silent rfl id h.agents h.borrowers ((hcall ▸ h.calls).giveBack hfailed)

/-- The call in hand is transitioned, or the transition is refused. -/
theorem transition {d : Call} {t : CallState} (hc : c.fault = .none)
    (h : Books campaignId workerId s₀ lines hand tally s) (hcall : hand.call = some d)
    (ht : t ≠ .initiated) (reason : Option String) :
    Books campaignId workerId s₀ lines
      { hand with
        call := some (if CallRepository.advanceable t d then
          (CallRepository.advance c.now t reason).apply d else d) }
      tally (exec i (.transitionCall d.id t reason) c s).2 := by
  have hj : journalOf (exec i (.transitionCall d.id t reason) c s).2.log = journalOf s.log := by
    rw [journalOf_exec]
    cases t with
    | initiated => exact absurd rfl ht
    | _ => rfl
  have hcalls : (exec i (.transitionCall d.id t reason) c s).2.calls = s.calls.write
      ⟨d.id, CallRepository.advanceable t, CallRepository.advance c.now t reason⟩ := by
    rw [exec_faultless hc]
    rfl
  have hd : CallBooks campaignId tally.initiated lines (some d) s.calls := hcall ▸ h.calls
  refine h.silent hj (fun ht => ht.step fun d hd => nomatch hd) ?_ ?_ ?_
  · rw [exec_faultless hc]
    exact h.agents
  · rw [exec_faultless hc]
    exact h.borrowers
  · rw [hcalls]
    change Custody _ _ _ _ _ (some (if _ then _ else _)) _
    split
    · rename_i hp
      exact hd.write (w := ⟨d.id, _, _⟩) rfl hp
    · rename_i hp
      exact hd.refuse (w := ⟨d.id, _, _⟩) rfl hp

/-- The call in hand is moved to INITIATED. -/
theorem initiate {d d' : Call} (hc : c.fault = .none)
    (h : Books campaignId workerId s₀ lines hand tally s) (hcall : hand.call = some d)
    (hnew : d.id ∉ tally.initiated)
    (hans : (exec i (.transitionCall d.id .initiated none) c s).1 = .ok (some d')) :
    d' = (CallRepository.advance c.now .initiated none).apply d
      ∧ Books campaignId workerId s₀ lines { hand with call := some d' }
        { tally with initiated := d.id :: tally.initiated }
        (exec i (.transitionCall d.id .initiated none) c s).2 := by
  have hd : CallBooks campaignId tally.initiated lines (some d) s.calls := hcall ▸ h.calls
  obtain ⟨x, hx, hp, rfl, -⟩ := transitionCall_some hans
  obtain rfl : x = d := Option.some.inj (hx.symm.trans (hd.inHand d rfl).1)
  have hlog := journalOf_exec i (.transitionCall x.id .initiated none) c s
  rw [hans] at hlog
  have hcalls : (exec i (.transitionCall x.id .initiated none) c s).2.calls = s.calls.write
      ⟨x.id, CallRepository.advanceable .initiated, CallRepository.advance c.now .initiated
        none⟩ := by
    rw [exec_faultless hc]
    rfl
  refine ⟨rfl, ?_, ?_, ?_, ?_, List.nodup_cons.mpr ⟨hnew, h.initiated⟩,
    fun l hl => List.mem_cons_of_mem _ (h.moved l hl),
    fun h₀ => (h.tidy h₀).step fun d hd => nomatch hd⟩
  · rw [hlog, ← h.count]
    rfl
  · rw [hlog, agents_of_ok hans]
    exact h.agents
  · rw [hlog, borrowers_of_ok hans]
    exact h.borrowers
  · rw [hcalls]
    exact (hd.write (w := ⟨x.id, CallRepository.advanceable .initiated,
      CallRepository.advance c.now .initiated none⟩) rfl hp).note

/-- INITIATED was refused. -/
theorem notInitiated {d : Call} (hc : c.fault = .none)
    (h : Books campaignId workerId s₀ lines hand tally s)
    (hans : (exec i (.transitionCall d.id .initiated none) c s).1 = .ok none) :
    Books campaignId workerId s₀ lines hand tally
      (exec i (.transitionCall d.id .initiated none) c s).2 := by
  obtain ⟨heff, -⟩ := exec_ok hans
  refine h.silent ?_ (fun ht => ht.step fun d hd => nomatch hd) ?_ ?_ (h.calls.congr fun k => ?_)
  · rw [journalOf_exec, hans]
    rfl
  · rw [agents_of_ok hans]
    exact h.agents
  · rw [borrowers_of_ok hans]
    exact h.borrowers
  · rw [exec_faultless hc]
    exact Collection.update_of_get_filter (Option.map_eq_none_iff.mp (Except.ok.inj heff)) k

/-- The id of the provider is recorded on the call in hand, or not. -/
theorem attach {d : Call} (hc : c.fault = .none)
    (h : Books campaignId workerId s₀ lines hand tally s) (hcall : hand.call = some d)
    (providerCallId : Option String) :
    ∃ d', (d' = d ∨ d' = (CallRepository.attach c.now providerCallId).apply d)
      ∧ Books campaignId workerId s₀ lines { hand with call := some d' } tally
        (exec i (.attachProviderCallId d.id providerCallId) c s).2 := by
  have hd : CallBooks campaignId tally.initiated lines (some d) s.calls := hcall ▸ h.calls
  obtain ⟨answer, hans⟩ := exec_plain (o := .attachProviderCallId d.id providerCallId) trivial hc
    i s
  have hbooks : ∀ d', CallBooks campaignId tally.initiated lines (some d')
      (exec i (.attachProviderCallId d.id providerCallId) c s).2.calls →
      Books campaignId workerId s₀ lines { hand with call := some d' } tally
        (exec i (.attachProviderCallId d.id providerCallId) c s).2 := by
    intro d' hd'
    refine h.silent (journalOf_exec ..) (fun ht => ht.step fun d hd => nomatch hd) ?_ ?_ hd'
    · rw [agents_of_ok hans]
      exact h.agents
    · rw [borrowers_of_ok hans]
      exact h.borrowers
  -- another call may have the id already: then the write is not made
  rcases exec_calls i (.attachProviderCallId d.id providerCallId) c s with hsame | ⟨w, hw, hwrite⟩
    | ⟨_, hnew, -⟩
  · exact ⟨d, .inl rfl, hbooks d (hsame ▸ hd)⟩
  · obtain rfl := Option.some.inj hw
    by_cases hp : CallRepository.attachable d = true
    · exact ⟨_, .inr rfl, hbooks _ (hwrite ▸ hd.write (w := ⟨d.id, _, _⟩) rfl hp)⟩
    · exact ⟨d, .inl rfl, hbooks d (hwrite ▸ hd.refuse (w := ⟨d.id, _, _⟩) rfl hp)⟩
  · cases hnew

/-- **The dial went through**: all three that are in hand make a line. -/
theorem settle {l : Line} {a : Agent} {b : Borrower} {d : Call}
    (h : Books campaignId workerId s₀ lines ⟨some a, some b, some d⟩ tally s)
    (ha : l.OfAgent workerId a) (hagent : l.agentId = a.id)
    (hb : l.OfBorrower workerId b) (hborrower : l.borrowerId = b.id)
    (hd : l.OfCall campaignId d) (hcall : l.callId = d.id) (hmoved : d.id ∈ tally.initiated) :
    Books campaignId workerId s₀ (l :: lines) {} tally s where
  count := h.count
  agents := h.agents.settle hagent ha
  borrowers := h.borrowers.settle hborrower hb
  calls := h.calls.settle hcall hd
  initiated := h.initiated
  moved := by
    intro l' hl'
    rcases List.mem_cons.mp hl' with rfl | hl'
    · exact hcall ▸ hmoved
    · exact h.moved l' hl'
  tidy := h.tidy

end Books

end SmartDialer
