import Mathlib.Data.Bool.Count
import SmartDialer.Protocol.Bookkeeping

/-!
# What an allocation comes to

`allocate` run by itself, with a database that does not fail and a provider that answers in
one of the ways a dial knows: the counters it returns, and the documents it leaves.

Each step of the dial keeps the books, in the sense of `Bookkeeping`, and hands on what it
has in hand; the loop carries the books, empty-handed, from one attempt to the next. What
an attempt released may be claimed by the next one, so the account cannot be given attempt
by attempt, and the lines are what makes it one account.
-/

namespace SmartDialer

open Store Conc

/-! ## Statement -/

/-- The call is there, and has not ended. -/
def State.hasLiveCall (s : State) (callId : String) : Bool :=
  (s.calls.get callId).any fun d => !isTerminal d.state

/--
What an allocation that began in `s₀` and ended in `s` has to show for itself: `lines` are
its dials that went through. The log of `s` is that of the allocation.
-/
structure Accounts (campaignId workerId : String) (approved : Int) (s₀ : State)
    (result : AllocationResult) (lines : List Line) (s : State) : Prop where
  balance : result.attempted = result.allocated + result.failed + result.contended
  /-- The counters are those of the attempts that were made. -/
  attempted : result.attempted = (journalOf s.log).attempts.length
  contended : result.contended = (journalOf s.log).attempts.count false
  within : (result.attempted : Int) ≤ max 0 approved
  /-- It ends early only after three attempts in a row without a pair. -/
  early : (result.attempted : Int) < max 0 approved →
    [false, false, false] <+: (journalOf s.log).attempts
  asked : ((journalOf s.log).originates : Int) ≤ max 0 approved
  allocated : lines.length = result.allocated
  /-- No call was moved to INITIATED twice, and those of the lines are the ones still live. -/
  initiated : (journalOf s.log).initiated.Nodup
  live : ((journalOf s.log).initiated.filter s.hasLiveCall).Perm (lines.map Line.callId)
  calls : ∀ l ∈ lines, ∃ d, s.calls.get l.callId = some d ∧ l.OfCall campaignId d
    ∧ (Tidy campaignId s₀ → d.agentId = l.agentId ∧ d.borrowerId = l.borrowerId)
  /-- No two lines share an agent or a borrower. -/
  agents : (lines.map Line.agentId).Nodup
    ∧ ∀ l ∈ lines, ∃ a, s.agents.get l.agentId = some a ∧ l.OfAgent workerId a
  borrowers : (lines.map Line.borrowerId).Nodup
    ∧ ∀ l ∈ lines, ∃ b, s.borrowers.get l.borrowerId = some b ∧ l.OfBorrower workerId b
  /-- Every other agent and borrower it has claimed has been released. -/
  agentsReleased : ∀ k ∈ (journalOf s.log).agents, k ∈ lines.map Line.agentId
    ∨ ∃ a, s.agents.get k = some a ∧ a.Released
  borrowersReleased : ∀ k ∈ (journalOf s.log).borrowers, k ∈ lines.map Line.borrowerId
    ∨ ∃ b, s.borrowers.get k = some b ∧ b.Released

/--
Nothing fails, new ids are new, and each request to the provider is accepted or refused,
rejected, or not answered in time.
-/
structure Untroubled (s₀ : State) (env : Nat → Choice) : Prop where
  fault : ∀ n, (env n).fault = .none
  handled : ∀ n, (env n).originate.handled = true
  unused : ∀ n, s₀.calls.get (env n).newId = none
  distinct : ∀ m n, (env m).newId = (env n).newId → m = n

/-! ## The logic -/

/-- The runs in which nothing fails, new ids are new, and a dial can use the answers it gets. -/
def untroubled (cfg : Settings) : Policy (dialer cfg) where
  task _ := True
  run _ _ c s := c.fault = .none ∧ c.originate.handled = true ∧ s.calls.get c.newId = none

/-- The logic of an allocation nobody disturbs. -/
abbrev solitary (cfg : Settings) (i : Nat) : Logic (untroubled cfg) Unit :=
  Logic.alone (untroubled cfg) i

variable {cfg : Settings} {campaign : Campaign} {workerId : String} {i : Nat} {s₀ s : State}
  {lines : List Line} {hand : Hand} {tally : Tally}

/-- One operation. -/
theorem wp_untroubled {o : Op} {Q : Except Exn (Ans o) → Assertion Unit}
    (h : ∀ c : Choice, c.fault = .none → c.originate.handled = true →
      s.calls.get c.newId = none → Q (exec i o c s).1 ((exec i o c s).2, ())) :
    (solitary cfg i).wp i (await o) Q (s, ()) :=
  Logic.wp_perform_alone fun c hc => h c hc.1 hc.2.1 hc.2.2

/-- An operation the database answers by itself. -/
theorem wp_answered {o : Op} (ho : o.Plain) {f : Ans o → Assertion Unit}
    (h : ∀ c : Choice, c.fault = .none → ∀ a, (exec i o c s).1 = .ok a →
      f a ((exec i o c s).2, ())) :
    (solitary cfg i).wp i (await o) (Finishes f) (s, ()) := by
  refine wp_untroubled fun c hc _ _ => ?_
  obtain ⟨a, ha⟩ := exec_plain ho hc i s
  rw [ha]
  exact h c hc a ha

namespace Books

/-! ## Reserving a pair -/

/-- The loop of `_claim_agent`. -/
theorem wp_claimFirstAgent (candidates : List Agent)
    (h : Books campaign.id workerId s₀ lines {} tally s) :
    (solitary cfg i).wp i
      (ReservationService.claimFirstAgent cfg campaign.id workerId candidates)
      (Finishes fun answer x => (∀ a, answer = some a →
          a.state = .reserved ∧ a.reservedBy = some workerId)
        ∧ Books campaign.id workerId s₀ lines { agent := answer } tally x.1) (s, ()) := by
  induction candidates generalizing s with
  | nil => exact ⟨fun a ha => (by cases ha), h⟩
  | cons candidate rest ih =>
      refine wp_bind_finishes (f := fun answer x => (∀ a, answer = some a →
          a.state = .reserved ∧ a.reservedBy = some workerId)
        ∧ Books campaign.id workerId s₀ lines { agent := answer } tally x.1)
        (wp_answered (o := .tryReserveAgent _ _ _ _) trivial fun c hc answer hans => ?_) ?_
      · cases answer with
        | none => exact ⟨fun a ha => (by cases ha), h.missAgent hans⟩
        | some a =>
            obtain ⟨hreserved, hbooks⟩ := h.claimAgent hans
            refine ⟨fun a' ha' => ?_, hbooks⟩
            obtain rfl := Option.some.inj ha'
            exact hreserved
      · rintro answer ⟨s₁, ⟨⟩⟩ ⟨hreserved, hbooks⟩
        cases answer with
        | none => exact ih hbooks
        | some a => exact ⟨hreserved, hbooks⟩

/-- `_claim_agent` begins an attempt. -/
theorem wp_claimAgent (h : Books campaign.id workerId s₀ lines {} tally s) :
    (solitary cfg i).wp i (ReservationService.claimAgent cfg campaign.id workerId)
      (Finishes fun answer x => (∀ a, answer = some a →
          a.state = .reserved ∧ a.reservedBy = some workerId)
        ∧ Books campaign.id workerId s₀ lines { agent := answer }
          { tally with attempts := false :: tally.attempts } x.1) (s, ()) :=
  wp_bind_finishes (f := fun _ x => Books campaign.id workerId s₀ lines {}
      { tally with attempts := false :: tally.attempts } x.1)
    (wp_answered (o := .findClaimableAgents _ _) trivial fun _ hc _ _ => h.begin hc 1)
    fun candidates _ hx => wp_claimFirstAgent candidates hx

/-- The loop of `_claim_borrower`. -/
theorem wp_claimFirstBorrower (candidates : List Borrower) {a : Agent} {attempts : List Bool}
    (h : Books campaign.id workerId s₀ lines { agent := some a }
      { tally with attempts := false :: attempts } s) :
    (solitary cfg i).wp i
      (ReservationService.claimFirstBorrower cfg campaign.id workerId candidates)
      (Finishes fun answer x => (∀ b, answer = some b →
          b.status = .reserved ∧ b.reservedBy = some workerId)
        ∧ Books campaign.id workerId s₀ lines { agent := some a, borrower := answer }
          { tally with attempts := answer.isSome :: attempts } x.1) (s, ()) := by
  induction candidates generalizing s with
  | nil => exact ⟨fun b hb => (by cases hb), h⟩
  | cons candidate rest ih =>
      refine wp_bind_finishes (f := fun answer x => (∀ b, answer = some b →
          b.status = .reserved ∧ b.reservedBy = some workerId)
        ∧ Books campaign.id workerId s₀ lines { agent := some a, borrower := answer }
          { tally with attempts := answer.isSome :: attempts } x.1)
        (wp_answered (o := .tryReserveBorrower _ _ _ _) trivial fun c hc answer hans => ?_) ?_
      · cases answer with
        | none => exact ⟨fun b hb => (by cases hb), h.missBorrower hans⟩
        | some b =>
            obtain ⟨hreserved, hbooks⟩ := h.claimBorrower rfl hans
            refine ⟨fun b' hb' => ?_, hbooks⟩
            obtain rfl := Option.some.inj hb'
            exact hreserved
      · rintro answer ⟨s₁, ⟨⟩⟩ ⟨hreserved, hbooks⟩
        cases answer with
        | none => exact ih hbooks
        | some b => exact ⟨hreserved, hbooks⟩

/-- `_release_agent`. -/
theorem wp_releaseAgent {a : Agent} (hheld : a.HeldBy workerId)
    (h : Books campaign.id workerId s₀ lines hand tally s) (ha : hand.agent = some a) :
    (solitary cfg i).wp i (ReservationService.releaseAgent a.id workerId false)
      (Finishes fun _ x => Books campaign.id workerId s₀ lines { hand with agent := none } tally
        x.1) (s, ()) := by
  change (solitary cfg i).wp i ((await (.releaseAgent a.id workerId .available .allocator
    false)).bind fun _ => .ret ()) _ _
  exact wp_bind_finishes (wp_answered (o := .releaseAgent _ _ _ _ _) trivial
    (f := fun _ x => Books campaign.id workerId s₀ lines { hand with agent := none } tally x.1)
    fun c hc _ _ => h.releaseAgent hc ha hheld false) fun _ _ hx => hx

/-- The pair is reserved for the worker. -/
structure Reserved (workerId : String) (pair : ReservationPair) : Prop where
  worker : pair.workerId = workerId
  agent : pair.agent.state = .reserved ∧ pair.agent.reservedBy = some workerId
  borrower : pair.borrower.status = .reserved ∧ pair.borrower.reservedBy = some workerId

/-- `_reserve_pair`: the attempt has a pair, or it has nothing. -/
theorem wp_reservePair (h : Books campaign.id workerId s₀ lines {} tally s) :
    (solitary cfg i).wp i (CallAllocator.reservePair cfg campaign.id workerId)
      (Finishes fun answer x => (answer = none → Books campaign.id workerId s₀ lines {}
          { tally with attempts := false :: tally.attempts } x.1)
        ∧ ∀ pair, answer = some pair → Reserved workerId pair
          ∧ Books campaign.id workerId s₀ lines
            { agent := some pair.agent, borrower := some pair.borrower }
            { tally with attempts := true :: tally.attempts } x.1) (s, ()) := by
  refine wp_tryCatch_finishes (wp_bind_finishes (wp_claimAgent h) ?_)
  rintro agent ⟨s₁, ⟨⟩⟩ ⟨hreserved, h₁⟩
  cases agent with
  | none => exact ⟨fun _ => h₁, fun pair hpair => (by cases hpair)⟩
  | some a =>
      refine wp_bind_finishes (wp_tryCatch_finishes (wp_bind_finishes (f := fun _ x =>
        Books campaign.id workerId s₀ lines { agent := some a }
          { tally with attempts := false :: tally.attempts } x.1)
        (wp_answered (o := .findClaimableBorrowers _ _) trivial fun c hc candidates _ => ?_)
        fun candidates x hx => wp_claimFirstBorrower candidates hx)) ?_
      · refine h₁.read ?_ (journalOf_exec ..)
        rw [exec_faultless hc]
        exact SameDocuments.record ..
      rintro borrower ⟨s₂, ⟨⟩⟩ ⟨hborrower, h₂⟩
      cases borrower with
      -- there is no borrower: the agent is not kept
      | none =>
          obtain ⟨hstate, hworker⟩ := hreserved a rfl
          refine wp_bind_finishes (wp_releaseAgent ⟨hworker, .inl hstate⟩ h₂ rfl) ?_
          rintro - ⟨s₃, ⟨⟩⟩ h₃
          exact ⟨fun _ => h₃, fun pair hpair => (by cases hpair)⟩
      | some b =>
          refine ⟨fun hnone => (by cases hnone), fun pair hpair => ?_⟩
          obtain rfl := Option.some.inj hpair
          exact ⟨⟨rfl, hreserved a rfl, hborrower b rfl⟩, h₂⟩

/-- `release_pair`. -/
theorem wp_releasePair {pair : ReservationPair} {a : Agent} (hid : a.id = pair.agent.id)
    (hpair : Reserved workerId pair) (hheld : a.HeldBy workerId)
    (h : Books campaign.id workerId s₀ lines
      { agent := some a, borrower := some pair.borrower } tally s)
    (outcome : BorrowerReleaseOutcome) :
    (solitary cfg i).wp i (ReservationService.releasePair cfg pair outcome false)
      (Finishes fun _ x => Books campaign.id workerId s₀ lines {} tally x.1) (s, ()) := by
  obtain ⟨campaignId, worker, agent, borrower⟩ := pair
  obtain rfl : worker = workerId := hpair.worker
  change (solitary cfg i).wp i ((ReservationService.releaseAgent agent.id worker false).bind
    fun _ => (await (.releaseBorrower borrower.id worker outcome cfg.maxCallAttempts
      cfg.retryBackoffBaseSeconds false)).bind fun _ => .ret ()) _ _
  rw [← show a.id = agent.id from hid]
  refine wp_bind_finishes (wp_releaseAgent hheld h rfl) ?_
  rintro - ⟨s₁, ⟨⟩⟩ h₁
  exact wp_bind_finishes (wp_answered (o := .releaseBorrower _ _ _ _ _ _) trivial
    (f := fun _ x => Books campaign.id worker s₀ lines {} tally x.1)
    fun c hc _ _ => h₁.releaseBorrower hc rfl hpair.borrower _ _ false) fun _ _ hx => hx

/-! ## One dial -/

/-- The retry gate reads, and nothing else. -/
theorem wp_retrySuppressed (pair : ReservationPair)
    (h : Books campaign.id workerId s₀ lines hand tally s) :
    (solitary cfg i).wp i (CallAllocator.retrySuppressed cfg campaign pair)
      (Finishes fun _ x => Books campaign.id workerId s₀ lines hand tally x.1) (s, ()) := by
  have hread : ∀ o : Op, o.Plain → (∀ c s, SameDocuments (effect o c s).2 s) →
      (∀ j r, Journal.note j (.answered i o r) = j) → ∀ s : State,
      Books campaign.id workerId s₀ lines hand tally s → (solitary cfg i).wp i (await o)
        (Finishes fun _ x => Books campaign.id workerId s₀ lines hand tally x.1) (s, ()) := by
    intro o ho hsame hnote s h
    refine wp_answered ho fun c hc _ _ => h.read ?_ ((journalOf_exec ..).trans (hnote _ _))
    rw [exec_faultless hc]
    exact (SameDocuments.record ..).trans (hsame c s)
  rw [CallAllocator.retrySuppressed]
  split
  · refine wp_bind_finishes (L := solitary cfg i) (f := fun _ x =>
      Books campaign.id workerId s₀ lines hand tally x.1) ?_ fun _ _ hx => hx
    rw [shouldRetry]
    split
    · exact h
    · refine wp_bind_finishes (hread .utcNow trivial (fun _ s => .refl s) (fun _ _ => rfl) s h) ?_
      rintro now ⟨s₁, ⟨⟩⟩ h₁
      change (solitary cfg i).wp i (if now < pair.borrower.nextEligibleAt then .ret false
        else await (.shouldAllowRetry campaign.providerName)) _ _
      split
      · exact h₁
      · exact hread (.shouldAllowRetry _) trivial (fun _ s => .refl s) (fun _ _ => rfl) s₁ h₁
  · exact h

/-- A call that could not be filed has a call before it. -/
theorem existing_of_insertCall_error {campaignId agentId borrowerId providerName worker : String}
    {attempt : Nat} {c : Choice} {e : Exn} (hc : c.fault = .none)
    (hnew : s.calls.get c.newId = none)
    (h : (exec i (.insertCall campaignId agentId borrowerId providerName worker attempt) c s).1
      = .error e) :
    e = .duplicateKeyError
      ∧ (exec i (.insertCall campaignId agentId borrowerId providerName worker attempt) c
        s).2.calls = s.calls
      ∧ ∃ d, CallRepository.findByIdempotencyKey
        (buildIdempotencyKey campaignId agentId borrowerId attempt) s.calls = some d := by
  rw [exec_faultless hc] at h ⊢
  simp only [effect] at h ⊢
  split at h
  · cases h
  · rename_i hnone
    refine ⟨(Except.error.inj h).symm, rfl, ?_⟩
    rw [CallRepository.insertCall] at hnone
    split at hnone
    · rename_i hsome
      exact Option.isSome_iff_exists.mp hsome
    -- a new id is not refused
    · have hins : (s.calls.insert (c.newCall campaignId agentId borrowerId providerName worker
          attempt)).isSome := Collection.insert_isSome_iff.mpr hnew
      rw [hnone] at hins
      cases hins

/-- `create_call`: there is a call under the key of the dial, old or new. -/
theorem wp_createCall {pair : ReservationPair} (hpair : Reserved workerId pair)
    (h : Books campaign.id workerId s₀ lines
      { agent := some pair.agent, borrower := some pair.borrower } tally s) :
    (solitary cfg i).wp i
      (Calls.createCall campaign.id pair.agent.id pair.borrower.id campaign.providerName
        pair.workerId (pair.borrower.attemptCount + 1))
      (Finishes fun d x => x.1.calls.get d.id = some d
        ∧ d.idempotencyKey = dialKey campaign pair
        ∧ Books campaign.id workerId s₀ lines
          { agent := some pair.agent, borrower := some pair.borrower } tally x.1) (s, ()) := by
  refine Logic.wp_tryCatch (wp_untroubled (o := createOp campaign pair) fun c hc _ hnew => ?_)
  have h₁ : Books campaign.id workerId s₀ lines
      { agent := some pair.agent, borrower := some pair.borrower } tally
      (exec i (createOp campaign pair) c s).2 := by
    rw [createOp, hpair.worker]
    exact h.fileCall rfl rfl
  cases hans : (exec i (createOp campaign pair) c s).1 with
  | ok d =>
      obtain ⟨hd, -, -, hget⟩ := insertCall_ok hans
      exact ⟨hget, hd ▸ rfl, h₁⟩
  | error e =>
      obtain ⟨rfl, hcalls, d, hd⟩ := existing_of_insertCall_error hc hnew hans
      have hcalls₁ : (exec i (createOp campaign pair) c s).2.calls = s.calls := hcalls
      refine wp_bind_finishes (L := solitary cfg i) (f := fun answer x => answer = some d
        ∧ x.1.calls = s.calls ∧ Books campaign.id workerId s₀ lines
          { agent := some pair.agent, borrower := some pair.borrower } tally x.1)
        (wp_answered (o := .findByIdempotencyKey _) trivial fun c' hc' answer hans' => ?_) ?_
      · obtain ⟨heff, -⟩ := exec_ok hans'
        rw [exec_faultless hc']
        refine ⟨(Except.ok.inj heff).symm.trans ?_, hcalls₁, h₁.read (SameDocuments.record ..) rfl⟩
        rw [hcalls₁]
        exact hd
      · rintro answer ⟨s₂, ⟨⟩⟩ ⟨rfl, hcalls₂, h₂⟩
        obtain ⟨hget, hkey⟩ := Collection.findOne_some hd
        exact ⟨hcalls₂ ▸ hget, eq_of_beq hkey, h₂⟩

/-- `_originate` asks the provider once, and does not raise. -/
theorem wp_originate {pair : ReservationPair}
    (hprovider : providerNames.contains campaign.providerName = true) (callId : String)
    (h : Books campaign.id workerId s₀ lines hand tally s) :
    (solitary cfg i).wp i (CallAllocator.originate cfg campaign pair callId)
      (Finishes fun _ x => Books campaign.id workerId s₀ lines hand
        { tally with originates := tally.originates + 1 } x.1) (s, ()) := by
  rw [CallAllocator.originate, hprovider]
  refine Logic.wp_tryCatch (Logic.wp_bind (wp_untroubled (o := .originateCall _ _ _)
    fun c hc hhandled _ => ?_))
  have hexec : ∀ r, effect (.originateCall campaign.providerName pair
      (CallAllocator.originateRequest cfg campaign pair callId)) c s = (r, s) →
      (exec i (.originateCall campaign.providerName pair
        (CallAllocator.originateRequest cfg campaign pair callId)) c s).1 = r :=
    fun r hr => congrArg Prod.fst (exec_of_effect hc hr i)
  -- the two timeouts and a rejection are caught; `handled` says that there is nothing else
  cases ho : c.originate with
  | result r =>
      rw [hexec (.ok r) (by rw [effect, ho])]
      exact h.ask hc
  | timeoutError =>
      rw [hexec (.error .timeoutError) (by rw [effect, ho])]
      exact h.ask hc
  | providerError e =>
      rw [hexec (.error (.provider e)) (by rw [effect, ho])]
      rw [ho] at hhandled
      cases e with
      | timeout => exact h.ask hc
      | rejected reason => exact h.ask hc
      | unavailable name => cases hhandled
      | other name => cases hhandled

/-- `_hangup`: whatever the provider answers, nothing is written. -/
theorem wp_hangup (providerCallId : Option String)
    (h : Books campaign.id workerId s₀ lines hand tally s) :
    (solitary cfg i).wp i (CallAllocator.hangup campaign.providerName providerCallId)
      (Finishes fun _ x => Books campaign.id workerId s₀ lines hand tally x.1) (s, ()) := by
  rw [CallAllocator.hangup]
  split
  · exact h
  · refine Logic.wp_tryCatch (wp_untroubled (o := .hangupCall _ _) fun c hc _ _ => ?_)
    have h₁ : Books campaign.id workerId s₀ lines hand tally
        (exec i (.hangupCall campaign.providerName providerCallId) c s).2 := by
      refine h.read ?_ (journalOf_exec ..)
      rw [exec_faultless hc]
      refine (SameDocuments.record ..).trans ?_
      rw [effect]
      split <;> exact SameDocuments.refl s
    have hexec : ∀ r, effect (.hangupCall campaign.providerName providerCallId) c s = (r, s) →
        (exec i (.hangupCall campaign.providerName providerCallId) c s).1 = r :=
      fun r hr => congrArg Prod.fst (exec_of_effect hc hr i)
    cases ho : c.hangup with
    | none =>
        rw [hexec (.ok ()) (by rw [effect, ho])]
        exact h₁
    | some e =>
        rw [hexec (.error (.provider e)) (by rw [effect, ho])]
        exact h₁

/-- The call is INITIATED for this dial, and its document says so throughout. -/
structure UnderWay (campaign : Campaign) (pair : ReservationPair) (d : Call) : Prop where
  state : d.state = .initiated
  rank : d.stateRank = rank .initiated
  terminal : d.terminal = false
  key : d.idempotencyKey = dialKey campaign pair

/-- The agent of the pair is DIALING, and bound to the call. -/
structure OnCall (workerId : String) (pair : ReservationPair) (d : Call) (a : Agent) : Prop where
  id : a.id = pair.agent.id
  dialing : a.DialingFor workerId
  bound : a.currentCallId = some d.id

/-- How a dial ends: with nothing in hand, and with one line more if it went through. -/
def Ends (campaignId workerId : String) (s₀ : State) (lines : List Line) (tally : Tally)
    (dialled : Bool) (s : State) : Prop :=
  ∃ new : List Line, new.length = dialled.toNat
    ∧ Books campaignId workerId s₀ (new ++ lines) {} tally s

/-- The same, with what a dial adds to the count: it asks a provider once at most. -/
def AfterDial (campaignId workerId : String) (s₀ : State) (lines : List Line) (tally : Tally)
    (dialled : Bool) (s : State) : Prop :=
  ∃ tally' : Tally, tally'.attempts = tally.attempts ∧ tally'.originates ≤ tally.originates + 1
    ∧ Ends campaignId workerId s₀ lines tally' dialled s

theorem Ends.failed (h : Books campaign.id workerId s₀ lines {} tally s) :
    Ends campaign.id workerId s₀ lines tally false s := ⟨[], rfl, h⟩

/-- A dial that did not come to a call. -/
theorem wp_failDial {pair : ReservationPair} (hpair : Reserved workerId pair) {a : Agent}
    {d : Call} (ha : OnCall workerId pair d a) (hd : UnderWay campaign pair d)
    (h : Books campaign.id workerId s₀ lines ⟨some a, some pair.borrower, some d⟩ tally s)
    (reason : Option String) :
    (solitary cfg i).wp i (CallAllocator.failDial cfg pair d.id reason)
      (Finishes fun r x => Ends campaign.id workerId s₀ lines tally r x.1) (s, ()) := by
  have hp : CallRepository.advanceable .failed d = true :=
    CallRepository.advanceable_iff.mpr ⟨hd.terminal, by rw [hd.rank]; decide⟩
  refine wp_bind_finishes (f := fun _ x => Books campaign.id workerId s₀ lines
    { agent := some a, borrower := some pair.borrower } tally x.1)
    (wp_answered (o := .transitionCall _ _ _) trivial fun c hc _ _ => ?_) ?_
  · have hfailed := h.transition (i := i) hc rfl (t := .failed) (by decide) reason
    rw [if_pos hp] at hfailed
    exact hfailed.closeCall rfl rfl
  · rintro - ⟨s₁, ⟨⟩⟩ h₁
    refine wp_bind_finishes (wp_releasePair ha.id hpair ha.dialing.heldBy h₁ .retry) ?_
    rintro - ⟨s₂, ⟨⟩⟩ h₂
    exact .failed h₂

/-- `_dial`, from the provider's answer on. -/
theorem wp_concludeDial {pair : ReservationPair} (hpair : Reserved workerId pair) {a : Agent}
    {d : Call} (ha : OnCall workerId pair d a) (hd : UnderWay campaign pair d)
    (hmoved : d.id ∈ tally.initiated)
    (h : Books campaign.id workerId s₀ lines ⟨some a, some pair.borrower, some d⟩ tally s)
    (result : Option OriginateResult) :
    (solitary cfg i).wp i (CallAllocator.concludeDial cfg campaign pair d.id result)
      (Finishes fun r x => Ends campaign.id workerId s₀ lines tally r x.1) (s, ()) := by
  cases result with
  | none => exact wp_failDial hpair ha hd h _
  | some result =>
      rw [CallAllocator.concludeDial]
      split
      · exact wp_failDial hpair ha hd h _
      · refine wp_bind_finishes (f := fun _ x => ∃ d', d'.id = d.id ∧ UnderWay campaign pair d'
          ∧ Books campaign.id workerId s₀ lines ⟨some a, some pair.borrower, some d'⟩ tally x.1)
          (wp_answered (o := .attachProviderCallId _ _) trivial fun c hc _ _ => ?_) ?_
        · obtain ⟨d', hd', h₁⟩ := h.attach (i := i) hc rfl result.providerCallId
          rcases hd' with rfl | rfl
          · exact ⟨d', rfl, hd, h₁⟩
          · exact ⟨(CallRepository.attach c.now result.providerCallId).apply d, rfl,
              ⟨hd.state, hd.rank, hd.terminal, hd.key⟩, h₁⟩
        · rintro answer ⟨s₁, ⟨⟩⟩ ⟨d', hid, hd', h₁⟩
          have ha' : OnCall workerId pair d' a := ⟨ha.id, ha.dialing, hid ▸ ha.bound⟩
          cases answer with
          -- the id was refused: the call is hung up, and counts as none
          | none =>
              refine wp_bind_finishes (wp_hangup _ h₁) ?_
              rintro - ⟨s₂, ⟨⟩⟩ h₂
              rw [← hid]
              exact wp_failDial hpair ha' hd' h₂ _
          | some _ =>
              refine ⟨[⟨pair.agent.id, pair.borrower.id, d'.id⟩], rfl, h₁.settle ?_ ha.id.symm
                hpair.borrower rfl ⟨hd'.state, _, hd'.key⟩ rfl (hid ▸ hmoved)⟩
              exact ⟨ha.dialing.2, ha.dialing.1, ha'.bound⟩

/-- `_dial`, from the moment the call is INITIATED on. -/
theorem wp_launch {pair : ReservationPair} (hpair : Reserved workerId pair)
    (hprovider : providerNames.contains campaign.providerName = true) {d : Call}
    (hd : UnderWay campaign pair d) (hmoved : d.id ∈ tally.initiated)
    (h : Books campaign.id workerId s₀ lines ⟨some pair.agent, some pair.borrower, some d⟩ tally
      s) :
    (solitary cfg i).wp i (CallAllocator.launch cfg campaign pair d.id)
      (Finishes fun r x => Ends campaign.id workerId s₀ lines
        { tally with originates := tally.originates + 1 } r x.1) (s, ()) := by
  have hp : AgentRepository.movable .reserved pair.agent.stateVersion pair.agent = true :=
    AgentRepository.movable_iff.mpr ⟨hpair.agent.1, rfl⟩
  -- the agent starts dialing
  refine wp_bind_finishes (f := fun _ x => ∃ a : Agent, a.id = pair.agent.id
    ∧ a.DialingFor workerId
    ∧ Books campaign.id workerId s₀ lines ⟨some a, some pair.borrower, some d⟩ tally x.1)
    (wp_answered (o := .transitionAgent _ _ _ _) trivial fun c hc _ _ => ?_) ?_
  · refine ⟨_, ?_, ⟨?_, rfl⟩, h.writeAgent (o := .transitionAgent pair.agent.id .reserved .dialing
      pair.agent.stateVersion) hc rfl rfl rfl hp fun _ => rfl⟩
    · exact AgentRepository.timeAccountingUpdates_id ..
    · exact (AgentRepository.timeAccountingUpdates_reservedBy ..).trans hpair.agent.2
  rintro - ⟨s₁, ⟨⟩⟩ ⟨a, hid, hdialing, h₁⟩
  -- it is bound to the call
  have hbindable : AgentRepository.bindable pair.workerId a = true :=
    AgentRepository.bindable_iff.mpr (hpair.worker ▸ hdialing.1)
  refine wp_bind_finishes (f := fun _ x => ∃ a, OnCall workerId pair d a
    ∧ Books campaign.id workerId s₀ lines ⟨some a, some pair.borrower, some d⟩ tally x.1)
    (wp_answered (o := .bindCall _ _ _) trivial fun c hc _ _ => ?_) ?_
  · exact ⟨(AgentRepository.setCurrentCall d.id).apply a, ⟨hid, hdialing, rfl⟩,
      h₁.writeAgent (o := .bindCall pair.agent.id pair.workerId d.id) hc rfl rfl hid.symm hbindable
        fun _ => rfl⟩
  rintro - ⟨s₂, ⟨⟩⟩ ⟨a, ha, h₂⟩
  -- the provider is asked
  refine wp_bind_finishes (wp_originate hprovider d.id h₂) ?_
  rintro result ⟨s₃, ⟨⟩⟩ h₃
  refine wp_concludeDial hpair ha hd ?_ h₃ result
  exact hmoved

/-- `_dial`, once it has its call. -/
theorem wp_drive {pair : ReservationPair} (hpair : Reserved workerId pair)
    (hprovider : providerNames.contains campaign.providerName = true) {d : Call}
    (hget : s.calls.get d.id = some d) (hkey : d.idempotencyKey = dialKey campaign pair)
    (h : Books campaign.id workerId s₀ lines
      { agent := some pair.agent, borrower := some pair.borrower } tally s) :
    (solitary cfg i).wp i (CallAllocator.drive cfg campaign pair d)
      (Finishes fun r x => AfterDial campaign.id workerId s₀ lines tally r x.1) (s, ()) := by
  -- what gives the pair back without having asked the provider
  have hgiveUp : ∀ s₁ : State, Books campaign.id workerId s₀ lines
      { agent := some pair.agent, borrower := some pair.borrower } tally s₁ →
      (solitary cfg i).wp i
        ((ReservationService.releasePair cfg pair .released false).bind fun _ => .ret false)
        (Finishes fun r x => AfterDial campaign.id workerId s₀ lines tally r x.1) (s₁, ()) := by
    intro s₁ h₁
    refine wp_bind_finishes (wp_releasePair rfl hpair ⟨hpair.agent.2, .inl hpair.agent.1⟩ h₁
      .released) ?_
    rintro - ⟨s₂, ⟨⟩⟩ h₂
    exact ⟨tally, rfl, Nat.le_succ _, .failed h₂⟩
  rw [CallAllocator.drive]
  split
  · exact hgiveUp s h
  · rename_i hstate
    obtain ⟨hnew, h₁⟩ := h.takeCall rfl hget (not_not.mp hstate)
    -- RESERVED may be refused, if the document contradicts itself; nothing looks at that
    refine wp_bind_finishes (f := fun _ x => ∃ d', d'.id = d.id
      ∧ d'.idempotencyKey = dialKey campaign pair
      ∧ Books campaign.id workerId s₀ lines ⟨some pair.agent, some pair.borrower, some d'⟩ tally
        x.1) (wp_answered (o := .transitionCall _ _ _) trivial fun c hc _ _ => ?_) ?_
    · refine ⟨_, ?_, ?_, h₁.transition (t := .reserved) hc rfl (by decide) none⟩
      · split <;> rfl
      · split <;> exact hkey
    rintro - ⟨s₂, ⟨⟩⟩ ⟨d₂, hid, hkey₂, h₂⟩
    rw [← hid] at hnew ⊢
    refine wp_bind_finishes (f := fun answer x => (answer = none →
        Books campaign.id workerId s₀ lines ⟨some pair.agent, some pair.borrower, some d₂⟩ tally
          x.1)
      ∧ ∀ d', answer = some d' → d'.id = d₂.id ∧ UnderWay campaign pair d'
        ∧ Books campaign.id workerId s₀ lines ⟨some pair.agent, some pair.borrower, some d'⟩
          { tally with initiated := d₂.id :: tally.initiated } x.1)
      (wp_answered (o := .transitionCall _ _ _) trivial fun c hc answer hans => ?_) ?_
    · cases answer with
      | none => exact ⟨fun _ => h₂.notInitiated hc hans, fun d' hd' => (by cases hd')⟩
      | some d' =>
          refine ⟨fun hnone => (by cases hnone), fun x hx => ?_⟩
          obtain rfl := Option.some.inj hx
          obtain ⟨rfl, h₃⟩ := h₂.initiate hc rfl hnew hans
          exact ⟨rfl, ⟨rfl, rfl, rfl, hkey₂⟩, h₃⟩
    rintro answer ⟨s₃, ⟨⟩⟩ ⟨hrefused, hmoved⟩
    cases answer with
    | none => exact hgiveUp s₃ ((hrefused rfl).dropCall rfl hnew)
    | some d' =>
        obtain ⟨hid', hd', h₃⟩ := hmoved d' rfl
        change (solitary cfg i).wp i (CallAllocator.launch cfg campaign pair d₂.id) _ _
        rw [← hid']
        refine Logic.wp_mono (wp_launch hpair hprovider hd' ?_ h₃) fun r x hr => ?_
        · exact hid' ▸ List.mem_cons_self
        · cases r with
          | error e => exact hr.elim
          | ok dialled =>
              exact ⟨⟨tally.attempts, tally.originates + 1, d₂.id :: tally.initiated⟩, rfl,
                Nat.le_refl _, hr⟩

/-- `_dial`. -/
theorem wp_dial {pair : ReservationPair} (hpair : Reserved workerId pair)
    (hprovider : providerNames.contains campaign.providerName = true)
    (h : Books campaign.id workerId s₀ lines
      { agent := some pair.agent, borrower := some pair.borrower } tally s) :
    (solitary cfg i).wp i (CallAllocator.dial cfg campaign pair)
      (Finishes fun r x => AfterDial campaign.id workerId s₀ lines tally r x.1) (s, ()) := by
  rw [dial_eq]
  refine wp_bind_finishes (wp_retrySuppressed pair h) ?_
  rintro suppressed ⟨s₁, ⟨⟩⟩ h₁
  split
  · refine wp_bind_finishes (wp_releasePair rfl hpair ⟨hpair.agent.2, .inl hpair.agent.1⟩ h₁
      .released) ?_
    rintro - ⟨s₂, ⟨⟩⟩ h₂
    exact ⟨tally, rfl, Nat.le_succ _, .failed h₂⟩
  · refine wp_bind_finishes (wp_createCall hpair h₁) ?_
    rintro d ⟨s₂, ⟨⟩⟩ ⟨hget, hkey, h₂⟩
    exact wp_drive hpair hprovider hget hkey h₂

/-! ## The loop -/

/-- The counters agree with the books. -/
structure Balanced (result : AllocationResult) (lines : List Line) (tally : Tally) : Prop where
  attempted : result.attempted = tally.attempts.length
  contended : result.contended = tally.attempts.count false
  allocated : result.allocated = lines.length
  dialled : result.allocated + result.failed = tally.attempts.count true
  asked : tally.originates ≤ tally.attempts.count true

/-- An attempt without a pair. -/
theorem Balanced.contention {result : AllocationResult} (h : Balanced result lines tally) :
    Balanced { result with
        attempted := result.attempted + 1
        contended := result.contended + 1 } lines
      { tally with attempts := false :: tally.attempts } where
  attempted := congrArg (· + 1) h.attempted
  contended := by
    rw [List.count_cons_self]
    exact congrArg (· + 1) h.contended
  allocated := h.allocated
  dialled := by
    rw [List.count_cons_of_ne (by decide)]
    exact h.dialled
  asked := by
    rw [List.count_cons_of_ne (by decide)]
    exact h.asked

/-- An attempt with a pair, after its dial. -/
theorem Balanced.dial {result : AllocationResult} (h : Balanced result lines tally)
    {tally' : Tally} {new : List Line} {dialled : Bool} (hnew : new.length = dialled.toNat)
    (hattempts : tally'.attempts = true :: tally.attempts)
    (hasked : tally'.originates ≤ tally.originates + 1) :
    Balanced { result with
        attempted := result.attempted + 1
        allocated := result.allocated + dialled.toNat
        failed := result.failed + (!dialled).toNat } (new ++ lines) tally' where
  attempted := by
    rw [hattempts]
    exact congrArg (· + 1) h.attempted
  contended := by
    rw [hattempts, List.count_cons_of_ne (by decide)]
    exact h.contended
  allocated := by
    rw [List.length_append, hnew, ← h.allocated]
    exact Nat.add_comm ..
  dialled := by
    have hbefore := h.dialled
    rw [hattempts, List.count_cons_self]
    cases dialled <;> simp only [Bool.toNat_true, Bool.toNat_false, Bool.not_true, Bool.not_false]
      <;> omega
  asked := by
    have hbefore := h.asked
    rw [hattempts, List.count_cons_self]
    omega

/-- What the loop comes to, when it still has `n` attempts. -/
def AfterLoop (campaignId workerId : String) (s₀ : State) (attempted n : Nat)
    (result : AllocationResult) (s : State) : Prop :=
  ∃ lines tally, Books campaignId workerId s₀ lines {} tally s ∧ Balanced result lines tally
    ∧ result.attempted ≤ attempted + n
    ∧ (result.attempted < attempted + n → [false, false, false] <+: tally.attempts)

theorem AfterLoop.succ {attempted n : Nat} {result : AllocationResult}
    (h : AfterLoop campaign.id workerId s₀ (attempted + 1) n result s) :
    AfterLoop campaign.id workerId s₀ attempted (n + 1) result s := by
  rw [AfterLoop, Nat.add_right_comm, Nat.add_assoc] at h
  exact h

/--
The loop of `allocate`. `consecutive` counts the contentions at the head of the attempts, and
is below three as long as the loop goes on.
-/
theorem wp_allocateLoop (hprovider : providerNames.contains campaign.providerName = true)
    {n consecutive : Nat} {result : AllocationResult}
    (hrow : List.replicate consecutive false <+: tally.attempts) (hfew : consecutive < 3)
    (hbalanced : Balanced result lines tally)
    (h : Books campaign.id workerId s₀ lines {} tally s) :
    (solitary cfg i).wp i
      (CallAllocator.allocateLoop cfg campaign workerId n consecutive result)
      (Finishes fun r x => AfterLoop campaign.id workerId s₀ result.attempted n r x.1) (s, ()) := by
  induction n generalizing consecutive result lines tally s with
  | zero =>
      exact ⟨lines, tally, h, hbalanced, Nat.le_refl _, fun hlt => absurd hlt (Nat.lt_irrefl _)⟩
  | succ n ih =>
      refine wp_bind_finishes (wp_reservePair h) ?_
      rintro answer ⟨s₁, ⟨⟩⟩ ⟨hnone, hsome⟩
      cases answer with
      | none =>
          have h₁ := hnone rfl
          have hrow₁ : List.replicate (consecutive + 1) false <+: false :: tally.attempts :=
            List.cons_prefix_cons.mpr ⟨rfl, hrow⟩
          change (solitary cfg i).wp i (if CallAllocator.maxConsecutiveContentions ≤
            consecutive + 1 then .ret _ else CallAllocator.allocateLoop cfg campaign workerId n
              (consecutive + 1) _) _ _
          split
          -- three in a row: the loop ends before its time
          · rename_i hthree
            obtain rfl : consecutive = 2 := by
              have hmax : CallAllocator.maxConsecutiveContentions = 3 := rfl
              omega
            exact ⟨lines, _, h₁, hbalanced.contention, by simp, fun _ => hrow₁⟩
          · rename_i hgo
            exact finishes_mono (ih hrow₁ (Nat.lt_of_not_le hgo) hbalanced.contention h₁)
              fun _ _ => AfterLoop.succ
      | some pair =>
          obtain ⟨hpair, h₁⟩ := hsome pair rfl
          refine wp_bind_finishes (wp_tryCatch_finishes (wp_dial hpair hprovider h₁)) ?_
          rintro dialled ⟨s₂, ⟨⟩⟩ ⟨tally₂, hattempts, hasked, new, hnew, h₂⟩
          have hbalanced₂ := hbalanced.dial hnew hattempts hasked
          have hrow₂ : List.replicate 0 false <+: tally₂.attempts := List.nil_prefix
          cases dialled with
          | true =>
              exact finishes_mono (ih hrow₂ (by decide) hbalanced₂ h₂) fun _ _ => AfterLoop.succ
          | false =>
              exact finishes_mono (ih hrow₂ (by decide) hbalanced₂ h₂) fun _ _ => AfterLoop.succ

end Books

/-! ## The account -/

/-- The books of an allocation that has ended. -/
theorem Books.accounts {approved : Int} {result : AllocationResult}
    (h : Books campaign.id workerId s₀ lines {} tally s) (hbalanced : Balanced result lines tally)
    (hwithin : result.attempted ≤ approved.toNat)
    (hearly : result.attempted < approved.toNat → [false, false, false] <+: tally.attempts) :
    Accounts campaign.id workerId approved s₀ result lines s := by
  have htally : tally = (journalOf s.log).tally := h.count.symm
  have hlength : tally.attempts.length = tally.attempts.count true + tally.attempts.count false :=
    (List.count_true_add_count_false _).symm
  have hmax : (approved.toNat : Int) = max 0 approved := by omega
  have hmem : ∀ k ∈ tally.initiated,
      s.hasLiveCall k = true ↔ k ∈ lines.map Line.callId := by
    intro k hk
    constructor
    · intro hlive
      rcases h.calls.accounted k hk with hhand | hline | ⟨d, hd, hfailed⟩
      · cases hhand
      · exact hline
      -- a call that has FAILED is not live
      · rw [State.hasLiveCall, hd, Option.any_some, show d.state = .failed from hfailed] at hlive
        cases hlive
    · intro hline
      obtain ⟨l, hl, rfl⟩ := List.mem_map.mp hline
      obtain ⟨d, hd, hstate, -⟩ := h.calls.out l hl
      rw [State.hasLiveCall, hd, Option.any_some, hstate]
      rfl
  have hattempted := hbalanced.attempted
  have hcontended := hbalanced.contended
  have hdialled := hbalanced.dialled
  have hasked := hbalanced.asked
  have hjournal : (journalOf s.log).initiated = tally.initiated := by rw [htally]; rfl
  have hattempts : (journalOf s.log).attempts = tally.attempts := by rw [htally]; rfl
  have horiginates : (journalOf s.log).originates = tally.originates := by rw [htally]; rfl
  refine ⟨by omega, ?_, ?_, by omega, ?_, ?_, hbalanced.allocated.symm, ?_, ?_, fun l hl => ?_,
    ⟨h.agents.nodup, h.agents.out⟩, ⟨h.borrowers.nodup, h.borrowers.out⟩, fun k hk => ?_,
    fun k hk => ?_⟩
  · rw [hattempts]
    exact hattempted
  · rw [hattempts]
    exact hcontended
  · intro hlt
    rw [hattempts]
    exact hearly (by omega)
  · rw [horiginates]
    omega
  · rw [hjournal]
    exact h.initiated
  · rw [hjournal, List.perm_ext_iff_of_nodup (h.initiated.filter _) h.calls.nodup]
    intro k
    rw [List.mem_filter]
    constructor
    · rintro ⟨hk, hlive⟩
      exact (hmem k hk).mp hlive
    · intro hline
      obtain ⟨l, hl, rfl⟩ := List.mem_map.mp hline
      exact ⟨h.moved l hl, (hmem _ (h.moved l hl)).mpr hline⟩
  · obtain ⟨d, hd, hof⟩ := h.calls.out l hl
    obtain ⟨a, ha, -⟩ := h.agents.out l hl
    obtain ⟨b, hb, -⟩ := h.borrowers.out l hl
    exact ⟨d, hd, hof, fun htidy => (h.tidy htidy).parties hd hof ha hb⟩
  · rcases h.agents.accounted k hk with hhand | hrest
    · cases hhand
    · exact hrest
  · rcases h.borrowers.accounted k hk with hhand | hrest
    · cases hhand
    · exact hrest

/-- The environment's choices are allowed: its ids are new to all that was filed before. -/
theorem Untroubled.allowed {env : Nat → Choice} (henv : Untroubled s₀ env) :
    ∀ k o s, (∀ id d, s.calls.get id = some d → s₀.calls.get id ≠ none
        ∨ ∃ m, m < k ∧ id = (env m).newId) →
      (untroubled cfg).run i o (env k) s
      ∧ ∀ id d, (exec i o (env k) s).2.calls.get id = some d → s₀.calls.get id ≠ none
        ∨ ∃ m, m < k + 1 ∧ id = (env m).newId := by
  intro k o s hs
  refine ⟨⟨henv.fault k, henv.handled k, ?_⟩, fun id d hd => ?_⟩
  · cases hget : s.calls.get (env k).newId with
    | none => rfl
    | some d =>
        rcases hs _ d hget with hold | ⟨m, hm, heq⟩
        · exact absurd (henv.unused k) hold
        · exact absurd (henv.distinct k m heq) (Nat.ne_of_gt hm)
  · rcases call_of_exec hd with ⟨hins, hid, -⟩ | ⟨d₀, hd₀, -⟩
    · refine .inr ⟨k, Nat.lt_succ_self k, ?_⟩
      cases o with
      | insertCall _ _ _ _ _ _ =>
          obtain rfl := Option.some.inj hins
          exact hid
      | _ => cases hins
    · rcases hs id d₀ hd₀ with hold | ⟨m, hm, heq⟩
      · exact .inl hold
      · exact .inr ⟨m, Nat.lt_succ_of_lt hm, heq⟩

/--
**Every allocation accounts for all it did**, from any stored state, whatever was approved and
however the provider answers.
-/
theorem allocation_accounted (cfg : Settings) (campaign : Campaign) (decision : SafetyDecision)
    (workerId : String) (i : Nat) (env : Nat → Choice) (s : State) (henv : Untroubled s env)
    (hprovider : providerNames.contains campaign.providerName = true) :
    ∃ result lines,
      ((CallAllocator.allocate cfg campaign decision.approved workerId).eval (solo i env)
        ({ s with log := [] }, 0)).1 = .ok result
      ∧ Accounts campaign.id workerId decision.approved s result lines
        ((CallAllocator.allocate cfg campaign decision.approved workerId).eval (solo i env)
          ({ s with log := [] }, 0)).2.1 := by
  have hrow : List.replicate 0 false <+: ({} : Tally).attempts := List.nil_prefix
  have hloop : (solitary cfg i).wp i
      (CallAllocator.allocate cfg campaign decision.approved workerId)
      (Finishes fun r x => Books.AfterLoop campaign.id workerId s 0 decision.approved.toNat r x.1)
      ({ s with log := [] }, ()) :=
    Books.wp_allocateLoop hprovider hrow (by decide) ⟨rfl, rfl, rfl, rfl, Nat.le_refl _⟩ (.init s)
  have hpost := Logic.eval_of_wp_along (R := fun k (x : State) => ∀ id d, x.calls.get id = some d →
      s.calls.get id ≠ none ∨ ∃ m, m < k ∧ id = (env m).newId) (n := 0) henv.allowed
    (fun id d hd => .inl fun hnone => (by cases hnone.symm.trans hd)) hloop
  change Finishes _ ((CallAllocator.allocate cfg campaign decision.approved workerId).eval
    (solo i env) ({ s with log := [] }, 0)).1 (((CallAllocator.allocate cfg campaign
      decision.approved workerId).eval (solo i env) ({ s with log := [] }, 0)).2.1, ()) at hpost
  generalize (CallAllocator.allocate cfg campaign decision.approved workerId).eval (solo i env)
    ({ s with log := [] }, 0) = x at hpost ⊢
  obtain ⟨r, s', n⟩ := x
  cases r with
  | error e => exact hpost.elim
  | ok result =>
      obtain ⟨lines, tally, hbooks, hbalanced, hwithin, hearly⟩ := hpost
      rw [Nat.zero_add] at hwithin hearly
      exact ⟨result, lines, rfl, hbooks.accounts hbalanced hwithin hearly⟩

/-- Five calls are approved. -/
def fiveApproved : SafetyDecision where
  campaignId := "campaign"
  requested := 5
  approved := 5
  verdict := .approved
  constraints := []
  bindingConstraint := none
  snapshotAgeMs := 0

/-- The provider accepts every request; each id is longer than the last. -/
def obliging (n : Nat) : Choice where
  newId := String.ofList (List.replicate n 'x')
  originate := .result { accepted := true, latencyMs := 0, providerCallId := some "provider-call" }

theorem obliging_untroubled : Untroubled oneAgent obliging where
  fault _ := rfl
  handled _ := rfl
  unused _ := rfl
  distinct m n h := by simpa [obliging] using congrArg String.length h

/-- One agent can make one call, and then there is nobody left to make another. -/
theorem allocation_accounted_oneAgent : ∃ result lines,
    result = { attempted := 4, allocated := 1, failed := 0, contended := 3 }
      ∧ Accounts "campaign" "worker" 5 oneAgent result lines
        ((CallAllocator.allocate {} { id := "campaign" } 5 "worker").eval (solo 0 obliging)
          ({ oneAgent with log := [] }, 0)).2.1 := by
  obtain ⟨result, lines, hresult, haccounts⟩ := allocation_accounted {} { id := "campaign" }
    fiveApproved "worker" 0 obliging oneAgent obliging_untroubled (by decide)
  refine ⟨result, lines, ?_, haccounts⟩
  have heval : ((CallAllocator.allocate {} { id := "campaign" } 5 "worker").eval (solo 0 obliging)
      ({ oneAgent with log := [] }, 0)).1
        = .ok { attempted := 4, allocated := 1, failed := 0, contended := 3 } := by
    decide
  exact (Except.ok.inj (hresult.symm.trans heval))

end SmartDialer
