import SmartDialer.Protocol.Ledger

/-!
# Agreement on who owns what

Without the recovery worker, and as long as no dial is cancelled and no agent logs out of a
call, agents, borrowers and calls agree: a call that has not ended has its agent and its
borrower, reserved by the worker that created it. It is the ledger that is proved to be
kept, by every process: a dial owns its pair until it creates the call, nobody but that
dial touches the call until its provider call id is recorded, and whoever ends it, the dial
or an event processor, releases its parties and is alone in doing so.
-/

namespace SmartDialer

open Store Conc

/-! ## Statement -/

/-- The agent is held and the borrower is reserved, both by the worker that created the call. -/
structure Call.Served (s : State) (d : Call) : Prop where
  agent : ∃ a, s.agents.get d.agentId = some a ∧ a.state.held = true
    ∧ a.reservedBy = some d.createdByWorker
  borrower : ∃ b, s.borrowers.get d.borrowerId = some b ∧ b.status = .reserved
    ∧ b.reservedBy = some d.createdByWorker

/-- Ids are as `new_id` makes them. -/
structure IdsColonFree (s : State) : Prop where
  agents : ∀ k a, s.agents.get k = some a → ColonFree k
  borrowers : ∀ k b, s.borrowers.get k = some b → ColonFree k
  calls : ∀ k d, s.calls.get k = some d →
    ColonFree d.campaignId ∧ ColonFree d.agentId ∧ ColonFree d.borrowerId

/-- There are no calls, and no agent is busy. -/
structure AllIdle (s : State) : Prop where
  noCalls : NoCalls s
  agents : ∀ k a, s.agents.get k = some a → a.state.held = false
  ids : IdsColonFree s

/--
The runs without the recovery worker in which failed operations change nothing, no dial is
cancelled, and nobody logs out while RESERVED, DIALING or CONNECTED. A cancellation of
anything else than a dial is a crash.
-/
def withoutRecovery (cfg : Settings) : Policy (dialer cfg) where
  task
    | .runSweeps => False
    | .tick campaign _ _ | .allocate campaign _ _ => ColonFree campaign.id
    | _ => True
  run _ o ch s := ch.Harmless ∧ o.logsOut s = false

/-! ## Ids -/

variable {i : Nat} {o : Op} {ch : Choice} {s : State}

theorem idsColonFree_exec (hsound : Sound s o)
    (hins : ∀ d, o.callInsert ch = some d →
      ColonFree d.campaignId ∧ ColonFree d.agentId ∧ ColonFree d.borrowerId)
    (h : IdsColonFree s) : IdsColonFree (exec i o ch s).2 where
  agents k a' ha' := by
    obtain ⟨a, ha, -⟩ := agent_of_exec ha'
    exact h.agents k a ha
  borrowers k b' hb' := by
    obtain ⟨b, hb, -⟩ := borrower_of_exec hb'
    exact h.borrowers k b hb
  calls k d' hd' := by
    rcases call_evolved hsound hd' with ⟨hnew, -⟩ | ⟨d, hd, hev⟩
    · exact hins d' hnew
    · rw [hev.campaignId, hev.agentId, hev.borrowerId]
      exact h.calls k d hd

/-- A busy party is there. -/
theorem colonFree_of_busy (side : Side) {id : String} (h : IdsColonFree s)
    (hbusy : s.busyFor side id ≠ none) : ColonFree id := by
  cases side with
  | agent =>
      cases ha : s.agents.get id with
      | none => exact absurd (by rw [State.busyFor, ha]; rfl) hbusy
      | some a => exact h.agents id a ha
  | borrower =>
      cases hb : s.borrowers.get id with
      | none => exact absurd (by rw [State.busyFor, hb]; rfl) hbusy
      | some b => exact h.borrowers id b hb

/-! ## The logic -/

section

variable {cfg : Settings}

/-- The ledger is kept, and nobody touches what others own or set up. -/
def ownership (cfg : Settings) : Logic ((withoutRecovery cfg).also Sound) Ledger where
  Inv s := IdsColonFree s.1 ∧ LedgerInv s.1 s.2
  Guar i s s' := CallsEvolve s.1 s'.1
    ∧ (∀ j, j ≠ i → ∀ side id, s.2.owner side id = some (.process j) →
      s'.2.owner side id = some (.process j) ∧ s'.1.busyFor side id = s.1.busyFor side id)
    ∧ ∀ j, j ≠ i → ∀ k, s.2.setUpBy k = some j →
      s'.2.setUpBy k = some j ∧ s'.1.calls.get k = s.1.calls.get k

/-- The triple of an operation that its process is entitled to. -/
theorem entitled_atomic {A : Assertion Ledger} {B : Except Exn (Ans o) → Assertion Ledger}
    (hcont : o.Contained)
    (hent : ∀ s, A s → LedgerInv s.1 s.2 → Entitled i s.1 s.2 o)
    (hins : ∀ s ch d, A s → IdsColonFree s.1 → o.callInsert ch = some d →
      ColonFree d.campaignId ∧ ColonFree d.agentId ∧ ColonFree d.borrowerId)
    (hB : ∀ ch s, A s → Sound s.1 o → ch.Harmless → o.logsOut s.1 = false →
      (ownership cfg).Inv s → CallsEvolve s.1 (exec i o ch s.1).2 →
      B (exec i o ch s.1).1
        ((exec i o ch s.1).2, s.2.after i (deed o (exec i o ch s.1).1))) :
    (ownership cfg).Atomic i o A B := by
  rintro s ⟨hids, hinv⟩ hs ch ⟨⟨hch, hout⟩, hsound⟩
  have hentitled := hent s hs hinv
  have hev := (exec_evolve i ch hsound.lawful hsound.wellFormed).1
  refine ⟨_, ⟨idsColonFree_exec hsound (hins s ch · hs hids) hids,
    ledgerInv_exec hsound hch hcont hout hentitled hinv⟩, ⟨hev, ?_, ?_⟩,
    hB ch s hs hsound hch hout ⟨hids, hinv⟩ hev⟩
  · intro j hj side id howner
    exact owner_kept hsound hch hcont hout hentitled hinv howner
      (fun h => hj (Owner.process.inj h)) (fun _ _ h => by cases h)
  · exact fun j hj k hk => setUp_kept hch hentitled hinv hj hk

/-- Process `i` owns the party. -/
def Owns (i : Nat) (side : Side) (id : String) : Assertion Ledger := fun s =>
  s.2.owner side id = some (.process i)

/-- Process `i` owns the party, which is reserved by the worker. -/
def Has (i : Nat) (side : Side) (id workerId : String) : Assertion Ledger := fun s =>
  Holds i side id workerId s.1 s.2

theorem owns_stable (side : Side) (id : String) : (ownership cfg).Stable i (Owns i side id) := by
  refine Logic.stable_of_step ?_
  rintro j s s' hj ⟨-, howner, -⟩ - h
  exact (howner i hj.symm side id h).1

theorem has_stable (side : Side) (id workerId : String) :
    (ownership cfg).Stable i (Has i side id workerId) := by
  refine Logic.stable_of_step ?_
  rintro j s s' hj ⟨-, howner, -⟩ - ⟨h, hbusy⟩
  obtain ⟨h', hbusy'⟩ := howner i hj.symm side id h
  exact ⟨h', hbusy'.trans hbusy⟩

/-- The party of a pair. -/
def ReservationPair.party (pair : ReservationPair) : Side → String
  | .agent => pair.agent.id
  | .borrower => pair.borrower.id

/-- Process `i` is setting up the call, which is for the pair and not past rank `n`. -/
def Sets (i : Nat) (pair : ReservationPair) (n : Nat) (callId : String) : Assertion Ledger :=
  fun s => s.2.setUpBy callId = some i
    ∧ ∃ c, s.1.calls.get callId = some c ∧ (∀ side, c.party side = pair.party side)
      ∧ rank c.state ≤ n

theorem sets_stable (pair : ReservationPair) (n : Nat) (callId : String) :
    (ownership cfg).Stable i (Sets i pair n callId) := by
  refine Logic.stable_of_step ?_
  rintro j s s' hj ⟨-, -, hsetUp⟩ - ⟨h, c, hc, hrest⟩
  obtain ⟨h', hget⟩ := hsetUp i hj.symm callId h
  exact ⟨h', c, hget.trans hc, hrest⟩

/-- What is asserted at each point of a dial. -/
def ownershipPoints (i : Nat) (pair : ReservationPair) : DialPoint → Assertion Ledger
  | .held => fun s => ∀ side, Has i side (pair.party side) pair.workerId s
  | .abandoned _ => fun s => ∀ side, Owns i side (pair.party side) s
  | .halfReleased _ => Owns i .borrower pair.borrower.id
  | .created callId => Sets i pair 1 callId
  | .initiated callId | .dialing callId | .bound callId | .accepted callId | .refused callId =>
      Sets i pair 2 callId
  | .done => fun _ => True
  | .aborted => fun _ => False

theorem stable_forall {α : Type} {A : α → Assertion Ledger}
    (h : ∀ a, (ownership cfg).Stable i (A a)) : (ownership cfg).Stable i fun s => ∀ a, A a s :=
  fun s s' hr ha a => h a s s' hr (ha a)

theorem ownershipPoints_stable (pair : ReservationPair) (p : DialPoint) :
    (ownership cfg).Stable i (ownershipPoints i pair p) := by
  cases p with
  | held => exact stable_forall fun side => has_stable side _ _
  | abandoned _ => exact stable_forall fun side => owns_stable side _
  | halfReleased _ => exact owns_stable _ _
  | created _ => exact sets_stable _ _ _
  | done => exact Logic.stable_true
  | aborted => exact Logic.stable_const False
  | _ => exact sets_stable _ _ _

/-! ## What one's own operations leave -/

/-- An operation that is no deed leaves the owners and the busy alone. -/
theorem holds_exec {s : State × Ledger} (hch : ch.Harmless) (hcont : o.Contained)
    (hout : o.logsOut s.1 = false) (hd : deed o (exec i o ch s.1).1 = .nothing) {side : Side}
    {id workerId : String} (h : Has i side id workerId s) :
    Has i side id workerId ((exec i o ch s.1).2, s.2.after i (deed o (exec i o ch s.1).1)) := by
  refine ⟨?_, ?_⟩
  · rw [hd]
    exact h.1
  · rw [busyFor_exec hch hcont hout, hd]
    exact h.2

/-- The call that is being set up, after an operation that is no deed. -/
theorem sets_exec {s : State × Ledger} {pair : ReservationPair} {n : Nat} {callId : String}
    (hch : ch.Harmless) (hd : deed o (exec i o ch s.1).1 = .nothing)
    (hn : ∀ t reason, o = .transitionCall callId t reason → rank t ≤ n)
    (h : Sets i pair n callId s) :
    Sets i pair n callId
      ((exec i o ch s.1).2, s.2.after i (deed o (exec i o ch s.1).1)) := by
  obtain ⟨hset, c, hc, hparty, hrank⟩ := h
  refine ⟨by rw [hd]; exact hset, ?_⟩
  rcases call_after (i := i) (o := o) hch hc with hget | ⟨t, reason, ho, -, hget, -⟩ | ⟨p, -, hd'⟩
  · exact ⟨c, hget, hparty, hrank⟩
  · exact ⟨_, hget, fun side => (hparty side).symm ▸ (by cases side <;> rfl), hn t reason ho⟩
  · cases hd.symm.trans hd'

theorem Sets.mono {s : State × Ledger} {pair : ReservationPair} {m n : Nat} {callId : String}
    (h : Sets i pair m callId s) (hle : m ≤ n) : Sets i pair n callId s := by
  obtain ⟨hset, c, hc, hparty, hrank⟩ := h
  exact ⟨hset, c, hc, hparty, hrank.trans hle⟩

/-- A call that is moved to a state that is not terminal is not ended. -/
theorem deed_of_live {callId : String} {t : CallState} {reason : Option String}
    {r : Except Exn (Option Call)} (ht : isTerminal t = false) :
    deed (.transitionCall callId t reason) r = .nothing := by
  match r with
  | .error _ => rfl
  | .ok none => rfl
  | .ok (some d) => exact if_neg (by rw [ht]; intro h; cases h)

/-- The operation moves or attaches the call. -/
def Op.About (callId : String) : Op → Prop
  | .transitionCall id .. | .attachProviderCallId id _ => id = callId
  | _ => False

/-- Operations that are no deed, whatever is answered. -/
def Op.NoDeed : Op → Prop
  | .utcNow | .shouldAllowRetry .. | .findByIdempotencyKey .. | .findClaimableAgents ..
  | .findClaimableBorrowers .. | .transitionAgent .. | .bindCall .. | .originateCall ..
  | .hangupCall .. => True
  | _ => False

theorem deed_of_noDeed {r : Except Exn (Ans o)} (ho : o.NoDeed) : deed o r = .nothing := by
  cases r with
  | error e => exact deed_error o e
  | ok a => cases o <;> first | rfl | exact ho.elim

/-- The triple of an operation that is no deed. -/
theorem noDeed_atomic {A : Assertion Ledger} {B : Except Exn (Ans o) → Assertion Ledger}
    (ho : o.NoDeed) (hcont : o.Contained)
    (hB : ∀ ch s, A s → Sound s.1 o → ch.Harmless → o.logsOut s.1 = false →
      (ownership cfg).Inv s → CallsEvolve s.1 (exec i o ch s.1).2 →
      B (exec i o ch s.1).1
        ((exec i o ch s.1).2, s.2.after i (deed o (exec i o ch s.1).1))) :
    (ownership cfg).Atomic i o A B := by
  refine entitled_atomic hcont ?_ ?_ hB
  · intro s _ _
    cases o <;> trivial
  · intro _ _ d _ _ hins
    cases o, d, hins using Op.callInsert_cases with
    | insertCall _ _ _ _ _ _ => exact ho.elim

/-- Setting up a call goes on. -/
theorem sets_next {pair : ReservationPair} {n : Nat} {callId : String} (ho : o.NoDeed)
    (hcont : o.Contained) :
    (ownership cfg).Atomic i o (Sets i pair n callId)
      (Next (ownershipPoints i pair) fun _ => Sets i pair n callId) := by
  refine noDeed_atomic ho hcont fun ch s hs _ hch _ _ _ => ?_
  refine next_of_ok (fun _ _ => sets_exec hch (deed_of_noDeed ho) ?_ hs) (exec_ne_cancelled hch)
  rintro t reason rfl
  exact ho.elim

/-- An operation on the call that is being set up. -/
theorem sets_atomic {pair : ReservationPair} {n : Nat} {callId : String}
    {B : Except Exn (Ans o) → Assertion Ledger} (ho : o.About callId)
    (hB : ∀ ch s, Sets i pair n callId s → Sound s.1 o → ch.Harmless →
      B (exec i o ch s.1).1
        ((exec i o ch s.1).2, s.2.after i (deed o (exec i o ch s.1).1))) :
    (ownership cfg).Atomic i o (Sets i pair n callId) B := by
  refine entitled_atomic ?_ ?_ ?_ fun ch s h hsound hch _ _ _ => hB ch s h hsound hch
  · cases o <;> trivial
  · intro s h _
    cases o with
    | transitionCall _ _ _ =>
        obtain rfl := ho
        exact fun j hj => Option.some.inj (hj.symm.trans h.1)
    | attachProviderCallId _ _ =>
        obtain rfl := ho
        exact fun j hj => Option.some.inj (hj.symm.trans h.1)
    | _ => exact ho.elim
  · intro _ _ d _ _ hins
    cases o, d, hins using Op.callInsert_cases with
    | insertCall _ _ _ _ _ _ => exact ho.elim

/-! ## Dials -/

/-- Holding the pair goes on. -/
theorem held_next {pair : ReservationPair} (ho : o.NoDeed) (hcont : o.Contained) :
    (ownership cfg).Atomic i o (ownershipPoints i pair .held)
      (Next (ownershipPoints i pair) fun _ => ownershipPoints i pair .held) :=
  noDeed_atomic ho hcont fun _ _ hs _ hch hout _ _ => next_of_ok
    (fun _ _ side => holds_exec hch hcont hout (deed_of_noDeed ho) (hs side))
    (exec_ne_cancelled hch)

/-- The pair that is held has ids without a colon. -/
theorem held_colonFree {pair : ReservationPair} {s : State × Ledger} (hids : IdsColonFree s.1)
    (hs : ownershipPoints i pair .held s) (side : Side) : ColonFree (pair.party side) :=
  colonFree_of_busy side hids (by rw [(hs side).2]; intro h; cases h)

/-- The call that has the key of the dial has ended: its parties would be its own. -/
theorem existing_ended {campaign : Campaign} {pair : ReservationPair} {call : Call}
    {s : State × Ledger} (hid : ColonFree campaign.id) (hwf : CallsWellFormed s.1)
    (hinv : (ownership cfg).Inv s) (hs : ownershipPoints i pair .held s)
    (hget : s.1.calls.get call.id = some call)
    (hkey : call.idempotencyKey = buildIdempotencyKey campaign.id pair.agent.id pair.borrower.id
      (pair.borrower.attemptCount + 1)) : isTerminal call.state = true := by
  obtain ⟨hids, hledger⟩ := hinv
  obtain ⟨hcampaign, hagent, hborrower⟩ := hids.calls _ _ hget
  have hfiled := (hwf _ _ hget).key_eq
  rw [hkey] at hfiled
  obtain ⟨-, hsame, -⟩ := buildIdempotencyKey_inj hid hcampaign (held_colonFree hids hs .agent)
    hagent (held_colonFree hids hs .borrower) hborrower hfiled
  rw [← Bool.not_eq_false]
  intro hlive
  have howner := (hledger.owned _ _ .agent hget hlive).1
  have hmine : s.2.owner .agent call.agentId = some (.process i) := hsame ▸ (hs .agent).1
  cases hmine.symm.trans howner

theorem ownership_dial (campaign : Campaign) (hid : ColonFree campaign.id)
    (pair : ReservationPair) :
    DialOutline (ownership cfg) i campaign pair (ownershipPoints i pair) where
  stable := ownershipPoints_stable pair
  now := held_next (o := .utcNow) trivial trivial
  gate := held_next (o := .shouldAllowRetry _) trivial trivial
  abandon _ h side := (h side).1
  releaseAgent _ := by
    refine entitled_atomic ?_ ?_ ?_ ?_
    · exact (rfl : AgentState.held .available = false)
    · exact fun s h _ => h .agent
    · exact fun _ _ _ _ _ hins => by cases hins
    · intro ch s h _ hch _ _ _
      refine next_of_ok (fun answer heq => ?_) (exec_ne_cancelled hch)
      rw [heq]
      cases answer with
      | none => exact h .borrower
      | some _ => exact h .borrower
  releaseBorrower _ := by
    refine entitled_atomic ?_ ?_ ?_ ?_
    · trivial
    · exact fun s h _ => h
    · exact fun _ _ _ _ _ hins => by cases hins
    · exact fun ch s _ _ hch _ _ _ => next_of_ok (fun _ _ => trivial) (exec_ne_cancelled hch)
  insert := by
    refine entitled_atomic ?_ ?_ ?_ ?_
    · trivial
    · exact fun s h _ => ⟨h .agent, h .borrower⟩
    · intro s ch d h hids hins
      -- the key of the new call can be read back, because no part of it has a colon
      obtain rfl := Option.some.inj hins
      exact ⟨hid, held_colonFree hids h .agent, held_colonFree hids h .borrower⟩
    · intro ch s h _ hch hout _ _
      refine onInsert_of_ok ?_ ?_ (exec_ne_cancelled hch)
      · intro call heq
        obtain ⟨hnew, -, -, hget⟩ := insertCall_ok heq
        rw [OnCall, if_pos (by rw [hnew]; rfl), heq]
        refine ⟨Function.update_self .., call, hget, ?_, ?_⟩
        · rw [hnew]
          intro side
          cases side <;> rfl
        · rw [hnew]
          exact Nat.zero_le 1
      · intro e heq side
        exact holds_exec (o := .insertCall _ _ _ _ _ _) hch trivial hout
          (by rw [heq, deed_error]) (h side)
  existing := by
    refine noDeed_atomic trivial trivial fun ch s h hsound hch hout hinv _ => ?_
    refine next_of_ok (fun answer heq => ?_) (exec_ne_cancelled hch)
    cases answer with
    | none => trivial
    | some call =>
        obtain ⟨hget, hkey⟩ := findByIdempotencyKey_some heq
        -- a call under one's own key that one has not made is over
        have hended := existing_ended hid hsound.wellFormed hinv h hget hkey
        refine onCall_of call (fun hq => ?_) fun _ side => ?_
        · rw [hq] at hended
          cases hended
        · exact (holds_exec (o := .findByIdempotencyKey _) hch trivial hout
            (deed_of_noDeed trivial) (h side)).1
  reserve callId := by
    refine sets_atomic rfl fun ch s h _ hch => ?_
    refine next_of_ok (fun _ _ => sets_exec hch (deed_of_live rfl) ?_ h) (exec_ne_cancelled hch)
    rintro t reason ⟨⟩
    exact le_rfl
  initiate callId := by
    refine sets_atomic rfl fun ch s h hsound hch => ?_
    refine next_of_ok (fun answer heq => ?_) (exec_ne_cancelled hch)
    cases answer with
    | none =>
        -- nobody else moves a call that is being set up, so it cannot be refused
        obtain ⟨-, c, hc, -, hrank⟩ := h
        obtain ⟨heff, -⟩ := exec_ok heq
        have hnone := Collection.findOneAndUpdate_none.mp (Except.ok.inj heff) c hc
        have hp : CallRepository.advanceable .initiated c = true :=
          (hsound.wellFormed _ _ hc).advanceable_iff.mpr (Nat.lt_succ_of_le hrank)
        cases hnone.symm.trans hp
    | some _ =>
        refine sets_exec hch (deed_of_live rfl) ?_ (h.mono (by decide))
        rintro t reason ⟨⟩
        exact le_rfl
  dialAgent _ := sets_next (o := .transitionAgent _ _ _ _) trivial ⟨fun _ => rfl, fun _ => .inl rfl⟩
  bind _ := sets_next (o := .bindCall _ _ _) trivial trivial
  originate _ := noDeed_atomic trivial trivial fun ch s hs _ hch _ _ _ =>
    onOriginate_of_ok (sets_exec (o := .originateCall _ _ _) hch (deed_of_noDeed trivial)
      (fun _ _ h => by cases h) hs) (sets_exec (o := .originateCall _ _ _) hch
      (deed_of_noDeed trivial) (fun _ _ h => by cases h) hs) (exec_ne_cancelled hch)
  attach callId providerCallId := by
    refine sets_atomic rfl fun ch s h _ hch => ?_
    refine next_of_ok (fun answer heq => ?_) (exec_ne_cancelled hch)
    cases answer with
    | some _ => trivial
    | none => exact sets_exec hch (by rw [heq]; rfl) (fun _ _ h => by cases h) h
  hangup _ _ := noDeed_atomic trivial trivial fun ch s hs _ hch _ _ _ =>
    onHangup_of_ok (sets_exec (o := .hangupCall _ _) hch (deed_of_noDeed trivial)
      (fun _ _ h => by cases h) hs) (exec_ne_cancelled hch)
  fail callId reason := by
    refine sets_atomic rfl fun ch s h hsound hch => ?_
    refine next_of_ok (fun answer heq => ?_) (exec_ne_cancelled hch)
    obtain ⟨-, c, hc, hparty, hrank⟩ := h
    have hp : CallRepository.advanceable .failed c = true :=
      (hsound.wellFormed _ _ hc).advanceable_iff.mpr (hrank.trans_lt (by decide))
    obtain ⟨heff, -⟩ := exec_ok heq
    -- for the same reason the call is made FAILED, and its parties come back
    have hanswer : answer = some ((CallRepository.advance ch.now .failed reason).apply c) := by
      rw [← Except.ok.inj heff]
      exact Collection.findOneAndUpdate_some.mpr ⟨c, hc, hp, rfl⟩
    rw [heq, hanswer]
    intro side
    refine if_pos ((hparty side).symm.trans ?_)
    cases side <;> rfl
  compensateAgent := by
    refine entitled_atomic ?_ ?_ ?_ ?_
    · exact (rfl : AgentState.held .available = false)
    · exact fun _ h => h.elim
    · exact fun _ _ _ h => h.elim
    · exact fun _ _ h => h.elim
  compensateBorrower := by
    refine entitled_atomic ?_ ?_ ?_ ?_
    · trivial
    · exact fun _ h => h.elim
    · exact fun _ _ _ h => h.elim
    · exact fun _ _ h => h.elim

/-- A reservation that is answered is one's own. -/
theorem has_took {s : State × Ledger} (hch : ch.Harmless) (hcont : o.Contained)
    (hout : o.logsOut s.1 = false) {side : Side} {id workerId : String}
    (hd : deed o (exec i o ch s.1).1 = .took side id workerId) :
    Has i side id workerId
      ((exec i o ch s.1).2, s.2.after i (deed o (exec i o ch s.1).1)) := by
  refine ⟨?_, ?_⟩
  · rw [hd]
    exact if_pos ⟨rfl, rfl⟩
  · rw [busyFor_exec hch hcont hout, hd]
    exact if_pos ⟨rfl, rfl⟩

/-- Taking a borrower leaves the agents alone. -/
theorem has_other {s : State × Ledger} (hch : ch.Harmless) (hcont : o.Contained)
    (hout : o.logsOut s.1 = false) {agentId borrowerId workerId w : String}
    (hd : deed o (exec i o ch s.1).1 = .took .borrower borrowerId w)
    (h : Has i .agent agentId workerId s) :
    Has i .agent agentId workerId
      ((exec i o ch s.1).2, s.2.after i (deed o (exec i o ch s.1).1)) := by
  refine ⟨?_, ?_⟩
  · rw [hd]
    exact h.1
  · rw [busyFor_exec hch hcont hout, hd]
    exact h.2

theorem tryReserveBorrower_deed {campaignId borrowerId workerId : String} {ttlSeconds : Int}
    {r : Except Exn (Option Borrower)} :
    deed (.tryReserveBorrower campaignId borrowerId workerId ttlSeconds) r = .nothing
      ∨ deed (.tryReserveBorrower campaignId borrowerId workerId ttlSeconds) r
        = .took .borrower borrowerId workerId :=
  match r with
  | .error _ => .inl rfl
  | .ok none => .inl rfl
  | .ok (some _) => .inr rfl

theorem ownership_allocate (campaign : Campaign) (hid : ColonFree campaign.id)
    (workerId : String) :
    AllocateOutline (ownership cfg) i campaign workerId (fun _ _ => True)
      (fun _ agent => Has i .agent agent.id workerId) fun _ pair => ownershipPoints i pair where
  skip _ _ _ := trivial
  reserve _ :=
    { stable_idle := Logic.stable_true
      stable_claimed := fun _ => has_stable _ _ _
      findAgents := noDeed_atomic trivial trivial fun _ _ _ _ _ _ _ _ => unless_of fun _ => trivial
      claimAgent := by
        intro agentId
        refine entitled_atomic trivial (fun _ _ _ => trivial) (fun _ _ _ _ _ h => by cases h) ?_
        intro ch s _ _ hch hout _ _
        refine onClaim_of (fun agent heq => ?_) fun _ => trivial
        rw [tryReserveAgent_id heq]
        exact has_took (o := .tryReserveAgent _ _ _ _) hch trivial hout (by rw [heq]; rfl)
      findBorrowers := by
        intro agent
        refine noDeed_atomic trivial trivial fun ch s h _ hch hout _ _ => unless_of fun _ => ?_
        exact holds_exec (o := .findClaimableBorrowers _ _) hch trivial hout
          (deed_of_noDeed trivial) h
      claimBorrower := by
        intro agent borrowerId
        refine entitled_atomic trivial (fun _ _ _ => trivial) (fun _ _ _ _ _ h => by cases h) ?_
        intro ch s h _ hch hout _ _
        -- whether the borrower is claimed or not, the agent stays one's own
        have hagent : Has i .agent agent.id workerId
            ((exec i (.tryReserveBorrower campaign.id borrowerId workerId
              cfg.reservationTtlSeconds) ch s.1).2, s.2.after i (deed _ (exec i
                (.tryReserveBorrower campaign.id borrowerId workerId
                  cfg.reservationTtlSeconds) ch s.1).1)) := by
          rcases tryReserveBorrower_deed (r := (exec i (.tryReserveBorrower campaign.id borrowerId
            workerId cfg.reservationTtlSeconds) ch s.1).1) with hd | hd
          · exact holds_exec (o := .tryReserveBorrower _ _ _ _) hch trivial hout hd h
          · exact has_other (o := .tryReserveBorrower _ _ _ _) hch trivial hout hd h
        refine onClaim_of (fun borrower heq side => ?_) fun _ => hagent
        cases side with
        | agent => exact hagent
        | borrower =>
            obtain rfl := tryReserveBorrower_id heq
            exact has_took (o := .tryReserveBorrower _ _ _ _) hch trivial hout (by rw [heq]; rfl)
      giveBack := by
        intro agent
        refine entitled_atomic (rfl : AgentState.held .available = false) (fun _ h _ => h.1)
          (fun _ _ _ _ _ h => by cases h) ?_
        exact fun _ _ _ _ _ _ _ _ => unless_of fun _ => trivial }
  dial _ := ownership_dial campaign hid
  done _ _ _ _ := trivial

/-! ## Event processors -/

/-- An operation outside of dials and recovery that moves and releases nothing. -/
theorem quiet_keeps (ho : o.Quiet) :
    (ownership cfg).Atomic i o (fun _ => True) fun _ _ => True := by
  refine entitled_atomic ?_ ?_ ?_ fun _ _ _ _ _ _ _ _ => trivial
  · cases o with
    | transitionAgent _ _ _ _ => exact ho.2.2
    | releaseAgent _ _ _ _ _ => exact ho.elim
    | _ => trivial
  · intro s _ _
    cases o <;> trivial
  · intro _ _ d _ _ hins
    cases o, d, hins using Op.callInsert_cases with
    | insertCall _ _ _ _ _ _ => exact ho.elim

/-- A provider call id was recorded on the call. -/
def Attached (callId : String) (s : State) : Prop :=
  ∃ c, s.calls.get callId = some c ∧ c.providerCallId.isSome = true

theorem Attached.mono {callId : String} {s s' : State} (h : Attached callId s)
    (hs : CallsEvolve s s') : Attached callId s' := by
  obtain ⟨c, hc, hattached⟩ := h
  obtain ⟨c', hc', hev⟩ := hs.kept _ _ hc
  exact ⟨c', hc', by rw [hev.attached hattached]; exact hattached⟩

theorem attached_stable (callId : String) :
    (ownership cfg).Stable i fun s => Attached callId s.1 :=
  Logic.stable_of_step fun _ _ _ _ hg _ h => h.mono hg.1

/-- Nobody is setting up a call that is attached: whoever ends it owns its parties. -/
theorem ownership_transitionCall (callId : String) (t : CallState) (reason : Option String) :
    (ownership cfg).Atomic i (.transitionCall callId t reason) (fun s => Attached callId s.1)
      fun r s => ∀ d, r = .ok (some d) → isTerminal t = true → ∀ side,
        Owns i side (d.party side) s := by
  refine entitled_atomic trivial ?_ (fun _ _ _ _ _ h => by cases h) ?_
  · rintro s ⟨c, hc, hattached⟩ hinv j hj
    obtain ⟨c', hc', hnone, -⟩ := hinv.setUp callId j hj
    rw [hc] at hc'
    rw [Option.some.inj hc', hnone] at hattached
    cases hattached
  · intro ch s _ _ _ _ _ _ d heq hterm side
    rw [heq, deed, if_pos hterm]
    exact if_pos rfl

/-- Releasing the agent of a call that one has ended leaves one the borrower. -/
theorem ownership_releaseAgent {agentId borrowerId : String} (workerId : String)
    {target : AgentState} (ht : target.held = false) (actor : TransitionActor) (shielded : Bool) :
    (ownership cfg).Atomic i (.releaseAgent agentId workerId target actor shielded)
      (fun s => Owns i .agent agentId s ∧ Owns i .borrower borrowerId s)
      fun _ => Owns i .borrower borrowerId := by
  refine entitled_atomic ht (fun _ h _ => h.1) (fun _ _ _ _ _ h => by cases h) ?_
  intro ch s h _ _ _ _ _
  generalize (exec i (.releaseAgent agentId workerId target actor shielded) ch s.1).1 = r
  match r with
  | .error e => exact h.2
  | .ok none => exact h.2
  | .ok (some _) => exact h.2

/-- Releasing the borrower of a call that one has ended. -/
theorem ownership_releaseBorrower (call : Call) (t : CallState) {s : State × Ledger}
    (hs : Owns i .borrower call.borrowerId s) :
    (ownership cfg).wp i (EventProcessor.releaseBorrower cfg call t) Anyhow s := by
  refine wp_bind_anyhow (Logic.wp_perform (owns_stable .borrower call.borrowerId) ?_ hs)
    fun _ _ => trivial
  exact entitled_atomic trivial (fun _ h _ => h) (fun _ _ _ _ _ h => by cases h)
    fun _ _ _ _ _ _ _ _ => trivial

/-- What is done to the agent of a call that one has ended. -/
theorem ownership_applyAgentTransition (call : Call) {t : CallState}
    (ht : agentReleasingCallStates.contains t = true) {s : State × Ledger}
    (hs : ∀ side, Owns i side (call.party side) s) :
    (ownership cfg).wp i (EventProcessor.applyAgentTransition call t)
      (Returns fun _ => Owns i .borrower call.borrowerId) s := by
  rw [EventProcessor.applyAgentTransition]
  split
  · exact hs .borrower
  · rename_i agentState hstate
    have hfind : (ownership cfg).Atomic i (.findAgentById call.agentId)
        (fun s => ∀ side, Owns i side (call.party side) s)
        fun r s => (∀ a, r = .ok (some a) → a.id = call.agentId)
          ∧ ∀ side, Owns i side (call.party side) s :=
      entitled_atomic trivial (fun _ _ _ => trivial) (fun _ _ _ _ _ h => by cases h)
        fun _ _ h _ _ _ _ _ => ⟨fun _ => findAgentById_some, h⟩
    refine Logic.wp_bind (Logic.wp_mono (Logic.wp_perform
      (stable_forall fun side => owns_stable side _) hfind hs) ?_)
    rintro r s₁ ⟨hid, h⟩
    -- a lost agent and one in the right state already are left alone
    rcases r with e | _ | agent
    · trivial
    · exact h .borrower
    · have hagent : agent.id = call.agentId := hid agent rfl
      dsimp only
      split
      · exact h .borrower
      · rw [Agents.releaseAgent]
        split
        · exact h .borrower
        · refine Logic.wp_bind (Logic.wp_mono (Logic.wp_perform
            (Logic.Stable.and (owns_stable .agent agent.id)
              (owns_stable .borrower call.borrowerId))
            (ownership_releaseAgent _
              (EventProcessor.agentStateForCallState_not_held ht hstate) _ _)
            ⟨hagent ▸ h .agent, h .borrower⟩) ?_)
          intro r s₂ h
          cases r with
          | error e => trivial
          | ok _ => exact h

/-- Whoever ends a call by an event owns its parties, and releases them one after the other. -/
theorem ownership_event (event : ProviderEvent) :
    EventOutline (ownership cfg) i event (fun callId s => Attached callId s.1)
      (fun t call s => isTerminal t = true → ∀ side, Owns i side (call.party side) s)
      fun t call s => agentReleasingCallStates.contains t = true →
        Owns i .borrower call.borrowerId s where
  stable := attached_stable
  record := quiet_keeps trivial
  find := by
    refine entitled_atomic trivial (fun _ _ _ => trivial) (fun _ _ _ _ _ h => by cases h) ?_
    intro ch s _ _ _ _ _ hev call heq
    obtain ⟨hget, -, hid⟩ := findByProviderCallId_some heq
    exact Attached.mono ⟨call, hget, by rw [hid]; rfl⟩ hev
  move callId t reason := ownership_transitionCall callId t reason
  agent t call s hmoved := by
    cases ht : agentReleasingCallStates.contains t with
    | true =>
        exact Logic.wp_mono (ownership_applyAgentTransition call ht (hmoved ht)) fun r _ h => by
          cases r with
          | ok _ => exact fun _ => h
          | error e => trivial
    | false =>
        -- the call goes on, and nobody is released
        refine returns_of_anyhow (wp_all_anyhow (EventProcessor.applyAgentTransition_quiet call ?_)
          fun _ => quiet_keeps) fun _ _ h => by cases h
        rw [ht]
        exact Bool.false_ne_true
  borrower t call s ht h := ownership_releaseBorrower call t (h ht)
  finish _ _ := quiet_keeps trivial

/-! ## Every run -/

theorem ownership_verified : (ownership cfg).Verified AllIdle where
  init s hs := by
    refine ⟨⟨fun _ _ => none, fun _ => none⟩, hs.ids, ?_, ?_, ?_⟩
    · intro k d side hd
      rw [hs.noCalls.get] at hd
      cases hd
    · exact fun _ _ h => absurd rfl h
    · exact fun _ _ h => by cases h
  task t ht i s _ := by
    refine wp_task_of (T := (withoutRecovery cfg).task) ?_ ?_ ?_ ?_ t ht s
    · exact fun _ => quiet_keeps
    · intro campaign workerId hid approved s
      have hcampaign : ColonFree campaign.id := by
        rcases hid with ⟨_, hid⟩ | ⟨_, hid⟩
        · exact hid
        · exact hid
      exact wp_anyhow
        ((ownership_allocate campaign hcampaign workerId).wp_allocateLoop _ _ _ trivial)
    · exact fun event s => (ownership_event event).wp_processEvent s
    -- no recovery in these runs
    · exact fun h => h.elim
  crash i s hinv := by
    obtain ⟨hids, hledger⟩ := hinv
    exact ⟨s.2, ⟨⟨hids.agents, hids.borrowers, hids.calls⟩,
      ⟨hledger.owned, hledger.busy, hledger.setUp⟩⟩, .of_calls_eq rfl,
      fun _ _ _ _ h => ⟨h, rfl⟩, fun _ _ _ h => ⟨h, rfl⟩⟩

/-- A call whose parties are busy for its worker is served. -/
theorem served_of_busy {s : State} {d : Call}
    (h : ∀ side, s.busyFor side (d.party side) = some (some d.createdByWorker)) :
    d.Served s where
  agent := by
    obtain ⟨a, ha, hbusy⟩ := Option.bind_eq_some_iff.mp (h .agent)
    rw [Agent.busyFor, Option.ite_none_right_eq_some] at hbusy
    exact ⟨a, ha, hbusy.1, Option.some.inj hbusy.2⟩
  borrower := by
    obtain ⟨b, hb, hbusy⟩ := Option.bind_eq_some_iff.mp (h .borrower)
    rw [Borrower.busyFor, Option.ite_none_right_eq_some] at hbusy
    exact ⟨b, hb, hbusy.1, Option.some.inj hbusy.2⟩

/--
**Ownership agreement.** In every run without the recovery worker, from a state with no
calls and no busy agent, in which failed operations change nothing, no dial is cancelled and
nobody logs out of a call: every call that has not ended is served, and no two of them share
an agent or a borrower.
-/
theorem calls_served {w : World (dialer cfg)} (h : Reachable (withoutRecovery cfg) AllIdle w) :
    (∀ k d, w.st.calls.get k = some d → isTerminal d.state = false → d.Served w.st)
      ∧ ∀ k k' d d', w.st.calls.get k = some d → w.st.calls.get k' = some d' →
        isTerminal d.state = false → isTerminal d'.state = false →
        d.agentId = d'.agentId ∨ d.borrowerId = d'.borrowerId → k = k' := by
  obtain ⟨l, -, hinv⟩ := ownership_verified.inv (sound_run (fun _ hs => hs.noCalls.wellFormed) h)
  refine ⟨fun k d hd hlive => served_of_busy fun side => (hinv.owned k d side hd hlive).2, ?_⟩
  intro k k' d d' hd hd' hlive hlive' hshare
  -- the party they share has one owner
  have hside : ∃ side, d.party side = d'.party side :=
    hshare.elim (fun h => ⟨.agent, h⟩) fun h => ⟨.borrower, h⟩
  obtain ⟨side, hside⟩ := hside
  have howner := (hinv.owned k d side hd hlive).1
  rw [hside, (hinv.owned k' d' side hd' hlive').1] at howner
  exact (Owner.call.inj (Option.some.inj howner)).symm

end

/-! ## A run with one call -/

instance (cfg : Settings) : (withoutRecovery cfg).Checkable where
  task
    | .runSweeps => .isFalse id
    | .tick campaign _ _ => inferInstanceAs (Decidable (ColonFree campaign.id))
    | .allocate campaign _ _ => inferInstanceAs (Decidable (ColonFree campaign.id))
    | .processEvent _ | .releaseFinishedWrapUps _ | .agentAction _ _ => .isTrue trivial
  run _ _ _ _ := inferInstanceAs (Decidable (_ ∧ _))

theorem oneAgent_allIdle : AllIdle oneAgent where
  noCalls := rfl
  agents k a ha := by
    obtain rfl := List.mem_singleton.mp (Collection.mem_of_get ha)
    rfl
  ids :=
    { agents := fun k a ha => by
        obtain rfl := Collection.key_of_get ha
        obtain rfl := List.mem_singleton.mp (Collection.mem_of_get ha)
        decide
      borrowers := fun k b hb => by
        obtain rfl := Collection.key_of_get hb
        rcases List.mem_pair.mp (Collection.mem_of_get hb) with rfl | rfl <;> decide
      calls := fun k d hd => by cases hd }

theorem calls_served_oneDial :
    ∃ w d, Reachable (withoutRecovery {}) AllIdle w ∧ w.st.calls.get "call" = some d
      ∧ d.state = .initiated ∧ d.Served w.st := by
  obtain ⟨w, hw, hcall⟩ := Reachable.of_play (withoutRecovery {}) oneAgent_allIdle oneDial
    (fun w => (w.st.calls.get "call").any (fun d => d.state == .initiated)) (by decide +kernel)
  obtain ⟨d, hd, hinit⟩ := Option.any_eq_true _ _ |>.mp hcall
  have hstate : d.state = .initiated := beq_iff_eq.mp hinit
  exact ⟨w, d, hw, hd, hstate, (calls_served hw).1 _ d hd (by rw [hstate]; rfl)⟩

end SmartDialer
