import SmartDialer.Protocol.Lifecycle

/-!
# Who owns what

Agents, borrowers and calls are three documents changed by different components. What ties
them together is that each busy agent and each busy borrower has one owner at a time: the
process that reserved it, then the call that was created for it, and when that call has
ended, the process that ended it, which alone may release it. No document records this, so
a *ledger* beside the state does.

An operation does one *deed* at most as far as the ledger is concerned, and what deed it
was can be told from its answer. `ledgerInv_exec` is the one step lemma: an operation that
its process is entitled to keeps the agreement of ledger and documents, and leaves what
others own alone.
-/

namespace SmartDialer

open Store Conc

/-! ## Documents -/

/-- The two parties of a call. -/
inductive Side where
  | agent | borrower
  deriving DecidableEq

/-- The party a call names. -/
def Call.party (d : Call) : Side → String
  | .agent => d.agentId
  | .borrower => d.borrowerId

/-- Whom a busy agent is reserved by. -/
def Agent.busyFor (a : Agent) : Option (Option String) :=
  if a.state.held then some a.reservedBy else none

/-- Whom a busy borrower is reserved by. -/
def Borrower.busyFor (b : Borrower) : Option (Option String) :=
  if b.status = .reserved then some b.reservedBy else none

/-- Whom a party is reserved by, if it is busy. -/
def State.busyFor (s : State) : Side → String → Option (Option String)
  | .agent, id => (s.agents.get id).bind Agent.busyFor
  | .borrower, id => (s.borrowers.get id).bind Borrower.busyFor

/-! ## The runs -/

/-- A failed operation changes nothing, and no dial is cancelled. -/
def Choice.Harmless (ch : Choice) : Prop :=
  match ch.fault with
  | .none => True
  | .dbError _ performed => performed = false
  | .cancelled _ => False

instance (ch : Choice) : Decidable ch.Harmless :=
  match h : ch.fault with
  | .none => .isTrue (by rw [Choice.Harmless, h]; trivial)
  | .dbError _ performed => decidable_of_iff (performed = false) (by rw [Choice.Harmless, h])
  | .cancelled _ => .isFalse (by rw [Choice.Harmless, h]; exact id)

/-- An agent logs out while it is RESERVED, DIALING or CONNECTED. -/
def Op.logsOut (s : State) : Op → Bool
  | .transitionAgent agentId fromState .offline expectedVersion =>
      fromState.held
        && (s.agents.get agentId).any (AgentRepository.movable fromState expectedVersion)
  | _ => false

/-- What is done without the recovery worker. -/
def Op.Contained : Op → Prop
  | .releaseExpiredAgentLease .. | .reclaimExpiredBorrowerLease .. => False
  | .releaseAgent _ _ target _ _ => target.held = false
  | .transitionAgent _ fromState toState _ =>
      (toState.held = true → fromState.held = true)
        ∧ (fromState.held = true → toState.held = true ∨ toState = .offline)
  | _ => True

variable {i : Nat} {o : Op} {ch : Choice} {s : State}

/-- An operation that fails on its own has no effect. -/
theorem effect_error {e : Exn} (h : (effect o ch s).1 = .error e) : (effect o ch s).2 = s := by
  cases o with
  | insertCall _ _ _ _ _ _ =>
      simp only [effect] at h ⊢
      split
      · rename_i heq
        simp [heq] at h
      · rfl
  | originateCall _ _ _ => simp only [effect]; split <;> rfl
  | hangupCall _ _ => simp only [effect]; split <;> rfl
  | getCallStatus _ _ => simp only [effect]; split <;> rfl
  | _ => cases h

/-- Where nothing harmful happens, a failed operation has no effect. -/
theorem exec_error (hch : ch.Harmless) {e : Exn} (h : (exec i o ch s).1 = .error e) :
    (exec i o ch s).2 = s.record (.answered i o (.error e)) := by
  have hstate : (attempt o ch s).2 = s := by
    have h' : (attempt o ch s).1 = .error e := h
    rw [Choice.Harmless] at hch
    rw [attempt] at h' ⊢
    cases hf : ch.fault with
    | none =>
        simp only [hf] at h' ⊢
        exact effect_error h'
    | dbError name performed =>
        simp only [hf] at hch h' ⊢
        subst hch
        split
        · rfl
        · rename_i hdb
          rw [if_neg hdb] at h'
          exact effect_error h'
    | cancelled performed =>
        rw [hf] at hch
        exact hch.elim
  rw [← h]
  exact congrArg (State.record · _) hstate

/-- Where nothing harmful happens, nothing is cancelled. -/
theorem exec_ne_cancelled (hch : ch.Harmless) :
    (exec i o ch s).1 ≠ .error .cancelledError := by
  have heffect : (effect o ch s).1 ≠ .error .cancelledError := by
    cases o with
    | insertCall _ _ _ _ _ _ => simp only [effect]; split <;> intro h <;> cases h
    | originateCall _ _ _ => simp only [effect]; split <;> intro h <;> cases h
    | hangupCall _ _ => simp only [effect]; split <;> intro h <;> cases h
    | getCallStatus _ _ => simp only [effect]; split <;> intro h <;> cases h
    | _ =>
        intro h
        cases h
  change (attempt o ch s).1 ≠ _
  rw [Choice.Harmless] at hch
  rw [attempt]
  cases hf : ch.fault with
  | none => exact heffect
  | dbError name performed =>
      dsimp only
      split
      · intro h
        cases h
      · exact heffect
  | cancelled performed =>
      rw [hf] at hch
      exact hch.elim

/-! ## Deeds -/

/-- What an operation does, as far as ownership goes. -/
inductive Deed where
  | nothing
  /-- A party was reserved. -/
  | took (side : Side) (id workerId : String)
  /-- A party was released. -/
  | gave (side : Side) (id : String)
  /-- A call was created. -/
  | opened (d : Call)
  /-- A call was moved to a terminal state. -/
  | ended (d : Call)
  /-- A provider call id was recorded. -/
  | attached (callId : String)

/-- The deed that an answer reports. -/
def deed : (o : Op) → Except Exn (Ans o) → Deed
  | .tryReserveAgent _ agentId workerId _, .ok (some _) => .took .agent agentId workerId
  | .tryReserveBorrower _ borrowerId workerId _, .ok (some _) =>
      .took .borrower borrowerId workerId
  | .releaseAgent agentId .., .ok (some _) => .gave .agent agentId
  | .releaseBorrower borrowerId .., .ok (some _) => .gave .borrower borrowerId
  | .insertCall .., .ok d => .opened d
  | .transitionCall _ targetState _, .ok (some d) =>
      if isTerminal targetState then .ended d else .nothing
  | .attachProviderCallId callId _, .ok (some _) => .attached callId
  | _, _ => .nothing

/-- What a deed does to who is busy. -/
def Deed.busyAfter (busyFor : Side → String → Option (Option String)) :
    Deed → Side → String → Option (Option String)
  | .took side id workerId => fun side' id' =>
      if side' = side ∧ id' = id then some (some workerId) else busyFor side' id'
  | .gave side id => fun side' id' =>
      if side' = side ∧ id' = id then none else busyFor side' id'
  | _ => busyFor

@[simp] theorem deed_error (o : Op) (e : Exn) : deed o (.error e) = .nothing := by
  cases o <;> rfl

/-- Which operations are behind a deed, and what they answered. -/
inductive Reports : (o : Op) → Except Exn (Ans o) → Deed → Prop where
  | nothing {o : Op} {r : Except Exn (Ans o)} : Reports o r .nothing
  | tookAgent {campaignId agentId workerId : String} {ttlSeconds : Int} {a : Agent} :
      Reports (.tryReserveAgent campaignId agentId workerId ttlSeconds) (.ok (some a))
        (.took .agent agentId workerId)
  | tookBorrower {campaignId borrowerId workerId : String} {ttlSeconds : Int} {b : Borrower} :
      Reports (.tryReserveBorrower campaignId borrowerId workerId ttlSeconds) (.ok (some b))
        (.took .borrower borrowerId workerId)
  | gaveAgent {agentId workerId : String} {target : AgentState} {actor : TransitionActor}
      {shielded : Bool} {a : Agent} :
      Reports (.releaseAgent agentId workerId target actor shielded) (.ok (some a))
        (.gave .agent agentId)
  | gaveBorrower {borrowerId workerId : String} {outcome : BorrowerReleaseOutcome}
      {maxAttempts backoffBaseSeconds : Int} {shielded : Bool} {b : Borrower} :
      Reports (.releaseBorrower borrowerId workerId outcome maxAttempts backoffBaseSeconds
        shielded) (.ok (some b)) (.gave .borrower borrowerId)
  | opened {campaignId agentId borrowerId providerName workerId : String} {attempt : Nat}
      {d : Call} :
      Reports (.insertCall campaignId agentId borrowerId providerName workerId attempt) (.ok d)
        (.opened d)
  | ended {callId : String} {t : CallState} {reason : Option String} {d : Call}
      (hterm : isTerminal t = true) :
      Reports (.transitionCall callId t reason) (.ok (some d)) (.ended d)
  | attached {callId : String} {providerCallId : Option String} {d : Call} :
      Reports (.attachProviderCallId callId providerCallId) (.ok (some d)) (.attached callId)

/-- The inversion of `deed`. -/
theorem reports_deed (o : Op) (r : Except Exn (Ans o)) : Reports o r (deed o r) := by
  cases r with
  | error e =>
      rw [deed_error]
      exact .nothing
  | ok answer =>
      cases o with
      | tryReserveAgent _ _ _ _ => cases answer <;> constructor
      | tryReserveBorrower _ _ _ _ => cases answer <;> constructor
      | releaseAgent _ _ _ _ _ => cases answer <;> constructor
      | releaseBorrower _ _ _ _ _ _ => cases answer <;> constructor
      | insertCall _ _ _ _ _ _ => exact .opened
      | attachProviderCallId _ _ => cases answer <;> constructor
      | transitionCall _ _ _ =>
          cases answer with
          | none => exact .nothing
          | some d =>
              rw [deed]
              split
              · rename_i hterm
                exact .ended hterm
              · exact .nothing
      | _ => exact .nothing

/-- The inversion of `deed`, at a deed that is known. -/
theorem reports_of {d : Deed} {r : Except Exn (Ans o)} (h : deed o r = d) : Reports o r d :=
  h ▸ reports_deed o r

/-! ## Who is busy -/

/-- A move of an agent that is no logout leaves it as busy as it was. -/
theorem busyFor_move {now : Time} {fromState toState : AgentState} {version : Nat} {a : Agent}
    (hheld : toState.held = fromState.held)
    (hp : AgentRepository.movable fromState version a = true) :
    ((AgentRepository.move now fromState toState).apply a).busyFor = a.busyFor := by
  obtain ⟨hstate, -⟩ := AgentRepository.movable_iff.mp hp
  simp only [Agent.busyFor, AgentRepository.move, hheld, hstate,
    AgentRepository.timeAccountingUpdates_reservedBy]

/-- A borrower that was released is not busy. -/
theorem busyFor_release {now : Time} {outcome : BorrowerReleaseOutcome}
    {maxAttempts backoffBaseSeconds : Int} {b : Borrower} :
    ((BorrowerRepository.release now outcome maxAttempts backoffBaseSeconds).apply b).busyFor
      = none := by
  cases outcome with
  | retry =>
      simp only [Borrower.busyFor, BorrowerRepository.release, BorrowerRepository.buildRetryUpdate]
      split <;> rfl
  | _ => rfl

/-- **What an operation does to the busy agents is its deed.** -/
theorem busyAgents_exec (hch : ch.Harmless) (hcont : o.Contained) (hout : o.logsOut s = false)
    (id : String) :
    (exec i o ch s).2.busyFor .agent id
      = (deed o (exec i o ch s).1).busyAfter s.busyFor .agent id := by
  cases hr : (exec i o ch s).1 with
  | error e =>
      rw [exec_error hch hr, deed_error]
      rfl
  | ok answer =>
      have hwrite := agents_of_ok hr
      obtain ⟨heff, -⟩ := exec_ok hr
      rw [State.busyFor, hwrite]
      cases o with
      | tryReserveAgent campaignId agentId workerId ttlSeconds =>
          cases answer with
          | none =>
              have hnone := Collection.findOneAndUpdate_none.mp (Except.ok.inj heff)
              refine Collection.bind_get_write (fun d hd hp => ?_) id
              cases hp.symm.trans (hnone d hd)
          | some a' =>
              obtain ⟨a, ha, hp, -⟩ :=
                Collection.findOneAndUpdate_some.mp (Except.ok.inj heff)
              refine (Collection.bind_get_write_of_filter ha hp id).trans ?_
              simp only [deed, Deed.busyAfter, true_and]
              rfl
      | releaseAgent agentId workerId target actor shielded =>
          cases answer with
          | none =>
              have hnone := Collection.findOneAndUpdate_none.mp (Except.ok.inj heff)
              refine Collection.bind_get_write (fun d hd hp => ?_) id
              cases hp.symm.trans (hnone d hd)
          | some a' =>
              obtain ⟨a, ha, hp, -⟩ :=
                Collection.findOneAndUpdate_some.mp (Except.ok.inj heff)
              have hfree : ((AgentRepository.release ch.now (allowedSources target actor)
                  target).apply a).busyFor = none :=
                if_neg (Bool.not_eq_true _ ▸ hcont)
              refine (Collection.bind_get_write_of_filter ha hp id).trans ?_
              rw [hfree]
              simp only [deed, Deed.busyAfter, true_and]
              rfl
      | transitionAgent agentId fromState toState version =>
          refine Collection.bind_get_write (fun a ha hp => busyFor_move ?_ hp) id
          obtain ⟨hup, hdown⟩ := hcont
          rw [Bool.eq_iff_iff]
          refine ⟨hup, fun hheld => ?_⟩
          rcases hdown hheld with h | rfl
          · exact h
          · -- such a logout is not in these runs
            have ha' : s.agents.get agentId = some a := ha
            have hp' : AgentRepository.movable fromState version a = true := hp
            simp only [Op.logsOut, hheld, ha', Option.any_some, hp', Bool.and_self,
              Bool.true_eq_false] at hout
      | bindCall agentId workerId callId =>
          exact Collection.bind_get_write (fun _ _ _ => rfl) id
      | heartbeat agentId => exact Collection.bind_get_write (fun _ _ _ => rfl) id
      | releaseExpiredAgentLease agent now => exact hcont.elim
      | tryReserveBorrower _ _ _ _ => cases answer <;> rfl
      | releaseBorrower _ _ _ _ _ _ => cases answer <;> rfl
      | transitionCall _ targetState _ =>
          cases answer with
          | none => rfl
          | some d =>
              rw [deed]
              split <;> rfl
      | attachProviderCallId _ _ => cases answer <;> rfl
      | _ => rfl

/-- **What an operation does to the busy borrowers is its deed.** -/
theorem busyBorrowers_exec (hch : ch.Harmless) (hcont : o.Contained) (id : String) :
    (exec i o ch s).2.busyFor .borrower id
      = (deed o (exec i o ch s).1).busyAfter s.busyFor .borrower id := by
  cases hr : (exec i o ch s).1 with
  | error e =>
      rw [exec_error hch hr, deed_error]
      rfl
  | ok answer =>
      have hwrite := borrowers_of_ok hr
      obtain ⟨heff, -⟩ := exec_ok hr
      rw [State.busyFor, hwrite]
      cases o with
      | tryReserveBorrower campaignId borrowerId workerId ttlSeconds =>
          cases answer with
          | none =>
              have hnone := Collection.findOneAndUpdate_none.mp (Except.ok.inj heff)
              refine Collection.bind_get_write (fun d hd hp => ?_) id
              cases hp.symm.trans (hnone d hd)
          | some b' =>
              obtain ⟨b, hb, hp, -⟩ :=
                Collection.findOneAndUpdate_some.mp (Except.ok.inj heff)
              refine (Collection.bind_get_write_of_filter hb hp id).trans ?_
              simp only [deed, Deed.busyAfter, true_and]
              rfl
      | releaseBorrower borrowerId workerId outcome maxAttempts backoffBaseSeconds shielded =>
          cases answer with
          | none =>
              have hnone := Collection.findOneAndUpdate_none.mp (Except.ok.inj heff)
              refine Collection.bind_get_write (fun d hd hp => ?_) id
              cases hp.symm.trans (hnone d hd)
          | some b' =>
              obtain ⟨b, hb, hp, -⟩ :=
                Collection.findOneAndUpdate_some.mp (Except.ok.inj heff)
              refine (Collection.bind_get_write_of_filter hb hp id).trans ?_
              rw [busyFor_release]
              simp only [deed, Deed.busyAfter, true_and]
              rfl
      -- expired leases are not contained
      | reclaimExpiredBorrowerLease candidate now => exact hcont.elim
      | tryReserveAgent _ _ _ _ => cases answer <;> rfl
      | releaseAgent _ _ _ _ _ => cases answer <;> rfl
      | transitionCall _ targetState _ =>
          cases answer with
          | none => rfl
          | some d =>
              rw [deed]
              split <;> rfl
      | attachProviderCallId _ _ => cases answer <;> rfl
      | _ => rfl

/-- **What an operation does to who is busy is its deed.** -/
theorem busyFor_exec (hch : ch.Harmless) (hcont : o.Contained) (hout : o.logsOut s = false) :
    (exec i o ch s).2.busyFor = (deed o (exec i o ch s).1).busyAfter s.busyFor := by
  funext side id
  cases side with
  | agent => exact busyAgents_exec hch hcont hout id
  | borrower => exact busyBorrowers_exec hch hcont id

/-- Whoever is taken was free. -/
theorem took_free {side : Side} {id workerId : String}
    (h : deed o (exec i o ch s).1 = .took side id workerId) : s.busyFor side id = none := by
  have hrep := reports_of h
  generalize hr : (exec i o ch s).1 = r at hrep
  cases hrep with
  | tookAgent =>
      obtain ⟨heff, -⟩ := exec_ok hr
      obtain ⟨a, ha, hp, -⟩ := Collection.findOneAndUpdate_some.mp (Except.ok.inj heff)
      obtain ⟨-, hstate⟩ := AgentRepository.reservable_iff.mp hp
      rw [State.busyFor, ha, Option.bind_some, Agent.busyFor, hstate]
      rfl
  | tookBorrower =>
      obtain ⟨heff, -⟩ := exec_ok hr
      obtain ⟨b, hb, hp, -⟩ := Collection.findOneAndUpdate_some.mp (Except.ok.inj heff)
      obtain ⟨-, hstatus, -⟩ := BorrowerRepository.claimable_iff.mp hp
      rw [State.busyFor, hb, Option.bind_some, Borrower.busyFor, hstatus]
      rfl

/-! ## What becomes of calls -/

/-- The call that was there when the answer came, as it is now. -/
theorem call_after (hch : ch.Harmless) {k : String} {c : Call} (hc : s.calls.get k = some c) :
    (exec i o ch s).2.calls.get k = some c
      ∨ (∃ t reason, o = .transitionCall k t reason ∧ CallRepository.advanceable t c = true
          ∧ (exec i o ch s).2.calls.get k
            = some ((CallRepository.advance ch.now t reason).apply c)
          ∧ deed o (exec i o ch s).1
            = if isTerminal t then .ended ((CallRepository.advance ch.now t reason).apply c)
              else .nothing)
      ∨ ∃ providerCallId, o = .attachProviderCallId k providerCallId
          ∧ deed o (exec i o ch s).1 = .attached k := by
  cases hr : (exec i o ch s).1 with
  | error e =>
      rw [exec_error hch hr]
      exact .inl hc
  | ok answer =>
      obtain ⟨c', hc', hre⟩ := call_exec (i := i) (o := o) (c := ch) hc
      have hkey : c.id = k := Collection.key_of_get hc
      cases hre with
      | same => exact .inl hc'
      | written v hv hk hp =>
          cases o, v, hv using Op.callWrite_cases with
          | transitionCall callId t reason =>
              obtain rfl : callId = k := hk.symm.trans hkey
              refine .inr (.inl ⟨t, reason, rfl, hp, hc', ?_⟩)
              obtain ⟨heff, -⟩ := exec_ok hr
              -- the answer is the document that was written
              have hanswer : answer = some ((CallRepository.advance ch.now t reason).apply c) := by
                rw [← Except.ok.inj heff]
                exact Collection.findOneAndUpdate_some.mpr ⟨c, hc, hp, rfl⟩
              rw [hanswer]
              rfl
          | attachProviderCallId callId providerCallId =>
              obtain rfl : callId = k := hk.symm.trans hkey
              cases answer with
              | some d => exact .inr (.inr ⟨providerCallId, rfl, rfl⟩)
              | none => exact .inl (attach_none hr hc)

/-- A call that was moved to a terminal state, and what it was before. -/
theorem deed_ended {d : Call} (h : deed o (exec i o ch s).1 = .ended d) :
    ∃ t reason c, o = .transitionCall d.id t reason ∧ isTerminal t = true
      ∧ s.calls.get d.id = some c ∧ CallRepository.advanceable t c = true
      ∧ d = (CallRepository.advance ch.now t reason).apply c
      ∧ (exec i o ch s).2.calls.get d.id = some d := by
  have hrep := reports_of h
  generalize hr : (exec i o ch s).1 = r at hrep
  cases hrep with
  | ended hterm =>
      obtain ⟨c, hc, hp, rfl, hget⟩ := transitionCall_some hr
      obtain rfl := Collection.key_of_get hc
      exact ⟨_, _, c, rfl, hterm, hc, hp, rfl, hget⟩

/-- A call that was created, and that it was not there before. -/
theorem deed_opened {d : Call} (h : deed o (exec i o ch s).1 = .opened d) :
    o.callInsert ch = some d ∧ s.calls.get d.id = none
      ∧ (exec i o ch s).2.calls.get d.id = some d := by
  have hrep := reports_of h
  generalize hr : (exec i o ch s).1 = r at hrep
  cases hrep with
  | opened =>
      obtain ⟨hnew, hid, -, hget⟩ := insertCall_ok hr
      exact ⟨congrArg some hnew.symm, hid, hget⟩

/-- A call that is there now, and was not, is the one that was created. -/
theorem opened_of_new (hch : ch.Harmless) {k : String} {d : Call} (hnone : s.calls.get k = none)
    (hget : (exec i o ch s).2.calls.get k = some d) :
    deed o (exec i o ch s).1 = .opened d ∧ k = d.id := by
  cases hr : (exec i o ch s).1 with
  | error e =>
      rw [exec_error hch hr] at hget
      cases hnone.symm.trans hget
  | ok answer =>
      rcases call_of_exec hget with ⟨hnew, hk, -⟩ | ⟨c, hc, -⟩
      · cases o, d, hnew using Op.callInsert_cases with
        | insertCall _ _ _ _ _ _ =>
            obtain ⟨hans, -⟩ := insertCall_ok hr
            exact ⟨congrArg Deed.opened hans, hk⟩
      · cases hnone.symm.trans hc

/-! ## The ledger -/

/-- Who owns a party. -/
inductive Owner where
  | process (i : Nat)
  | call (id : String)
  deriving DecidableEq

/-- The owners of the parties, and the processes that are setting up calls. -/
structure Ledger where
  owner : Side → String → Option Owner
  setUpBy : String → Option Nat

/-- What a deed of process `i` changes in the ledger. -/
def Ledger.after (l : Ledger) (i : Nat) : Deed → Ledger
  | .nothing => l
  | .took side id _ =>
      { l with owner := fun side' id' =>
          if side' = side ∧ id' = id then some (.process i) else l.owner side' id' }
  | .gave side id =>
      { l with owner := fun side' id' =>
          if side' = side ∧ id' = id then none else l.owner side' id' }
  | .opened d =>
      { owner := fun side id => if id = d.party side then some (.call d.id) else l.owner side id
        setUpBy := Function.update l.setUpBy d.id (some i) }
  | .ended d =>
      { owner := fun side id => if id = d.party side then some (.process i) else l.owner side id
        setUpBy := Function.update l.setUpBy d.id none }
  | .attached callId => { l with setUpBy := Function.update l.setUpBy callId none }

/-- The agreement of the ledger and the documents. -/
structure LedgerInv (s : State) (l : Ledger) : Prop where
  /-- A call that has not ended owns its parties, and they are reserved by its worker. -/
  owned : ∀ k d side, s.calls.get k = some d → isTerminal d.state = false →
    l.owner side (d.party side) = some (.call k)
      ∧ s.busyFor side (d.party side) = some (some d.createdByWorker)
  /-- What has an owner is busy. -/
  busy : ∀ side id, l.owner side id ≠ none → s.busyFor side id ≠ none
  /-- A call that is being set up has not ended, and no provider knows of it. -/
  setUp : ∀ k j, l.setUpBy k = some j →
    ∃ c, s.calls.get k = some c ∧ c.providerCallId = none ∧ isTerminal c.state = false

/-- Process `i` owns the party, which is reserved by the worker. -/
def Holds (i : Nat) (side : Side) (id workerId : String) (s : State) (l : Ledger) : Prop :=
  l.owner side id = some (.process i) ∧ s.busyFor side id = some (some workerId)

/-- What a process has to own for what it does. -/
def Entitled (i : Nat) (s : State) (l : Ledger) : Op → Prop
  | .releaseAgent agentId .. => l.owner .agent agentId = some (.process i)
  | .releaseBorrower borrowerId .. => l.owner .borrower borrowerId = some (.process i)
  | .insertCall _ agentId borrowerId _ workerId _ =>
      Holds i .agent agentId workerId s l ∧ Holds i .borrower borrowerId workerId s l
  | .transitionCall callId .. | .attachProviderCallId callId _ =>
      ∀ j, l.setUpBy callId = some j → j = i
  | _ => True

section

variable {l : Ledger}

/-- What is given back was one's own. -/
theorem entitled_gave {side : Side} {id : String} (hent : Entitled i s l o)
    (h : deed o (exec i o ch s).1 = .gave side id) : l.owner side id = some (.process i) := by
  have hrep := reports_of h
  generalize (exec i o ch s).1 = r at hrep
  cases hrep with
  | gaveAgent => exact hent
  | gaveBorrower => exact hent

/-- The parties of a call that is created are one's own. -/
theorem entitled_opened {d : Call} (hent : Entitled i s l o)
    (h : deed o (exec i o ch s).1 = .opened d) (side : Side) :
    Holds i side (d.party side) d.createdByWorker s l := by
  obtain ⟨hnew, -⟩ := deed_opened h
  cases o, d, hnew using Op.callInsert_cases with
  | insertCall _ _ _ _ _ _ =>
      cases side with
      | agent => exact hent.1
      | borrower => exact hent.2

/-! ## One step -/

/-- A call that can be moved has not ended. -/
theorem live_of_advanceable {c : Call} {t : CallState} (hw : c.WellFormed)
    (hp : CallRepository.advanceable t c = true) : isTerminal c.state = false :=
  hw.terminal_eq ▸ (CallRepository.advanceable_iff.mp hp).1

theorem Call.Evolves.party_eq {c c' : Call} (h : c.Evolves c') (side : Side) :
    c'.party side = c.party side := by
  cases side with
  | agent => exact h.agentId
  | borrower => exact h.borrowerId

/-- A call that is ended owned its parties. -/
theorem owned_of_ended (hsound : Sound s o) (hinv : LedgerInv s l) {d : Call}
    (h : deed o (exec i o ch s).1 = .ended d) (side : Side) :
    l.owner side (d.party side) = some (.call d.id)
      ∧ s.busyFor side (d.party side) = some (some d.createdByWorker) := by
  obtain ⟨t, reason, c, -, -, hc, hp, rfl, -⟩ := deed_ended h
  have hlive := live_of_advanceable (hsound.wellFormed _ _ hc) hp
  cases side with
  | agent => exact hinv.owned _ c .agent hc hlive
  | borrower => exact hinv.owned _ c .borrower hc hlive

/-- What is owned by neither the process nor a call it ends stays as it is. -/
theorem owner_kept (hsound : Sound s o) (hch : ch.Harmless) (hcont : o.Contained)
    (hout : o.logsOut s = false) (hent : Entitled i s l o) (hinv : LedgerInv s l) {side : Side}
    {id : String} {x : Owner} (hx : l.owner side id = some x) (hproc : x ≠ .process i)
    (hcall : ∀ d, deed o (exec i o ch s).1 = .ended d → x ≠ .call d.id) :
    (l.after i (deed o (exec i o ch s).1)).owner side id = some x
      ∧ (exec i o ch s).2.busyFor side id = s.busyFor side id := by
  rw [busyFor_exec hch hcont hout]
  -- each deed, and whom it may concern
  cases hd : deed o (exec i o ch s).1 with
  | nothing => exact ⟨hx, rfl⟩
  | attached _ => exact ⟨hx, rfl⟩
  | took side' id' workerId =>
      have hne : ¬(side = side' ∧ id = id') := by
        rintro ⟨rfl, rfl⟩
        exact hinv.busy side id (by rw [hx]; intro h; cases h) (took_free hd)
      exact ⟨(if_neg hne).trans hx, if_neg hne⟩
  | gave side' id' =>
      have hne : ¬(side = side' ∧ id = id') := by
        rintro ⟨rfl, rfl⟩
        exact hproc (Option.some.inj (hx.symm.trans (entitled_gave hent hd)))
      exact ⟨(if_neg hne).trans hx, if_neg hne⟩
  | opened d =>
      have hne : id ≠ d.party side := by
        rintro rfl
        exact hproc (Option.some.inj (hx.symm.trans (entitled_opened hent hd side).1))
      exact ⟨(if_neg hne).trans hx, rfl⟩
  | ended d =>
      have hne : id ≠ d.party side := by
        rintro rfl
        exact hcall d hd (Option.some.inj (hx.symm.trans (owned_of_ended hsound hinv hd side).1))
      exact ⟨(if_neg hne).trans hx, rfl⟩

/-- A call that is being set up, and neither ends nor becomes known to a provider. -/
theorem setUp_exec (hch : ch.Harmless) (hinv : LedgerInv s l) {k : String} {j : Nat}
    (hk : l.setUpBy k = some j) (hended : ∀ d, deed o (exec i o ch s).1 = .ended d → d.id ≠ k)
    (hattached : deed o (exec i o ch s).1 ≠ .attached k) :
    ∃ c, (exec i o ch s).2.calls.get k = some c ∧ c.providerCallId = none
      ∧ isTerminal c.state = false := by
  obtain ⟨c, hc, hnone, hlive⟩ := hinv.setUp k j hk
  rcases call_after (i := i) (o := o) hch hc with hget | ⟨t, reason, -, -, hget, hd⟩ | ⟨p, -, hd⟩
  · exact ⟨c, hget, hnone, hlive⟩
  · refine ⟨_, hget, hnone, ?_⟩
    rw [Bool.eq_false_iff]
    intro hterm
    rw [if_pos (show isTerminal t = true from hterm)] at hd
    exact hended _ hd (Collection.key_of_get hc)
  · exact absurd hd hattached

/-! ### The agreement of ledger and documents -/

/-- The parties of a call that has not ended are still its own. -/
theorem owned_exec (hsound : Sound s o) (hch : ch.Harmless) (hcont : o.Contained)
    (hout : o.logsOut s = false) (hent : Entitled i s l o) (hinv : LedgerInv s l) {k : String}
    {d' : Call} (side : Side) (hd' : (exec i o ch s).2.calls.get k = some d')
    (hlive : isTerminal d'.state = false) :
    (l.after i (deed o (exec i o ch s).1)).owner side (d'.party side) = some (.call k)
      ∧ (exec i o ch s).2.busyFor side (d'.party side) = some (some d'.createdByWorker) := by
  rcases call_evolved hsound hd' with ⟨-, -, hnone, -⟩ | ⟨c, hc, hev⟩
  · -- a new call: its parties were the process' own
    obtain ⟨hd, rfl⟩ := opened_of_new hch hnone hd'
    obtain ⟨-, hbusy⟩ := entitled_opened hent hd side
    rw [busyFor_exec hch hcont hout, hd]
    exact ⟨if_pos rfl, hbusy⟩
  · -- an old one: it had not ended, and nobody else may touch what it owns
    have hlive' : isTerminal c.state = false := by
      rw [Bool.eq_false_iff]
      intro hterm
      rw [hev.terminal hterm, hterm] at hlive
      cases hlive
    obtain ⟨howner, hbusy⟩ := hinv.owned k c side hc hlive'
    have hended : ∀ d, deed o (exec i o ch s).1 = .ended d → Owner.call k ≠ .call d.id := by
      rintro d hd heq
      obtain ⟨t, reason, c, -, hterm, -, -, rfl, hget⟩ := deed_ended hd
      rw [← Owner.call.inj heq, hd'] at hget
      rw [Option.some.inj hget] at hlive
      cases hlive.symm.trans hterm
    obtain ⟨howner', hbusy'⟩ :=
      owner_kept hsound hch hcont hout hent hinv howner (fun h => by cases h) hended
    rw [hev.party_eq, hev.createdByWorker]
    exact ⟨howner', hbusy'.trans hbusy⟩

/-- Whoever is owned is still busy. -/
theorem busy_exec (hsound : Sound s o) (hch : ch.Harmless) (hcont : o.Contained)
    (hout : o.logsOut s = false) (hent : Entitled i s l o) (hinv : LedgerInv s l) {side : Side}
    {id : String} (hid : (l.after i (deed o (exec i o ch s).1)).owner side id ≠ none) :
    (exec i o ch s).2.busyFor side id ≠ none := by
  rw [busyFor_exec hch hcont hout]
  cases hd : deed o (exec i o ch s).1 with
  | nothing =>
      rw [hd] at hid
      exact hinv.busy side id hid
  | attached _ =>
      rw [hd] at hid
      exact hinv.busy side id hid
  | took side' id' workerId =>
      simp only [hd, Ledger.after, Deed.busyAfter] at hid ⊢
      split
      · intro h
        cases h
      · rename_i hne
        rw [if_neg hne] at hid
        exact hinv.busy side id hid
  | gave side' id' =>
      simp only [hd, Ledger.after, Deed.busyAfter] at hid ⊢
      split
      · rename_i heq
        rw [if_pos heq] at hid
        exact absurd rfl hid
      · rename_i hne
        rw [if_neg hne] at hid
        exact hinv.busy side id hid
  | opened d =>
      simp only [hd, Ledger.after, Deed.busyAfter] at hid ⊢
      split at hid
      · rename_i heq
        rw [heq, (entitled_opened hent hd side).2]
        intro h
        cases h
      · exact hinv.busy side id hid
  | ended d =>
      simp only [hd, Ledger.after, Deed.busyAfter] at hid ⊢
      split at hid
      · rename_i heq
        rw [heq, (owned_of_ended hsound hinv hd side).2]
        intro h
        cases h
      · exact hinv.busy side id hid

/-- Whatever is being set up has not ended, and no provider knows of it. -/
theorem settingUp_exec (hch : ch.Harmless) (hinv : LedgerInv s l) {k : String} {j : Nat}
    (hk : (l.after i (deed o (exec i o ch s).1)).setUpBy k = some j) :
    ∃ c, (exec i o ch s).2.calls.get k = some c ∧ c.providerCallId = none
      ∧ isTerminal c.state = false := by
  cases hd : deed o (exec i o ch s).1 with
  | opened d =>
      simp only [hd, Ledger.after, Function.update_apply] at hk
      split at hk
      · rename_i heq
        obtain ⟨hnew, -, hget⟩ := deed_opened hd
        obtain ⟨-, hqueued, hnone⟩ := callInsert_some hnew
        exact ⟨d, heq ▸ hget, hnone, by rw [hqueued]; rfl⟩
      · exact setUp_exec hch hinv hk (fun _ h => by cases hd.symm.trans h)
          fun h => by cases hd.symm.trans h
  | ended d =>
      simp only [hd, Ledger.after, Function.update_apply] at hk
      split at hk
      · cases hk
      · rename_i hne
        refine setUp_exec hch hinv hk ?_ fun h => by cases hd.symm.trans h
        rintro d' hd' rfl
        exact hne (congrArg Call.id (Deed.ended.inj (hd.symm.trans hd')).symm)
  | attached callId =>
      simp only [hd, Ledger.after, Function.update_apply] at hk
      split at hk
      · cases hk
      · rename_i hne
        refine setUp_exec hch hinv hk (fun _ h => by cases hd.symm.trans h) fun h => ?_
        exact hne (Deed.attached.inj (hd.symm.trans h)).symm
  | nothing =>
      rw [hd] at hk
      exact setUp_exec hch hinv hk (fun _ h => by cases hd.symm.trans h)
        fun h => by cases hd.symm.trans h
  | took _ _ _ =>
      rw [hd] at hk
      exact setUp_exec hch hinv hk (fun _ h => by cases hd.symm.trans h)
        fun h => by cases hd.symm.trans h
  | gave _ _ =>
      rw [hd] at hk
      exact setUp_exec hch hinv hk (fun _ h => by cases hd.symm.trans h)
        fun h => by cases hd.symm.trans h

/--
**The step lemma.** An operation that its process is entitled to keeps the agreement of
ledger and documents.
-/
theorem ledgerInv_exec (hsound : Sound s o) (hch : ch.Harmless) (hcont : o.Contained)
    (hout : o.logsOut s = false) (hent : Entitled i s l o) (hinv : LedgerInv s l) :
    LedgerInv (exec i o ch s).2 (l.after i (deed o (exec i o ch s).1)) where
  owned _ _ side hd' hlive := owned_exec hsound hch hcont hout hent hinv side hd' hlive
  busy _ _ hid := busy_exec hsound hch hcont hout hent hinv hid
  setUp _ _ hk := settingUp_exec hch hinv hk

/-- A call that another process is setting up stays as it is. -/
theorem setUp_kept (hch : ch.Harmless) (hent : Entitled i s l o) (hinv : LedgerInv s l)
    {k : String} {j : Nat} (hj : j ≠ i) (hk : l.setUpBy k = some j) :
    (l.after i (deed o (exec i o ch s).1)).setUpBy k = some j
      ∧ (exec i o ch s).2.calls.get k = s.calls.get k := by
  obtain ⟨c, hc, -⟩ := hinv.setUp k j hk
  -- whoever moves a call that is being set up is entitled to, and it is not this process's
  have hget : (exec i o ch s).2.calls.get k = some c := by
    rcases call_after (i := i) (o := o) hch hc with hget | ⟨t, reason, rfl, -⟩ | ⟨p, rfl, -⟩
    · exact hget
    · exact absurd (hent j hk) hj
    · exact absurd (hent j hk) hj
  refine ⟨?_, hget.trans hc.symm⟩
  cases hd : deed o (exec i o ch s).1 with
  | opened d =>
      obtain ⟨-, hnone, -⟩ := deed_opened hd
      have hne : k ≠ d.id := by
        rintro rfl
        cases hnone.symm.trans hc
      exact (Function.update_of_ne hne ..).trans hk
  | ended d =>
      obtain ⟨t, reason, -, rfl, -⟩ := deed_ended hd
      have hne : k ≠ d.id := by
        rintro rfl
        exact hj (hent j hk)
      exact (Function.update_of_ne hne ..).trans hk
  | attached callId =>
      have hne : k ≠ callId := by
        rintro rfl
        have hrep := reports_of hd
        generalize (exec i o ch s).1 = r at hrep
        cases hrep with
        | attached => exact hj (hent j hk)
      exact (Function.update_of_ne hne ..).trans hk
  | _ => exact hk

end

end SmartDialer
