import SmartDialer.Conc.RelyGuarantee
import SmartDialer.Protocol.Outside

/-!
# The proof outline of the allocator

`_dial` is long, and every claim about interleavings has to go through it. It is
walked once, here: a `DialOutline` puts an assertion at each point of the dial and
asks that each operation lead from its point to the next, and `DialOutline.wp_dial`
turns that into a proof of the whole program, error paths and compensation included.
A claim then only says what it asserts at each point, and proves one triple for each
operation.

`AllocateOutline` does the same for what surrounds the dial, `EventOutline` for an event
processor, and `wp_program` for whole tasks, given that the operations outside dials are
harmless.
-/

namespace SmartDialer

open Conc

/-- A statement about the shared state and the ghost state. -/
abbrev Assertion (Γ : Type) : Type := State × Γ → Prop

variable {cfg : Settings} {P : Policy (dialer cfg)} {Γ : Type}

/-- The points of `_dial`. -/
inductive DialPoint where
  /-- The pair is reserved, and no call of this dial is under way. -/
  | held
  /-- The dial has come to nothing, and the pair is to be released. -/
  | abandoned (outcome : BorrowerReleaseOutcome)
  /-- The agent is released, the borrower not yet. -/
  | halfReleased (outcome : BorrowerReleaseOutcome)
  /-- `create_call` answered a queued call. -/
  | created (callId : String)
  /-- The call went to INITIATED by this dial's doing. -/
  | initiated (callId : String)
  /-- The agent was told to go to DIALING. -/
  | dialing (callId : String)
  /-- The call was bound to the agent. -/
  | bound (callId : String)
  /-- The provider accepted the call. -/
  | accepted (callId : String)
  /-- The provider did not accept it, or its id could not be recorded. -/
  | refused (callId : String)
  /-- The dial is over. -/
  | done
  /-- The dial was cancelled. -/
  | aborted

/-- Where an answer leads; a cancellation leads to the compensation. -/
def Next (at_ : DialPoint → Assertion Γ) {α : Type} (f : α → Assertion Γ) :
    Except Exn α → Assertion Γ
  | .ok a, s => f a s
  | .error e, s => e = .cancelledError → at_ .aborted s

/-- How a program ends, when nothing is said of its exceptions. -/
def Returns {α : Type} (f : α → Assertion Γ) : Except Exn α → Assertion Γ
  | .ok a, s => f a s
  | .error _, _ => True

/-- A call answered by `create_call`: the dial goes on with it if it is still queued. -/
def OnCall (at_ : DialPoint → Assertion Γ) (call : Call) : Assertion Γ :=
  if call.state = .queued then at_ (.created call.id) else at_ (.abandoned .released)

/-- Where the insert of `create_call` leads. -/
def OnInsert (at_ : DialPoint → Assertion Γ) : Except Exn Call → Assertion Γ
  | .ok call, s => OnCall at_ call s
  | .error .duplicateKeyError, s => at_ .held s
  | .error e, s => e = .cancelledError → at_ .aborted s

/-- Where the lookup of the call that has the key leads; there should be one. -/
def OnExisting (at_ : DialPoint → Assertion Γ) : Option Call → Assertion Γ
  | some call => OnCall at_ call
  | none => fun _ => True

/-- Where the provider's answer leads. -/
def OnResult (at_ : DialPoint → Assertion Γ) (callId : String) :
    Option OriginateResult → Assertion Γ
  | some result => if result.accepted then at_ (.accepted callId) else at_ (.refused callId)
  | none => at_ (.refused callId)

/-- Where an originate request leads; an exception counts as a refusal. -/
def OnOriginate (at_ : DialPoint → Assertion Γ) (callId : String) :
    Except Exn OriginateResult → Assertion Γ
  | .ok result => OnResult at_ callId (some result)
  | .error e => if e = .cancelledError then at_ .aborted else at_ (.refused callId)

/-- Where a hang-up leads: nowhere. -/
def OnHangup (at_ : DialPoint → Assertion Γ) (callId : String) : Except Exn Unit → Assertion Γ
  | .ok _ => at_ (.refused callId)
  | .error e => if e = .cancelledError then at_ .aborted else at_ (.refused callId)

/-! Where several points are asserted at once, an answer leads to one of them. -/

section

variable {at_ : DialPoint → Assertion Γ} {s : State × Γ} {callId : String}

theorem next_of {α : Type} {f : α → Assertion Γ} {r : Except Exn α}
    (hok : ∀ a, r = .ok a → f a s) (hab : at_ .aborted s) : Next at_ f r s := by
  cases r with
  | ok a => exact hok a rfl
  | error e => exact fun _ => hab

theorem onCall_of (call : Call) (hc : call.state = .queued → at_ (.created call.id) s)
    (ha : call.state ≠ .queued → at_ (.abandoned .released) s) : OnCall at_ call s := by
  rw [OnCall]
  split
  · rename_i h
    exact hc h
  · rename_i h
    exact ha h

theorem onInsert_of {r : Except Exn Call} (hc : ∀ call, r = .ok call → OnCall at_ call s)
    (hh : r ≠ .error .cancelledError → at_ .held s) (hab : at_ .aborted s) :
    OnInsert at_ r s := by
  cases r with
  | ok call => exact hc call rfl
  | error e =>
      cases e with
      | duplicateKeyError => exact hh fun h => by cases h
      | _ => exact fun _ => hab

theorem onOriginate_of {r : Except Exn OriginateResult}
    (ha : r ≠ .error .cancelledError → at_ (.accepted callId) s)
    (hr : r ≠ .error .cancelledError → at_ (.refused callId) s) (hab : at_ .aborted s) :
    OnOriginate at_ callId r s := by
  cases r with
  | ok result =>
      rw [OnOriginate, OnResult]
      split
      · exact ha fun h => by cases h
      · exact hr fun h => by cases h
  | error e =>
      rw [OnOriginate]
      split
      · exact hab
      · rename_i he
        exact hr fun h => he (Except.error.inj h)

theorem onHangup_of {r : Except Exn Unit}
    (hr : r ≠ .error .cancelledError → at_ (.refused callId) s) (hab : at_ .aborted s) :
    OnHangup at_ callId r s := by
  cases r with
  | ok _ => exact hr fun h => by cases h
  | error e =>
      rw [OnHangup]
      split
      · exact hab
      · rename_i he
        exact hr fun h => he (Except.error.inj h)

/-! Where nothing is ever cancelled, nothing need be known of the compensation. -/

theorem next_of_ok {α : Type} {f : α → Assertion Γ} {r : Except Exn α}
    (hok : ∀ a, r = .ok a → f a s) (hr : r ≠ .error .cancelledError) : Next at_ f r s := by
  cases r with
  | ok a => exact hok a rfl
  | error e =>
      rintro rfl
      exact absurd rfl hr

theorem onInsert_of_ok {r : Except Exn Call} (hc : ∀ call, r = .ok call → OnCall at_ call s)
    (hh : ∀ e, r = .error e → at_ .held s) (hr : r ≠ .error .cancelledError) :
    OnInsert at_ r s := by
  cases r with
  | ok call => exact hc call rfl
  | error e =>
      cases e with
      | duplicateKeyError => exact hh _ rfl
      | cancelledError => exact absurd rfl hr
      | _ => exact fun h => by cases h

theorem onOriginate_of_ok {r : Except Exn OriginateResult} (ha : at_ (.accepted callId) s)
    (href : at_ (.refused callId) s) (hr : r ≠ .error .cancelledError) :
    OnOriginate at_ callId r s := by
  cases r with
  | ok result =>
      rw [OnOriginate, OnResult]
      split
      · exact ha
      · exact href
  | error e =>
      rw [OnOriginate, if_neg]
      · exact href
      · rintro rfl
        exact hr rfl

theorem onHangup_of_ok {r : Except Exn Unit} (href : at_ (.refused callId) s)
    (hr : r ≠ .error .cancelledError) : OnHangup at_ callId r s := by
  cases r with
  | ok _ => exact href
  | error e =>
      rw [OnHangup, if_neg]
      · exact href
      · rintro rfl
        exact hr rfl

end

/-- An assertion at each point of a dial, and a triple for each operation. -/
structure DialOutline (L : Logic P Γ) (i : Nat) (campaign : Campaign) (pair : ReservationPair)
    (at_ : DialPoint → Assertion Γ) : Prop where
  stable : ∀ p, L.Stable i (at_ p)
  now : L.Atomic i .utcNow (at_ .held) (Next at_ fun _ => at_ .held)
  gate : L.Atomic i (.shouldAllowRetry campaign.providerName) (at_ .held)
    (Next at_ fun _ => at_ .held)
  /-- A dial may be abandoned before it has a call. -/
  abandon : ∀ s, at_ .held s → at_ (.abandoned .released) s
  releaseAgent : ∀ outcome, L.Atomic i
    (.releaseAgent pair.agent.id pair.workerId .available .allocator false)
    (at_ (.abandoned outcome)) (Next at_ fun _ => at_ (.halfReleased outcome))
  releaseBorrower : ∀ outcome, L.Atomic i
    (.releaseBorrower pair.borrower.id pair.workerId outcome cfg.maxCallAttempts
      cfg.retryBackoffBaseSeconds false)
    (at_ (.halfReleased outcome)) (Next at_ fun _ => at_ .done)
  insert : L.Atomic i
    (.insertCall campaign.id pair.agent.id pair.borrower.id campaign.providerName pair.workerId
      (pair.borrower.attemptCount + 1))
    (at_ .held) (OnInsert at_)
  existing : L.Atomic i
    (.findByIdempotencyKey (buildIdempotencyKey campaign.id pair.agent.id pair.borrower.id
      (pair.borrower.attemptCount + 1)))
    (at_ .held) (Next at_ (OnExisting at_))
  reserve : ∀ callId, L.Atomic i (.transitionCall callId .reserved none) (at_ (.created callId))
    (Next at_ fun _ => at_ (.created callId))
  initiate : ∀ callId, L.Atomic i (.transitionCall callId .initiated none)
    (at_ (.created callId))
    (Next at_ fun answer =>
      if answer.isNone then at_ (.abandoned .released) else at_ (.initiated callId))
  dialAgent : ∀ callId, L.Atomic i
    (.transitionAgent pair.agent.id .reserved .dialing pair.agent.stateVersion)
    (at_ (.initiated callId)) (Next at_ fun _ => at_ (.dialing callId))
  bind : ∀ callId, L.Atomic i (.bindCall pair.agent.id pair.workerId callId)
    (at_ (.dialing callId)) (Next at_ fun _ => at_ (.bound callId))
  originate : ∀ callId, L.Atomic i
    (.originateCall campaign.providerName pair
      (CallAllocator.originateRequest cfg campaign pair callId))
    (at_ (.bound callId)) (OnOriginate at_ callId)
  attach : ∀ callId providerCallId, L.Atomic i (.attachProviderCallId callId providerCallId)
    (at_ (.accepted callId))
    (Next at_ fun answer => if answer.isNone then at_ (.refused callId) else at_ .done)
  hangup : ∀ callId providerCallId, L.Atomic i (.hangupCall campaign.providerName providerCallId)
    (at_ (.refused callId)) (OnHangup at_ callId)
  fail : ∀ callId reason, L.Atomic i (.transitionCall callId .failed reason)
    (at_ (.refused callId)) (Next at_ fun _ => at_ (.abandoned .retry))
  compensateAgent : L.Atomic i
    (.releaseAgent pair.agent.id pair.workerId .available .allocator true)
    (at_ .aborted) (fun _ => at_ .aborted)
  compensateBorrower : L.Atomic i
    (.releaseBorrower pair.borrower.id pair.workerId .released cfg.maxCallAttempts
      cfg.retryBackoffBaseSeconds true)
    (at_ .aborted) (fun _ => at_ .aborted)

/-- One part of a dial after another. -/
theorem wp_then {L : Logic P Γ} {i : Nat} {at_ : DialPoint → Assertion Γ} {α β : Type}
    {f : α → Assertion Γ} {g : β → Assertion Γ} {p : Async α} {k : α → Async β} {s : State × Γ}
    (hp : L.wp i p (Next at_ f) s)
    (hk : ∀ a s', f a s' → L.wp i (k a) (Next at_ g) s') :
    L.wp i (p.bind k) (Next at_ g) s := by
  refine Logic.wp_bind (Logic.wp_mono hp ?_)
  intro r s' hr
  cases r with
  | ok a => exact hk a s' hr
  | error e => exact hr

namespace DialOutline

variable {L : Logic P Γ} {i : Nat} {campaign : Campaign} {pair : ReservationPair}
  {at_ : DialPoint → Assertion Γ} (D : DialOutline L i campaign pair at_)

include D

/-- One operation of a dial, and what comes after it. -/
theorem wp_step {α : Type} {o : Op} {p : DialPoint} {f : Ans o → Assertion Γ}
    {g : α → Assertion Γ} {k : Ans o → Async α} {s : State × Γ}
    (ho : L.Atomic i o (at_ p) (Next at_ f)) (hs : at_ p s)
    (hk : ∀ a s', f a s' → L.wp i (k a) (Next at_ g) s') :
    L.wp i ((await o).bind k) (Next at_ g) s := by
  refine Logic.wp_bind (Logic.wp_mono (Logic.wp_perform (D.stable p) ho hs) ?_)
  intro r s' hr
  cases r with
  | ok a => exact hk a s' hr
  | error e => exact hr

/-- The release at the end of a dial that came to nothing. -/
theorem wp_release {β : Type} (outcome : BorrowerReleaseOutcome) {s : State × Γ}
    (hs : at_ (.abandoned outcome) s) {k : Async β} {g : β → Assertion Γ}
    (hk : ∀ s', at_ .done s' → L.wp i k (Next at_ g) s') :
    L.wp i ((ReservationService.releasePair cfg pair outcome false).bind fun _ => k)
      (Next at_ g) s := by
  refine wp_then (f := fun _ => at_ .done) ?_ fun _ s' h => hk s' h
  refine wp_then (f := fun _ => at_ (.halfReleased outcome)) ?_ ?_
  · exact D.wp_step (D.releaseAgent outcome) hs fun _ _ h => h
  · intro _ s' h
    exact D.wp_step (D.releaseBorrower outcome) h fun _ _ h => h

/-- The retry gate. -/
theorem wp_retrySuppressed {s : State × Γ} (hs : at_ .held s) :
    L.wp i (CallAllocator.retrySuppressed cfg campaign pair) (Next at_ fun _ => at_ .held) s := by
  rw [CallAllocator.retrySuppressed]
  split
  · refine wp_then (f := fun _ => at_ .held) ?_ fun _ _ h => h
    rw [shouldRetry]
    split
    · exact hs
    · refine D.wp_step D.now hs fun now s' h => ?_
      split
      · exact h
      · exact Logic.wp_perform (D.stable .held) D.gate h
  · exact hs

/-- The call of the dial: a new one, or the one that has its key. -/
theorem wp_createCall {s : State × Γ} (hs : at_ .held s) :
    L.wp i (Calls.createCall campaign.id pair.agent.id pair.borrower.id campaign.providerName
        pair.workerId (pair.borrower.attemptCount + 1)) (Next at_ (OnCall at_)) s := by
  refine Logic.wp_tryCatch (Logic.wp_mono
    (Logic.wp_perform (D.stable .held) D.insert hs) ?_)
  intro r s' hr
  cases r with
  | ok call => exact hr
  | error e =>
      cases e with
      | duplicateKeyError =>
          refine D.wp_step D.existing hr fun found s'' h => ?_
          cases found with
          | some call => exact h
          | none => exact fun h => by cases h
      | _ => exact hr

/-- The failing of a call, and the release. -/
theorem wp_failDial {callId : String} (reason : Option String) {s : State × Γ}
    (hs : at_ (.refused callId) s) :
    L.wp i (CallAllocator.failDial cfg pair callId reason) (Next at_ fun _ => at_ .done) s := by
  refine D.wp_step (D.fail callId reason) hs fun _ s' h => ?_
  exact D.wp_release .retry h fun _ h => h

/-- The hang-up of a call whose id could not be recorded. -/
theorem wp_hangup {callId : String} (providerCallId : Option String) {s : State × Γ}
    (hs : at_ (.refused callId) s) :
    L.wp i (CallAllocator.hangup campaign.providerName providerCallId)
      (Next at_ fun _ => at_ (.refused callId)) s := by
  rw [CallAllocator.hangup]
  split
  · exact hs
  · refine Logic.wp_tryCatch (Logic.wp_mono
      (Logic.wp_perform (D.stable (.refused callId)) (D.hangup callId providerCallId) hs) ?_)
    intro r s' hr
    cases r with
    | ok _ => exact hr
    | error e =>
        cases e with
        | cancelledError => exact fun _ => hr
        | provider e => exact hr
        | _ => exact fun h => by cases h

/-- The provider request. -/
theorem wp_originate {callId : String} {s : State × Γ} (hs : at_ (.bound callId) s) :
    L.wp i (CallAllocator.originate cfg campaign pair callId)
      (Next at_ (OnResult at_ callId)) s := by
  rw [CallAllocator.originate]
  split
  · exact fun h => by cases h
  · refine Logic.wp_tryCatch (Logic.wp_bind (Logic.wp_mono
      (Logic.wp_perform (D.stable (.bound callId)) (D.originate _) hs) ?_))
    intro r s' hr
    cases r with
    | ok result => exact hr
    | error e =>
        cases e with
        | cancelledError => exact fun _ => hr
        | timeoutError => exact hr
        | provider e =>
            cases e with
            | timeout => exact hr
            | rejected reason => exact hr
            | _ => exact fun h => by cases h
        | _ => exact fun h => by cases h

/-- What follows the provider's answer. -/
theorem wp_concludeDial {callId : String} {result : Option OriginateResult} {s : State × Γ}
    (hs : OnResult at_ callId result s) :
    L.wp i (CallAllocator.concludeDial cfg campaign pair callId result)
      (Next at_ fun _ => at_ .done) s := by
  cases result with
  | none => exact D.wp_failDial _ hs
  | some r =>
      rw [CallAllocator.concludeDial]
      rw [OnResult] at hs
      cases hacc : r.accepted with
      | false =>
          simp only [hacc, Bool.false_eq_true, if_false] at hs
          exact D.wp_failDial _ hs
      | true =>
          simp only [hacc, if_true] at hs
          refine D.wp_step (D.attach callId r.providerCallId) hs fun answer s' h => ?_
          cases answer with
          | some _ => exact h
          | none =>
              refine wp_then (f := fun _ => at_ (.refused callId))
                (D.wp_hangup r.providerCallId h) fun _ s'' h => ?_
              exact D.wp_failDial _ h

/-- **`_dial` follows its outline.** -/
theorem wp_dial {s : State × Γ} (hs : at_ .held s) :
    L.wp i (CallAllocator.dial cfg campaign pair) (Next at_ fun _ => at_ .done) s := by
  refine wp_then (f := fun _ => at_ .held) (D.wp_retrySuppressed hs) fun suppressed s' hs => ?_
  cases suppressed with
  | true => exact D.wp_release .released (D.abandon s' hs) fun _ h => h
  | false =>
      refine wp_then (D.wp_createCall hs) fun call s' hs => ?_
      split
      · rename_i hq
        rw [OnCall, if_neg hq] at hs
        exact D.wp_release .released hs fun _ h => h
      · rename_i hq
        rw [OnCall, if_pos (not_not.mp hq)] at hs
        refine D.wp_step (D.reserve call.id) hs fun _ s' hs => ?_
        refine D.wp_step (D.initiate call.id) hs fun initiated s' hs => ?_
        cases initiated with
        | none => exact D.wp_release .released hs fun _ h => h
        | some _ =>
            refine D.wp_step (D.dialAgent call.id) hs fun _ s' hs => ?_
            refine D.wp_step (D.bind call.id) hs fun _ s' hs => ?_
            refine wp_then (D.wp_originate hs) fun result s' hs => ?_
            exact D.wp_concludeDial hs

/-- The shielded release after a cancellation. -/
theorem wp_compensateCancelledDial {s : State × Γ} (hs : at_ .aborted s) :
    L.wp i (CallAllocator.compensateCancelledDial cfg pair) (fun _ => at_ .aborted) s := by
  refine Logic.wp_all (R := fun o => L.Atomic i o (at_ .aborted) fun _ => at_ .aborted)
    ?_ (D.stable .aborted) (fun _ h => h) hs
  refine Prog.all_tryCatch (Prog.all_bind ?_ fun _ => ?_) fun e => ?_
  · exact Prog.all_bind (Prog.all_perform D.compensateAgent) fun _ => trivial
  · exact Prog.all_bind (Prog.all_perform D.compensateBorrower) fun _ => trivial
  · split <;> trivial

/-- A dial under `allocate`'s watch. -/
theorem wp_dialOrCompensate {s : State × Γ} (hs : at_ .held s) :
    L.wp i (CallAllocator.dialOrCompensate cfg campaign pair)
      (Returns fun _ => at_ .done) s := by
  refine Logic.wp_tryCatch (Logic.wp_mono (D.wp_dial hs) ?_)
  intro r s' hr
  cases r with
  | ok _ => exact hr
  | error e =>
      dsimp only
      split
      · rename_i he
        refine Logic.wp_bind (Logic.wp_mono (D.wp_compensateCancelledDial (hr he)) ?_)
        intro r s'' _
        cases r <;> trivial
      · trivial

end DialOutline

/-! ## Around the dial -/

/-- What is left of an attempt; a database error has cost nothing. -/
def Unless {α : Type} (f : Assertion Γ) : Except Exn α → Assertion Γ
  | .ok _, s => f s
  | .error e, s => e.isPyMongoError = true → f s

theorem unless_of {α : Type} {f : Assertion Γ} {r : Except Exn α} {s : State × Γ}
    (h : r ≠ .error .cancelledError → f s) : Unless f r s := by
  cases r with
  | ok _ => exact h fun h => by cases h
  | error e =>
      intro he
      refine h ?_
      rintro ⟨⟩
      cases he

/-- Where a claim leads: to what was claimed, or back to where it came from. -/
def OnClaim {α : Type} (f : α → Assertion Γ) (g : Assertion Γ) :
    Except Exn (Option α) → Assertion Γ
  | .ok (some a) => f a
  | .ok none => g
  | .error e => Unless (α := Unit) g (.error e)

theorem onClaim_of {α : Type} {f : α → Assertion Γ} {g : Assertion Γ}
    {r : Except Exn (Option α)} {s : State × Γ} (hf : ∀ a, r = .ok (some a) → f a s)
    (hg : r ≠ .error .cancelledError → g s) : OnClaim f g r s :=
  match r with
  | .ok (some a) => hf a rfl
  | .ok none => hg fun h => by cases h
  | .error e => fun he => hg (by rintro ⟨⟩; cases he)

/-- Where `reserve_pair` leads; a database error has cost nothing. -/
def OnReserve (idle : Assertion Γ) (held : ReservationPair → Assertion Γ) :
    Except Exn (Option ReservationPair) → Assertion Γ
  | .ok (some pair), s => held pair s
  | .ok none, s => idle s
  | .error e, s => e.isPyMongoError = true → idle s

/-- Where `_reserve_pair` leads. -/
def OnAttempt (idle : Assertion Γ) (held : ReservationPair → Assertion Γ) :
    Option ReservationPair → Assertion Γ
  | some pair => held pair
  | none => idle

/--
The reservation of a pair: from `idle`, by way of an agent that is `claimed` for want of a
borrower, to `held`, or back.
-/
structure ReserveOutline (L : Logic P Γ) (i : Nat) (campaignId workerId : String)
    (idle : Assertion Γ) (claimed : Agent → Assertion Γ)
    (held : ReservationPair → Assertion Γ) : Prop where
  stable_idle : L.Stable i idle
  stable_claimed : ∀ agent, L.Stable i (claimed agent)
  findAgents : L.Atomic i (.findClaimableAgents campaignId 1) idle (Unless idle)
  claimAgent : ∀ agentId, L.Atomic i
    (.tryReserveAgent campaignId agentId workerId cfg.reservationTtlSeconds) idle
    (OnClaim claimed idle)
  findBorrowers : ∀ agent, L.Atomic i (.findClaimableBorrowers campaignId 1) (claimed agent)
    (Unless (claimed agent))
  claimBorrower : ∀ agent borrowerId, L.Atomic i
    (.tryReserveBorrower campaignId borrowerId workerId cfg.reservationTtlSeconds)
    (claimed agent)
    (OnClaim (fun borrower => held ⟨campaignId, workerId, agent, borrower⟩) (claimed agent))
  giveBack : ∀ agent : Agent, L.Atomic i
    (.releaseAgent agent.id workerId .available .allocator false) (claimed agent) (Unless idle)

namespace ReserveOutline

variable {L : Logic P Γ} {i : Nat} {campaignId workerId : String} {idle : Assertion Γ}
  {claimed : Agent → Assertion Γ} {held : ReservationPair → Assertion Γ}
  (R : ReserveOutline L i campaignId workerId idle claimed held)

include R

theorem wp_claimAgent {s : State × Γ} (hs : idle s) :
    L.wp i (ReservationService.claimAgent cfg campaignId workerId)
      (OnClaim claimed idle) s := by
  have hloop : ∀ candidates s, idle s →
      L.wp i (ReservationService.claimFirstAgent cfg campaignId workerId candidates)
        (OnClaim claimed idle) s := by
    intro candidates
    induction candidates with
    | nil => exact fun s hs => hs
    | cons candidate rest ih =>
        intro s hs
        refine Logic.wp_bind (Logic.wp_mono
          (Logic.wp_perform R.stable_idle (R.claimAgent candidate.id) hs) ?_)
        intro r s' hr
        match r, hr with
        | .ok (some agent), hr => exact hr
        | .ok none, hr => exact ih s' hr
        | .error e, hr => exact hr
  refine Logic.wp_bind (Logic.wp_mono (Logic.wp_perform R.stable_idle R.findAgents hs) ?_)
  intro r s' hr
  cases r with
  | ok candidates => exact hloop candidates s' hr
  | error e => exact hr

theorem wp_claimBorrower (agent : Agent) {s : State × Γ} (hs : claimed agent s) :
    L.wp i (ReservationService.claimBorrower cfg campaignId workerId)
      (OnClaim (fun borrower => held ⟨campaignId, workerId, agent, borrower⟩) (claimed agent))
      s := by
  have hloop : ∀ candidates s, claimed agent s →
      L.wp i (ReservationService.claimFirstBorrower cfg campaignId workerId candidates)
        (OnClaim (fun borrower => held ⟨campaignId, workerId, agent, borrower⟩)
          (claimed agent)) s := by
    intro candidates
    induction candidates with
    | nil => exact fun s hs => hs
    | cons candidate rest ih =>
        intro s hs
        refine Logic.wp_bind (Logic.wp_mono
          (Logic.wp_perform (R.stable_claimed agent) (R.claimBorrower agent candidate.id) hs) ?_)
        intro r s' hr
        match r, hr with
        | .ok (some borrower), hr => exact hr
        | .ok none, hr => exact ih s' hr
        | .error e, hr => exact hr
  refine Logic.wp_bind (Logic.wp_mono
    (Logic.wp_perform (R.stable_claimed agent) (R.findBorrowers agent) hs) ?_)
  intro r s' hr
  cases r with
  | ok candidates => exact hloop candidates s' hr
  | error e => exact hr

theorem wp_releaseAgent (agent : Agent) {s : State × Γ} (hs : claimed agent s) :
    L.wp i (ReservationService.releaseAgent agent.id workerId false) (Unless idle) s := by
  refine Logic.wp_bind (Logic.wp_mono
    (Logic.wp_perform (R.stable_claimed agent) (R.giveBack agent) hs) ?_)
  intro r s' hr
  cases r with
  | ok _ => exact hr
  | error _ => exact hr

/-- **`reserve_pair` follows its outline.** -/
theorem wp_reservePair {s : State × Γ} (hs : idle s) :
    L.wp i (ReservationService.reservePair cfg campaignId workerId) (OnReserve idle held) s := by
  refine Logic.wp_bind (Logic.wp_mono (R.wp_claimAgent hs) ?_)
  intro r s₁ hr
  match r, hr with
  | .error e, hr => exact hr
  | .ok none, hr => exact hr
  | .ok (some agent), hr =>
      refine Logic.wp_bind (Logic.wp_tryCatch (Logic.wp_mono (R.wp_claimBorrower agent hr) ?_))
      intro r s₂ hr
      match r, hr with
      | .ok (some borrower), hr => exact hr
      | .ok none, hr =>
          refine Logic.wp_bind (Logic.wp_mono (R.wp_releaseAgent agent hr) ?_)
          intro r s₃ hr
          cases r with
          | ok _ => exact hr
          | error _ => exact hr
      -- a cancellation goes through; any other failure gives the agent back first
      | .error e, hr =>
          dsimp only
          split
          · rename_i he
            refine Logic.wp_bind (Logic.wp_mono (R.wp_releaseAgent agent (hr he)) ?_)
            intro r s₃ hr
            cases r with
            | ok _ => exact fun _ => hr
            | error _ => exact hr
          · rename_i he
            exact fun h => absurd h he

end ReserveOutline

/--
An allocation: what is asserted between two attempts, with the attempts left, and the
outlines of what an attempt consists of.
-/
structure AllocateOutline (L : Logic P Γ) (i : Nat) (campaign : Campaign) (workerId : String)
    (idle : Nat → Assertion Γ) (claimed : Nat → Agent → Assertion Γ)
    (at_ : Nat → ReservationPair → DialPoint → Assertion Γ) : Prop where
  /-- An attempt may be given up. -/
  skip : ∀ n s, idle (n + 1) s → idle n s
  reserve : ∀ n, ReserveOutline L i campaign.id workerId (idle (n + 1)) (claimed n)
    fun pair => at_ n pair .held
  dial : ∀ n pair, DialOutline L i campaign pair (at_ n pair)
  done : ∀ n pair s, at_ n pair .done s → idle n s

namespace AllocateOutline

variable {L : Logic P Γ} {i : Nat} {campaign : Campaign} {workerId : String}
  {idle : Nat → Assertion Γ} {claimed : Nat → Agent → Assertion Γ}
  {at_ : Nat → ReservationPair → DialPoint → Assertion Γ}
  (A : AllocateOutline L i campaign workerId idle claimed at_)

include A

/-- `_reserve_pair`: a database error is one more contention. -/
theorem wp_reservePair {n : Nat} {s : State × Γ} (hs : idle (n + 1) s) :
    L.wp i (CallAllocator.reservePair cfg campaign.id workerId)
      (Returns (OnAttempt (idle (n + 1)) fun pair => at_ n pair .held)) s := by
  refine Logic.wp_tryCatch (Logic.wp_mono ((A.reserve n).wp_reservePair hs) ?_)
  intro r s' hr
  match r, hr with
  | .ok (some pair), hr => exact hr
  | .ok none, hr => exact hr
  | .error e, hr =>
      dsimp only
      split
      · rename_i he
        exact hr he
      · trivial

/-- **`allocate` follows its outline.** -/
theorem wp_allocateLoop (n consecutive : Nat) (result : AllocationResult) {s : State × Γ}
    (hs : idle n s) :
    L.wp i (CallAllocator.allocateLoop cfg campaign workerId n consecutive result)
      (Returns fun _ s' => ∃ m, idle m s') s := by
  induction n generalizing consecutive result s with
  | zero => exact ⟨0, hs⟩
  | succ n ih =>
      refine Logic.wp_bind (Logic.wp_mono (A.wp_reservePair hs) ?_)
      intro r s₁ hr
      match r, hr with
      | .error e, _ => trivial
      | .ok none, hr =>
          dsimp only
          split
          · exact ⟨n + 1, hr⟩
          · exact ih _ _ (A.skip n s₁ hr)
      | .ok (some pair), hr =>
          refine Logic.wp_bind (Logic.wp_mono ((A.dial n pair).wp_dialOrCompensate hr) ?_)
          intro r s₂ hr
          cases r with
          | error e => trivial
          | ok dialled =>
              have hidle : idle n s₂ := A.done n pair s₂ hr
              cases dialled with
              | true => exact ih _ _ hidle
              | false => exact ih _ _ hidle

end AllocateOutline

/-- The operations of a reservation. -/
def Op.Reserving : Op → Prop
  | .findClaimableAgents .. | .tryReserveAgent .. | .findClaimableBorrowers ..
  | .tryReserveBorrower .. | .releaseAgent .. => True
  | _ => False

/-- An operation that is about calls, or about nothing. -/
def Op.OnCalls : Op → Prop
  | .insertCall .. | .findByIdempotencyKey .. | .transitionCall .. | .shouldAllowRetry ..
  | .utcNow => True
  | _ => False

/-- Where nothing is asserted of a pair that was just reserved, the dial is all there is. -/
theorem allocateOutline_of_dial {L : Logic P Γ} {i : Nat} {campaign : Campaign}
    {at_ : ReservationPair → DialPoint → Assertion Γ}
    (ho : ∀ o, Op.Reserving o → L.Atomic i o (fun _ => True) fun _ _ => True)
    (hheld : ∀ pair s, at_ pair .held s)
    (hdial : ∀ pair, DialOutline L i campaign pair (at_ pair)) (workerId : String) :
    AllocateOutline L i campaign workerId (fun _ _ => True) (fun _ _ _ => True)
      fun _ => at_ where
  skip _ _ _ := trivial
  reserve _ :=
    { stable_idle := Logic.stable_true
      stable_claimed := fun _ => Logic.stable_true
      findAgents := Logic.Atomic.mono (ho _ trivial) (fun _ h => h)
        fun _ _ h => unless_of fun _ => h
      claimAgent := fun _ => Logic.Atomic.mono (ho _ trivial) (fun _ h => h)
        fun _ _ h => onClaim_of (fun _ _ => trivial) fun _ => h
      findBorrowers := fun _ => Logic.Atomic.mono (ho _ trivial) (fun _ h => h)
        fun _ _ h => unless_of fun _ => h
      claimBorrower := fun _ _ => Logic.Atomic.mono (ho _ trivial) (fun _ h => h)
        fun _ s h => onClaim_of (fun _ _ => hheld _ s) fun _ => h
      giveBack := fun _ => Logic.Atomic.mono (ho _ trivial) (fun _ h => h)
        fun _ _ h => unless_of fun _ => h }
  dial _ := hdial
  done _ _ _ _ := trivial

/-! ## Tasks -/

section

variable {L : Logic P Γ} {i : Nat} {α β : Type}

/-- Nothing is said of how a program ends. -/
def Anyhow : Except Exn α → Assertion Γ := fun _ _ => True

theorem wp_anyhow {p : Async α} {Q : Except Exn α → Assertion Γ} {s : State × Γ}
    (h : L.wp i p Q s) : L.wp i p Anyhow s :=
  Logic.wp_mono h fun _ _ _ => trivial

theorem wp_bind_anyhow {p : Async α} {k : α → Async β} {s : State × Γ}
    (hp : L.wp i p Anyhow s) (hk : ∀ a s', L.wp i (k a) Anyhow s') :
    L.wp i (p.bind k) Anyhow s := by
  refine Logic.wp_bind (Logic.wp_mono hp ?_)
  intro r s' _
  cases r with
  | ok a => exact hk a s'
  | error e => trivial

theorem wp_tryCatch_anyhow {p : Async α} {f : Exn → Async α} {s : State × Γ}
    (hp : L.wp i p Anyhow s) (hf : ∀ e s', L.wp i (f e) Anyhow s') :
    L.wp i (p.tryCatch f) Anyhow s := by
  refine Logic.wp_tryCatch (Logic.wp_mono hp ?_)
  intro r s' _
  cases r with
  | ok a => trivial
  | error e => exact hf e s'

/-- One part of a program after another, as long as nothing raises. -/
theorem wp_bind_returns {f : α → Assertion Γ} {g : β → Assertion Γ} {p : Async α}
    {k : α → Async β} {s : State × Γ} (hp : L.wp i p (Returns f) s)
    (hk : ∀ a s', f a s' → L.wp i (k a) (Returns g) s') : L.wp i (p.bind k) (Returns g) s := by
  refine Logic.wp_bind (Logic.wp_mono hp ?_)
  intro r s' hr
  cases r with
  | ok a => exact hk a s' hr
  | error e => trivial

theorem wp_bind_of_returns {f : α → Assertion Γ} {p : Async α} {k : α → Async β} {s : State × Γ}
    (hp : L.wp i p (Returns f) s) (hk : ∀ a s', f a s' → L.wp i (k a) Anyhow s') :
    L.wp i (p.bind k) Anyhow s := by
  refine Logic.wp_bind (Logic.wp_mono hp ?_)
  intro r s' hr
  cases r with
  | ok a => exact hk a s' hr
  | error e => trivial

/-- A loop keeps what each of its iterations keeps. -/
theorem wp_count_returns {A : Assertion Γ} {f : α → Async Bool} {xs : List α}
    (hf : ∀ x ∈ xs, ∀ s, A s → L.wp i (f x) (Returns fun _ => A) s) {s : State × Γ} (hs : A s) :
    L.wp i (Prog.count f xs) (Returns fun _ => A) s := by
  refine Logic.wp_mono (Logic.wp_count (A := A) (E := fun _ _ => True) ?_ hs) ?_
  · intro x hx s hs
    refine Logic.wp_mono (hf x hx s hs) fun r s' hr => ?_
    cases r with
    | ok b => exact hr
    | error e => trivial
  · intro r s' hr
    cases r with
    | ok n => exact hr
    | error e => trivial

/-- Where nothing is asserted of what is returned. -/
theorem returns_of_anyhow {f : α → Assertion Γ} {p : Async α} {s : State × Γ}
    (h : L.wp i p Anyhow s) (hf : ∀ a s', f a s') : L.wp i p (Returns f) s := by
  refine Logic.wp_mono h ?_
  intro r s' _
  cases r with
  | ok a => exact hf a s'
  | error e => trivial

/-- A sweep that fails is noted, and nothing else. -/
theorem wp_guarded {name : String} {set : Nat → RecoverySweepCounts → RecoverySweepCounts}
    {sweep : Async Nat} {counts : RecoverySweepCounts} {s : State × Γ}
    (h : L.wp i sweep Anyhow s) :
    L.wp i (RecoveryWorker.guarded name set sweep counts) Anyhow s := by
  refine wp_tryCatch_anyhow (wp_bind_anyhow h fun _ _ => trivial) fun e _ => ?_
  split <;> trivial

/-- A program whose operations the logic permits in any state. -/
theorem wp_all_anyhow {R : Op → Prop} {p : Async α} (hp : p.All R)
    (ho : ∀ o, R o → L.Atomic i o (fun _ => True) fun _ _ => True) {s : State × Γ} :
    L.wp i p Anyhow s :=
  Logic.wp_all hp Logic.stable_true ho trivial

/-! ### Event processors -/

/--
What a process knows of the call it has found under the provider's id, of the call when it has
moved it, and when the agent has been seen to, with a triple for each operation between. An
event that moves no call is filed, and that is all.
-/
structure EventOutline (L : Logic P Γ) (i : Nat) (event : ProviderEvent)
    (found : String → Assertion Γ) (moved settled : CallState → Call → Assertion Γ) : Prop where
  stable : ∀ callId, L.Stable i (found callId)
  record : L.Atomic i (.recordEvent event) (fun _ => True) fun _ _ => True
  find : L.Atomic i (.findByProviderCallId event.providerName event.providerCallId)
    (fun _ => True) fun r s => ∀ call, r = .ok (some call) → found call.id s
  move : ∀ callId t reason, L.Atomic i (.transitionCall callId t reason) (found callId)
    fun r s => ∀ updated, r = .ok (some updated) → moved t updated s
  agent : ∀ t call s, moved t call s →
    L.wp i (EventProcessor.applyAgentTransition call t) (Returns fun _ => settled t call) s
  borrower : ∀ t call s, agentReleasingCallStates.contains t = true → settled t call s →
    L.wp i (EventProcessor.releaseBorrower cfg call t) Anyhow s
  finish : ∀ status appliedTransition, L.Atomic i (.markProcessed event.providerName
    event.providerEventId status appliedTransition) (fun _ => True) fun _ _ => True

namespace EventOutline

variable {event : ProviderEvent} {found : String → Assertion Γ}
  {moved settled : CallState → Call → Assertion Γ}
  (E : EventOutline L i event found moved settled)

include E

theorem wp_finish (status : EventProcessingStatus) (appliedTransition : Option String)
    (s : State × Γ) :
    L.wp i (EventProcessor.finish event status appliedTransition) Anyhow s :=
  wp_bind_anyhow (Logic.wp_perform Logic.stable_true (E.finish status appliedTransition) trivial)
    fun _ _ => trivial

theorem wp_applyTransition (call : Call) (t : CallState) {s : State × Γ} (hs : found call.id s) :
    L.wp i (EventProcessor.applyTransition cfg event call t) Anyhow s := by
  refine Logic.wp_bind (Logic.wp_mono
    (Logic.wp_perform (E.stable call.id) (E.move call.id t _) hs) ?_)
  intro r s₁ hr
  cases r with
  | error e => trivial
  | ok answer =>
      cases answer with
      | none => exact E.wp_finish _ _ _
      | some updated =>
          refine wp_bind_of_returns (E.agent t updated s₁ (hr updated rfl)) fun _ s₂ hs₂ => ?_
          dsimp only
          split
          · rename_i hrelease
            exact wp_bind_anyhow (E.borrower t updated s₂ hrelease hs₂)
              fun _ _ => E.wp_finish _ _ _
          · exact E.wp_finish _ _ _

theorem wp_applyEvent (s : State × Γ) :
    L.wp i (EventProcessor.applyEvent cfg event) Anyhow s := by
  refine Logic.wp_bind (Logic.wp_mono (Logic.wp_perform Logic.stable_true E.find trivial) ?_)
  intro r s₁ hr
  cases r with
  | error e => trivial
  | ok answer =>
      cases answer with
      | none => exact E.wp_finish _ _ _
      | some call =>
          dsimp only
          split
          · exact E.wp_finish _ _ _
          · split
            · exact E.wp_applyTransition call _ (hr call rfl)
            · exact E.wp_finish _ _ _

/-- **`process_event` follows its outline.** -/
theorem wp_processEvent (s : State × Γ) :
    L.wp i (EventProcessor.processEvent cfg event) Anyhow s := by
  refine wp_bind_anyhow (Logic.wp_perform Logic.stable_true E.record trivial)
    fun answer s₁ => ?_
  cases answer with
  | duplicate => trivial
  | recorded =>
      refine wp_tryCatch_anyhow (E.wp_applyEvent s₁) fun e s₂ => ?_
      split
      · exact E.wp_finish _ _ _
      · trivial

end EventOutline

/-! ### Whole tasks -/

/-- A tick is an evaluation, an allocation of what it approves, and the wrap-up timer. -/
theorem wp_tick_of {F : Int → Assertion Γ}
    (ho : ∀ o, Op.Quiet o → L.Atomic i o (fun _ => True) fun _ _ => True)
    (campaign : Campaign) (request : PacingRequest) (workerId : String)
    (he : ∀ pacingDecisionId persist s, L.wp i
      (SafetyController.evaluate cfg campaign request pacingDecisionId persist)
      (Returns fun decision => F decision.approved) s)
    (ha : ∀ approved s, F approved s →
      L.wp i (CallAllocator.allocate cfg campaign approved workerId) Anyhow s)
    (s : State × Γ) : L.wp i (Task.program cfg (.tick campaign request workerId)) Anyhow s := by
  refine wp_tryCatch_anyhow (wp_bind_anyhow ?_ fun _ s' => ?_) fun e s' => ?_
  · refine wp_bind_anyhow (wp_all_anyhow (R := Op.Quiet) ?_ ho) fun pacingDecisionId s' => ?_
    · rw [DialerBase.recordRequest]
      split
      · trivial
      · exact Prog.all_bind (Prog.all_perform trivial) fun _ => trivial
    refine Logic.wp_bind (Logic.wp_mono (he pacingDecisionId _ s') ?_)
    intro r s'' hr
    cases r with
    | error e => trivial
    | ok decision =>
        refine wp_bind_anyhow (ha decision.approved s'' hr) fun allocation _ => ?_
        exact wp_bind_anyhow (wp_all_anyhow (Prog.all_perform trivial) ho) fun _ _ => trivial
  · exact wp_all_anyhow (DialerWorker.releaseFinishedWrapUps_quiet ..) ho
  · split
    · exact wp_all_anyhow (Prog.all_perform trivial) ho
    · trivial

/-- Where any allocation obeys the logic, it does not matter what was approved. -/
theorem wp_tick
    (ho : ∀ o, Op.Quiet o → L.Atomic i o (fun _ => True) fun _ _ => True)
    (campaign : Campaign) (request : PacingRequest) (workerId : String)
    (ha : ∀ approved s, L.wp i (CallAllocator.allocate cfg campaign approved workerId) Anyhow s)
    (s : State × Γ) : L.wp i (Task.program cfg (.tick campaign request workerId)) Anyhow s := by
  refine wp_tick_of (F := fun _ _ => True) ho campaign request workerId ?_
    (fun approved s _ => ha approved s) s
  intro pacingDecisionId persist s
  exact returns_of_anyhow (wp_all_anyhow (SafetyController.evaluate_quiet ..) ho)
    fun _ _ => trivial

/-- Every task of a kind, from its parts. -/
theorem wp_task_of {T : Task → Prop}
    (hquiet : ∀ o, Op.Quiet o → L.Atomic i o (fun _ => True) fun _ _ => True)
    (halloc : ∀ campaign workerId, (∃ request, T (.tick campaign request workerId))
        ∨ (∃ approved, T (.allocate campaign approved workerId)) →
      ∀ approved s, L.wp i (CallAllocator.allocate cfg campaign approved workerId) Anyhow s)
    (hevent : ∀ event s, L.wp i (EventProcessor.processEvent cfg event) Anyhow s)
    (hsweeps : T .runSweeps → ∀ s, L.wp i (RecoveryWorker.runSweeps cfg) Anyhow s)
    (t : Task) (ht : T t) (s : State × Γ) : L.wp i (t.program cfg) Anyhow s := by
  cases t with
  | tick campaign request workerId =>
      exact wp_tick hquiet _ _ _ (halloc campaign workerId (.inl ⟨request, ht⟩)) s
  | allocate campaign approved workerId =>
      exact wp_bind_anyhow (halloc campaign workerId (.inr ⟨approved, ht⟩) approved s)
        fun _ _ => trivial
  | processEvent event => exact wp_bind_anyhow (hevent event s) fun _ _ => trivial
  | runSweeps => exact wp_bind_anyhow (hsweeps ht s) fun _ _ => trivial
  | releaseFinishedWrapUps campaignId =>
      exact wp_all_anyhow (DialerWorker.releaseFinishedWrapUps_quiet ..) hquiet
  | agentAction agentId action =>
      exact wp_all_anyhow (RoutesAgents.agentAction_quiet ..) hquiet

/--
**Every task obeys the logic**, once the operations outside dials do in any state, and
allocations follow an outline that asserts nothing between two attempts.
-/
theorem wp_program
    (ho : ∀ o, Op.Outside (fun t => 3 ≤ rank t) o →
      L.Atomic i o (fun _ => True) fun _ _ => True)
    (ha : ∀ campaign workerId, ∃ claimed at_,
      AllocateOutline L i campaign workerId (fun _ _ => True) claimed at_)
    (t : Task) (s : State × Γ) : L.wp i (t.program cfg) Anyhow s := by
  refine wp_task_of (T := fun _ => True) (fun o h => ho o h.outside) ?_ ?_ ?_ t trivial s
  · intro campaign workerId _ approved s
    obtain ⟨claimed, at_, A⟩ := ha campaign workerId
    exact wp_anyhow (A.wp_allocateLoop _ _ _ trivial)
  · intro event s
    exact wp_all_anyhow (EventProcessor.processEvent_outside (fun _ h => h) cfg event) ho
  · intro _ s
    exact wp_all_anyhow (RecoveryWorker.runSweeps_outside (fun _ h => h) cfg) ho

end

end SmartDialer
