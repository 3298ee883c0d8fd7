import SmartDialer.Services.ReservationService

/-!
# The call allocator

`app/services/call_allocator.py`, with `should_retry` of
`app/services/retry_service.py` and the provider registry.

`dial` is where a call comes into being: two documents are held, a third is
created, and four more conditional updates follow before the provider is asked.
Which of their answers are looked at is the source's choice, and is kept.
-/

namespace SmartDialer

open Conc

/-- The providers `build_registry` registers. -/
def providerNames : List String := ["mock_a", "mock_b"]

/-- `RetryService.should_retry`. -/
def shouldRetry (cfg : Settings) (borrower : Borrower) (providerName : String) : Async Bool :=
  if cfg.maxCallAttempts ≤ borrower.attemptCount then pure false
  else do
    let now ← await .utcNow
    if now < borrower.nextEligibleAt then pure false
    else await (.shouldAllowRetry providerName)

/-- `AllocationResult`. -/
structure AllocationResult where
  attempted : Nat := 0
  allocated : Nat := 0
  failed : Nat := 0
  contended : Nat := 0
  deriving DecidableEq, Repr

namespace CallAllocator

/-- `MAX_CONSECUTIVE_CONTENTIONS`. -/
def maxConsecutiveContentions : Nat := 3

/-- The retry gate at the head of `_dial`. -/
def retrySuppressed (cfg : Settings) (campaign : Campaign) (pair : ReservationPair) :
    Async Bool :=
  if 0 < pair.borrower.attemptCount then do
    let open_ ← shouldRetry cfg pair.borrower campaign.providerName
    pure !open_
  else pure false

/-- The request `_originate` builds. -/
def originateRequest (cfg : Settings) (campaign : Campaign) (pair : ReservationPair)
    (callId : String) : OriginateRequest where
  callId := callId
  campaignId := campaign.id
  phoneNumber := pair.borrower.phoneNumber
  timeoutSeconds := cfg.providerTimeoutSeconds

/-- `_originate`: nothing on a timeout, a refusal when the provider rejects the request. -/
def originate (cfg : Settings) (campaign : Campaign) (pair : ReservationPair) (callId : String) :
    Async (Option OriginateResult) :=
  if !providerNames.contains campaign.providerName then
    throw (.provider (.unavailable campaign.providerName))
  else
    Prog.tryCatch
      (do
        let result ← await (.originateCall campaign.providerName pair
          (originateRequest cfg campaign pair callId))
        pure (some result))
      fun
        | .provider .timeout | .timeoutError => pure none
        | .provider (.rejected reason) =>
            pure (some { accepted := false, latencyMs := 0, errorCode := some reason })
        | e => throw e

/-- `_hangup`. -/
def hangup (providerName : String) (providerCallId : Option String) : Async Unit :=
  if !providerNames.contains providerName then pure ()
  else
    Prog.tryCatch (await (.hangupCall providerName providerCallId)) fun
      | .provider _ => pure ()
      | e => throw e

/-- A dial that did not come to a call: the call fails, the pair is released for a retry. -/
def failDial (cfg : Settings) (pair : ReservationPair) (callId : String)
    (reason : Option String) : Async Bool := do
  let _ ← await (.transitionCall callId .failed reason)
  ReservationService.releasePair cfg pair .retry false
  pure false

/-- `_dial`, from the provider's answer on. -/
def concludeDial (cfg : Settings) (campaign : Campaign) (pair : ReservationPair)
    (callId : String) : Option OriginateResult → Async Bool
  | none => failDial cfg pair callId (some "provider_timeout")
  | some result =>
      if !result.accepted then failDial cfg pair callId result.errorCode
      else do
        match ← await (.attachProviderCallId callId result.providerCallId) with
        | none => do
            hangup campaign.providerName result.providerCallId
            failDial cfg pair callId (some "provider_call_id_conflict")
        | some _ => pure true

/-- `_dial`, from the moment the call is INITIATED on. -/
def launch (cfg : Settings) (campaign : Campaign) (pair : ReservationPair) (callId : String) :
    Async Bool := do
  let _ ← Agents.transitionAgent pair.agent.id .reserved .dialing .allocator
    pair.agent.stateVersion
  let _ ← await (.bindCall pair.agent.id pair.workerId callId)
  let result ← originate cfg campaign pair callId
  concludeDial cfg campaign pair callId result

/-- `_dial`. -/
def dial (cfg : Settings) (campaign : Campaign) (pair : ReservationPair) : Async Bool := do
  if ← retrySuppressed cfg campaign pair then
    ReservationService.releasePair cfg pair .released false
    pure false
  else
    let call ← Calls.createCall campaign.id pair.agent.id pair.borrower.id
      campaign.providerName pair.workerId (pair.borrower.attemptCount + 1)
    if call.state ≠ .queued then
      ReservationService.releasePair cfg pair .released false
      pure false
    else
      let _ ← await (.transitionCall call.id .reserved none)
      let initiated ← await (.transitionCall call.id .initiated none)
      if initiated.isNone then
        ReservationService.releasePair cfg pair .released false
        pure false
      else launch cfg campaign pair call.id

/-- `_compensate_cancelled_dial`: the release is shielded. -/
def compensateCancelledDial (cfg : Settings) (pair : ReservationPair) : Async Unit :=
  Prog.tryCatch (ReservationService.releasePair cfg pair .released true) fun e =>
    if e = .cancelledError ∨ e.isPyMongoError then pure () else throw e

/-- A dial, and what `allocate` does when it is cancelled. -/
def dialOrCompensate (cfg : Settings) (campaign : Campaign) (pair : ReservationPair) :
    Async Bool :=
  Prog.tryCatch (dial cfg campaign pair) fun e =>
    if e = .cancelledError then do
      compensateCancelledDial cfg pair
      throw e
    else throw e

/-- `_reserve_pair`. -/
def reservePair (cfg : Settings) (campaignId workerId : String) :
    Async (Option ReservationPair) :=
  Prog.tryCatch (ReservationService.reservePair cfg campaignId workerId) fun e =>
    if e.isPyMongoError then pure none else throw e

/-- The loop of `allocate`, with the attempts left and the contentions in a row. -/
def allocateLoop (cfg : Settings) (campaign : Campaign) (workerId : String) :
    Nat → Nat → AllocationResult → Async AllocationResult
  | 0, _, result => pure result
  | n + 1, consecutive, result => do
      let result := { result with attempted := result.attempted + 1 }
      match ← reservePair cfg campaign.id workerId with
      | none =>
          let result := { result with contended := result.contended + 1 }
          if maxConsecutiveContentions ≤ consecutive + 1 then pure result
          else allocateLoop cfg campaign workerId n (consecutive + 1) result
      | some pair => do
          let dialled ← dialOrCompensate cfg campaign pair
          if dialled then
            allocateLoop cfg campaign workerId n 0
              { result with allocated := result.allocated + 1 }
          else
            allocateLoop cfg campaign workerId n 0 { result with failed := result.failed + 1 }

/-- `allocate`. -/
def allocate (cfg : Settings) (campaign : Campaign) (approved : Int) (workerId : String) :
    Async AllocationResult :=
  allocateLoop cfg campaign workerId approved.toNat 0 {}

end CallAllocator

end SmartDialer
