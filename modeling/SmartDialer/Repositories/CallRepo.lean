import SmartDialer.Models.Documents
import SmartDialer.StateMachines.CallSm

/-!
# The call and event repositories

`app/repositories/call_repo.py` and `app/repositories/event_repo.py`, with the
unique indexes of `app/db_indexes.py` that decide what their inserts and updates
answer: `idempotency_key` on calls, `(provider_name, provider_call_id)` on calls
that have one, `(provider_name, provider_event_id)` on events.
-/

namespace SmartDialer

open Store

/-- `EXPECTED_CALL_OUTCOMES`. -/
def expectedCallOutcomes : List String := ["no_answer", "busy"]

/-- What `outcome_counts_between` counts. -/
structure OutcomeCounts where
  total : Nat := 0
  answered : Nat := 0
  failed : Nat := 0
  systemFailed : Nat := 0
  deriving DecidableEq, Repr

namespace CallRepository

/-- The document `create_call` builds before it knows whether the key is free. -/
def newCall (id : String) (now : Time)
    (campaignId agentId borrowerId providerName workerId : String) (attempt : Nat) : Call where
  id := id
  campaignId := campaignId
  agentId := agentId
  borrowerId := borrowerId
  providerName := providerName
  createdByWorker := workerId
  attempt := attempt
  idempotencyKey := buildIdempotencyKey campaignId agentId borrowerId attempt
  updatedAt := now

/-- `insert_one` under the unique index on `idempotency_key`; nothing on a duplicate key. -/
def insertCall (call : Call) (calls : Collection Call) : Option (Collection Call) :=
  if (calls.findOne (fun d => d.idempotencyKey == call.idempotencyKey)).isSome then none
  else calls.insert call

/-- The query `create_call` falls back to. -/
def findByIdempotencyKey (idempotencyKey : String) (calls : Collection Call) : Option Call :=
  calls.findOne (fun d => d.idempotencyKey == idempotencyKey)

/-- `find_by_id`. -/
def findById (callId : String) (calls : Collection Call) : Option Call := calls.get callId

/-- `find_by_provider_call_id`. -/
def findByProviderCallId (providerName providerCallId : String) (calls : Collection Call) :
    Option Call :=
  calls.findOne (fun d => d.providerName == providerName
    && d.providerCallId == some providerCallId)

/-- What `attach_provider_call_id` accepts. -/
def attachable (c : Call) : Bool := c.providerCallId.isNone

/-- The update of `attach_provider_call_id`. -/
def attach (now : Time) (providerCallId : Option String) : Update Call where
  apply c := { c with providerCallId := providerCallId, updatedAt := now }
  key_apply _ := rfl

/-- Another call of the same provider already has this id. -/
def providerCallIdTaken (callId : String) (providerCallId : Option String)
    (calls : Collection Call) : Bool :=
  (calls.get callId).any fun c => providerCallId.isSome
    && (calls.findOne (fun d => d.id != callId && d.providerName == c.providerName
      && d.providerCallId == providerCallId)).isSome

/-- `attach_provider_call_id`: nothing when there is no such call, or the id is taken. -/
def attachProviderCallId (now : Time) (callId : String) (providerCallId : Option String)
    (calls : Collection Call) : Option Call × Collection Call :=
  if ((calls.get callId).any attachable) && providerCallIdTaken callId providerCallId calls then
    (none, calls)
  else calls.findOneAndUpdate callId attachable (attach now providerCallId)

/-- What `transition_call` moves: nothing of what the caller read is consulted. -/
def advanceable (targetState : CallState) (c : Call) : Bool :=
  !c.terminal && decide (c.stateRank < rank targetState)

theorem advanceable_iff {targetState : CallState} {c : Call} : advanceable targetState c = true
    ↔ c.terminal = false ∧ c.stateRank < rank targetState := by
  rw [advanceable, Bool.and_eq_true, Bool.not_eq_true', decide_eq_true_eq]

/-- The update of `transition_call`, with `STATE_TIMESTAMP_FIELDS`. -/
def advance (now : Time) (targetState : CallState) (failureReason : Option String) :
    Update Call where
  apply c :=
    { c with
      state := targetState
      stateRank := rank targetState
      terminal := isTerminal targetState
      updatedAt := now
      initiatedAt := if targetState = .initiated then some now else c.initiatedAt
      ringingAt := if targetState = .ringing then some now else c.ringingAt
      answeredAt := if targetState = .answered then some now else c.answeredAt
      connectedAt := if targetState = .connected then some now else c.connectedAt
      endedAt := if isTerminal targetState then some now else c.endedAt
      failureReason := failureReason.or c.failureReason }
  key_apply _ := rfl

/-- `transition_call`. -/
def transitionCall (now : Time) (callId : String) (targetState : CallState)
    (failureReason : Option String) (calls : Collection Call) : Option Call × Collection Call :=
  calls.findOneAndUpdate callId (advanceable targetState) (advance now targetState failureReason)

/-- Which calls `find_active` reports. -/
def activeIn (campaignId : String) (c : Call) : Bool :=
  c.campaignId == campaignId && !c.terminal && c.state != .queued

/-- `find_active`. -/
def findActive (campaignId : String) (limit : Int) (calls : Collection Call) : List Call :=
  Collection.limit limit (calls.find (activeIn campaignId))

/-- Which calls `find_stale_calls` reports. -/
def stale (olderThan : Time) (c : Call) : Bool := !c.terminal && decide (c.updatedAt < olderThan)

theorem stale_iff {olderThan : Time} {c : Call} :
    stale olderThan c = true ↔ c.terminal = false ∧ c.updatedAt < olderThan := by
  rw [stale, Bool.and_eq_true, Bool.not_eq_true', decide_eq_true_eq]

/-- `find_stale_calls`. -/
def findStaleCalls (olderThan : Time) (limit : Int) (calls : Collection Call) : List Call :=
  Collection.limit limit (Collection.sortOn Call.updatedAt (calls.find (stale olderThan)))

/-- `outcome_counts_between`. -/
def outcomeCountsBetween (campaignId : String) (start stop : Time) (calls : Collection Call) :
    OutcomeCounts :=
  let ended := calls.find (fun c => c.campaignId == campaignId && c.terminal
    && c.endedAt.any (fun t => decide (start ≤ t ∧ t < stop)))
  { total := ended.length
    answered := (ended.filter (fun c => c.answeredAt.isSome)).length
    failed := (ended.filter (fun c => c.state == .failed)).length
    systemFailed := (ended.filter (fun c => c.state == .failed
      && !c.failureReason.any (expectedCallOutcomes.contains ·))).length }

/-- `count_by_state`. -/
def countByState (campaignId : String) (calls : Collection Call) : CallState → Nat :=
  fun s => (calls.find (fun c => c.campaignId == campaignId && c.state == s)).length

end CallRepository

/-- `EventRecordResult`. -/
inductive EventRecordResult where
  | recorded | duplicate
  deriving DecidableEq, Repr

namespace EventRepository

/-- The document `record_event` stores. -/
def toDocument (now : Time) (event : ProviderEvent) : ProviderEventDocument where
  providerName := event.providerName
  providerEventId := event.providerEventId
  providerCallId := event.providerCallId
  eventType := event.eventType
  providerTimestamp := some event.providerTimestamp
  receivedAt := now

/-- `record_event`: the unique index is the duplicate gate. -/
def recordEvent (now : Time) (event : ProviderEvent)
    (events : Collection ProviderEventDocument) :
    EventRecordResult × Collection ProviderEventDocument :=
  match events.insert (toDocument now event) with
  | some events' => (.recorded, events')
  | none => (.duplicate, events)

/-- The update of `mark_processed`. -/
def mark (status : EventProcessingStatus) (appliedTransition : Option String) :
    Update ProviderEventDocument where
  apply e := { e with processingStatus := some status, appliedTransition := appliedTransition }
  key_apply _ := rfl

/-- `mark_processed`. -/
def markProcessed (providerName providerEventId : String) (status : EventProcessingStatus)
    (appliedTransition : Option String) (events : Collection ProviderEventDocument) :
    Collection ProviderEventDocument :=
  events.update (providerName, providerEventId) (fun _ => true) (mark status appliedTransition)

/-- `_to_provider_event`: the payload was not stored. -/
def toProviderEvent (document : ProviderEventDocument) : ProviderEvent where
  providerName := document.providerName
  providerEventId := document.providerEventId
  providerCallId := document.providerCallId
  eventType := document.eventType
  providerTimestamp := document.providerTimestamp.getD document.receivedAt

/-- `find_provider_events_for_call`, with `find_for_call`: in the order they were received. -/
def findProviderEventsForCall (providerCallId : String)
    (events : Collection ProviderEventDocument) : List ProviderEvent :=
  (Collection.sortOn ProviderEventDocument.receivedAt
    (events.find (fun e => e.providerCallId == providerCallId))).map toProviderEvent

/-- `find_latest`: the newest of all, the oldest of these first. -/
def findLatest (limit : Int) (events : Collection ProviderEventDocument) : List ProviderEvent :=
  (Collection.limit limit
    (events.docs.insertionSort (fun a b => b.receivedAt ≤ a.receivedAt))).reverse.map
      toProviderEvent

end EventRepository

end SmartDialer
