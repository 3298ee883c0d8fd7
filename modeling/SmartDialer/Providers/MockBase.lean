import Mathlib.Data.Finset.Insert
import Mathlib.Data.Finset.Erase
import Mathlib.Data.List.AList
import SmartDialer.Conc.Machine
import SmartDialer.Safety.SafetyController

/-!
# The mock providers

`app/providers/mock_base.py`, with the behaviours of `mock_a.py` and `mock_b.py`. A provider takes
its time to answer an originate, makes up a script of events for a call it accepts, and leaves it
to a task to deliver them. Seconds are exact rationals, and what the random numbers come to is
part of the action in which they are drawn.

An action is what runs between two `await`s. What wakes a coroutine up is left open: a sleep may
take any time, so that everything that can happen in between can happen here.
-/

namespace SmartDialer

open Conc

/-! ## Behaviours -/

/-- `MockBehaviour`. -/
structure MockBehaviour where
  setupLatencyRange : ℚ × ℚ
  failureRate : ℚ
  hangRate : ℚ
  answerRate : ℚ
  avgTalkTime : ℚ
  ringDuration : ℚ
  duplicateRate : ℚ
  outOfOrderRate : ℚ

/-- `default_behaviour` of `mock_a.py`. -/
def MockProviderA.defaultBehaviour : MockBehaviour where
  setupLatencyRange := (15 / 100, 25 / 100)
  failureRate := 2 / 100
  hangRate := 0
  answerRate := 3 / 10
  avgTalkTime := 120
  ringDuration := 3
  duplicateRate := 0
  outOfOrderRate := 0

/-- `default_behaviour` of `mock_b.py`. -/
def MockProviderB.defaultBehaviour : MockBehaviour where
  setupLatencyRange := (8 / 10, 25 / 10)
  failureRate := 15 / 100
  hangRate := 8 / 100
  answerRate := 3 / 10
  avgTalkTime := 120
  ringDuration := 3
  duplicateRate := 10 / 100
  outOfOrderRate := 10 / 100

/-! ## Scripts -/

/-- What the random numbers of `_build_event_script` come to. -/
structure ScriptDraws where
  answer : ℚ
  /-- What `gauss` drew around the average talk time. -/
  talkTime : ℚ
  outOfOrder : ℚ
  swapIndex : Nat
  duplicate : ℚ
  duplicateIndex : Nat
  /-- `datetime.now`, one reading for each event. -/
  timestamp : Nat → Time

/-- The events of a call with their delays, and the status it ends with. -/
structure EventScript where
  scheduled : List (ℚ × ProviderEvent)
  finalStatus : ProviderCallStatus

/-- The events of the script, without the delays. -/
def EventScript.events (script : EventScript) : List ProviderEvent := script.scheduled.map Prod.snd

/-- `randrange(n)`: the draw is a number below `n`. -/
def randrange (n draw : Nat) : Nat := draw % n

/-- `xs[i], xs[i + 1] = xs[i + 1], xs[i]`. -/
def swapNext {α : Type} : Nat → List α → List α
  | 0, x :: y :: xs => y :: x :: xs
  | i + 1, x :: xs => x :: swapNext i xs
  | _, xs => xs

/-- `xs.insert(i + 1, f(xs[i]))`. -/
def insertNext {α : Type} (f : α → α) : Nat → List α → List α
  | 0, x :: xs => x :: f x :: xs
  | i + 1, x :: xs => x :: insertNext f i xs
  | _, [] => []

namespace MockProviderBase

/-- `steps` of `_build_event_script`: delay, event type, and the reason in the payload. -/
def steps (behaviour : MockBehaviour) (answered : Bool) (talkTime : ℚ) :
    List (ℚ × String × Option String) :=
  (behaviour.ringDuration, "RINGING", none) ::
    if answered then
      [ (behaviour.ringDuration, "ANSWERED", none),
        (0, "CONNECTED", none),
        (max 0 talkTime, "COMPLETED", none) ]
    else [(behaviour.ringDuration, "FAILED", some "no_answer")]

/-- The event of the step with this index. -/
def stepEvent (name providerCallId : String) (timestamp : Nat → Time) (index : Nat)
    (eventType : String) (reason : Option String) : ProviderEvent where
  providerName := name
  providerEventId := providerCallId ++ "-" ++ index.repr
  providerCallId := providerCallId
  eventType := eventType
  providerTimestamp := timestamp index
  reason := reason

/-- `_apply_out_of_order`. -/
def applyOutOfOrder {α : Type} (behaviour : MockBehaviour) (draws : ScriptDraws)
    (scheduled : List α) : List α :=
  if scheduled.length < 2 then scheduled
  else if behaviour.outOfOrderRate ≤ draws.outOfOrder then scheduled
  else swapNext (randrange (scheduled.length - 1) draws.swapIndex) scheduled

/-- `_apply_duplication`. -/
def applyDuplication {β : Type} (behaviour : MockBehaviour) (draws : ScriptDraws)
    (scheduled : List (ℚ × β)) : List (ℚ × β) :=
  if scheduled.isEmpty then scheduled
  else if behaviour.duplicateRate ≤ draws.duplicate then scheduled
  else
    insertNext (fun x => (min x.1 (1 / 1000), x.2))
      (randrange scheduled.length draws.duplicateIndex) scheduled

/-- `_build_event_script`. -/
def buildEventScript (behaviour : MockBehaviour) (name providerCallId : String)
    (draws : ScriptDraws) : EventScript :=
  let answered := decide (draws.answer < behaviour.answerRate)
  let scheduled := (steps behaviour answered draws.talkTime).mapIdx fun index step =>
    (step.1, stepEvent name providerCallId draws.timestamp index step.2.1 step.2.2)
  { scheduled := applyDuplication behaviour draws (applyOutOfOrder behaviour draws scheduled)
    finalStatus := if answered then .completed else .failed }

end MockProviderBase

/-! ## A provider -/

/-- An `originate_call` that sleeps: until it times out, or until the call is set up. -/
inductive Setup where
  | hanging (request : OriginateRequest)
  | settingUp (request : OriginateRequest) (startedAt : ℚ)

/-- A task that delivers events. -/
structure DeliveryTask where
  /-- What it has not handed to `on_event` yet. -/
  scheduled : List (ℚ × ProviderEvent)
  finalStatus : ProviderCallStatus
  /-- It awaits `on_event`. -/
  handling : Bool := false
  /-- `cancel` was called. -/
  cancelled : Bool := false

/-- `MockProviderBase`, with the coroutines that are under way. -/
structure MockProvider where
  name : String
  behaviour : MockBehaviour
  callCounter : Nat := 0
  /-- The keys of `_active_calls`. -/
  activeCalls : Finset String := ∅
  finishedCalls : AList fun _ : String => ProviderCallStatus := ∅
  outageUntil : Option ℚ := none
  originateAttempts : Nat := 0
  originateAccepted : Nat := 0
  originateRejected : Nat := 0
  originateTimedOut : Nat := 0
  setups : List Setup := []
  /-- `_pending_tasks`, by the call each is about. -/
  tasks : AList fun _ : String => DeliveryTask := ∅

/-- `ProviderHealthSnapshot`. -/
structure ProviderHealthSnapshot where
  providerName : String
  inOutage : Bool
  originateAttempts : Nat
  originateAccepted : Nat
  originateRejected : Nat
  originateTimedOut : Nat
  deriving DecidableEq

/-- What happens to a provider. -/
inductive MockAction where
  /-- `originate_call`, up to its first `await`. -/
  | originate (request : OriginateRequest) (now hangDraw latencyDraw : ℚ)
  /-- `_hang_until_timeout` has slept. -/
  | timeOut (i : Nat)
  /-- `originate_call` has slept out the latency, and answers. -/
  | answer (i : Nat) (now failureDraw : ℚ) (draws : ScriptDraws)
  /-- The caller gives up waiting, and the coroutine is cancelled. -/
  | abandon (i : Nat)
  /-- `_deliver_events` hands the next event to `on_event`. -/
  | emit (providerCallId : String)
  /-- `on_event` returns, or raises. -/
  | handled (providerCallId : String) (raised : Bool)
  /-- `_deliver_events` has no event left. -/
  | finish (providerCallId : String)
  /-- A cancelled task runs its `finally`. -/
  | unwind (providerCallId : String)
  | hangupCall (providerCallId : String)
  /-- The first half of `shutdown`: the tasks are cancelled. -/
  | cancelTasks
  /-- The second half, whenever it comes. -/
  | clearCalls
  | forceOutage (now seconds : ℚ)
  | clearOutage
  /-- The behaviour is turned, by a fault or by a simulation. -/
  | behave (behaviour : MockBehaviour)

/-- What a provider lets be seen. -/
inductive MockOutput where
  | answered (answer : OriginateAnswer)
  | event (event : ProviderEvent)

/-- The characters `strip` takes away. -/
def isSpace (c : Char) : Bool :=
  let n := c.toNat
  (0x09 ≤ n && n ≤ 0x0D) || (0x1C ≤ n && n ≤ 0x20) || n == 0x85 || n == 0xA0 || n == 0x1680
    || (0x2000 ≤ n && n ≤ 0x200A) || n == 0x2028 || n == 0x2029 || n == 0x202F || n == 0x205F
    || n == 0x3000

namespace MockProvider

/-- `_is_in_outage`. -/
def isInOutage (p : MockProvider) (now : ℚ) : Bool :=
  p.outageUntil.any fun outageUntil => decide (now < outageUntil)

/-- `get_call_status`. -/
def getCallStatus (p : MockProvider) (providerCallId : String) : ProviderCallStatus :=
  if providerCallId ∈ p.activeCalls then .active
  else (p.finishedCalls.lookup providerCallId).getD .unknown

/-- `health_snapshot`. -/
def healthSnapshot (p : MockProvider) (now : ℚ) : ProviderHealthSnapshot where
  providerName := p.name
  inOutage := p.isInOutage now
  originateAttempts := p.originateAttempts
  originateAccepted := p.originateAccepted
  originateRejected := p.originateRejected
  originateTimedOut := p.originateTimedOut

/-- The id of the `n`-th call, as `_next_provider_call_id` makes it. -/
def callId (name : String) (n : Nat) : String := name ++ "-call-" ++ n.repr

/-- `originate_call`, up to its first `await`. -/
def originateCall (p : MockProvider) (request : OriginateRequest) (now hangDraw latencyDraw : ℚ) :
    MockProvider × List MockOutput :=
  if request.phoneNumber.toList.all isSpace then
    (p, [.answered (.providerError (.rejected "phone_number is required"))])
  else
    let (low, high) := p.behaviour.setupLatencyRange
    let latencySeconds := low + (high - low) * latencyDraw
    let hangs := p.isInOutage now || decide (hangDraw < p.behaviour.hangRate)
      || decide (request.timeoutSeconds ≤ latencySeconds)
    ({ p with
        originateAttempts := p.originateAttempts + 1
        setups := p.setups ++ [if hangs then .hanging request else .settingUp request now] }, [])

/-- `originate_call`, once the latency is over. -/
def answerOriginate (p : MockProvider) (startedAt now failureDraw : ℚ) (draws : ScriptDraws) :
    MockProvider × List MockOutput :=
  let latencyMs := truncate ((now - startedAt) * 1000)
  if failureDraw < p.behaviour.failureRate then
    ({ p with originateRejected := p.originateRejected + 1 },
      [.answered (.result
        { accepted := false, latencyMs := latencyMs, errorCode := some "carrier_rejected" })])
  else
    let callCounter := p.callCounter + 1
    let providerCallId := callId p.name callCounter
    let script := MockProviderBase.buildEventScript p.behaviour p.name providerCallId draws
    ({ p with
        callCounter := callCounter
        originateAccepted := p.originateAccepted + 1
        activeCalls := insert providerCallId p.activeCalls
        tasks := p.tasks.insert providerCallId
          { scheduled := script.scheduled, finalStatus := script.finalStatus } },
      [.answered (.result
        { accepted := true, latencyMs := latencyMs, providerCallId := some providerCallId })])

/-- The `finally` of `_deliver_events`, with which the task is done. -/
def endTask (p : MockProvider) (providerCallId : String) : MockProvider :=
  { p with
    activeCalls := p.activeCalls.erase providerCallId
    tasks := p.tasks.erase providerCallId }

/-- `hangup_call`. -/
def hangupCall (p : MockProvider) (providerCallId : String) : MockProvider :=
  if providerCallId ∈ p.activeCalls then
    { p with
      activeCalls := p.activeCalls.erase providerCallId
      finishedCalls := p.finishedCalls.insert providerCallId .completed
      tasks := match p.tasks.lookup providerCallId with
        | some task => p.tasks.insert providerCallId { task with cancelled := true }
        | none => p.tasks }
  else p

/-- `task.cancel()`, for every task. -/
def cancelTasks (p : MockProvider) : MockProvider :=
  { p with
    tasks := ⟨p.tasks.entries.map (.map id fun _ task => { task with cancelled := true }),
      p.tasks.nodupKeys.map₂ _ _⟩ }

/-- What an action does. -/
def step (p : MockProvider) : MockAction → Option (MockProvider × List MockOutput)
  | .originate request now hangDraw latencyDraw =>
      some (p.originateCall request now hangDraw latencyDraw)
  | .timeOut i =>
      match p.setups[i]? with
      | some (.hanging _) =>
          some ({ p with
              originateTimedOut := p.originateTimedOut + 1
              setups := p.setups.eraseIdx i }, [.answered (.providerError .timeout)])
      | _ => none
  | .answer i now failureDraw draws =>
      match p.setups[i]? with
      | some (.settingUp _ startedAt) =>
          some ({ p with setups := p.setups.eraseIdx i }.answerOriginate startedAt now failureDraw
            draws)
      | _ => none
  | .abandon i =>
      if i < p.setups.length then some ({ p with setups := p.setups.eraseIdx i }, []) else none
  | .emit providerCallId =>
      match p.tasks.lookup providerCallId with
      | some ⟨(_, event) :: rest, finalStatus, false, false⟩ =>
          some ({ p with
              tasks := p.tasks.insert providerCallId
                { scheduled := rest, finalStatus := finalStatus, handling := true } },
            [.event event])
      | _ => none
  | .handled providerCallId raised =>
      match p.tasks.lookup providerCallId with
      | some ⟨scheduled, finalStatus, true, false⟩ =>
          if raised then some (p.endTask providerCallId, [])
          else
            some ({ p with
                tasks := p.tasks.insert providerCallId
                  { scheduled := scheduled, finalStatus := finalStatus } }, [])
      | _ => none
  | .finish providerCallId =>
      match p.tasks.lookup providerCallId with
      | some ⟨[], finalStatus, false, false⟩ =>
          let finishedCalls := p.finishedCalls.insert providerCallId finalStatus
          some ({ p.endTask providerCallId with finishedCalls := finishedCalls }, [])
      | _ => none
  | .unwind providerCallId =>
      match p.tasks.lookup providerCallId with
      | some ⟨_, _, _, true⟩ => some (p.endTask providerCallId, [])
      | _ => none
  | .hangupCall providerCallId => some (p.hangupCall providerCallId, [])
  | .cancelTasks => some (p.cancelTasks, [])
  | .clearCalls => some ({ p with activeCalls := ∅ }, [])
  | .forceOutage now seconds => some ({ p with outageUntil := some (now + seconds) }, [])
  | .clearOutage => some ({ p with outageUntil := none }, [])
  | .behave behaviour => some ({ p with behaviour := behaviour }, [])

/-- A provider as a machine. -/
def machine : Machine MockProvider MockAction MockOutput := ⟨step⟩

/-- A provider when it is registered. -/
def initial (name : String) (behaviour : MockBehaviour) : MockProvider where
  name := name
  behaviour := behaviour

end MockProvider

end SmartDialer
