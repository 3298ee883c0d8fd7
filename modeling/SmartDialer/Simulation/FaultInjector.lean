import SmartDialer.Services.EventProcessor

/-!
# The fault injector

The two bursts of `app/simulation/fault_injector.py` that replay events. Agents that leave are
an operation of the engine (`Engine.lean`); the other faults turn knobs of the mock providers.
-/

namespace SmartDialer

open Conc

/-- `FaultResult`. -/
structure FaultResult where
  fault : String
  detail : String
  affected : Nat
  deriving DecidableEq, Repr

namespace FaultInjector

/-- `_replayable_events`. -/
def replayableEvents : Option String → Async (List ProviderEvent)
  | none => await (.findLatestEvents 20)
  | some providerCallId => await (.findProviderEventsForCall providerCallId)

/-- `for event in events: await self._processor.process_event(event)`. -/
def replay (cfg : Settings) : List ProviderEvent → Async Unit
  | [] => pure ()
  | event :: rest => do
      let _ ← EventProcessor.processEvent cfg event
      replay cfg rest

/-- `duplicate_event_burst`. -/
def duplicateEventBurst (cfg : Settings) (providerCallId : Option String) :
    Async FaultResult := do
  let events ← replayableEvents providerCallId
  replay cfg events
  pure
    { fault := "duplicate_event_burst"
      detail := "replayed " ++ events.length.repr ++ " genuine provider events"
      affected := events.length }

/-- `out_of_order_burst`. -/
def outOfOrderBurst (cfg : Settings) (providerCallId : Option String) : Async FaultResult := do
  let events ← replayableEvents providerCallId
  replay cfg events.reverse
  pure
    { fault := "out_of_order_burst"
      detail := "replayed " ++ events.length.repr ++ " events in reverse order"
      affected := events.length }

end FaultInjector

end SmartDialer
