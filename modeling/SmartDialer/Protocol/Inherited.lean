import SmartDialer.Protocol.Vouched

/-!
# Whose call a worker dials

A call that comes to its end releases its agent and its borrower in the name of the worker
that created it. The worker that dials it is that worker, unless `create_call` came upon a
call that had the key already, and was still QUEUED: one whose worker died between the insert
and the first transition, when the leases on the pair have run out and somebody else has
reserved the same pair for the same attempt.
-/

namespace SmartDialer

open Store Conc

/-- `create_call` comes upon no queued call of another worker. -/
def Op.InheritsNone (i : Nat) (s : State) : Op → Prop
  | .findByIdempotencyKey idempotencyKey =>
      ∀ d ∈ CallRepository.findByIdempotencyKey idempotencyKey s.calls, d.state = .queued →
        claimant i s.log = some d.createdByWorker
  | _ => True

instance (i : Nat) (s : State) (o : Op) : Decidable (o.InheritsNone i s) := by
  unfold Op.InheritsNone
  rcases o <;> infer_instance

/--
The runs in which a call that has the key of a dial already is not QUEUED any more, or was
created by the worker the dial has claimed its borrower for.
-/
def inheritingNone (cfg : Settings) : Policy (dialer cfg) where
  task _ := True
  run i o _ s := o.InheritsNone i s

instance (cfg : Settings) : (inheritingNone cfg).Checkable where
  task _ := .isTrue trivial
  run i o _ s := inferInstanceAs (Decidable (o.InheritsNone i s))

section

variable {cfg : Settings}

/-- The worker that creates a call is the one that stays its creator. -/
theorem vouchable_creator : Vouchable (inheritingNone cfg)
    fun workerId d => d.createdByWorker = workerId where
  kept hev h := hev.createdByWorker.trans h
  new _ _ _ _ _ _ _ := rfl
  found hrun hclaim hfound hqueued :=
    Option.some.inj ((hrun _ hfound hqueued).symm.trans hclaim)

/--
**Workers dial their own calls.** In every run, of any tasks in any interleaving, with
failures, cancellations and crashes anywhere, in which no `create_call` comes upon a queued
call of another worker: a call a worker asks a provider for is stored, and was created by that
worker.
-/
theorem dialed_calls_owned {w : World (dialer cfg)}
    (h : Reachable (inheritingNone cfg) CallsWellFormed w) {i : Nat} {providerName : String}
    {pair : ReservationPair} {request : OriginateRequest}
    (ho : w.Awaits i (.originateCall providerName pair request)) :
    ∃ d, w.st.calls.get request.callId = some d ∧ d.createdByWorker = pair.workerId :=
  vouched_reachable (c := {}) vouchable_creator (fun _ hs => hs) h ho trivial

end

/-! ## An inheritance -/

/-- The tasks of allocators and of recovery. -/
def Task.Allocating : Task → Prop
  | .tick .. | .allocate .. | .runSweeps => True
  | _ => False

instance (t : Task) : Decidable t.Allocating := by
  unfold Task.Allocating
  cases t <;> infer_instance

/-- Allocators and recovery, and nothing else. -/
def allocating (cfg : Settings) : Policy (dialer cfg) where
  task := Task.Allocating
  run _ _ _ _ := True

instance (cfg : Settings) : (allocating cfg).Checkable where
  task t := inferInstanceAs (Decidable t.Allocating)
  run _ _ _ _ := .isTrue trivial

/-- An agent and a borrower. -/
def onePair : State :=
  seed ⟨[idleAgent "agent"], nodup_agent⟩ ⟨[pendingBorrower "borrower"], nodup_borrower⟩

/-- A worker dies with a queued call, its leases run out, and another reserves the same pair. -/
def inheritance : List (Label (dialer {})) :=
  dialOnce :: List.replicate 4 (.run 0 {}) ++ [.run 0 { newId := "call" }, .crash 0]
    ++ .spawn .runSweeps :: List.replicate 8 (.run 1 { now := seconds 31 })
    ++ .spawn (.allocate { id := "campaign" } 1 "heir")
    :: List.replicate 10 (.run 2 { now := seconds 32 })

/-- Process `i` is about to ask a provider for a call. -/
def asksProvider (i : Nat) (p : ReservationPair → OriginateRequest → Bool)
    (w : World (dialer {})) : Bool :=
  match w.awaited i with
  | some (.originateCall _ pair request) => p pair request
  | _ => false

theorem awaits_of_asksProvider {i : Nat} {p : ReservationPair → OriginateRequest → Bool}
    {w : World (dialer {})} (h : asksProvider i p w = true) :
    ∃ providerName pair request, w.Awaits i (.originateCall providerName pair request)
      ∧ p pair request = true := by
  rw [asksProvider] at h
  split at h
  · rename_i providerName pair request hawaited
    exact ⟨providerName, pair, request, awaits_of_awaited hawaited, h⟩
  · cases h

/-- A provider is asked for a call of somebody else's. -/
theorem dialed_call_inherited :
    ∃ w, ∃ pair : ReservationPair, ∃ (providerName : String) (request : OriginateRequest)
      (d : Call), Reachable (allocating {}) Fresh w
      ∧ w.Awaits 2 (.originateCall providerName pair request)
      ∧ w.st.calls.get request.callId = some d ∧ d.createdByWorker ≠ pair.workerId := by
  obtain ⟨w, hw, htest⟩ := Reachable.of_play (allocating {}) (s := onePair) (seed_fresh _ _)
    inheritance
    (fun w => asksProvider 2 (fun pair request => (w.st.calls.get request.callId).any fun d =>
      decide (d.createdByWorker ≠ pair.workerId)) w)
    (by decide +kernel)
  obtain ⟨providerName, pair, request, hawaits, htest⟩ := awaits_of_asksProvider htest
  obtain ⟨d, hd, hother⟩ := Option.any_eq_true _ _ |>.mp htest
  exact ⟨w, pair, providerName, request, d, hw, hawaits, hd, of_decide_eq_true hother⟩

/-- The call of a worker that lives to dial it. -/
theorem dialed_calls_owned_oneDial :
    ∃ w, ∃ pair : ReservationPair, ∃ (request : OriginateRequest),
      Reachable (inheritingNone {}) CallsWellFormed w
      ∧ ∃ d, w.st.calls.get request.callId = some d ∧ d.createdByWorker = pair.workerId := by
  obtain ⟨w, hw, htest⟩ := Reachable.of_play (inheritingNone {})
    oneAgent_fresh.noCalls.wellFormed (oneDial.take 10)
    (asksProvider 0 fun _ _ => true) (by decide +kernel)
  obtain ⟨providerName, pair, request, hawaits, -⟩ := awaits_of_asksProvider htest
  exact ⟨w, pair, request, hw, dialed_calls_owned hw hawaits⟩

end SmartDialer
