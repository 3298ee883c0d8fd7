import Mathlib.Data.Rat.Defs
import SmartDialer.Models.Enums
import SmartDialer.Store.Collection

/-!
# Documents

One structure per collection of `app/models/`, plus `Settings`. Times are what
the database keeps of them, whole milliseconds since an epoch; ids are the text
of their UUIDs. A field no modelled function reads or writes (`name`,
`created_at`, `retry_of_call_id`) is left out.
-/

namespace SmartDialer

open Store

/-- Milliseconds since the epoch: what BSON keeps of a `datetime`. -/
abbrev Time := Int

/-- `timedelta(seconds=n)`. -/
def seconds (n : Int) : Time := 1000 * n

/-- `app/models/agent.py`. -/
structure Agent where
  id : String
  campaignId : String
  state : AgentState := .offline
  stateVersion : Nat := 0
  reservedBy : Option String := none
  reservedAt : Option Time := none
  leaseExpiresAt : Option Time := none
  currentCallId : Option String := none
  lastHeartbeatAt : Option Time := none
  stateChangedAt : Time
  busyTimeMs : Nat := 0
  availableTimeMs : Nat := 0
  connectedTimeMs : Nat := 0
  wrapUpTimeMs : Nat := 0
  deriving DecidableEq, Repr

/-- `app/models/borrower.py`. -/
structure Borrower where
  id : String
  campaignId : String
  phoneNumber : String
  status : BorrowerStatus := .pending
  stateVersion : Nat := 0
  reservedBy : Option String := none
  reservedAt : Option Time := none
  leaseExpiresAt : Option Time := none
  attemptCount : Nat := 0
  lastAttemptAt : Option Time := none
  nextEligibleAt : Time
  deriving DecidableEq, Repr

/-- `app/models/call.py`. -/
structure Call where
  id : String
  campaignId : String
  agentId : String
  borrowerId : String
  state : CallState := .queued
  stateRank : Nat := callStateRank .queued
  terminal : Bool := false
  providerName : String
  providerCallId : Option String := none
  idempotencyKey : String
  createdByWorker : String
  attempt : Nat := 1
  failureReason : Option String := none
  initiatedAt : Option Time := none
  ringingAt : Option Time := none
  answeredAt : Option Time := none
  connectedAt : Option Time := none
  endedAt : Option Time := none
  updatedAt : Time
  deriving DecidableEq, Repr

/-- `derive_state_rank_and_terminal`: what a reader sees does not depend on the stored copies. -/
def Call.deriveStateRankAndTerminal (c : Call) : Call :=
  { c with
    stateRank := callStateRank c.state
    terminal := terminalCallStates.contains c.state }

/-- `build_idempotency_key`. -/
def buildIdempotencyKey (campaignId agentId borrowerId : String) (attempt : Nat) : String :=
  campaignId ++ ":" ++ agentId ++ ":" ++ borrowerId ++ ":" ++ attempt.repr

/-- An id as `new_id` makes it: there is no colon in a UUID. -/
def ColonFree (id : String) : Prop := ':' ∉ id.toList

instance (id : String) : Decidable (ColonFree id) :=
  inferInstanceAs (Decidable (':' ∉ id.toList))

/-- What stands before the first colon is determined, and so is what stands after it. -/
theorem ColonFree.split {a a' t t' : String} (ha : ColonFree a) (ha' : ColonFree a')
    (h : a ++ (":" ++ t) = a' ++ (":" ++ t')) : a = a' ∧ t = t' := by
  have hlist : a.toList ++ ':' :: t.toList = a'.toList ++ ':' :: t'.toList := by
    simpa using congrArg String.toList h
  rcases List.append_eq_append_iff.mp hlist with ⟨mid, hpre, hpost⟩ | ⟨mid, hpre, hpost⟩
  · cases mid with
    | nil => simp_all [← String.toList_inj]
    | cons x xs =>
        obtain ⟨rfl, -⟩ := List.cons.inj hpost
        exact absurd (show ':' ∈ a'.toList by simp [hpre]) ha'
  · cases mid with
    | nil => simp_all [← String.toList_inj]
    | cons x xs =>
        obtain ⟨rfl, -⟩ := List.cons.inj hpost
        exact absurd (show ':' ∈ a.toList by simp [hpre]) ha

theorem repr_injective {m n : Nat} (h : m.repr = n.repr) : m = n := by
  have hdigits := congrArg String.toList h
  rw [Nat.toList_repr, Nat.toList_repr] at hdigits
  rw [← Nat.ofDigitChars_ten_toDigits (n := m), hdigits, Nat.ofDigitChars_ten_toDigits]

/-- Distinct attempts have distinct keys. -/
theorem buildIdempotencyKey_inj {c c' a a' b b' : String} {n n' : Nat} (hc : ColonFree c)
    (hc' : ColonFree c') (ha : ColonFree a) (ha' : ColonFree a') (hb : ColonFree b)
    (hb' : ColonFree b')
    (h : buildIdempotencyKey c a b n = buildIdempotencyKey c' a' b' n') :
    c = c' ∧ a = a' ∧ b = b' ∧ n = n' := by
  simp only [buildIdempotencyKey, String.append_assoc] at h
  obtain ⟨rfl, hagent⟩ := hc.split hc' h
  obtain ⟨rfl, hborrower⟩ := ha.split ha' hagent
  obtain ⟨rfl, hattempt⟩ := hb.split hb' hborrower
  exact ⟨rfl, rfl, rfl, repr_injective hattempt⟩

/-- What stands after the last colon is determined, and so is what stands before it. -/
theorem ColonFree.splitLast {a a' t t' : String} (ht : ColonFree t) (ht' : ColonFree t')
    (h : a ++ (":" ++ t) = a' ++ (":" ++ t')) : a = a' ∧ t = t' := by
  have hlist : a.toList ++ ':' :: t.toList = a'.toList ++ ':' :: t'.toList := by
    simpa using congrArg String.toList h
  rcases List.append_eq_append_iff.mp hlist with ⟨mid, hpre, hpost⟩ | ⟨mid, hpre, hpost⟩
  · cases mid with
    | nil => simp_all [← String.toList_inj]
    | cons x xs =>
        obtain ⟨-, hafter⟩ := List.cons.inj hpost
        exact absurd (show ':' ∈ t.toList by simp [hafter]) ht
  · cases mid with
    | nil => simp_all [← String.toList_inj]
    | cons x xs =>
        obtain ⟨-, hafter⟩ := List.cons.inj hpost
        exact absurd (show ':' ∈ t'.toList by simp [hafter]) ht'

theorem colonFree_repr (n : Nat) : ColonFree n.repr := by
  rw [ColonFree, Nat.toList_repr]
  intro hmem
  exact absurd (Nat.isDigit_of_mem_toDigits (by decide) (by decide) hmem) (by decide)

/-- Keys of different borrowers, or of different attempts, are distinct. -/
theorem buildIdempotencyKey_tail {c c' a a' b b' : String} {n n' : Nat} (hb : ColonFree b)
    (hb' : ColonFree b')
    (h : buildIdempotencyKey c a b n = buildIdempotencyKey c' a' b' n') : b = b' ∧ n = n' := by
  have hkeys : c ++ ":" ++ a ++ ":" ++ b ++ (":" ++ n.repr)
      = c' ++ ":" ++ a' ++ ":" ++ b' ++ (":" ++ n'.repr) := by
    simpa only [buildIdempotencyKey, String.append_assoc] using h
  obtain ⟨hpairs, hattempt⟩ := (colonFree_repr n).splitLast (colonFree_repr n') hkeys
  have hpairs' : c ++ ":" ++ a ++ (":" ++ b) = c' ++ ":" ++ a' ++ (":" ++ b') := by
    simpa only [String.append_assoc] using hpairs
  exact ⟨(hb.splitLast hb' hpairs').2, repr_injective hattempt⟩

/-- `app/models/provider_event.py`. -/
structure ProviderEventDocument where
  providerName : String
  providerEventId : String
  providerCallId : String
  eventType : String
  providerTimestamp : Option Time := none
  receivedAt : Time
  processingStatus : Option EventProcessingStatus := none
  appliedTransition : Option String := none
  deriving DecidableEq, Repr

/-- `app/models/campaign.py`, as far as the dialer and the safety controller read it. -/
structure Campaign where
  id : String
  dialingMode : DialingMode := .progressive
  maxConcurrentCalls : Nat := 50
  providerName : String := "mock_a"
  deriving DecidableEq, Repr

instance : Document Agent String := ⟨Agent.id⟩

instance : Document Borrower String := ⟨Borrower.id⟩

instance : Document Call String := ⟨Call.id⟩

/-- Filed under the pair the unique index `provider_events_event_id_unique` is on. -/
instance : Document ProviderEventDocument (String × String) :=
  ⟨fun e => (e.providerName, e.providerEventId)⟩

@[simp] theorem agent_key (a : Agent) : key a = a.id := rfl

@[simp] theorem borrower_key (b : Borrower) : key b = b.id := rfl

@[simp] theorem call_key (c : Call) : key c = c.id := rfl

@[simp] theorem providerEvent_key (e : ProviderEventDocument) :
    key e = (e.providerName, e.providerEventId) := rfl

/-- `app/config.py`, the settings the modelled components read. -/
structure Settings where
  reservationTtlSeconds : Int := 30
  agentHeartbeatTimeoutSeconds : Int := 30
  callStaleTimeoutSeconds : Int := 120
  wrapUpSeconds : Int := 10
  maxCallAttempts : Int := 3
  retryBackoffBaseSeconds : Int := 60
  recoverySweepLimit : Int := 500
  providerTimeoutSeconds : ℚ := 5
  maxRingingRatio : ℚ := 2
  maxSnapshotAgeSeconds : ℚ := 5
  availabilityDropThreshold : ℚ := 1 / 4
  highFailureRateThreshold : ℚ := 3 / 10
  answerRateWindowSeconds : ℚ := 120

/-- `check_recovery_timeout_invariant`: what a `Settings` must pass to be built. -/
def Settings.checkRecoveryTimeoutInvariant (cfg : Settings) : Prop :=
  cfg.providerTimeoutSeconds + cfg.reservationTtlSeconds < cfg.callStaleTimeoutSeconds

/-! ## Provider messages -/

/-- `app/providers/base.py`: what a provider answers to an originate. -/
structure OriginateResult where
  accepted : Bool
  latencyMs : Int
  providerCallId : Option String := none
  errorCode : Option String := none
  deriving DecidableEq, Repr

/-- `app/providers/base.py`: an event as a provider emits it. -/
structure ProviderEvent where
  providerName : String
  providerEventId : String
  providerCallId : String
  eventType : String
  providerTimestamp : Time
  /-- The text of `payload["reason"]`, the only key of the payload that is read. -/
  reason : Option String := none
  deriving DecidableEq, Repr

end SmartDialer
