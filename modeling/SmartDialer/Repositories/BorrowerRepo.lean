import Mathlib.Algebra.Group.Int.Defs
import SmartDialer.Repositories.AgentRepo

/-!
# The borrower repository

`app/repositories/borrower_repo.py`.
-/

namespace SmartDialer

open Store

/-- `BorrowerReleaseOutcome`. -/
inductive BorrowerReleaseOutcome where
  | released | retry | contacted
  deriving DecidableEq, Repr

namespace BorrowerRepository

/-- `RELEASABLE_STATUSES`. -/
def releasableStatuses : List BorrowerStatus := [.reserved, .inCall]

/-! ## Filters -/

/-- Whom `find_claimable_borrowers` reports, and `try_reserve_borrower` reserves. -/
def claimable (campaignId : String) (now : Time) (b : Borrower) : Bool :=
  b.campaignId == campaignId && b.status == .pending && decide (b.nextEligibleAt ≤ now)

/-- Whom `release_borrower` releases. -/
def releasable (workerId : String) (b : Borrower) : Bool :=
  b.reservedBy == some workerId && releasableStatuses.contains b.status

/-- The candidates of `reclaim_expired_borrower_leases`. -/
def leaseReclaimable (now : Time) (b : Borrower) : Bool :=
  releasableStatuses.contains b.status && b.reservedBy.isSome
    && AgentRepository.leaseExpired now b.leaseExpiresAt

/-- Whom `reclaim_expired_borrower_leases` reclaims: the candidate as it was found. -/
def leaseUnchanged (candidate : Borrower) (now : Time) (b : Borrower) : Bool :=
  b.status == candidate.status && b.stateVersion == candidate.stateVersion
    && AgentRepository.leaseExpired now b.leaseExpiresAt

section

variable {b : Borrower} {now : Time} {workerId : String}

theorem claimable_iff {campaignId : String} : claimable campaignId now b = true
    ↔ b.campaignId = campaignId ∧ b.status = .pending ∧ b.nextEligibleAt ≤ now := by
  rw [claimable, Bool.and_eq_true, Bool.and_eq_true, beq_iff_eq, beq_iff_eq, decide_eq_true_eq,
    and_assoc]

/-- Whom one may claim, one may claim later. -/
theorem claimable_later {campaignId : String} {start : Time}
    (h : claimable campaignId start b = true) (hle : start ≤ now) :
    claimable campaignId now b = true := by
  obtain ⟨hcampaign, hpending, heligible⟩ := claimable_iff.mp h
  exact claimable_iff.mpr ⟨hcampaign, hpending, heligible.trans hle⟩

theorem releasable_iff : releasable workerId b = true
    ↔ b.reservedBy = some workerId ∧ b.status ∈ releasableStatuses := by
  rw [releasable, Bool.and_eq_true, beq_iff_eq, List.contains_iff_mem]

/-- A worker may release whom it has reserved. -/
theorem releasable_of_reserved (hstatus : b.status = .reserved)
    (hworker : b.reservedBy = some workerId) : releasable workerId b = true :=
  releasable_iff.mpr ⟨hworker, hstatus ▸ List.mem_cons_self⟩

theorem leaseReclaimable_iff : leaseReclaimable now b = true ↔ b.status ∈ releasableStatuses
    ∧ b.reservedBy.isSome = true
    ∧ AgentRepository.leaseExpired now b.leaseExpiresAt = true := by
  rw [leaseReclaimable, Bool.and_eq_true, Bool.and_eq_true, List.contains_iff_mem, and_assoc]

theorem leaseUnchanged_iff {candidate : Borrower} : leaseUnchanged candidate now b = true
    ↔ b.status = candidate.status ∧ b.stateVersion = candidate.stateVersion
      ∧ AgentRepository.leaseExpired now b.leaseExpiresAt = true := by
  rw [leaseUnchanged, Bool.and_eq_true, Bool.and_eq_true, beq_iff_eq, beq_iff_eq, and_assoc]

end

/-! ## Updates -/

/-- The update of `try_reserve_borrower`. -/
def reserve (now : Time) (workerId : String) (ttlSeconds : Int) : Update Borrower where
  apply b :=
    { b with
      status := .reserved
      reservedBy := some workerId
      reservedAt := some now
      leaseExpiresAt := some (now + seconds ttlSeconds)
      stateVersion := b.stateVersion + 1 }
  key_apply _ := rfl

/--
`_build_retry_update`: two pipeline stages, so the second reads the attempt count
the first one wrote.
-/
def buildRetryUpdate (now : Time) (maxAttempts backoffBaseSeconds : Int) (b : Borrower) :
    Borrower :=
  let attemptCount := b.attemptCount + 1
  { b with
    attemptCount := attemptCount
    lastAttemptAt := some now
    stateVersion := b.stateVersion + 1
    reservedBy := none
    reservedAt := none
    leaseExpiresAt := none
    status := if maxAttempts ≤ attemptCount then .exhausted else .pending
    nextEligibleAt := now + seconds (backoffBaseSeconds * 2 ^ (attemptCount - 1)) }

/-- The update of `release_borrower`, by outcome. -/
def release (now : Time) (outcome : BorrowerReleaseOutcome) (maxAttempts : Int)
    (backoffBaseSeconds : Int) : Update Borrower where
  apply b :=
    match outcome with
    | .released =>
        { b with
          status := .pending
          reservedBy := none
          reservedAt := none
          leaseExpiresAt := none
          stateVersion := b.stateVersion + 1 }
    | .contacted =>
        { b with
          status := .contacted
          lastAttemptAt := some now
          reservedBy := none
          reservedAt := none
          leaseExpiresAt := none
          stateVersion := b.stateVersion + 1
          attemptCount := b.attemptCount + 1 }
    | .retry => buildRetryUpdate now maxAttempts backoffBaseSeconds b
  key_apply _ := by
    cases outcome <;> rfl

/-- The update of `reclaim_expired_borrower_leases`. -/
def reclaim (now : Time) : Update Borrower where
  apply b :=
    { b with
      status := .pending
      nextEligibleAt := now
      reservedBy := none
      reservedAt := none
      leaseExpiresAt := none
      stateVersion := b.stateVersion + 1 }
  key_apply _ := rfl

/-! ## Operations -/

/-- `try_reserve_borrower`. -/
def tryReserveBorrower (now : Time) (campaignId borrowerId workerId : String) (ttlSeconds : Int)
    (borrowers : Collection Borrower) : Option Borrower × Collection Borrower :=
  borrowers.findOneAndUpdate borrowerId (claimable campaignId now)
    (reserve now workerId ttlSeconds)

/-- `find_claimable_borrowers`. -/
def findClaimableBorrowers (now : Time) (campaignId : String) (needed : Int)
    (borrowers : Collection Borrower) : List Borrower :=
  if candidateWindow needed = 0 then []
  else Collection.limit (candidateWindow needed)
    (Collection.sortOn Borrower.nextEligibleAt (borrowers.find (claimable campaignId now)))

/-- `release_borrower`. -/
def releaseBorrower (now : Time) (borrowerId workerId : String) (outcome : BorrowerReleaseOutcome)
    (maxAttempts backoffBaseSeconds : Int) (borrowers : Collection Borrower) :
    Option Borrower × Collection Borrower :=
  borrowers.findOneAndUpdate borrowerId (releasable workerId)
    (release now outcome maxAttempts backoffBaseSeconds)

/-- `reclaim_expired_borrower_leases`: the query for candidates. -/
def findExpiredBorrowerLeases (now : Time) (limit : Int) (borrowers : Collection Borrower) :
    List Borrower :=
  Collection.limit limit (borrowers.find (leaseReclaimable now))

/-- `reclaim_expired_borrower_leases`: the update of one candidate. -/
def reclaimExpiredBorrowerLease (candidate : Borrower) (now : Time)
    (borrowers : Collection Borrower) : Option Borrower × Collection Borrower :=
  borrowers.findOneAndUpdate candidate.id (leaseUnchanged candidate now) (reclaim now)

end BorrowerRepository

end SmartDialer
