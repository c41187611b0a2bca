import Wattx.Validators.Conservation
/-!
# Authorization — which delegation requests are checked against the delegator's key

A delegator signs its three requests.  `ProcessDelegation` verifies the signature under the public key the request
carries, and never compares that key's id with the `delegatorId` the entry is created under.  `ProcessUndelegation`
and `ProcessRewardClaim` verify nothing: they read the delegator's index under the request's `delegatorId` and act on
its entries, and their results do not depend on the signature at all (`processUndelegation_signature`,
`processRewardClaim_signature`).  So any node that takes such a request moves another delegator's stake to
`UNBONDING`, zeroes its rewards, and records delegations under its id.
-/
namespace Wattx
namespace Validators

variable {κ π σ : Type} [DecidableEq κ]

namespace DelegationDB

theorem claimRewards_signature (request : RewardClaimRequest κ σ) (signature : σ) :
    ∀ (ids : List Nat) (totalClaimed : Int) (db : DelegationDB κ),
      claimRewards { request with signature } ids totalClaimed db = claimRewards request ids totalClaimed db
  | [], _, _ => rfl
  | id :: ids, totalClaimed, db => by
    simp only [claimRewards]
    split
    · exact claimRewards_signature request signature ids totalClaimed db
    · split_ifs
      · exact claimRewards_signature request signature ids totalClaimed db
      · exact claimRewards_signature request signature ids _ _
      · exact claimRewards_signature request signature ids totalClaimed db

/-- **A reward claim is the same whatever its signature.** -/
theorem processRewardClaim_signature (db : DelegationDB κ) (request : RewardClaimRequest κ σ) (signature : σ) :
    db.processRewardClaim { request with signature } = db.processRewardClaim request :=
  claimRewards_signature request signature _ 0 db

theorem undelegate_signature (request : UndelegationRequest κ σ) (signature : σ) :
    ∀ (ids : List Nat) (remaining : Int) (anyUndelegated : Bool) (db : DelegationDB κ) (validatorDB : ValidatorDB κ π),
      undelegate { request with signature } ids remaining anyUndelegated db validatorDB =
        undelegate request ids remaining anyUndelegated db validatorDB
  | [], _, _, _, _ => rfl
  | id :: ids, remaining, anyUndelegated, db, validatorDB => by
    simp only [undelegate]
    split
    · exact undelegate_signature request signature ids remaining anyUndelegated db validatorDB
    · split_ifs
      · exact undelegate_signature request signature ids remaining anyUndelegated db validatorDB
      · exact undelegate_signature request signature ids remaining anyUndelegated db validatorDB
      · rfl
      · exact undelegate_signature request signature ids _ true _ _

/-- **An undelegation is the same whatever its signature.** -/
theorem processUndelegation_signature (db : DelegationDB κ) (validatorDB : ValidatorDB κ π)
    (request : UndelegationRequest κ σ) (signature : σ) :
    db.processUndelegation validatorDB { request with signature } = db.processUndelegation validatorDB request := by
  unfold processUndelegation
  rw [show ({ request with signature } : UndelegationRequest κ σ).delegatorId = request.delegatorId from rfl,
    show ({ request with signature } : UndelegationRequest κ σ).amount = request.amount from rfl,
    undelegate_signature]

end DelegationDB

/-- The delegation of validator `1`'s delegator `2`, made at height `0`. -/
def firstDelegationId : Nat := pairKeys.delegationId 2 1 0

/-- `delegationCalls`, then rewards of `5` credited to delegator `2`'s delegation. -/
def rewardedCalls : List (Call Nat Nat (Nat × Nat)) :=
  delegationCalls ++ [.delegation (.addRewards firstDelegationId 5)]

/-- A claim of delegator `2`'s rewards, signed under key `99`. -/
def forgedClaim : RewardClaimRequest Nat (Nat × Nat) :=
  { delegatorId := 2, validatorId := none, height := 500, signature := (99, 99) }

/-- An undelegation of everything delegator `2` delegated to validator `1`, signed under key `99`. -/
def forgedUndelegation : UndelegationRequest Nat (Nat × Nat) :=
  { delegatorId := 2, validatorId := 1, amount := 0, height := 500, signature := (99, 99) }

/-- A delegation in the name of delegator `5`, carrying and signed under key `3`. -/
def foreignDelegation : DelegationRequest Nat Nat (Nat × Nat) :=
  { delegatorId := 5, delegatorPubKey := 3, validatorId := 1, amount := 1000 * COIN, height := 500,
    signature := (3, 0) }

/-- **Delegation requests act for a delegator without its key**: after delegator `2`'s delegation has matured and
earned `5`, a claim and an undelegation that no key with id `2` signed zero its rewards and start it unbonding, and
a delegation signed under key `3` is recorded under delegator `5`. -/
theorem delegation_requests_unauthenticated :
    ∃ before after : Stores Nat Nat, ∃ entry entry' foreign : DelegationEntry Nat,
      Stores.empty.run pairKeys Params.main rewardedCalls = .ok before ∧
      before.delegationDB.delegations firstDelegationId = some entry ∧
        entry.status = .ACTIVE ∧ entry.pendingRewards = 5 ∧
      Stores.empty.run pairKeys Params.main (rewardedCalls ++
          [.delegation (.processRewardClaim forgedClaim), .delegation (.processUndelegation forgedUndelegation),
            .delegation (.processDelegation foreignDelegation ⟨8, 0⟩)]) = .ok after ∧
      after.delegationDB.delegations firstDelegationId = some entry' ∧
        entry'.delegatorId = 2 ∧ entry'.status = .UNBONDING ∧ entry'.pendingRewards = 0 ∧
      after.delegationDB.delegations (pairKeys.delegationId 5 1 500) = some foreign ∧ foreign.delegatorId = 5 ∧
      (∀ pubkey, pairKeys.getId pubkey = 2 →
        forgedClaim.verify pairKeys pubkey = false ∧ forgedUndelegation.verify pairKeys pubkey = false) ∧
      (∀ pubkey, pairKeys.getId pubkey = 5 →
        pairKeys.verify pubkey (foreignDelegation.getHash pairKeys) foreignDelegation.signature = false) := by
  refine ⟨_, _, _, _, _, rfl, rfl, rfl, rfl, rfl, rfl, rfl, rfl, rfl, rfl, rfl, ?_, ?_⟩
  · intro pubkey hpubkey
    have h2 : pubkey = 2 := hpubkey
    subst h2
    exact ⟨rfl, rfl⟩
  · intro pubkey hpubkey
    have h5 : pubkey = 5 := hpubkey
    subst h5
    rfl

end Validators
end Wattx
