import Wattx.Kernel
/-!
# ProofOfStake — `CheckProofOfStake` (`pos.cpp`): the staked coin, its delegation and its kernel

A proof-of-stake block names the coin it stakes twice: its coinstake spends `vin[0]`, and its header carries
`prevoutStake`.  `CheckProofOfStake` loads both with `GetStakeCoin`, which checks maturity and the reuse window
(`StakeCoin`), and lets them differ only for a super staker, whose block carries a proof of delegation (PoD).  From
the offline staking height on, and on a network with a delegation contract, the contract is read for the owner of
the staked coin: a PoD must come with a delegation that verifies, a block without one is refused while the owner has
delegated, and with one the staker must be the coinstake's `vout[1]`, its own coin at least the super staker minimum
and its fee the delegated one (`OfflineStake`).  The coinstake's signature over its input is checked last before the
kernel of the staked coin (`Kernel`).

From the fork on, an accepted block's kernel hash is below the target times the value of the coin its header stakes
(`checkProofOfStake_kernel`).  A block whose coinstake spends another coin than the one it stakes carries a PoD that
matches the contract's delegation of the staked coin's owner, signed by that owner for the coinstake's staker, at
the delegated fee (`checkProofOfStake_delegated`).  Once the contract is there, a block without a PoD stakes its own
input, and only while its owner has no delegation (`checkProofOfStake_undelegated`).

The contract, the key hashes of scripts and the signatures are parameters.  The contract is read as it stands after
`deployDelegationsContract`, which `CheckProofOfStake` calls at the offline staking height itself.
-/
namespace Wattx
namespace Kernel

/-- `Delegation` (`qtum/posutils.h`): the super staker's key hash, its fee, the height of the delegation and the
proof of delegation. -/
structure Delegation where
  staker : Nat
  fee : UInt8
  blockHeight : UInt32
  PoD : List UInt8
  deriving DecidableEq, Repr

def Delegation.isNull (delegation : Delegation) : Bool :=
  delegation.staker == 0 && delegation.fee == 0 && delegation.blockHeight == 0 && delegation.PoD.isEmpty

/-- The delegation contract as `QtumDelegation` reads it: `ExistDelegationContract`, and `GetDelegation` of an
address, `none` where the call fails. -/
structure DelegationContract where
  deployed : Bool
  getDelegation : Nat → Option Delegation

/-- The script and signature checks `CheckProofOfStake` calls: `ExtractPublicKeyHash`, `0` for a script that pays no
key; `SignStr::VerifyMessage` of a key id, the staker whose reversed hex is the message, and a signature; and
`VerifySignature` of the coinstake's first input against the coin it spends. -/
structure Scripts where
  extractPublicKeyHash : List UInt8 → Nat
  verifyMessage : Nat → Nat → List UInt8 → Bool
  verifySignature : Coin → CTransaction → Bool

/-- `QtumDelegation::VerifyDelegation`. -/
def verifyDelegation (scripts : Scripts) (address : Nat) (delegation : Delegation) : Bool :=
  if address = 0 ∨ delegation.isNull = true ∨ delegation.fee > 100 then false
  else scripts.verifyMessage address delegation.staker delegation.PoD

/-- The heights of the coins of the view, the view `GetStakeCoin` is modelled over. -/
def coinHeights (view : COutPoint → Option Coin) (outpoint : COutPoint) : Option Wattx.Coin :=
  (viewGetCoin view outpoint).map fun coin => ⟨coin.nHeight⟩

section Check

variable (p : Params) (stakeHash : Nat → UInt32 → COutPoint → UInt32 → Fin (2 ^ 256))

/-- `GetStakeCoin` over the coins view of the kernel check: the coin `ViewGetCoin` finds at `prevout`, mature and
out of the reuse window, and `blockFrom`. -/
def getStakeCoinOf (view : COutPoint → Option Coin) (prevout : COutPoint) (pindexPrev : Chain) :
    Except String (Coin × BlockIndex) :=
  match viewGetCoin view prevout with
  | none => .error "stake-prevout-not-exist"
  | some coinPrev =>
    match getStakeCoin p (fun _ => some ⟨coinPrev.nHeight⟩) prevout pindexPrev with
    | .error e => .error e
    | .ok (_, blockFrom) => .ok (coinPrev, blockFrom)

variable (nOfflineStakeHeight : Int) (delegationsAddress : Nat) (contract : DelegationContract) (scripts : Scripts)

/-- The offline staking checks of `CheckProofOfStake`: whether the block stakes through a proof of delegation
(`checkDelegation`), or the reject reason. -/
def checkDelegationProof (nHeight : Int) (tx : CTransaction) (vchPoD : List UInt8) (coinTxPrev coinHeaderPrev : Coin) :
    Except String Bool :=
  if nHeight ≥ nOfflineStakeHeight ∧ delegationsAddress ≠ 0 then
    if !contract.deployed then .error "stake-delegation-contract-not-exist"
    else
      let address := scripts.extractPublicKeyHash coinHeaderPrev.out.scriptPubKey
      match contract.getDelegation address with
      | none => .error "stake-get-delegation-failed"
      | some delegation =>
        let verifiedDelegation := verifyDelegation scripts address delegation
        let hasDelegationProof := !vchPoD.isEmpty
        if hasDelegationProof && hasDelegationProof != verifiedDelegation then .error "stake-delegation-not-verified"
        else if !hasDelegationProof && !delegation.isNull then .error "stake-delegation-not-used"
        else if hasDelegationProof then
          let staker := scripts.extractPublicKeyHash (tx.vout.getD 1 CTxOut.empty).scriptPubKey
          if !scripts.verifyMessage address staker vchPoD then .error "stake-verify-delegation-failed"
          else if coinTxPrev.out.nValue < DEFAULT_STAKING_MIN_UTXO_VALUE then .error "stake-delegation-not-min-utxo"
          else
            let delegateOutputExist := isDelegateOutputExist delegation.fee.toNat
            let fee := getDelegationFeeTx tx coinTxPrev.out delegateOutputExist
            -- `(int)delegation.blockHeight` reads the `uint32_t` as a signed `int`
            if delegation.staker ≠ staker ∨ (delegation.fee.toNat : Int) ≠ fee ∨
                delegation.blockHeight.toInt32.toInt > nHeight ∨ delegation.PoD ≠ vchPoD then
              .error "stake-delegation-not-match"
            else .ok true
        else .ok false
  else .ok false

/-- `CheckProofOfStake`: `some (.ok ())` when the block's proof of stake holds, else the reject reason, empty where
the function returns `false` without one (a transaction that is not a coinstake); `none` where
`CheckStakeKernelHash` throws. -/
def checkProofOfStake (pindexPrev : StakeIndex) (tx : CTransaction) (nBits nTimeBlock : UInt32) (vchPoD : List UInt8)
    (headerPrevout : COutPoint) (view : COutPoint → Option Coin) : Option (Except String Unit) :=
  match tx.isCoinStake, tx.vin with
  | true, txin :: _ =>
    match getStakeCoinOf p view txin pindexPrev.chain with
    | .error e => some (.error e)
    | .ok (coinTxPrev, blockTxFrom) =>
      let header := if txin = headerPrevout then .ok (coinTxPrev, blockTxFrom)
        else getStakeCoinOf p view headerPrevout pindexPrev.chain
      match header with
      | .error e => some (.error e)
      | .ok (coinHeaderPrev, blockHeaderFrom) =>
        let nHeight := pindexPrev.chain.tip.nHeight + 1
        match checkDelegationProof nOfflineStakeHeight delegationsAddress contract scripts nHeight tx vchPoD
            coinTxPrev coinHeaderPrev with
        | .error e => some (.error e)
        | .ok checkDelegation =>
          if checkDelegation = false ∧ txin ≠ headerPrevout then some (.error "stake-prevout-diff-block-prevout")
          else if !scripts.verifySignature coinTxPrev tx then some (.error "stake-verify-signature-failed")
          else
            match checkStakeKernelHash p stakeHash pindexPrev nBits (pindexPrev.nTime blockHeaderFrom)
                coinHeaderPrev.out.nValue headerPrevout nTimeBlock with
            | none => none
            | some true => some (.ok ())
            | some false => some (.error "stake-check-kernel-failed")
  | _, _ => some (.error "")

end Check

/-! ## Inversion -/

section Inversion

variable {p : Params} {stakeHash : Nat → UInt32 → COutPoint → UInt32 → Fin (2 ^ 256)} {nOfflineStakeHeight : Int}
  {delegationsAddress : Nat} {contract : DelegationContract} {scripts : Scripts}

theorem getStakeCoin_congr {view view' : COutPoint → Option Wattx.Coin} {prevout : COutPoint} (c : Chain)
    (h : view prevout = view' prevout) : getStakeCoin p view prevout c = getStakeCoin p view' prevout c := by
  unfold getStakeCoin
  rw [h]

/-- A coin `getStakeCoinOf` loads is the view's, and `GetStakeCoin` over the heights of the view accepts it. -/
theorem getStakeCoinOf_ok {view : COutPoint → Option Coin} {prevout : COutPoint} {c : Chain} {coinPrev : Coin}
    {blockFrom : BlockIndex} (h : getStakeCoinOf p view prevout c = .ok (coinPrev, blockFrom)) :
    viewGetCoin view prevout = some coinPrev ∧
      getStakeCoin p (coinHeights view) prevout c = .ok (⟨coinPrev.nHeight⟩, blockFrom) := by
  unfold getStakeCoinOf at h
  cases hcoin : viewGetCoin view prevout with
  | none => simp only [hcoin, reduceCtorEq] at h
  | some coin =>
    simp only [hcoin] at h
    cases hs : getStakeCoin p (fun _ => some ⟨coin.nHeight⟩) prevout c with
    | error e => simp only [hs, reduceCtorEq] at h
    | ok r =>
      simp only [hs, Except.ok.injEq, Prod.mk.injEq] at h
      obtain ⟨rfl, rfl⟩ := h
      -- the walk returns the coin of the view it was given, at `prevout`
      have hr : some r.1 = some ⟨coin.nHeight⟩ := (getStakeCoin_ok hs).1.symm
      have hheights : coinHeights view prevout = some ⟨coin.nHeight⟩ := by simp [coinHeights, hcoin]
      have hcongr : getStakeCoin p (coinHeights view) prevout c =
          getStakeCoin p (fun _ => some ⟨coin.nHeight⟩) prevout c := getStakeCoin_congr c hheights
      refine ⟨rfl, ?_⟩
      rw [hcongr, hs, ← Option.some.inj hr]

/-- What an accepted `CheckProofOfStake` has checked, in the order it checks it. -/
theorem checkProofOfStake_ok {pindexPrev : StakeIndex} {tx : CTransaction} {nBits nTimeBlock : UInt32}
    {vchPoD : List UInt8} {headerPrevout : COutPoint} {view : COutPoint → Option Coin}
    (h : checkProofOfStake p stakeHash nOfflineStakeHeight delegationsAddress contract scripts pindexPrev tx nBits
      nTimeBlock vchPoD headerPrevout view = some (.ok ())) :
    ∃ txin vin coinTxPrev blockTxFrom coinHeaderPrev blockHeaderFrom checkDelegation,
      tx.isCoinStake = true ∧ tx.vin = txin :: vin ∧
      getStakeCoinOf p view txin pindexPrev.chain = .ok (coinTxPrev, blockTxFrom) ∧
      getStakeCoinOf p view headerPrevout pindexPrev.chain = .ok (coinHeaderPrev, blockHeaderFrom) ∧
      checkDelegationProof nOfflineStakeHeight delegationsAddress contract scripts (pindexPrev.chain.tip.nHeight + 1)
        tx vchPoD coinTxPrev coinHeaderPrev = .ok checkDelegation ∧
      (checkDelegation = true ∨ txin = headerPrevout) ∧ scripts.verifySignature coinTxPrev tx = true ∧
      checkStakeKernelHash p stakeHash pindexPrev nBits (pindexPrev.nTime blockHeaderFrom) coinHeaderPrev.out.nValue
        headerPrevout nTimeBlock = some true := by
  unfold checkProofOfStake at h
  split at h
  case h_2 => cases h
  rename_i txin vin hstake hvin
  cases htx : getStakeCoinOf p view txin pindexPrev.chain with
  | error e => simp only [htx, Option.some.injEq, reduceCtorEq] at h
  | ok rtx =>
    obtain ⟨coinTxPrev, blockTxFrom⟩ := rtx
    -- the header's coin: the coinstake's when the two outpoints agree, else loaded on its own
    have hheader : ∀ rh, (if txin = headerPrevout then Except.ok (coinTxPrev, blockTxFrom)
        else getStakeCoinOf p view headerPrevout pindexPrev.chain) = .ok rh →
        getStakeCoinOf p view headerPrevout pindexPrev.chain = .ok rh := by
      intro rh hrh
      split at hrh
      · rename_i heq
        rw [← heq, htx, hrh]
      · exact hrh
    simp only [htx] at h
    split at h
    case h_1 => cases h
    rename_i coinHeaderPrev blockHeaderFrom hrh
    split at h
    case h_1 => cases h
    rename_i checkDelegation hdel
    split at h
    case isTrue => cases h
    rename_i hdiff
    split at h
    case isTrue => cases h
    rename_i hsig
    split at h
    case h_1 => cases h
    case h_3 => cases h
    rename_i hkernel
    refine ⟨txin, vin, coinTxPrev, blockTxFrom, coinHeaderPrev, blockHeaderFrom, checkDelegation, hstake, hvin, htx,
      hheader _ hrh, hdel, ?_, by simpa using hsig, hkernel⟩
    cases checkDelegation
    · exact .inr (by simpa using hdiff)
    · exact .inl rfl

/-- Everything an accepted offline staking check can have found: before the offline staking height or without a
delegation contract nothing; else the owner's delegation, null for a block without a PoD, and matched by the PoD,
the staker and the fee otherwise. -/
theorem checkDelegationProof_cases {nHeight : Int} {tx : CTransaction} {vchPoD : List UInt8}
    {coinTxPrev coinHeaderPrev : Coin} {checkDelegation : Bool}
    (h : checkDelegationProof nOfflineStakeHeight delegationsAddress contract scripts nHeight tx vchPoD coinTxPrev
      coinHeaderPrev = .ok checkDelegation) :
    (¬(nHeight ≥ nOfflineStakeHeight ∧ delegationsAddress ≠ 0) ∧ checkDelegation = false) ∨
      ∃ delegation, contract.getDelegation (scripts.extractPublicKeyHash coinHeaderPrev.out.scriptPubKey) = some delegation ∧
        ((vchPoD = [] ∧ delegation.isNull = true ∧ checkDelegation = false) ∨
          (vchPoD ≠ [] ∧ verifyDelegation scripts (scripts.extractPublicKeyHash coinHeaderPrev.out.scriptPubKey) delegation = true ∧
            delegation.staker = scripts.extractPublicKeyHash (tx.vout.getD 1 CTxOut.empty).scriptPubKey ∧
            delegation.PoD = vchPoD ∧ delegation.blockHeight.toInt32.toInt ≤ nHeight ∧
            checkDelegationFee delegation.fee tx coinTxPrev.out = true ∧ checkDelegation = true)) := by
  unfold checkDelegationProof at h
  split at h
  case isFalse hoff =>
    simp only [Except.ok.injEq] at h
    exact .inl ⟨hoff, h.symm⟩
  split at h
  case isTrue => cases h
  dsimp only at h
  split at h
  case h_1 => cases h
  rename_i delegation hget
  refine .inr ⟨delegation, hget, ?_⟩
  split at h
  case isTrue => cases h
  rename_i hverified
  split at h
  case isTrue => cases h
  rename_i hused
  split at h
  case isFalse hpod =>
    -- without a PoD the delegation must be null
    simp only [Except.ok.injEq] at h
    have hempty : vchPoD.isEmpty = true := by simpa using hpod
    have hnull : delegation.isNull = true := by simpa [hempty] using hused
    exact .inl ⟨List.isEmpty_iff.1 hempty, hnull, h.symm⟩
  rename_i hpod
  split at h
  case isTrue => cases h
  split at h
  case isTrue => cases h
  rename_i hmin
  split at h
  case isTrue => cases h
  rename_i hmatch
  simp only [Except.ok.injEq] at h
  simp only [not_or, not_not, not_lt] at hmatch
  obtain ⟨hstaker, hfee, hheight, hPoD⟩ := hmatch
  have hne : vchPoD ≠ [] := by simpa using hpod
  have hver : verifyDelegation scripts (scripts.extractPublicKeyHash coinHeaderPrev.out.scriptPubKey) delegation = true := by
    simpa [hpod] using hverified
  refine .inr ⟨hne, hver, hstaker, hPoD, hheight, ?_, h.symm⟩
  -- the fee compared is the one `checkDelegationFee` compares, once the coin is above the minimum
  simp only [checkDelegationFee, hmin, if_false]
  exact beq_iff_eq.2 hfee

end Inversion

/-! ## What an accepted block has shown -/

section Accepted

variable {p : Params} {stakeHash : Nat → UInt32 → COutPoint → UInt32 → Fin (2 ^ 256)} {nOfflineStakeHeight : Int}
  {delegationsAddress : Nat} {contract : DelegationContract} {scripts : Scripts} {pindexPrev : StakeIndex}
  {tx : CTransaction} {nBits nTimeBlock : UInt32} {vchPoD : List UInt8} {headerPrevout : COutPoint}
  {view : COutPoint → Option Coin}

/-- From the fork on, a kernel check that passes on a value in `MoneyRange` bounds the hash by the target times the
value. -/
theorem checkStakeKernelHash_true_of_fork (hfork : p.nReduceBlocktimeHeight ≤ pindexPrev.chain.tip.nHeight + 1)
    {blockFromTime : UInt32} {prevoutValue : Int} (hvalue : 0 ≤ prevoutValue) (hmoney : prevoutValue ≤ MAX_MONEY)
    {prevout : COutPoint}
    (h : checkStakeKernelHash p stakeHash pindexPrev nBits blockFromTime prevoutValue prevout nTimeBlock = some true) :
    blockFromTime ≤ nTimeBlock ∧ (stakeHash pindexPrev.nStakeModifier blockFromTime prevout nTimeBlock).val <
      (Retarget.SetCompact nBits + 1) * prevoutValue.toNat := by
  rw [checkStakeKernelHash_after_fork hfork, weightOf_of_moneyRange hvalue hmoney] at h
  by_cases ht : nTimeBlock < blockFromTime
  · simp only [if_pos ht, Option.some.injEq, Bool.false_eq_true] at h
  by_cases hw : prevoutValue.toNat = 0
  · simp only [if_neg ht, if_pos hw, reduceCtorEq] at h
  rw [if_neg ht, if_neg hw, Option.some.injEq, decide_eq_true_eq] at h
  exact ⟨UInt32.not_lt.1 ht, (div_le_iff_lt_succ_mul (Nat.pos_of_ne_zero hw)).1 h⟩

/-- **The kernel of an accepted block, from the fork on**: the coin the header stakes is the view's, `GetStakeCoin`
accepts it (mature, out of the reuse window), the block is not older than the coin's block, and the kernel hash is
below `SetCompact nBits + 1` times the coin's value, over a view whose values are in `MoneyRange`.  The coin is the
header's: a super staker stakes with the weight of the coin delegated to it. -/
theorem checkProofOfStake_kernel (hfork : p.nReduceBlocktimeHeight ≤ pindexPrev.chain.tip.nHeight + 1)
    (hmoney : ∀ outpoint coin, viewGetCoin view outpoint = some coin → 0 ≤ coin.out.nValue ∧ coin.out.nValue ≤ MAX_MONEY)
    (h : checkProofOfStake p stakeHash nOfflineStakeHeight delegationsAddress contract scripts pindexPrev tx nBits
      nTimeBlock vchPoD headerPrevout view = some (.ok ())) :
    ∃ coinHeaderPrev blockHeaderFrom, viewGetCoin view headerPrevout = some coinHeaderPrev ∧
      getStakeCoin p (coinHeights view) headerPrevout pindexPrev.chain = .ok (⟨coinHeaderPrev.nHeight⟩, blockHeaderFrom) ∧
      pindexPrev.nTime blockHeaderFrom ≤ nTimeBlock ∧
      (stakeHash pindexPrev.nStakeModifier (pindexPrev.nTime blockHeaderFrom) headerPrevout nTimeBlock).val <
        (Retarget.SetCompact nBits + 1) * coinHeaderPrev.out.nValue.toNat := by
  obtain ⟨_, _, _, _, coinHeaderPrev, blockHeaderFrom, _, -, -, -, hheader, -, -, -, hkernel⟩ := checkProofOfStake_ok h
  obtain ⟨hview, hstake⟩ := getStakeCoinOf_ok hheader
  obtain ⟨hvalue, hmax⟩ := hmoney _ _ hview
  exact ⟨coinHeaderPrev, blockHeaderFrom, hview, hstake, checkStakeKernelHash_true_of_fork hfork hvalue hmax hkernel⟩

/-- **Nobody stakes another's coin without the owner's delegation**: a block accepted while its coinstake spends
another coin than the one its header stakes carries a PoD; the contract holds a delegation of the staked coin's owner
that verifies, names the coinstake's staker and that PoD; and the coinstake pays the staker the delegated fee from a
coin above the super staker minimum. -/
theorem checkProofOfStake_delegated {txin : COutPoint} (hvin : tx.vin.head? = some txin) (hne : txin ≠ headerPrevout)
    (h : checkProofOfStake p stakeHash nOfflineStakeHeight delegationsAddress contract scripts pindexPrev tx nBits
      nTimeBlock vchPoD headerPrevout view = some (.ok ())) :
    vchPoD ≠ [] ∧ ∃ coinTxPrev coinHeaderPrev delegation, viewGetCoin view txin = some coinTxPrev ∧
      viewGetCoin view headerPrevout = some coinHeaderPrev ∧
      contract.getDelegation (scripts.extractPublicKeyHash coinHeaderPrev.out.scriptPubKey) = some delegation ∧
      verifyDelegation scripts (scripts.extractPublicKeyHash coinHeaderPrev.out.scriptPubKey) delegation = true ∧
      delegation.staker = scripts.extractPublicKeyHash (tx.vout.getD 1 CTxOut.empty).scriptPubKey ∧
      delegation.PoD = vchPoD ∧ checkDelegationFee delegation.fee tx coinTxPrev.out = true := by
  obtain ⟨txin', vin, coinTxPrev, _, coinHeaderPrev, _, checkDelegation, -, hvin', htx, hheader, hdel, hdiff, -, -⟩ :=
    checkProofOfStake_ok h
  rw [hvin', List.head?_cons, Option.some.injEq] at hvin
  subst hvin
  -- the coinstake spends another coin, so the block stakes through its PoD
  have hcheck : checkDelegation = true := hdiff.resolve_right hne
  rcases checkDelegationProof_cases hdel with ⟨-, hfalse⟩ | ⟨delegation, hget, ⟨-, -, hfalse⟩ | hproof⟩
  · cases hcheck.symm.trans hfalse
  · cases hcheck.symm.trans hfalse
  · obtain ⟨hpod, hver, hstaker, hPoD, -, hfee, -⟩ := hproof
    exact ⟨hpod, coinTxPrev, coinHeaderPrev, delegation, (getStakeCoinOf_ok htx).1, (getStakeCoinOf_ok hheader).1,
      hget, hver, hstaker, hPoD, hfee⟩

/-- **A delegated coin is staked only through its delegation**: from the offline staking height on, on a network
with a delegation contract, a block accepted without a PoD stakes the coin its coinstake spends, and the contract
holds no delegation of that coin's owner. -/
theorem checkProofOfStake_undelegated (hoffline : nOfflineStakeHeight ≤ pindexPrev.chain.tip.nHeight + 1)
    (haddress : delegationsAddress ≠ 0) (hpod : vchPoD = []) {txin : COutPoint} (hvin : tx.vin.head? = some txin)
    (h : checkProofOfStake p stakeHash nOfflineStakeHeight delegationsAddress contract scripts pindexPrev tx nBits
      nTimeBlock vchPoD headerPrevout view = some (.ok ())) :
    txin = headerPrevout ∧ ∃ coinHeaderPrev delegation, viewGetCoin view headerPrevout = some coinHeaderPrev ∧
      contract.getDelegation (scripts.extractPublicKeyHash coinHeaderPrev.out.scriptPubKey) = some delegation ∧
      delegation.isNull = true := by
  obtain ⟨txin', vin, _, _, coinHeaderPrev, _, checkDelegation, -, hvin', -, hheader, hdel, hdiff, -, -⟩ :=
    checkProofOfStake_ok h
  rw [hvin', List.head?_cons, Option.some.injEq] at hvin
  subst hvin
  rcases checkDelegationProof_cases hdel with ⟨hoff, -⟩ | ⟨delegation, hget, ⟨-, hnull, hfalse⟩ | ⟨hne, -⟩⟩
  · exact absurd ⟨hoffline, haddress⟩ hoff
  · -- no PoD, so the block stakes its own input
    rw [hfalse] at hdiff
    exact ⟨hdiff.resolve_left Bool.false_ne_true, coinHeaderPrev, delegation, (getStakeCoinOf_ok hheader).1, hget, hnull⟩
  · exact absurd hpod hne

end Accepted

/-! ## Blocks at height 1 -/

/-- A contract where nobody has delegated, and scripts whose key hash is their first byte, every signature good. -/
def noDelegations : DelegationContract := ⟨true, fun _ => some ⟨0, 0, 0, []⟩⟩

def firstByteKeys : Scripts := ⟨fun script => (script.headD 0).toNat, fun _ _ _ => true, fun _ _ => true⟩

/-- A coinstake spending the coin of `oneCoinView`. -/
def ownStake : CTransaction := ⟨[⟨1, 0⟩], [CTxOut.empty, ⟨COIN, []⟩]⟩

theorem oneCoinView_moneyRange :
    ∀ outpoint coin, viewGetCoin oneCoinView outpoint = some coin → 0 ≤ coin.out.nValue ∧ coin.out.nValue ≤ MAX_MONEY := by
  intro outpoint coin hcoin
  by_cases ho : outpoint = ⟨1, 0⟩
  · subst ho
    have hone : coin = ⟨⟨COIN, []⟩, 0⟩ := by
      simp only [viewGetCoin, oneCoinView, if_true, Coin.isSpent] at hcoin
      exact (Option.some.inj hcoin).symm
    subst hone
    decide
  · simp [viewGetCoin, oneCoinView, ho] at hcoin

theorem checkProofOfStake_kernel_at_height_one :
    oneBlockMaturity.nReduceBlocktimeHeight ≤ genesisIndex.chain.tip.nHeight + 1 ∧
    (∀ outpoint coin, viewGetCoin oneCoinView outpoint = some coin → 0 ≤ coin.out.nValue ∧ coin.out.nValue ≤ MAX_MONEY) ∧
    checkProofOfStake oneBlockMaturity (fun _ _ _ _ => 5) 1 0x86 noDelegations firstByteKeys genesisIndex ownStake
      0x1d00ffff 1 [] ⟨1, 0⟩ oneCoinView = some (.ok ()) ∧
    ∃ coinHeaderPrev blockHeaderFrom, viewGetCoin oneCoinView ⟨1, 0⟩ = some coinHeaderPrev ∧
      getStakeCoin oneBlockMaturity (coinHeights oneCoinView) ⟨1, 0⟩ genesisIndex.chain =
        .ok (⟨coinHeaderPrev.nHeight⟩, blockHeaderFrom) ∧
      genesisIndex.nTime blockHeaderFrom ≤ 1 ∧
      (5 : Fin (2 ^ 256)).val < (Retarget.SetCompact 0x1d00ffff + 1) * coinHeaderPrev.out.nValue.toNat := by
  have haccept : checkProofOfStake oneBlockMaturity (fun _ _ _ _ => 5) 1 0x86 noDelegations firstByteKeys genesisIndex
      ownStake 0x1d00ffff 1 [] ⟨1, 0⟩ oneCoinView = some (.ok ()) := by rfl
  exact ⟨by decide, oneCoinView_moneyRange, haccept,
    checkProofOfStake_kernel (by decide) oneCoinView_moneyRange haccept⟩

/-- An owner's coin of `COIN` at `⟨1, 0⟩` paying key `7`, and a super staker's of `100 * COIN` at `⟨2, 0⟩` paying key
`9`, both of genesis. -/
def delegatedView (outpoint : COutPoint) : Option Coin :=
  if outpoint = ⟨1, 0⟩ then some ⟨⟨COIN, [7]⟩, 0⟩
  else if outpoint = ⟨2, 0⟩ then some ⟨⟨100 * COIN, [9]⟩, 0⟩
  else none

/-- Key `7` has delegated to key `9` at a fee of `10`. -/
def delegatedContract : DelegationContract :=
  ⟨true, fun address => if address = 7 then some ⟨9, 10, 0, [1]⟩ else some ⟨0, 0, 0, []⟩⟩

/-- The super staker's coinstake: its coin back with the staker's `10` of a reward of `100`, and `90` to the owner. -/
def superStake : CTransaction := ⟨[⟨2, 0⟩], [CTxOut.empty, ⟨100 * COIN + 10, [9]⟩, ⟨90, [7]⟩]⟩

theorem checkProofOfStake_delegated_at_height_one :
    superStake.vin.head? = some ⟨2, 0⟩ ∧ (⟨2, 0⟩ : COutPoint) ≠ ⟨1, 0⟩ ∧
    checkProofOfStake oneBlockMaturity (fun _ _ _ _ => 5) 1 0x86 delegatedContract firstByteKeys genesisIndex superStake
      0x1d00ffff 1 [1] ⟨1, 0⟩ delegatedView = some (.ok ()) ∧
    ([1] : List UInt8) ≠ [] ∧ ∃ coinTxPrev coinHeaderPrev delegation, viewGetCoin delegatedView ⟨2, 0⟩ = some coinTxPrev ∧
      viewGetCoin delegatedView ⟨1, 0⟩ = some coinHeaderPrev ∧
      delegatedContract.getDelegation (firstByteKeys.extractPublicKeyHash coinHeaderPrev.out.scriptPubKey) =
        some delegation ∧
      verifyDelegation firstByteKeys (firstByteKeys.extractPublicKeyHash coinHeaderPrev.out.scriptPubKey) delegation =
        true ∧
      delegation.staker = firstByteKeys.extractPublicKeyHash (superStake.vout.getD 1 CTxOut.empty).scriptPubKey ∧
      delegation.PoD = [1] ∧ checkDelegationFee delegation.fee superStake coinTxPrev.out = true := by
  have haccept : checkProofOfStake oneBlockMaturity (fun _ _ _ _ => 5) 1 0x86 delegatedContract firstByteKeys
      genesisIndex superStake 0x1d00ffff 1 [1] ⟨1, 0⟩ delegatedView = some (.ok ()) := by rfl
  exact ⟨rfl, by decide, haccept, checkProofOfStake_delegated rfl (by decide) haccept⟩

theorem checkProofOfStake_undelegated_at_height_one :
    (1 : Int) ≤ genesisIndex.chain.tip.nHeight + 1 ∧ (0x86 : Nat) ≠ 0 ∧ ownStake.vin.head? = some ⟨1, 0⟩ ∧
    checkProofOfStake oneBlockMaturity (fun _ _ _ _ => 5) 1 0x86 noDelegations firstByteKeys genesisIndex ownStake
      0x1d00ffff 1 [] ⟨1, 0⟩ oneCoinView = some (.ok ()) ∧
    (⟨1, 0⟩ : COutPoint) = ⟨1, 0⟩ ∧ ∃ coinHeaderPrev delegation, viewGetCoin oneCoinView ⟨1, 0⟩ = some coinHeaderPrev ∧
      noDelegations.getDelegation (firstByteKeys.extractPublicKeyHash coinHeaderPrev.out.scriptPubKey) = some delegation ∧
      delegation.isNull = true := by
  have haccept : checkProofOfStake oneBlockMaturity (fun _ _ _ _ => 5) 1 0x86 noDelegations firstByteKeys genesisIndex
      ownStake 0x1d00ffff 1 [] ⟨1, 0⟩ oneCoinView = some (.ok ()) := by rfl
  exact ⟨by decide, by decide, rfl, haccept, checkProofOfStake_undelegated (by decide) (by decide) rfl rfl haccept⟩

end Kernel
end Wattx
