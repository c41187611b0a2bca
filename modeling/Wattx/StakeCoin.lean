import Wattx.Params
/-!
# StakeCoin — `GetStakeCoin` (`pos.cpp`): stake maturity and the stake reuse window

`GetStakeCoin` looks the staked outpoint up in the coins view, requires the coin to be `CoinbaseMaturity` blocks
old at the new height, loads the block that created it, and then walks back over the last `CoinbaseMaturity`
headers from `pindexPrev`: a delegated coin is not spent by staking, so the header check is what keeps it from
staking again too soon.  The walk stops at the first header whose `prevoutStake` is the outpoint, or at genesis, and
the coin is refused when that header is fewer than `CoinbaseMaturity` blocks below the new one.

`pindexPrev` and its `pprev` chain are a `Chain`: a list of block indexes, the tip first, whose heights fall by one
down to genesis at 0 (`Descends`, carried as a field).  A whole chain of blocks whose proof-of-stake blocks all
passed the check against the blocks below them is `StakeChecked`; on such a chain a staked coin is always mature
(`stakeChecked_mature`) and two blocks naming the same `prevoutStake` are at least `CoinbaseMaturity` of the
upper one apart (`stakeChecked_reuse_gap`).
-/
namespace Wattx

/-- `COutPoint`: a transaction hash and an output index. -/
structure COutPoint where
  hash : Nat
  n : Nat
  deriving DecidableEq, Repr

namespace COutPoint

def NULL_INDEX : Nat := 4294967295

/-- The outpoint a default `COutPoint` holds. -/
def null : COutPoint := ⟨0, NULL_INDEX⟩

def isNull (outpoint : COutPoint) : Bool := outpoint.hash == 0 && outpoint.n == NULL_INDEX

end COutPoint

/-- `Coin`, as far as the stake check reads it: the height of the block that created it. -/
structure Coin where
  nHeight : Int
  deriving DecidableEq, Repr

/-- `CBlockIndex`, as far as the stake check reads it. -/
structure BlockIndex where
  nHeight : Int
  prevoutStake : COutPoint
  deriving DecidableEq, Repr

/-- Heights fall by one from each index to its `pprev`, down to genesis at height 0. -/
def Descends : List BlockIndex → Prop
  | [] => True
  | [b] => b.nHeight = 0
  | b :: c :: rest => b.nHeight = c.nHeight + 1 ∧ Descends (c :: rest)

instance decDescends : (bs : List BlockIndex) → Decidable (Descends bs)
  | [] => isTrue trivial
  | [b] => inferInstanceAs (Decidable (b.nHeight = 0))
  | b :: c :: rest =>
    have := decDescends (c :: rest)
    inferInstanceAs (Decidable (b.nHeight = c.nHeight + 1 ∧ Descends (c :: rest)))

/-- `pindexPrev` with its `pprev` chain back to genesis, the tip first. -/
structure Chain where
  blocks : List BlockIndex
  ne_nil : blocks ≠ []
  descends : Descends blocks

namespace Chain

def tip (c : Chain) : BlockIndex := c.blocks.head c.ne_nil

/-- `CBlockIndex::GetAncestor`: the index at `height`, `nullptr` above the tip or below genesis. -/
def getAncestor (c : Chain) (height : Int) : Option BlockIndex :=
  if height < 0 ∨ c.tip.nHeight < height then none else c.blocks[(c.tip.nHeight - height).toNat]?

end Chain

/-- The loop of `GetStakeCoin`: at most `k` headers from `prev` back, the height of the first whose `prevoutStake` is
`prevout`, or `-1`. -/
def findCoinHeight (prevout : COutPoint) : Nat → List BlockIndex → Int
  | 0, _ => -1
  | _ + 1, [] => -1
  | k + 1, b :: prev => if b.prevoutStake = prevout then b.nHeight else findCoinHeight prevout k prev

/-- `GetStakeCoin`, with the error it reports: the coin and `blockFrom`, or the reject reason. -/
def getStakeCoin (p : Params) (view : COutPoint → Option Coin) (prevout : COutPoint) (pindexPrev : Chain) :
    Except String (Coin × BlockIndex) :=
  match view prevout with
  | none => .error "stake-prevout-not-exist"
  | some coinPrev =>
    let nHeight := pindexPrev.tip.nHeight + 1
    let coinbaseMaturity := p.coinbaseMaturity nHeight
    if nHeight - coinPrev.nHeight < coinbaseMaturity then .error "stake-prevout-not-mature"
    else
      match pindexPrev.getAncestor coinPrev.nHeight with
      | none => .error "stake-prevout-not-loaded"
      | some blockFrom =>
        let coinHeight := findCoinHeight prevout coinbaseMaturity.toNat pindexPrev.blocks
        if coinHeight ≠ -1 ∧ nHeight - coinHeight < coinbaseMaturity then .error "stake-prevout-not-mature"
        else .ok (coinPrev, blockFrom)

/-! ## The walk -/

theorem descends_tail {b : BlockIndex} {prev : List BlockIndex} (h : Descends (b :: prev)) : Descends prev := by
  cases prev with
  | nil => trivial
  | cons c rest => exact h.2

theorem descends_nonneg : ∀ {bs : List BlockIndex}, Descends bs → ∀ b ∈ bs, 0 ≤ b.nHeight
  | [], _, _, hb => by cases hb
  | [x], h, b, hb => by
    rw [List.mem_singleton.1 hb]
    exact Int.le_of_eq h.symm
  | x :: y :: rest, h, b, hb => by
    have ih := descends_nonneg h.2
    rcases List.mem_cons.1 hb with rfl | hb
    · have := ih y List.mem_cons_self
      have := h.1
      omega
    · exact ih b hb

/-- In a descending chain the index `mid.length` steps below the tip is that many blocks lower. -/
theorem descends_mid_height : ∀ (mid : List BlockIndex) {b : BlockIndex} {post : List BlockIndex},
    Descends (mid ++ b :: post) → ∀ t ∈ (mid ++ b :: post).head?, t.nHeight = b.nHeight + mid.length
  | [], b, post, _, t, ht => by
    simp only [List.nil_append, List.head?_cons, Option.mem_def, Option.some.injEq] at ht
    subst ht
    simp
  | x :: mid, b, post, hd, t, ht => by
    simp only [List.cons_append, List.head?_cons, Option.mem_def, Option.some.injEq] at ht
    subst ht
    cases hm : mid ++ b :: post with
    | nil => simp at hm
    | cons y rest =>
      rw [List.cons_append, hm] at hd
      have ih := @descends_mid_height mid b post (by rw [hm]; exact hd.2) y (by simp [hm])
      rw [hd.1, ih, List.length_cons]
      omega

/-- **The walk finds a matching header at or above any match within its reach.**  If the header `mid.length < k`
steps below the tip carries `prevout`, the walk over `k` headers returns a height at or above that header's. -/
theorem findCoinHeight_ge (prevout : COutPoint) : ∀ (k : Nat) (mid : List BlockIndex) (b : BlockIndex)
    (post : List BlockIndex), Descends (mid ++ b :: post) → mid.length < k → b.prevoutStake = prevout →
      findCoinHeight prevout k (mid ++ b :: post) ≠ -1 ∧ b.nHeight ≤ findCoinHeight prevout k (mid ++ b :: post)
  | 0, _, _, _, _, hk, _ => absurd hk (Nat.not_lt_zero _)
  | k + 1, [], b, post, hd, _, hmatch => by
    have := descends_nonneg hd b (by simp)
    simp only [List.nil_append, findCoinHeight, if_pos hmatch]
    omega
  | k + 1, x :: mid, b, post, hd, hk, hmatch => by
    simp only [List.cons_append, findCoinHeight]
    by_cases hx : x.prevoutStake = prevout
    · rw [if_pos hx]
      have hxb := descends_mid_height (x :: mid) hd x rfl
      have := descends_nonneg hd b (by simp)
      simp only [List.length_cons] at hxb
      omega
    · rw [if_neg hx]
      exact findCoinHeight_ge prevout k mid b post (descends_tail (by simpa using hd)) (by simpa using hk) hmatch

/-- What a successful `GetStakeCoin` checked: the coin is `CoinbaseMaturity` old, and no header fewer than
`CoinbaseMaturity` blocks below the new one within the walk names the outpoint. -/
theorem getStakeCoin_ok {p : Params} {view : COutPoint → Option Coin} {prevout : COutPoint} {c : Chain}
    {r : Coin × BlockIndex} (h : getStakeCoin p view prevout c = .ok r) :
    view prevout = some r.1 ∧ p.coinbaseMaturity (c.tip.nHeight + 1) ≤ c.tip.nHeight + 1 - r.1.nHeight ∧
      (findCoinHeight prevout (p.coinbaseMaturity (c.tip.nHeight + 1)).toNat c.blocks = -1 ∨
        p.coinbaseMaturity (c.tip.nHeight + 1) ≤
          c.tip.nHeight + 1 - findCoinHeight prevout (p.coinbaseMaturity (c.tip.nHeight + 1)).toNat c.blocks) := by
  unfold getStakeCoin at h
  split at h
  · cases h
  rename_i coinPrev hview
  dsimp only at h
  split at h
  · cases h
  rename_i hmature
  split at h
  · cases h
  split at h
  · cases h
  rename_i hwalk
  simp only [Except.ok.injEq] at h
  subst h
  dsimp only
  refine ⟨hview, by omega, ?_⟩
  by_cases hf : findCoinHeight prevout (p.coinbaseMaturity (c.tip.nHeight + 1)).toNat c.blocks = -1
  · exact .inl hf
  · exact .inr (by omega)

/-! ## Chains of checked blocks -/

/-- A block as `CheckProofOfStake` sees it: its index, whether it is proof-of-stake, and the outpoint its coinstake
spends (`tx.vin[0].prevout`). -/
structure Block where
  index : BlockIndex
  isProofOfStake : Bool
  stakeIn : COutPoint

/-- Every proof-of-stake block of the chain (the tip first) passed `GetStakeCoin` for its coinstake input and for its
header `prevoutStake`, with the blocks below it as `pindexPrev` and `view h` as the coins view at height `h`. -/
def StakeChecked (p : Params) (view : Int → COutPoint → Option Coin) : List Block → Prop
  | [] => True
  | b :: prev => StakeChecked p view prev ∧
      (b.isProofOfStake = true → ∃ c : Chain, c.blocks = prev.map Block.index ∧
        (∃ r, getStakeCoin p (view b.index.nHeight) b.stakeIn c = .ok r) ∧
        ∃ r, getStakeCoin p (view b.index.nHeight) b.index.prevoutStake c = .ok r)

theorem tip_nHeight {c : Chain} {b : Block} {prev : List Block} (hc : c.blocks = prev.map Block.index)
    (hd : Descends ((b :: prev).map Block.index)) : c.tip.nHeight + 1 = b.index.nHeight := by
  obtain ⟨bs, hne, hdesc⟩ := c
  cases prev with
  | nil => exact absurd (by simpa using hc) hne
  | cons x rest =>
    simp only at hc
    subst hc
    simp only [List.map_cons, Descends] at hd
    simp [Chain.tip, hd.1]

theorem getStakeCoin_mature {p : Params} {view : COutPoint → Option Coin} {prevout : COutPoint} {c : Chain}
    {r : Coin × BlockIndex} {coin : Coin} (h : getStakeCoin p view prevout c = .ok r) (hcoin : view prevout = some coin) :
    p.coinbaseMaturity (c.tip.nHeight + 1) ≤ c.tip.nHeight + 1 - coin.nHeight := by
  obtain ⟨hv, hm, -⟩ := getStakeCoin_ok h
  rw [hv, Option.some.injEq] at hcoin
  rw [← hcoin]
  exact hm

/-- **(a) A staked coin is mature**: every coin a proof-of-stake block of a checked chain stakes, in its coinstake
or in its header, is at least `CoinbaseMaturity` of that block's height old. -/
theorem stakeChecked_mature (p : Params) (view : Int → COutPoint → Option Coin) :
    ∀ (bs : List Block), Descends (bs.map Block.index) → StakeChecked p view bs →
      ∀ b ∈ bs, b.isProofOfStake = true → ∀ o ∈ [b.stakeIn, b.index.prevoutStake], ∀ coin,
        view b.index.nHeight o = some coin → p.coinbaseMaturity b.index.nHeight ≤ b.index.nHeight - coin.nHeight
  | [], _, _, b, hb, _, _, _, _, _ => by cases hb
  | x :: prev, hd, hc, b, hb, hpos, o, ho, coin, hcoin => by
    rcases List.mem_cons.1 hb with rfl | hb
    · obtain ⟨c, hcb, ⟨r₁, h₁⟩, ⟨r₂, h₂⟩⟩ := hc.2 hpos
      rw [← tip_nHeight hcb hd]
      simp only [List.mem_cons, List.not_mem_nil, or_false] at ho
      rcases ho with rfl | rfl
      · exact getStakeCoin_mature h₁ hcoin
      · exact getStakeCoin_mature h₂ hcoin
    · exact stakeChecked_mature p view prev (descends_tail (by simpa using hd)) hc.1 b hb hpos o ho coin hcoin

/-- **(b) The stake reuse window**: in a checked chain, a proof-of-stake block and any block below it with the same
`prevoutStake` are at least `CoinbaseMaturity` of the upper block's height apart. -/
theorem stakeChecked_reuse_gap (p : Params) (view : Int → COutPoint → Option Coin) :
    ∀ (pre : List Block) (b₂ : Block) (mid : List Block) (b₁ : Block) (post : List Block),
      Descends ((pre ++ b₂ :: (mid ++ b₁ :: post)).map Block.index) →
      StakeChecked p view (pre ++ b₂ :: (mid ++ b₁ :: post)) →
      b₂.isProofOfStake = true → b₁.index.prevoutStake = b₂.index.prevoutStake →
      p.coinbaseMaturity b₂.index.nHeight ≤ b₂.index.nHeight - b₁.index.nHeight
  | [], b₂, mid, b₁, post, hd, hc, hpos, hsame => by
    obtain ⟨c, hcb, -, ⟨r, hr⟩⟩ := hc.2 hpos
    have ht := tip_nHeight hcb hd
    obtain ⟨-, -, hwalk⟩ := getStakeCoin_ok hr
    rw [← ht]
    rw [List.map_append, List.map_cons] at hcb
    have hdc := c.descends
    rw [hcb] at hdc
    -- the tip of `pindexPrev` is `mid.length` blocks above `b₁`
    have htip : c.tip.nHeight = b₁.index.nHeight + (mid.map Block.index).length :=
      descends_mid_height _ hdc c.tip (by simp [Chain.tip, ← hcb, List.head?_eq_some_head c.ne_nil])
    rw [List.length_map] at htip
    by_contra hlt
    -- so the earlier use is within the walk's reach, and the walk stops at it or above it
    have hreach : (mid.map Block.index).length < (p.coinbaseMaturity (c.tip.nHeight + 1)).toNat := by
      rw [List.length_map]; omega
    obtain ⟨hne, hge⟩ := findCoinHeight_ge b₂.index.prevoutStake _ _ b₁.index _ hdc hreach hsame
    rw [← hcb] at hne hge
    rcases hwalk with hw | hw
    · exact hne hw
    · omega
  | x :: pre, b₂, mid, b₁, post, hd, hc, hpos, hsame =>
    stakeChecked_reuse_gap p view pre b₂ mid b₁ post (descends_tail (by simpa using hd)) hc.1 hpos hsame

/-- **Stake maturity and the stake reuse window.**  On a chain whose proof-of-stake blocks all passed `GetStakeCoin`
for their coinstake input and their header `prevoutStake`, every staked coin is `CoinbaseMaturity` old at the
staking height, and a proof-of-stake block at `h₂` shares its `prevoutStake` with no block at `h₁ < h₂` closer than
`CoinbaseMaturity h₂`. -/
theorem stake_reuse_window (p : Params) (view : Int → COutPoint → Option Coin) (bs : List Block)
    (hd : Descends (bs.map Block.index)) (hc : StakeChecked p view bs) :
    (∀ b ∈ bs, b.isProofOfStake = true → ∀ o ∈ [b.stakeIn, b.index.prevoutStake], ∀ coin,
        view b.index.nHeight o = some coin → p.coinbaseMaturity b.index.nHeight ≤ b.index.nHeight - coin.nHeight) ∧
      ∀ pre b₂ mid b₁ post, bs = pre ++ b₂ :: (mid ++ b₁ :: post) → b₂.isProofOfStake = true →
        b₁.index.prevoutStake = b₂.index.prevoutStake →
        p.coinbaseMaturity b₂.index.nHeight ≤ b₂.index.nHeight - b₁.index.nHeight := by
  refine ⟨stakeChecked_mature p view bs hd hc, ?_⟩
  intro pre b₂ mid b₁ post hbs hpos hsame
  subst hbs
  exact stakeChecked_reuse_gap p view pre b₂ mid b₁ post hd hc hpos hsame

/-- A one-block maturity, and a delegated coin from genesis staked at heights 1 and 2: the second use is exactly
`CoinbaseMaturity` above the first, which the walk accepts. -/
def reuseParams : Params := { Params.main with nCoinbaseMaturity := 1, nRBTCoinbaseMaturity := 1 }

def reuseChain : List Block :=
  [⟨⟨2, ⟨1, 0⟩⟩, true, ⟨1, 0⟩⟩, ⟨⟨1, ⟨1, 0⟩⟩, true, ⟨1, 0⟩⟩, ⟨⟨0, ⟨0, 4294967295⟩⟩, false, ⟨0, 4294967295⟩⟩]

def reuseView (_ : Int) (o : COutPoint) : Option Coin := if o = ⟨1, 0⟩ then some ⟨0⟩ else none

theorem stake_reuse_window_at_boundary :
    Descends (reuseChain.map Block.index) ∧ StakeChecked reuseParams reuseView reuseChain ∧
      ((∀ b ∈ reuseChain, b.isProofOfStake = true → ∀ o ∈ [b.stakeIn, b.index.prevoutStake], ∀ coin,
        reuseView b.index.nHeight o = some coin →
          reuseParams.coinbaseMaturity b.index.nHeight ≤ b.index.nHeight - coin.nHeight) ∧
      ∀ pre b₂ mid b₁ post, reuseChain = pre ++ b₂ :: (mid ++ b₁ :: post) → b₂.isProofOfStake = true →
        b₁.index.prevoutStake = b₂.index.prevoutStake →
        reuseParams.coinbaseMaturity b₂.index.nHeight ≤ b₂.index.nHeight - b₁.index.nHeight) := by
  have hd : Descends (reuseChain.map Block.index) := by decide
  have hc : StakeChecked reuseParams reuseView reuseChain := by
    refine ⟨⟨⟨trivial, fun h => absurd h (by decide)⟩, fun _ => ?_⟩, fun _ => ?_⟩
    · exact ⟨⟨[reuseChain[2].index], by simp, by decide⟩, rfl, ⟨_, rfl⟩, ⟨_, rfl⟩⟩
    · exact ⟨⟨[reuseChain[1].index, reuseChain[2].index], by simp, by decide⟩, rfl, ⟨_, rfl⟩, ⟨_, rfl⟩⟩
  exact ⟨hd, hc, stake_reuse_window reuseParams reuseView reuseChain hd hc⟩

end Wattx
