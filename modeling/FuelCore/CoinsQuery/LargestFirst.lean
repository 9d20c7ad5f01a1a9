import FuelCore.GraphqlApi.CoinsToSpendKey
import FuelCore.Lib.LargestSum
import FuelCore.Lib.Saturating
import Mathlib.Data.Nat.Dist

/-! # Coin selection without the index: largest first and random improve

`coins_query.rs` answers `coins_to_spend` for an owner, one asset at a time, with a target
amount, at most `max` coins and an `allow_partial` flag. Without the coins-to-spend index it
runs `random_improve`: it shuffles the owner's coins of the asset, keeps the first `max`,
takes coins until the target is met and then keeps taking while a coin brings the change
closer to the target. If the shuffled coins do not reach the target, it falls back to
`largest_first`, which takes the coins largest first until the target is met and fails
with `MaxCoinsReached` or `InsufficientCoins` when it cannot be.

Amounts are `u64`, the running totals `u128` (natural numbers that saturate at
`2 ^ 128 - 1`). `shuffle` is an argument: the permutation it produced.
-/

namespace FuelCore.CoinsQuery

open FuelCore.GraphqlApi

/-- `entities::coins::CoinId`. -/
inductive CoinId
  | utxo (utxoId : UtxoId)
  | message (nonce : Nonce)
  deriving DecidableEq

/-- `entities::coins::CoinType`, of which the selection reads the amount. -/
inductive CoinType
  | coin (utxoId : UtxoId) (amount : UInt64)
  | messageCoin (nonce : Nonce) (amount : UInt64)
  deriving DecidableEq

def CoinType.amount : CoinType → UInt64
  | .coin _ amount => amount
  | .messageCoin _ amount => amount

/-- The amount of coins together, as the `u128` sum would be without saturating. -/
def totalAmount (coins : List CoinType) : ℕ :=
  (coins.map fun coin => coin.amount.toNat).sum

/-- `AssetSpendTarget`; the target is a `u128`. -/
structure AssetSpendTarget where
  id : AssetId
  target : ℕ
  max : UInt16
  allowPartial : Bool
  target_le : target ≤ Saturating.unsignedMax 128

/-- `AssetQuery` with the coins its `coins()` stream yields: the owner's unspent coins of the
asset, excluded ones left out. -/
structure AssetQuery where
  owner : Address
  asset : AssetSpendTarget
  coins : List CoinType

/-- The variants of `CoinsQueryError` that coin selection returns. -/
inductive CoinsQueryError
  | insufficientCoins (owner : Address) (assetId : AssetId) (collectedAmount : ℕ)
  | maxCoinsReached (owner : Address) (assetId : AssetId) (collectedAmount : ℕ) (max : UInt16)
  | tooManyCoinsSelected (required : ℕ) (max : UInt16)
  | unexpectedInternalState (message : String)
  deriving DecidableEq

/-! ## largest_first -/

/-- `inputs.sort_by_key(|coin| Reverse(coin.amount()))`: a stable sort, largest first. -/
def sortByAmountDesc (inputs : List CoinType) : List CoinType :=
  inputs.mergeSort fun a b => decide (b.amount ≤ a.amount)

/-- What `largest_first` does after its loop, with what it collected. -/
def largestFirstResult (query : AssetQuery) (collectedAmount : ℕ) (coins : List CoinType) :
    Except CoinsQueryError (List CoinType) :=
  if collectedAmount < query.asset.target then
    if query.asset.allowPartial ∧ 0 < collectedAmount then .ok coins
    else .error (.insufficientCoins query.owner query.asset.id collectedAmount)
  else .ok coins

/-- The return of `largest_first` inside its loop, when it holds `max` coins and needs more. -/
def maxCoinsExit (query : AssetQuery) (collectedAmount : ℕ) (coins : List CoinType) :
    Except CoinsQueryError (List CoinType) :=
  if query.asset.allowPartial then .ok coins
  else .error (.maxCoinsReached query.owner query.asset.id collectedAmount query.asset.max)

/-- The loop of `largest_first` over the sorted inputs; `break` goes on to
`largestFirstResult`. -/
def largestFirstLoop (query : AssetQuery) :
    List CoinType → ℕ → List CoinType → Except CoinsQueryError (List CoinType)
  | [], collectedAmount, coins => largestFirstResult query collectedAmount coins
  | coin :: inputs, collectedAmount, coins =>
      if query.asset.target ≤ collectedAmount then largestFirstResult query collectedAmount coins
      else if query.asset.max.toNat ≤ coins.length then maxCoinsExit query collectedAmount coins
      else
        largestFirstLoop query inputs (Saturating.add 128 collectedAmount coin.amount.toNat)
          (coins ++ [coin])

def largestFirst (query : AssetQuery) : Except CoinsQueryError (List CoinType) :=
  largestFirstLoop query (sortByAmountDesc query.coins) 0 []

/-! ## random_improve -/

/-- The loop of `random_improve` over the shuffled inputs cut to `max`: take coins until the
target is met, then go on while a coin below `upper_target` brings the change closer to
the target. -/
def randomImproveLoop (target upperTarget : ℕ) :
    List CoinType → ℕ → List CoinType → ℕ × List CoinType
  | [], collectedAmount, coins => (collectedAmount, coins)
  | coin :: inputs, collectedAmount, coins =>
      let next := randomImproveLoop target upperTarget inputs
        (Saturating.add 128 collectedAmount coin.amount.toNat) (coins ++ [coin])
      if target ≤ collectedAmount then
        if Saturating.unsignedMax 64 ≤ collectedAmount ∨ upperTarget < coin.amount.toNat then
          (collectedAmount, coins)
        else
          let changeAmount := collectedAmount - target
          let distance := target.dist changeAmount
          let nextDistance := target.dist (Saturating.add 128 changeAmount coin.amount.toNat)
          if distance ≤ nextDistance then (collectedAmount, coins) else next
      else next

/-- `random_improve` for one asset query, with the order `shuffle` left its coins in. -/
def randomImproveAsset (query : AssetQuery) (shuffled : List CoinType) :
    Except CoinsQueryError (List CoinType) :=
  let target := query.asset.target
  let inputs := shuffled.take query.asset.max.toNat
  let upperTarget := Saturating.mul 128 target 2
  let (collectedAmount, coins) := randomImproveLoop target upperTarget inputs 0 []
  if collectedAmount < target then largestFirst query else .ok coins

/-- `random_improve` over the asset queries of a spend query, each with its shuffle. -/
def randomImprove :
    List (AssetQuery × List CoinType) → Except CoinsQueryError (List (List CoinType))
  | [] => .ok []
  | (query, shuffled) :: queries => do
      let coins ← randomImproveAsset query shuffled
      let coinsPerAsset ← randomImprove queries
      pure (coins :: coinsPerAsset)

/-! ## The totals the loops keep -/

@[simp] theorem totalAmount_nil : totalAmount [] = 0 := rfl

@[simp] theorem totalAmount_append (coins coins' : List CoinType) :
    totalAmount (coins ++ coins') = totalAmount coins + totalAmount coins' := by
  simp [totalAmount]

@[simp] theorem totalAmount_singleton (coin : CoinType) : totalAmount [coin] = coin.amount.toNat := by
  simp [totalAmount]

theorem totalAmount_perm {coins coins' : List CoinType} (perm : coins.Perm coins') :
    totalAmount coins = totalAmount coins' :=
  (perm.map _).sum_eq

/-- The `u128` running total of a loop that added the amounts of `coins` from zero. -/
def saturatedTotal (coins : List CoinType) : ℕ :=
  min (totalAmount coins) (Saturating.unsignedMax 128)

@[simp] theorem saturatedTotal_nil : saturatedTotal [] = 0 := rfl

theorem add_saturatedTotal (coins : List CoinType) (coin : CoinType) :
    Saturating.add 128 (saturatedTotal coins) coin.amount.toNat = saturatedTotal (coins ++ [coin]) := by
  rw [saturatedTotal, Saturating.add_min_unsignedMax, saturatedTotal, totalAmount_append,
    totalAmount_singleton]

theorem saturatedTotal_le (coins : List CoinType) : saturatedTotal coins ≤ totalAmount coins :=
  min_le_left _ _

theorem saturatedTotal_eq_of_lt {coins : List CoinType} {target : ℕ}
    (fits : target ≤ Saturating.unsignedMax 128) (below : saturatedTotal coins < target) :
    saturatedTotal coins = totalAmount coins := by
  unfold saturatedTotal at *
  omega

/-! ## The largest-first order -/

theorem sortByAmountDesc_perm (coins : List CoinType) : (sortByAmountDesc coins).Perm coins :=
  List.mergeSort_perm _ _

theorem sortByAmountDesc_sorted (coins : List CoinType) :
    (sortByAmountDesc coins).Pairwise fun a b => b.amount.toNat ≤ a.amount.toNat := by
  have sorted := @List.pairwise_mergeSort _ (fun a b : CoinType => decide (b.amount ≤ a.amount))
    (fun a b c first second => by
      simp only [decide_eq_true_eq] at *
      exact UInt64.le_trans second first)
    (fun a b => by simpa using UInt64.le_total b.amount a.amount) coins
  exact sorted.imp fun below => UInt64.le_iff_toNat_le.mp (of_decide_eq_true below)

/-! ## How the loop of largest_first ends -/

section
variable (query : AssetQuery)

/-- The loop takes a prefix of its inputs and ends either through `largestFirstResult`,
having run out of inputs or reached the target, or through `maxCoinsExit`, holding `max`
coins short of the target. -/
theorem largestFirstLoop_exits (rest done : List CoinType)
    (fits : done.length ≤ query.asset.max.toNat) :
    ∃ taken, taken <+: rest ∧ (done ++ taken).length ≤ query.asset.max.toNat ∧
      (((taken = rest ∨ query.asset.target ≤ saturatedTotal (done ++ taken)) ∧
          largestFirstLoop query rest (saturatedTotal done) done =
            largestFirstResult query (saturatedTotal (done ++ taken)) (done ++ taken)) ∨
        (saturatedTotal (done ++ taken) < query.asset.target ∧
          (done ++ taken).length = query.asset.max.toNat ∧
          largestFirstLoop query rest (saturatedTotal done) done =
            maxCoinsExit query (saturatedTotal (done ++ taken)) (done ++ taken))) := by
  induction rest generalizing done with
  | nil => exact ⟨[], List.prefix_refl _, by simpa using fits, .inl ⟨.inl rfl, by simp [largestFirstLoop]⟩⟩
  | cons coin inputs induction =>
      by_cases reached : query.asset.target ≤ saturatedTotal done
      · refine ⟨[], List.nil_prefix, by simpa using fits, .inl ⟨.inr (by simpa using reached), ?_⟩⟩
        simp [largestFirstLoop, reached]
      by_cases full : query.asset.max.toNat ≤ done.length
      · refine ⟨[], List.nil_prefix, by simpa using fits, .inr ⟨by simpa using reached, by simp; omega, ?_⟩⟩
        simp [largestFirstLoop, reached, full]
      obtain ⟨taken, takenPrefix, bounded, exits⟩ := induction (done ++ [coin]) (by simp; omega)
      have step : largestFirstLoop query (coin :: inputs) (saturatedTotal done) done =
          largestFirstLoop query inputs (saturatedTotal (done ++ [coin])) (done ++ [coin]) := by
        simp [largestFirstLoop, reached, full, add_saturatedTotal]
      refine ⟨coin :: taken, List.cons_prefix_cons.mpr ⟨rfl, takenPrefix⟩, by simpa using bounded, ?_⟩
      rw [step]
      simpa [List.cons_inj_right] using exits

theorem largestFirst_exits :
    ∃ taken, taken <+: sortByAmountDesc query.coins ∧ taken.length ≤ query.asset.max.toNat ∧
      (((taken = sortByAmountDesc query.coins ∨ query.asset.target ≤ saturatedTotal taken) ∧
          largestFirst query = largestFirstResult query (saturatedTotal taken) taken) ∨
        (saturatedTotal taken < query.asset.target ∧ taken.length = query.asset.max.toNat ∧
          largestFirst query = maxCoinsExit query (saturatedTotal taken) taken)) := by
  simpa [largestFirst] using
    largestFirstLoop_exits query (sortByAmountDesc query.coins) [] (Nat.zero_le _)

/-- What `largest_first` returns is the largest coins first, at most `max` of them, and
reaches the target unless `allow_partial` lets it stop short with some coins. -/
theorem largestFirst_ok {coins : List CoinType} (positive : 0 < query.asset.max.toNat)
    (selected : largestFirst query = .ok coins) :
    coins <+: sortByAmountDesc query.coins ∧ coins.length ≤ query.asset.max.toNat ∧
      (query.asset.target ≤ totalAmount coins ∨ query.asset.allowPartial = true ∧ coins ≠ []) := by
  obtain ⟨taken, takenPrefix, bounded, ⟨-, result⟩ | ⟨-, full, result⟩⟩ := largestFirst_exits query
  · rw [result, largestFirstResult] at selected
    split_ifs at selected with short stopsShort
    · cases selected
      have nonempty : coins ≠ [] := by
        rintro rfl
        simp at stopsShort
      exact ⟨takenPrefix, bounded, .inr ⟨stopsShort.1, nonempty⟩⟩
    · cases selected
      exact ⟨takenPrefix, bounded, .inl ((Nat.not_lt.mp short).trans (saturatedTotal_le _))⟩
  · rw [result, maxCoinsExit] at selected
    split_ifs at selected with allowed
    cases selected
    have nonempty : coins ≠ [] := by
      rintro rfl
      simp at full
      omega
    exact ⟨takenPrefix, bounded, .inr ⟨allowed, nonempty⟩⟩

/-- `largest_first` runs out of room only when no `max` of the coins reach the target: the
`max` largest, which it holds, fall short. -/
theorem largestFirst_maxCoinsReached {owner : Address} {assetId : AssetId} {collected : ℕ}
    {max : UInt16} (distinct : query.coins.Nodup)
    (failed : largestFirst query = .error (.maxCoinsReached owner assetId collected max))
    (S : Finset CoinType) (within : S ⊆ query.coins.toFinset)
    (fewer : S.card ≤ query.asset.max.toNat) :
    ∑ coin ∈ S, coin.amount.toNat < query.asset.target := by
  obtain ⟨taken, takenPrefix, -, ⟨-, result⟩ | ⟨short, full, -⟩⟩ := largestFirst_exits query
  · rw [result, largestFirstResult] at failed
    split_ifs at failed
    cases failed
  have sorted := sortByAmountDesc_perm query.coins
  have isTake : taken = (sortByAmountDesc query.coins).take query.asset.max.toNat := by
    rw [← full]
    exact List.prefix_iff_eq_take.mp takenPrefix
  have largest := List.sum_le_sum_take_of_sorted (fun coin => coin.amount.toNat)
    (sorted.nodup_iff.mpr distinct) (sortByAmountDesc_sorted query.coins) query.asset.max.toNat
    (by rwa [List.toFinset_eq_of_perm _ _ sorted]) fewer
  rw [← isTake] at largest
  have exact := saturatedTotal_eq_of_lt query.asset.target_le short
  calc ∑ coin ∈ S, coin.amount.toNat
      ≤ totalAmount taken := largest
    _ = saturatedTotal taken := exact.symm
    _ < query.asset.target := short

/-- `largest_first` finds too few coins only when all of them fall short of the target. -/
theorem largestFirst_insufficientCoins {owner : Address} {assetId : AssetId} {collected : ℕ}
    (failed : largestFirst query = .error (.insufficientCoins owner assetId collected)) :
    totalAmount query.coins < query.asset.target := by
  obtain ⟨taken, -, -, ⟨ended, result⟩ | ⟨-, -, result⟩⟩ := largestFirst_exits query
  · rw [result, largestFirstResult] at failed
    split_ifs at failed with short
    have allTaken : taken = sortByAmountDesc query.coins :=
      ended.resolve_right (Nat.not_le.mpr short)
    rw [← totalAmount_perm (sortByAmountDesc_perm query.coins), ← allTaken,
      ← saturatedTotal_eq_of_lt query.asset.target_le short]
    exact short
  · rw [result, maxCoinsExit] at failed
    split_ifs at failed
    cases failed

end

/-! ## random_improve -/

theorem randomImproveLoop_eq (target upperTarget : ℕ) (inputs done : List CoinType) :
    ∃ taken, taken <+: inputs ∧
      randomImproveLoop target upperTarget inputs (saturatedTotal done) done =
        (saturatedTotal (done ++ taken), done ++ taken) := by
  induction inputs generalizing done with
  | nil => exact ⟨[], List.prefix_refl _, by simp [randomImproveLoop]⟩
  | cons coin inputs induction =>
      obtain ⟨taken, takenPrefix, next⟩ := induction (done ++ [coin])
      rw [← add_saturatedTotal] at next
      have continues : ∃ taken, taken <+: coin :: inputs ∧
          randomImproveLoop target upperTarget inputs
              (Saturating.add 128 (saturatedTotal done) coin.amount.toNat) (done ++ [coin]) =
            (saturatedTotal (done ++ taken), done ++ taken) :=
        ⟨coin :: taken, List.cons_prefix_cons.mpr ⟨rfl, takenPrefix⟩, by simpa using next⟩
      have stops : ∃ taken, taken <+: coin :: inputs ∧
          (saturatedTotal done, done) = (saturatedTotal (done ++ taken), done ++ taken) :=
        ⟨[], List.nil_prefix, by simp⟩
      -- every branch of the loop body either stops here or goes on with the coin
      simp only [randomImproveLoop]
      split_ifs
      all_goals first | exact stops | exact continues

/-- What is asked of the coins chosen for one asset query: at most `max` of the query's
coins, none twice, reaching the target, or with `allow_partial` the largest ones first. -/
def Selected (query : AssetQuery) (coins : List CoinType) : Prop :=
  coins.length ≤ query.asset.max.toNat ∧ coins.Nodup ∧ (∀ coin ∈ coins, coin ∈ query.coins) ∧
    (query.asset.target ≤ totalAmount coins ∨
      query.asset.allowPartial = true ∧ coins ≠ [] ∧ coins <+: sortByAmountDesc query.coins)

theorem randomImproveAsset_selected {query : AssetQuery} {shuffled coins : List CoinType}
    (shuffle : shuffled.Perm query.coins) (distinct : query.coins.Nodup)
    (positive : 0 < query.asset.max.toNat)
    (selected : randomImproveAsset query shuffled = .ok coins) : Selected query coins := by
  obtain ⟨taken, takenPrefix, loop⟩ := randomImproveLoop_eq query.asset.target
    (Saturating.mul 128 query.asset.target 2) (shuffled.take query.asset.max.toNat) []
  simp only [saturatedTotal_nil, List.nil_append] at loop
  simp only [randomImproveAsset, loop] at selected
  split_ifs at selected with short
  · -- the shuffled coins fall short: the answer is largest_first's
    obtain ⟨sortedPrefix, bounded, reaches⟩ := largestFirst_ok query positive selected
    have sorted := sortByAmountDesc_perm query.coins
    refine ⟨bounded, ((sorted.nodup_iff.mpr distinct).sublist sortedPrefix.sublist),
      fun coin member => sorted.mem_iff.mp (sortedPrefix.sublist.subset member), ?_⟩
    rcases reaches with enough | ⟨allowed, nonempty⟩
    · exact .inl enough
    · exact .inr ⟨allowed, nonempty, sortedPrefix⟩
  · cases selected
    have within : List.Sublist coins shuffled := takenPrefix.sublist.trans (List.take_sublist _ _)
    refine ⟨(takenPrefix.length_le).trans (List.length_take_le _ _),
      (shuffle.nodup_iff.mpr distinct).sublist within,
      fun coin member => shuffle.mem_iff.mp (within.subset member),
      .inl ((Nat.not_lt.mp short).trans (saturatedTotal_le _))⟩

theorem randomImprove_selected {queries : List (AssetQuery × List CoinType)}
    {coinsPerAsset : List (List CoinType)}
    (shuffled : ∀ entry ∈ queries, entry.2.Perm entry.1.coins)
    (distinct : ∀ entry ∈ queries, entry.1.coins.Nodup)
    (positive : ∀ entry ∈ queries, 0 < entry.1.asset.max.toNat)
    (selected : randomImprove queries = .ok coinsPerAsset) :
    List.Forall₂ (fun entry coins => Selected entry.1 coins) queries coinsPerAsset := by
  induction queries generalizing coinsPerAsset with
  | nil =>
      cases selected
      exact .nil
  | cons entry queries induction =>
      obtain ⟨query, shuffle⟩ := entry
      simp only [randomImprove, bind, Except.bind] at selected
      split at selected
      · cases selected
      · rename_i coins first
        split at selected
        · cases selected
        · rename_i rest others
          cases selected
          exact .cons
            (randomImproveAsset_selected (shuffled _ (List.mem_cons_self ..))
              (distinct _ (List.mem_cons_self ..)) (positive _ (List.mem_cons_self ..)) first)
            (induction (fun e member => shuffled e (List.mem_cons_of_mem _ member))
              (fun e member => distinct e (List.mem_cons_of_mem _ member))
              (fun e member => positive e (List.mem_cons_of_mem _ member)) others)

/-! ## Selection stays within `max` and reaches the target -/

theorem random_improve_selects_within_max_and_target
    (queries : List (AssetQuery × List CoinType))
    (shuffled : ∀ entry ∈ queries, entry.2.Perm entry.1.coins)
    (distinct : ∀ entry ∈ queries, entry.1.coins.Nodup)
    (positive : ∀ entry ∈ queries, 0 < entry.1.asset.max.toNat) :
    (∀ coinsPerAsset, randomImprove queries = .ok coinsPerAsset →
        List.Forall₂ (fun entry coins => Selected entry.1 coins) queries coinsPerAsset) ∧
      ∀ query : AssetQuery, query.coins.Nodup →
        (∀ owner assetId collected max,
            largestFirst query = .error (.maxCoinsReached owner assetId collected max) →
            ∀ S ⊆ query.coins.toFinset, S.card ≤ query.asset.max.toNat →
              ∑ coin ∈ S, coin.amount.toNat < query.asset.target) ∧
        (∀ owner assetId collected,
            largestFirst query = .error (.insufficientCoins owner assetId collected) →
            totalAmount query.coins < query.asset.target) :=
  ⟨fun _ selected => randomImprove_selected shuffled distinct positive selected,
    fun query distinct' =>
      ⟨fun _ _ _ _ failed S within fewer =>
          largestFirst_maxCoinsReached query distinct' failed S within fewer,
        fun _ _ _ failed => largestFirst_insufficientCoins query failed⟩⟩

/-- One coin of 5 for a target of 10 with at most no coins, allowing a partial answer. -/
def zeroMaxQuery : AssetQuery :=
  ⟨Bytes.zeroed 32, ⟨Bytes.zeroed 32, 10, 0, true, by decide⟩, [.coin ⟨Bytes.zeroed 32, 0⟩ 5]⟩

theorem zero_max_partial_query_returns_no_coins :
    randomImprove [(zeroMaxQuery, zeroMaxQuery.coins)] = .ok [[]] ∧ ¬Selected zeroMaxQuery [] := by
  refine ⟨?_, by simp [Selected, zeroMaxQuery]⟩
  simp [randomImprove, randomImproveAsset, randomImproveLoop, largestFirst, sortByAmountDesc,
    largestFirstLoop, maxCoinsExit, zeroMaxQuery, bind, Except.bind, pure, Except.pure]


/-- A coin of the zero transaction at an output index, of an amount. -/
def outputCoin (index : UInt16) (amount : UInt64) : CoinType :=
  .coin ⟨Bytes.zeroed 32, index⟩ amount

/-- Coins of 2, 7, 4, 1 and 10 for a target of 8 with at most four coins. -/
def improvingQuery : AssetQuery :=
  ⟨Bytes.zeroed 32, ⟨Bytes.zeroed 32, 8, 4, false, by decide⟩,
    [outputCoin 0 2, outputCoin 1 7, outputCoin 2 4, outputCoin 3 1, outputCoin 4 10]⟩

/-- The shuffle reaches the target with 4, 2 and 7; the 1 then brings the change of 5 closer to
the target, and the 10 is cut off by the maximum. -/
theorem shuffled_query_improves_past_target :
    randomImprove [(improvingQuery, [outputCoin 2 4, outputCoin 0 2, outputCoin 1 7,
        outputCoin 3 1, outputCoin 4 10])] =
        .ok [[outputCoin 2 4, outputCoin 0 2, outputCoin 1 7, outputCoin 3 1]] ∧
      Selected improvingQuery [outputCoin 2 4, outputCoin 0 2, outputCoin 1 7, outputCoin 3 1] := by
  have evaluated : randomImprove [(improvingQuery, [outputCoin 2 4, outputCoin 0 2,
      outputCoin 1 7, outputCoin 3 1, outputCoin 4 10])] =
      .ok [[outputCoin 2 4, outputCoin 0 2, outputCoin 1 7, outputCoin 3 1]] := by
    decide
  refine ⟨evaluated, ?_⟩
  have selected := (random_improve_selects_within_max_and_target _ (by decide) (by decide)
    (by decide)).1 _ evaluated
  exact (List.forall₂_cons.mp selected).1

end FuelCore.CoinsQuery
