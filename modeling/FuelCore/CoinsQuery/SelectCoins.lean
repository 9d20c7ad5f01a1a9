import FuelCore.CoinsQuery.LargestFirst
import FuelCore.Lib.Unsigned

/-! # Coin selection over the coins-to-spend index

With the coins-to-spend index, `select_coins_to_spend` reads the keys of one owner and
asset from two iterators over the index: `big_coins_iter` from the largest key down and
`dust_coins_iter` from the smallest up. It takes big coins until they cover twice the
target or `max` coins are taken, then up to a random number of dust coins, stopping where
the dust iterator meets the smallest big coin taken, and last drops the largest big coins
that the dust already pays for.

Keys sort by flag, owner, asset and amount first (`FuelCore.GraphqlApi.encode_lt_encode`),
so over one owner and asset the big iterator meets the amounts in descending order. The
random draw of `max_dust_count` is an argument `genRange`, which given an upper bound
returns a number up to it.
-/

namespace FuelCore.CoinsQuery

open FuelCore.GraphqlApi

/-- `Exclude`: the ids of the coins the query leaves out. -/
structure Exclude where
  coinIds : List CoinId

def Exclude.containsCoin (exclude : Exclude) (utxoId : UtxoId) : Bool :=
  decide (CoinId.utxo utxoId ∈ exclude.coinIds)

def Exclude.containsMessage (exclude : Exclude) (nonce : Nonce) : Bool :=
  decide (CoinId.message nonce ∈ exclude.coinIds)

def isExcluded (key : CoinsToSpendIndexKey) (exclude : Exclude) : Bool :=
  match key with
  | .coin _ _ _ utxoId => exclude.containsCoin utxoId
  | .message _ _ _ _ nonce => exclude.containsMessage nonce

/-- The amount of keys together, without saturating. -/
def keysAmount (keys : List CoinsToSpendIndexKey) : ℕ :=
  (keys.map fun key => key.amount.toNat).sum

/-- `select_coins_until`: take the keys that are not excluded until `max` are taken or the
predicate holds of the next one; returns the `u128` total, the keys, and whether it
stopped before the end. -/
def selectCoinsUntil (max : ℕ) (exclude : Exclude)
    (predicate : CoinsToSpendIndexKey → ℕ → Bool) :
    List CoinsToSpendIndexKey → ℕ → List CoinsToSpendIndexKey →
      ℕ × List CoinsToSpendIndexKey × Bool
  | [], coinsTotalValue, coins => (coinsTotalValue, coins, false)
  | coin :: stream, coinsTotalValue, coins =>
      if isExcluded coin exclude then selectCoinsUntil max exclude predicate stream coinsTotalValue coins
      else if decide (max ≤ coins.length) || predicate coin coinsTotalValue then
        (coinsTotalValue, coins, true)
      else
        selectCoinsUntil max exclude predicate stream
          (Saturating.add 128 coinsTotalValue coin.amount.toNat) (coins ++ [coin])

def bigCoins (bigCoinsStream : List CoinsToSpendIndexKey) (total : ℕ) (max : UInt16)
    (exclude : Exclude) : ℕ × List CoinsToSpendIndexKey × Bool :=
  selectCoinsUntil max.toNat exclude (fun _ totalSoFar => decide (total ≤ totalSoFar))
    bigCoinsStream 0 []

def dustCoins (dustCoinsStream : List CoinsToSpendIndexKey) (lastBigCoin : CoinsToSpendIndexKey)
    (maxDustCount : UInt16) (exclude : Exclude) : ℕ × List CoinsToSpendIndexKey × Bool :=
  selectCoinsUntil maxDustCount.toNat exclude (fun coin _ => decide (coin = lastBigCoin))
    dustCoinsStream 0 []

/-- The upper bound of the range `max_dust_count` draws from. -/
def maxDustCountUpperBound (max bigCoinsLen dustToBigCoinsFactor : UInt16) : UInt16 :=
  let maxFromFactor := bigCoinsLen.saturatingMul dustToBigCoinsFactor
  let maxAdjusted := max.saturatingSub bigCoinsLen
  min maxFromFactor maxAdjusted

/-- `max_dust_count`: `rng.gen_range(0..=upper_bound)`, the draw being `genRange`. -/
def maxDustCount (genRange : UInt16 → UInt16) (max bigCoinsLen dustToBigCoinsFactor : UInt16) :
    UInt16 :=
  genRange (maxDustCountUpperBound max bigCoinsLen dustToBigCoinsFactor)

/-- `skip_big_coins_up_to_amount`: drop big coins from the front while the dust still
covers them. -/
def skipBigCoinsUpToAmount :
    List CoinsToSpendIndexKey → ℕ → List CoinsToSpendIndexKey
  | [], _ => []
  | item :: bigCoins, currentDustCoinsValue =>
      if item.amount.toNat ≤ currentDustCoinsValue then
        skipBigCoinsUpToAmount bigCoins (currentDustCoinsValue - item.amount.toNat)
      else item :: bigCoins

def totalAmountAdjustmentFactor : ℕ := 2
def dustToBigCoinsFactor : UInt16 := 5

def selectCoinsToSpend (bigCoinsIter dustCoinsIter : List CoinsToSpendIndexKey)
    (asset : AssetSpendTarget) (exclude : Exclude) (owner : Address)
    (genRange : UInt16 → UInt16) : Except CoinsQueryError (List CoinsToSpendIndexKey) :=
  let total := asset.target
  let max := asset.max
  if total = 0 ∨ max = 0 then .ok []
  else
    let adjustedTotal := Saturating.mul 128 total totalAmountAdjustmentFactor
    let (selectedBigCoinsTotal, selectedBigCoins, hasMoreBigCoins) :=
      bigCoins bigCoinsIter adjustedTotal max exclude
    if selectedBigCoinsTotal = 0 ∨ (selectedBigCoinsTotal < total ∧ asset.allowPartial = false) then
      if max.toNat ≤ selectedBigCoins.length ∧ hasMoreBigCoins = true then
        .error (.maxCoinsReached owner asset.id selectedBigCoinsTotal max)
      else .error (.insufficientCoins owner asset.id selectedBigCoinsTotal)
    else
      match selectedBigCoins.getLast? with
      | none => .error (.unexpectedInternalState "at least one coin should be selected")
      | some lastSelectedBigCoin =>
          let selectedBigCoinsLen := selectedBigCoins.length
          if UInt16.size ≤ selectedBigCoinsLen then
            .error (.tooManyCoinsSelected selectedBigCoinsLen (UInt16.ofNat (UInt16.size - 1)))
          else
            let numberOfBigCoins := selectedBigCoinsLen.toUInt16
            let maxDustCount := maxDustCount genRange max numberOfBigCoins dustToBigCoinsFactor
            let (dustCoinsTotal, selectedDustCoins, _) :=
              dustCoins dustCoinsIter lastSelectedBigCoin maxDustCount exclude
            .ok (skipBigCoinsUpToAmount selectedBigCoins dustCoinsTotal ++ selectedDustCoins)

/-! ## Taking keys until a predicate holds -/

/-- The keys of a stream that are not excluded, in its order. -/
def notExcluded (exclude : Exclude) (stream : List CoinsToSpendIndexKey) :
    List CoinsToSpendIndexKey :=
  stream.filter fun key => !isExcluded key exclude

/-- The `u128` total of a loop that added the amounts of `keys` from zero. -/
def saturatedKeysAmount (keys : List CoinsToSpendIndexKey) : ℕ :=
  min (keysAmount keys) (Saturating.unsignedMax 128)

@[simp] theorem keysAmount_nil : keysAmount [] = 0 := rfl

@[simp] theorem keysAmount_append (keys keys' : List CoinsToSpendIndexKey) :
    keysAmount (keys ++ keys') = keysAmount keys + keysAmount keys' := by
  simp [keysAmount]

@[simp] theorem keysAmount_singleton (key : CoinsToSpendIndexKey) :
    keysAmount [key] = key.amount.toNat := by
  simp [keysAmount]

@[simp] theorem saturatedKeysAmount_nil : saturatedKeysAmount [] = 0 := rfl

theorem add_saturatedKeysAmount (keys : List CoinsToSpendIndexKey) (key : CoinsToSpendIndexKey) :
    Saturating.add 128 (saturatedKeysAmount keys) key.amount.toNat =
      saturatedKeysAmount (keys ++ [key]) := by
  rw [saturatedKeysAmount, Saturating.add_min_unsignedMax, saturatedKeysAmount, keysAmount_append,
    keysAmount_singleton]

/-- How `select_coins_until` ends: having taken every key that is not excluded, or before
the next one, because `max` keys are taken or the predicate holds of it. -/
theorem selectCoinsUntil_exits (max : ℕ) (exclude : Exclude)
    (predicate : CoinsToSpendIndexKey → ℕ → Bool) (stream done : List CoinsToSpendIndexKey)
    (fits : done.length ≤ max) :
    ∃ taken, (done ++ taken).length ≤ max ∧ (∀ coin ∈ taken, ∃ total, predicate coin total = false) ∧
      ((selectCoinsUntil max exclude predicate stream (saturatedKeysAmount done) done =
            (saturatedKeysAmount (done ++ taken), done ++ taken, false) ∧
          taken = notExcluded exclude stream) ∨
        (selectCoinsUntil max exclude predicate stream (saturatedKeysAmount done) done =
            (saturatedKeysAmount (done ++ taken), done ++ taken, true) ∧
          ∃ next rest, notExcluded exclude stream = taken ++ next :: rest ∧
            (max ≤ (done ++ taken).length ∨
              predicate next (saturatedKeysAmount (done ++ taken)) = true))) := by
  induction stream generalizing done with
  | nil => exact ⟨[], by simpa using fits, by simp, .inl ⟨by simp [selectCoinsUntil], rfl⟩⟩
  | cons coin stream induction =>
      by_cases excluded : isExcluded coin exclude = true
      · obtain ⟨taken, bounded, passed, exits⟩ := induction done fits
        have skipped : notExcluded exclude (coin :: stream) = notExcluded exclude stream := by
          simp [notExcluded, excluded]
        refine ⟨taken, bounded, passed, ?_⟩
        simpa [selectCoinsUntil, excluded, skipped] using exits
      have kept : notExcluded exclude (coin :: stream) = coin :: notExcluded exclude stream := by
        simp [notExcluded, excluded]
      by_cases stops : (decide (max ≤ done.length) || predicate coin (saturatedKeysAmount done)) = true
      · refine ⟨[], by simpa using fits, by simp, .inr ⟨?_, coin, notExcluded exclude stream, kept, ?_⟩⟩
        · simp [selectCoinsUntil, excluded, stops]
        · simpa using stops
      simp only [Bool.or_eq_true, decide_eq_true_eq, not_or, Bool.not_eq_true] at stops
      obtain ⟨taken, bounded, passed, exits⟩ := induction (done ++ [coin]) (by simp; omega)
      have step : selectCoinsUntil max exclude predicate (coin :: stream) (saturatedKeysAmount done) done =
          selectCoinsUntil max exclude predicate stream (saturatedKeysAmount (done ++ [coin]))
            (done ++ [coin]) := by
        simp [selectCoinsUntil, excluded, stops, add_saturatedKeysAmount]
      refine ⟨coin :: taken, by simpa using bounded, ?_, ?_⟩
      · intro key member
        rcases List.mem_cons.mp member with rfl | later
        · exact ⟨_, stops.2⟩
        · exact passed key later
      · rw [step, kept]
        simpa using exits

/-- The skipped big coins are a prefix the dust pays for. -/
theorem skipBigCoinsUpToAmount_eq_drop (bigCoins : List CoinsToSpendIndexKey) (amount : ℕ) :
    ∃ skipped, skipBigCoinsUpToAmount bigCoins amount = bigCoins.drop skipped ∧
      keysAmount (bigCoins.take skipped) ≤ amount := by
  induction bigCoins generalizing amount with
  | nil => exact ⟨0, rfl, by simp⟩
  | cons item bigCoins induction =>
      by_cases covered : item.amount.toNat ≤ amount
      · obtain ⟨skipped, rest, paid⟩ := induction (amount - item.amount.toNat)
        refine ⟨skipped + 1, by simp [skipBigCoinsUpToAmount, covered, rest], ?_⟩
        simp only [List.take_succ_cons, keysAmount, List.map_cons, List.sum_cons] at paid ⊢
        omega
      · exact ⟨0, by simp [skipBigCoinsUpToAmount, covered], by simp⟩

/-! ## The order of the two iterators -/

section
variable {exclude : Exclude} {stream : List CoinsToSpendIndexKey}

theorem nodup_of_pairwise_irreflexive {R : CoinsToSpendIndexKey → CoinsToSpendIndexKey → Prop}
    (irreflexive : ∀ key, ¬R key key) (sorted : stream.Pairwise R) : stream.Nodup := by
  refine sorted.imp ?_
  intro a b related same
  subst same
  exact irreflexive _ related

theorem encode_lt_of_taken_before {taken : List CoinsToSpendIndexKey} {last : CoinsToSpendIndexKey}
    (ascending : stream.Pairwise fun a b => encode a < encode b)
    (front : taken <+: notExcluded exclude stream) (lastIn : last ∈ notExcluded exclude stream)
    (notLast : ∀ coin ∈ taken, coin ≠ last) : ∀ coin ∈ taken, encode coin < encode last := by
  obtain ⟨rest, split⟩ := front
  have sorted : (notExcluded exclude stream).Pairwise fun a b => encode a < encode b :=
    ascending.filter _
  rw [← split] at sorted lastIn
  rw [List.mem_append] at lastIn
  have later : last ∈ rest := lastIn.resolve_left fun member => notLast last member rfl
  exact fun coin member => (List.pairwise_append.mp sorted).2.2 coin member last later

theorem encode_le_of_taken {taken : List CoinsToSpendIndexKey} {last : CoinsToSpendIndexKey}
    (descending : stream.Pairwise fun a b => encode b < encode a)
    (front : taken <+: notExcluded exclude stream) (isLast : taken.getLast? = some last) :
    ∀ coin ∈ taken, coin = last ∨ encode last < encode coin := by
  obtain ⟨init, rfl⟩ := List.getLast?_eq_some_iff.mp isLast
  have sorted : (init ++ [last]).Pairwise fun a b => encode b < encode a :=
    (descending.filter _).sublist front.sublist
  intro coin member
  rcases List.mem_append.mp member with before | atEnd
  · exact .inr ((List.pairwise_append.mp sorted).2.2 coin before last (List.mem_singleton_self _))
  · exact .inl (List.mem_singleton.mp atEnd)

end

/-! ## What the selection answers -/

/-- What is asked of an answer of `select_coins_to_spend` over the keys of the index:
distinct keys of it that are not excluded, at most `max`, reaching the target unless
`allow_partial`; `InsufficientCoins` only when the keys not excluded fall short together,
`MaxCoinsReached` only when no `max` of them reach the target, and no other error. -/
def SelectionAnswers (keys : List CoinsToSpendIndexKey) (exclude : Exclude)
    (asset : AssetSpendTarget) : Except CoinsQueryError (List CoinsToSpendIndexKey) → Prop
  | .ok coins => coins.Nodup ∧ (∀ coin ∈ coins, coin ∈ keys ∧ isExcluded coin exclude = false) ∧
      coins.length ≤ asset.max.toNat ∧ (asset.allowPartial = false → asset.target ≤ keysAmount coins)
  | .error (.insufficientCoins _ _ _) => keysAmount (notExcluded exclude keys) < asset.target
  | .error (.maxCoinsReached _ _ _ _) =>
      ∀ S ⊆ (notExcluded exclude keys).toFinset, S.card ≤ asset.max.toNat →
        ∑ key ∈ S, key.amount.toNat < asset.target
  | .error _ => False

theorem saturatedKeysAmount_eq_of_lt {keys : List CoinsToSpendIndexKey} {target : ℕ}
    (fits : target ≤ Saturating.unsignedMax 128) (below : saturatedKeysAmount keys < target) :
    saturatedKeysAmount keys = keysAmount keys := by
  unfold saturatedKeysAmount at *
  omega

section
variable {keys : List CoinsToSpendIndexKey} {exclude : Exclude} {asset : AssetSpendTarget}
  {big : List CoinsToSpendIndexKey}

/-- Holding `max` coins short of the target, the big coins are the `max` largest, so no `max`
coins reach it. -/
theorem maxCoinsReached_answers
    (amountsDescending : (notExcluded exclude keys).Pairwise fun a b => b.amount.toNat ≤ a.amount.toNat)
    (distinct : (notExcluded exclude keys).Nodup) (front : big <+: notExcluded exclude keys)
    (full : big.length = asset.max.toNat) (short : saturatedKeysAmount big < asset.target) :
    ∀ S ⊆ (notExcluded exclude keys).toFinset, S.card ≤ asset.max.toNat →
      ∑ key ∈ S, key.amount.toNat < asset.target := by
  intro S within fewer
  have isTake : big = (notExcluded exclude keys).take asset.max.toNat := by
    rw [← full]
    exact List.prefix_iff_eq_take.mp front
  have largest := List.sum_le_sum_take_of_sorted (fun key => key.amount.toNat) distinct
    amountsDescending asset.max.toNat within fewer
  rw [← isTake] at largest
  have exact := saturatedKeysAmount_eq_of_lt asset.target_le short
  calc ∑ key ∈ S, key.amount.toNat
      ≤ keysAmount big := largest
    _ = saturatedKeysAmount big := exact.symm
    _ < asset.target := short

theorem insufficientCoins_answers {hasMore : Bool} (positive : 0 < asset.target)
    (exhausted : hasMore = false → big = notExcluded exclude keys)
    (stopped : hasMore = true → asset.max.toNat ≤ big.length ∨
      Saturating.mul 128 asset.target totalAmountAdjustmentFactor ≤ saturatedKeysAmount big)
    (short : saturatedKeysAmount big = 0 ∨
      (saturatedKeysAmount big < asset.target ∧ asset.allowPartial = false))
    (roomLeft : ¬(asset.max.toNat ≤ big.length ∧ hasMore = true)) :
    keysAmount (notExcluded exclude keys) < asset.target := by
  have below : saturatedKeysAmount big < asset.target := by
    rcases short with zero | ⟨less, -⟩
    · omega
    · exact less
  cases hasMore with
  | false =>
      rw [← exhausted rfl, ← saturatedKeysAmount_eq_of_lt asset.target_le below]
      exact below
  | true =>
      -- the big coins stopped at twice the target, which is at least the target
      have covered := (stopped rfl).resolve_left fun full => roomLeft ⟨full, rfl⟩
      have twice : asset.target ≤ Saturating.mul 128 asset.target totalAmountAdjustmentFactor := by
        have fits := asset.target_le
        unfold Saturating.mul totalAmountAdjustmentFactor
        omega
      omega

theorem mem_notExcluded {key : CoinsToSpendIndexKey} :
    key ∈ notExcluded exclude keys ↔ key ∈ keys ∧ isExcluded key exclude = false := by
  simp [notExcluded]

/-- The answer when the big coins are enough: the big coins the dust does not pay for, then
the dust, which lies below the smallest big coin and so is none of them. -/
theorem skip_append_dust_answers {dustIter dust : List CoinsToSpendIndexKey}
    {last : CoinsToSpendIndexKey}
    (descending : keys.Pairwise fun a b => encode b < encode a)
    (ascending : dustIter.Pairwise fun a b => encode a < encode b)
    (sameKeys : ∀ key, key ∈ dustIter ↔ key ∈ keys)
    (bigFront : big <+: notExcluded exclude keys) (isLast : big.getLast? = some last)
    (dustFront : dust <+: notExcluded exclude dustIter) (notLast : ∀ coin ∈ dust, coin ≠ last)
    (fits : big.length + dust.length ≤ asset.max.toNat)
    (enough : asset.allowPartial = false → asset.target ≤ saturatedKeysAmount big) :
    SelectionAnswers keys exclude asset
      (.ok (skipBigCoinsUpToAmount big (saturatedKeysAmount dust) ++ dust)) := by
  obtain ⟨skipped, skipEq, paid⟩ := skipBigCoinsUpToAmount_eq_drop big (saturatedKeysAmount dust)
  have bigIn : ∀ coin ∈ big, coin ∈ keys ∧ isExcluded coin exclude = false := fun coin member =>
    mem_notExcluded.mp (bigFront.subset member)
  have dustIn : ∀ coin ∈ dust, coin ∈ keys ∧ isExcluded coin exclude = false := by
    intro coin member
    obtain ⟨listed, kept⟩ := mem_notExcluded.mp (dustFront.subset member)
    exact ⟨(sameKeys coin).mp listed, kept⟩
  have lastIn : last ∈ notExcluded exclude dustIter := by
    obtain ⟨listed, kept⟩ := bigIn last (List.mem_of_getLast? isLast)
    exact mem_notExcluded.mpr ⟨(sameKeys last).mpr listed, kept⟩
  have below := encode_lt_of_taken_before ascending dustFront lastIn notLast
  have above := encode_le_of_taken descending bigFront isLast
  -- the dust meets the big coins only at the last one, which it stops before
  have disjoint : ∀ coin ∈ dust, coin ∉ big := by
    intro coin inDust inBig
    rcases above coin inBig with same | higher
    · exact notLast coin inDust same
    · exact List.lt_irrefl _ (List.lt_trans (below coin inDust) higher)
  have bigNodup : big.Nodup := (nodup_of_pairwise_irreflexive (fun key => List.lt_irrefl _)
    (descending.filter _)).sublist bigFront.sublist
  have dustNodup : dust.Nodup := (nodup_of_pairwise_irreflexive (fun key => List.lt_irrefl _)
    (ascending.filter _)).sublist dustFront.sublist
  rw [skipEq]
  refine ⟨?_, ?_, ?_, ?_⟩
  · refine List.nodup_append.mpr ⟨bigNodup.sublist (List.drop_sublist _ _), dustNodup, ?_⟩
    intro coin kept coin' inDust same
    subst same
    exact disjoint coin inDust (List.mem_of_mem_drop kept)
  · intro coin member
    rcases List.mem_append.mp member with kept | inDust
    · exact bigIn coin (List.mem_of_mem_drop kept)
    · exact dustIn coin inDust
  · simp only [List.length_append, List.length_drop]
    omega
  · intro notPartial
    have reached := enough notPartial
    have split := List.take_append_drop skipped big
    have total : keysAmount big = keysAmount (big.take skipped) + keysAmount (big.drop skipped) := by
      rw [← keysAmount_append, split]
    have bigBound : saturatedKeysAmount big ≤ keysAmount big := min_le_left _ _
    have dustBound : saturatedKeysAmount dust ≤ keysAmount dust := min_le_left _ _
    rw [keysAmount_append]
    omega

end

theorem bigCoins_exits (stream : List CoinsToSpendIndexKey) (total : ℕ) (max : UInt16)
    (exclude : Exclude) :
    ∃ big hasMore, bigCoins stream total max exclude = (saturatedKeysAmount big, big, hasMore) ∧
      big <+: notExcluded exclude stream ∧ big.length ≤ max.toNat ∧
      (hasMore = false → big = notExcluded exclude stream) ∧
      (hasMore = true → max.toNat ≤ big.length ∨ total ≤ saturatedKeysAmount big) := by
  obtain ⟨big, bounded, -, ⟨result, all⟩ | ⟨result, next, rest, split, stop⟩⟩ :=
    selectCoinsUntil_exits max.toNat exclude (fun _ totalSoFar => decide (total ≤ totalSoFar))
      stream [] (Nat.zero_le _)
  · refine ⟨big, false, by simpa [bigCoins] using result, all ▸ List.prefix_refl _, by simpa using bounded,
      fun _ => all, nofun⟩
  · refine ⟨big, true, by simpa [bigCoins] using result, ⟨next :: rest, split.symm⟩, by simpa using bounded,
      nofun, fun _ => by simpa using stop⟩

theorem dustCoins_exits (stream : List CoinsToSpendIndexKey) (lastBigCoin : CoinsToSpendIndexKey)
    (maxDustCount : UInt16) (exclude : Exclude) :
    ∃ dust hasMore, dustCoins stream lastBigCoin maxDustCount exclude =
        (saturatedKeysAmount dust, dust, hasMore) ∧
      dust <+: notExcluded exclude stream ∧ dust.length ≤ maxDustCount.toNat ∧
      ∀ coin ∈ dust, coin ≠ lastBigCoin := by
  obtain ⟨dust, bounded, passed, ⟨result, all⟩ | ⟨result, next, rest, split, -⟩⟩ :=
    selectCoinsUntil_exits maxDustCount.toNat exclude (fun coin _ => decide (coin = lastBigCoin))
      stream [] (Nat.zero_le _)
  all_goals
    have notLast : ∀ coin ∈ dust, coin ≠ lastBigCoin := fun coin member => by
      obtain ⟨_, different⟩ := passed coin member
      simpa using different
  · exact ⟨dust, false, by simpa [dustCoins] using result, all ▸ List.prefix_refl _, by simpa using bounded,
      notLast⟩
  · exact ⟨dust, true, by simpa [dustCoins] using result, ⟨next :: rest, split.symm⟩, by simpa using bounded,
      notLast⟩

theorem maxDustCount_le {genRange : UInt16 → UInt16} (draws : ∀ bound, genRange bound ≤ bound)
    (max bigCoinsLen factor : UInt16) :
    (maxDustCount genRange max bigCoinsLen factor).toNat ≤ max.toNat - bigCoinsLen.toNat := by
  have drawn := UInt16.le_iff_toNat_le.mp (draws (maxDustCountUpperBound max bigCoinsLen factor))
  simp only [maxDustCount, maxDustCountUpperBound, UInt16.toNat_min, UInt16.toNat_saturatingSub]
    at drawn ⊢
  omega

theorem notExcluded_amounts_descending {keys : List CoinsToSpendIndexKey} {owner : Address}
    {assetId : AssetId} (exclude : Exclude)
    (sameIndex : ∀ key ∈ keys,
      key.retryableFlag = nonRetryableByte ∧ key.owner = owner ∧ key.assetId = assetId)
    (descending : keys.Pairwise fun a b => encode b < encode a) :
    (notExcluded exclude keys).Pairwise fun a b => b.amount.toNat ≤ a.amount.toNat := by
  apply (descending.filter _).imp_of_mem
  intro a b aIn bIn below
  obtain ⟨aFlag, aOwner, aAssetId⟩ := sameIndex a (List.mem_of_mem_filter aIn)
  obtain ⟨bFlag, bOwner, bAssetId⟩ := sameIndex b (List.mem_of_mem_filter bIn)
  exact amount_le_of_encode_lt (aFlag.trans bFlag.symm) (aOwner.trans bOwner.symm)
    (aAssetId.trans bAssetId.symm) below

theorem select_coins_to_spend_answers_within_max_and_target (owner : Address)
    (bigCoinsIter dustCoinsIter : List CoinsToSpendIndexKey) (asset : AssetSpendTarget)
    (exclude : Exclude) (genRange : UInt16 → UInt16)
    (sameIndex : ∀ key ∈ bigCoinsIter,
      key.retryableFlag = nonRetryableByte ∧ key.owner = owner ∧ key.assetId = asset.id)
    (descending : bigCoinsIter.Pairwise fun a b => encode b < encode a)
    (ascending : dustCoinsIter.Pairwise fun a b => encode a < encode b)
    (sameKeys : ∀ key, key ∈ dustCoinsIter ↔ key ∈ bigCoinsIter)
    (positiveTarget : 0 < asset.target) (positiveMax : 0 < asset.max.toNat)
    (draws : ∀ bound, genRange bound ≤ bound) :
    SelectionAnswers bigCoinsIter exclude asset
      (selectCoinsToSpend bigCoinsIter dustCoinsIter asset exclude owner genRange) := by
  have nonTrivial : ¬(asset.target = 0 ∨ asset.max = 0) := by
    rintro (zero | zero)
    · omega
    · simp [zero] at positiveMax
  obtain ⟨big, hasMore, bigEq, bigFront, bigBounded, exhausted, stopped⟩ :=
    bigCoins_exits bigCoinsIter (Saturating.mul 128 asset.target totalAmountAdjustmentFactor)
      asset.max exclude
  have maxFits : asset.max.toNat < UInt16.size := asset.max.toNat_lt
  simp only [selectCoinsToSpend, if_neg nonTrivial, bigEq]
  split_ifs with short full tooMany
  · have below : saturatedKeysAmount big < asset.target := by omega
    exact maxCoinsReached_answers (notExcluded_amounts_descending exclude sameIndex descending)
      ((nodup_of_pairwise_irreflexive (fun key => List.lt_irrefl _) descending).filter _)
      bigFront (by omega) below
  · exact insufficientCoins_answers positiveTarget exhausted stopped short full
  · omega
  have nonempty : big ≠ [] := by
    rintro rfl
    simp at short
  obtain ⟨last, isLast⟩ := Option.ne_none_iff_exists'.mp (mt List.getLast?_eq_none_iff.mp nonempty)
  have lengthEq : big.length.toUInt16.toNat = big.length := by
    rw [Nat.toUInt16_eq, UInt16.toNat_ofNat_of_lt' (by omega)]
  simp only [isLast]
  obtain ⟨dust, dustMore, dustEq, dustFront, dustBounded, notLast⟩ := dustCoins_exits dustCoinsIter last
    (maxDustCount genRange asset.max big.length.toUInt16 dustToBigCoinsFactor) exclude
  have room := maxDustCount_le draws asset.max big.length.toUInt16 dustToBigCoinsFactor
  rw [dustEq]
  exact skip_append_dust_answers descending ascending sameKeys bigFront isLast dustFront notLast
    (by omega) (fun notPartial => Nat.le_of_not_lt fun less => short (.inr ⟨less, notPartial⟩))


/-- The index key of a coin of the zero owner and asset, of an amount. -/
def coinKey (amount : UInt64) : CoinsToSpendIndexKey :=
  .coin (Bytes.zeroed 32) (Bytes.zeroed 32) amount ⟨Bytes.zeroed 32, 0⟩

/-- Coins of 5 down to 1, as the big-coins iterator yields them. -/
def fiveCoins : List CoinsToSpendIndexKey :=
  [coinKey 5, coinKey 4, coinKey 3, coinKey 2, coinKey 1]

/-- A target of 4 with at most six coins and no partial answer. -/
def targetFour : AssetSpendTarget :=
  ⟨Bytes.zeroed 32, 4, 6, false, by decide⟩

/-- The big coins 5 and 4 reach twice the target; the dust 1, 2 and 3 below the last big coin
then covers the 5, which is skipped. -/
theorem five_coin_index_answers_target_four :
    selectCoinsToSpend fiveCoins fiveCoins.reverse targetFour ⟨[]⟩ (Bytes.zeroed 32) id =
        .ok [coinKey 4, coinKey 1, coinKey 2, coinKey 3] ∧
      SelectionAnswers fiveCoins ⟨[]⟩ targetFour
        (.ok [coinKey 4, coinKey 1, coinKey 2, coinKey 3]) := by
  have evaluated : selectCoinsToSpend fiveCoins fiveCoins.reverse targetFour ⟨[]⟩
      (Bytes.zeroed 32) id = .ok [coinKey 4, coinKey 1, coinKey 2, coinKey 3] := by
    decide
  refine ⟨evaluated, ?_⟩
  have sameIndex : ∀ key ∈ fiveCoins, key.retryableFlag = nonRetryableByte ∧
      key.owner = Bytes.zeroed 32 ∧ key.assetId = targetFour.id := by
    intro key member
    simp only [fiveCoins, List.mem_cons, List.mem_nil_iff, or_false] at member
    rcases member with rfl | rfl | rfl | rfl | rfl <;> exact ⟨rfl, rfl, rfl⟩
  have answers := select_coins_to_spend_answers_within_max_and_target (Bytes.zeroed 32)
    fiveCoins fiveCoins.reverse targetFour ⟨[]⟩ id sameIndex (by decide) (by decide)
    (fun _ => List.mem_reverse) (by decide) (by decide) (fun _ => UInt16.le_refl _)
  rwa [evaluated] at answers

end FuelCore.CoinsQuery
