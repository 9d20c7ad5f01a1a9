import FuelCore.Producer.BlockProducer
import FuelCore.Lib.Except
import Mathlib.Algebra.Order.BigOperators.Group.List

/-! # What the block producer selects and refuses

`select_new_da_height` walks the DA blocks after the previous block's DA height and stops
before the first one that brings the forced transactions over the block's gas limit or over
65534 transactions. The totals only grow, so the first DA block that does not fit is past the
last range that fits: the height it selects is the greatest that fits, and it finds none when
the first DA block alone does not fit. In that case every request to produce a block fails,
however far the relayer moves on, since the view only changes when a block is produced.

The totals saturate at `u64::MAX`, so a limit of `u64::MAX` bounds nothing: `Within` states
the comparison as the saturating totals make it.
-/

namespace FuelCore.Producer

open FuelCore.Executor (BlockHeight DaBlockHeight ConsensusParametersVersion ContractId Word
  PartialBlockHeader Components TransactionsSource Transaction MaybeCheckedTransaction daHeights)

/-! ## The DA blocks that fit into a block -/

/-- The gas the forced transactions of some DA blocks cost in all. -/
def totalGasCost (relayer : Relayer) (heights : List DaBlockHeight) : ℕ :=
  (heights.map fun height => (relayer.blockInfo height).gasCost.toNat).sum

/-- The number of forced transactions of some DA blocks. -/
def totalTxCount (relayer : Relayer) (heights : List DaBlockHeight) : ℕ :=
  (heights.map fun height => (relayer.blockInfo height).txCount.toNat).sum

/-- A total within a `u64` limit, as a total that saturates at `u64::MAX` compares to it. -/
def Within (total : ℕ) (limit : UInt64) : Prop :=
  total ≤ limit.toNat ∨ limit.toNat = UInt64.size - 1

instance (total : ℕ) (limit : UInt64) : Decidable (Within total limit) :=
  inferInstanceAs (Decidable (_ ∨ _))

/-- The forced transactions of some DA blocks fit into one block: their gas and their number
are within the limits. -/
def Fits (relayer : Relayer) (gasLimit transactionsLimit : UInt64)
    (heights : List DaBlockHeight) : Prop :=
  Within (totalGasCost relayer heights) gasLimit ∧
    Within (totalTxCount relayer heights) transactionsLimit

instance (relayer : Relayer) (gasLimit transactionsLimit : UInt64)
    (heights : List DaBlockHeight) : Decidable (Fits relayer gasLimit transactionsLimit heights) :=
  inferInstanceAs (Decidable (_ ∧ _))

section Fits

variable {relayer : Relayer} {gasLimit transactionsLimit : UInt64}

@[simp] theorem totalGasCost_nil : totalGasCost relayer [] = 0 := rfl

@[simp] theorem totalTxCount_nil : totalTxCount relayer [] = 0 := rfl

@[simp] theorem totalGasCost_singleton (height : DaBlockHeight) :
    totalGasCost relayer [height] = (relayer.blockInfo height).gasCost.toNat := by
  simp [totalGasCost]

@[simp] theorem totalTxCount_singleton (height : DaBlockHeight) :
    totalTxCount relayer [height] = (relayer.blockInfo height).txCount.toNat := by
  simp [totalTxCount]

@[simp] theorem totalGasCost_append (front back : List DaBlockHeight) :
    totalGasCost relayer (front ++ back) = totalGasCost relayer front + totalGasCost relayer back := by
  simp [totalGasCost]

@[simp] theorem totalTxCount_append (front back : List DaBlockHeight) :
    totalTxCount relayer (front ++ back) = totalTxCount relayer front + totalTxCount relayer back := by
  simp [totalTxCount]

theorem Within.of_le {total total' : ℕ} {limit : UInt64} (within : Within total' limit)
    (le : total ≤ total') : Within total limit := by
  unfold Within at *
  omega

theorem fits_nil : Fits relayer gasLimit transactionsLimit [] :=
  ⟨.inl (Nat.zero_le _), .inl (Nat.zero_le _)⟩

/-- Fewer DA blocks fit where more do: the totals only grow. -/
theorem Fits.of_append {front back : List DaBlockHeight}
    (fits : Fits relayer gasLimit transactionsLimit (front ++ back)) :
    Fits relayer gasLimit transactionsLimit front := by
  obtain ⟨gas, count⟩ := fits
  rw [totalGasCost_append] at gas
  rw [totalTxCount_append] at count
  exact ⟨gas.of_le (Nat.le_add_right _ _), count.of_le (Nat.le_add_right _ _)⟩

theorem Fits.of_take {heights : List DaBlockHeight} {count count' : ℕ}
    (fits : Fits relayer gasLimit transactionsLimit (heights.take count'))
    (fewer : count ≤ count') : Fits relayer gasLimit transactionsLimit (heights.take count) := by
  rw [← List.take_append_drop count (heights.take count'), List.take_take,
    Nat.min_eq_left fewer] at fits
  exact fits.of_append

end Fits

/-! ## The loop -/

theorem lt_of_saturated_iff {total : UInt64} {exact : ℕ} (limit : UInt64)
    (saturated : total.toNat = min exact (UInt64.size - 1)) :
    limit < total ↔ ¬ Within exact limit := by
  have bounded := limit.toNat_lt
  have size : UInt64.size = 18446744073709551616 := rfl
  rw [UInt64.lt_iff_toNat_lt, saturated, Within]
  omega

theorem toNat_saturatingAdd_of_saturated {total : UInt64} {exact : ℕ} (more : UInt64)
    (saturated : total.toNat = min exact (UInt64.size - 1)) :
    (total.saturatingAdd more).toNat = min (exact + more.toNat) (UInt64.size - 1) := by
  rw [UInt64.toNat_saturatingAdd, saturated]
  omega

section Loop

variable (relayer : Relayer) (gasLimit transactionsLimit : UInt64)

/-- The loop of `select_new_da_height`, from totals that are those of the DA blocks `done`
saturated: it selects the DA height after the longest run of the remaining heights that still
fits, and the next height, if any, does not fit. The induction is on the remaining heights,
with `done` growing by each height the loop takes. -/
theorem selectLoop_spec (heights : List DaBlockHeight) :
    ∀ (done : List DaBlockHeight) (newBest : DaBlockHeight) (totalCost totalTransactions : UInt64),
      totalCost.toNat = min (totalGasCost relayer done) (UInt64.size - 1) →
      totalTransactions.toNat = min (totalTxCount relayer done) (UInt64.size - 1) →
      Fits relayer gasLimit transactionsLimit done →
      ∃ count, (newBest :: heights)[count]? =
          some (selectLoop relayer gasLimit transactionsLimit heights newBest totalCost
            totalTransactions) ∧
        Fits relayer gasLimit transactionsLimit (done ++ heights.take count) ∧
        (count < heights.length →
          ¬ Fits relayer gasLimit transactionsLimit (done ++ heights.take (count + 1))) := by
  induction heights with
  | nil =>
      intro done newBest _ _ _ _ fits
      exact ⟨0, rfl, by simpa using fits, fun empty => absurd empty (Nat.lt_irrefl 0)⟩
  | cons height heights induction =>
      intro done newBest totalCost totalTransactions costSaturated countSaturated fits
      have costSaturated' := toNat_saturatingAdd_of_saturated
        (relayer.blockInfo height).gasCost costSaturated
      have countSaturated' := toNat_saturatingAdd_of_saturated
        (relayer.blockInfo height).txCount countSaturated
      -- the loop breaks exactly where the DA blocks taken so far and this one do not fit
      have breaks : (totalCost.saturatingAdd (relayer.blockInfo height).gasCost > gasLimit ∨
          totalTransactions.saturatingAdd (relayer.blockInfo height).txCount > transactionsLimit) ↔
          ¬ Fits relayer gasLimit transactionsLimit (done ++ [height]) := by
        rw [gt_iff_lt, gt_iff_lt, lt_of_saturated_iff gasLimit costSaturated',
          lt_of_saturated_iff transactionsLimit countSaturated', Fits, totalGasCost_append,
          totalTxCount_append, totalGasCost_singleton, totalTxCount_singleton]
        exact not_and_or.symm
      by_cases taken : Fits relayer gasLimit transactionsLimit (done ++ [height])
      · have continues : selectLoop relayer gasLimit transactionsLimit (height :: heights) newBest
            totalCost totalTransactions =
            selectLoop relayer gasLimit transactionsLimit heights height
              (totalCost.saturatingAdd (relayer.blockInfo height).gasCost)
              (totalTransactions.saturatingAdd (relayer.blockInfo height).txCount) := by
          rw [selectLoop, if_neg (fun broke => breaks.mp broke taken)]
        obtain ⟨count, selected, fitsTaken, next⟩ := induction (done ++ [height]) height _ _
          (by rw [costSaturated', totalGasCost_append]; rfl)
          (by rw [countSaturated', totalTxCount_append]; rfl) taken
        refine ⟨count + 1, by rw [continues]; exact selected, ?_, fun below => ?_⟩
        · simpa using fitsTaken
        · simpa using next (by simpa using below)
      · have stops : selectLoop relayer gasLimit transactionsLimit (height :: heights) newBest
            totalCost totalTransactions = newBest := by
          rw [selectLoop, if_pos (breaks.mpr taken)]
        exact ⟨0, by rw [stops]; rfl, by simpa using fits, fun _ => by simpa using taken⟩

end Loop

/-! ## The DA heights after the previous one -/

@[simp] theorem length_daHeights (first last : DaBlockHeight) :
    (daHeights first last).length = last.toNat + 1 - first.toNat := by
  simp [daHeights]

theorem getElem?_daHeights {first last : DaBlockHeight} {index : ℕ}
    (within : index < last.toNat + 1 - first.toNat) :
    (daHeights first last)[index]? = some (first + index.toUInt64) := by
  simp [daHeights, within]

theorem daHeights_eq_take {first height last : DaBlockHeight} (below : height ≤ last) :
    daHeights first height = (daHeights first last).take (height.toNat + 1 - first.toNat) := by
  rw [daHeights, daHeights, ← List.map_take, List.take_range]
  rw [UInt64.le_iff_toNat_le] at below
  congr 2
  omega

theorem fits_take_iff_le {gasLimit transactionsLimit : UInt64} {heights : List DaBlockHeight}
    {count : ℕ} (fits : Fits relayer gasLimit transactionsLimit (heights.take count))
    (next : count < heights.length →
      ¬ Fits relayer gasLimit transactionsLimit (heights.take (count + 1)))
    {index : ℕ} (within : index ≤ heights.length) :
    Fits relayer gasLimit transactionsLimit (heights.take index) ↔ index ≤ count := by
  constructor
  · intro fitsIndex
    by_contra past
    exact next (by omega) (fitsIndex.of_take (by omega))
  · exact fits.of_take

theorem toNat_add_one_of_lt {height height' : DaBlockHeight} (below : height < height') :
    (height + 1).toNat = height.toNat + 1 := by
  have below' := UInt64.lt_iff_toNat_lt.mp below
  have bounded := height'.toNat_lt
  rw [UInt64.toNat_add, UInt64.toNat_one]
  exact Nat.mod_eq_of_lt (by omega)

section Select

variable {relayer : Relayer} {gasLimit : UInt64} {previousDaHeight : DaBlockHeight}
  {transactionsLimit : UInt16}

/-- Past the two early returns, `select_new_da_height` runs its loop over the DA heights after
the previous one; the saturating addition of one does not saturate there. -/
theorem selectNewDaHeight_of_lt (behind : previousDaHeight < relayer.highest) :
    selectNewDaHeight relayer gasLimit previousDaHeight transactionsLimit =
      let newBest := selectLoop relayer gasLimit transactionsLimit.toUInt64
        (daHeights (previousDaHeight + 1) relayer.highest) previousDaHeight 0 0
      if newBest = previousDaHeight then .error .noNewDaHeightFound else .ok newBest := by
  have behind' := UInt64.lt_iff_toNat_lt.mp behind
  have notAhead : ¬ relayer.highest < previousDaHeight := by
    rw [UInt64.lt_iff_toNat_lt]
    omega
  have notEqual : relayer.highest ≠ previousDaHeight := fun same => by
    rw [same] at behind'
    exact Nat.lt_irrefl _ behind'
  have successor : previousDaHeight.saturatingAdd 1 = previousDaHeight + 1 := by
    have bounded := relayer.highest.toNat_lt
    have size : UInt64.size = 18446744073709551616 := rfl
    rw [UInt64.saturatingAdd, if_pos (by simp only [UInt64.toNat_one]; omega)]
  simp only [selectNewDaHeight, if_neg notAhead, if_neg notEqual, successor]

theorem selectLoop_daHeights (behind : previousDaHeight < relayer.highest) :
    ∃ count, count ≤ relayer.highest.toNat - previousDaHeight.toNat ∧
      (selectLoop relayer gasLimit transactionsLimit.toUInt64
        (daHeights (previousDaHeight + 1) relayer.highest) previousDaHeight 0 0).toNat =
        previousDaHeight.toNat + count ∧
      ∀ height, previousDaHeight.toNat < height.toNat → height.toNat ≤ relayer.highest.toNat →
        (Fits relayer gasLimit transactionsLimit.toUInt64 (daHeights (previousDaHeight + 1) height) ↔
          height.toNat ≤ previousDaHeight.toNat + count) := by
  have behind' := UInt64.lt_iff_toNat_lt.mp behind
  have bounded := relayer.highest.toNat_lt
  have successor := toNat_add_one_of_lt behind
  obtain ⟨count, selected, fits, next⟩ := selectLoop_spec relayer gasLimit
    transactionsLimit.toUInt64 (daHeights (previousDaHeight + 1) relayer.highest) []
    previousDaHeight 0 0
    (by simp) (by simp) fits_nil
  rw [List.nil_append] at fits next
  have length : (daHeights (previousDaHeight + 1) relayer.highest).length =
      relayer.highest.toNat - previousDaHeight.toNat := by
    rw [length_daHeights, successor]
    omega
  have within : count ≤ relayer.highest.toNat - previousDaHeight.toNat := by
    have := (List.getElem?_eq_some_iff.mp selected).1
    simp only [List.length_cons, length] at this
    omega
  refine ⟨count, within, ?_, fun height above below => ?_⟩
  · cases count with
    | zero =>
        rw [List.getElem?_cons_zero, Option.some_inj] at selected
        rw [← selected, Nat.add_zero]
    | succ count =>
        rw [List.getElem?_cons_succ, getElem?_daHeights (by rw [successor]; omega)] at selected
        rw [← Option.some_inj.mp selected, UInt64.toNat_add, successor, Nat.toUInt64_eq,
          UInt64.toNat_ofNat', Nat.mod_eq_of_lt (by omega : count < 2 ^ 64),
          Nat.mod_eq_of_lt (by omega)]
        omega
  · rw [daHeights_eq_take (UInt64.le_iff_toNat_le.mpr below), fits_take_iff_le fits next (by rw [length, successor]; omega),
      successor]
    omega

theorem selectNewDaHeight_ok_of_lt (behind : previousDaHeight < relayer.highest)
    {best : DaBlockHeight}
    (found : selectNewDaHeight relayer gasLimit previousDaHeight transactionsLimit = .ok best) :
    previousDaHeight.toNat < best.toNat ∧ best.toNat ≤ relayer.highest.toNat ∧
      Fits relayer gasLimit transactionsLimit.toUInt64 (daHeights (previousDaHeight + 1) best) ∧
      ∀ height, best.toNat < height.toNat → height.toNat ≤ relayer.highest.toNat →
        ¬ Fits relayer gasLimit transactionsLimit.toUInt64
          (daHeights (previousDaHeight + 1) height) := by
  obtain ⟨count, within, selected, fitsIff⟩ := @selectLoop_daHeights relayer gasLimit
    previousDaHeight transactionsLimit behind
  rw [selectNewDaHeight_of_lt behind] at found
  dsimp only at found
  generalize selectLoop relayer gasLimit transactionsLimit.toUInt64
    (daHeights (previousDaHeight + 1) relayer.highest) previousDaHeight 0 0 = newBest
    at selected found
  have behind' := UInt64.lt_iff_toNat_lt.mp behind
  split_ifs at found with none
  have same := Except.ok.inj found
  subst same
  have taken : count ≠ 0 := fun zero => none (UInt64.toNat_inj.mp (by omega))
  refine ⟨by omega, by omega, (fitsIff newBest (by omega) (by omega)).mpr (by omega),
    fun height above below => ?_⟩
  rw [fitsIff height (by omega) below]
  omega

/-- Past the previous DA height, `select_new_da_height` selects the greatest DA height up to the
relayer's whose forced transactions, with those of every DA block since the previous one, fit
into the block. -/
theorem selected_da_height_is_greatest_fitting (behind : previousDaHeight < relayer.highest)
    (best : DaBlockHeight) :
    selectNewDaHeight relayer gasLimit previousDaHeight transactionsLimit = .ok best ↔
      previousDaHeight < best ∧ best ≤ relayer.highest ∧
        Fits relayer gasLimit transactionsLimit.toUInt64 (daHeights (previousDaHeight + 1) best) ∧
        ∀ height, best < height → height ≤ relayer.highest →
          ¬ Fits relayer gasLimit transactionsLimit.toUInt64
            (daHeights (previousDaHeight + 1) height) := by
  constructor
  · -- the loop took a DA block: the one it stopped at is the greatest that fits
    intro found
    obtain ⟨above, below, fits, greatest⟩ := selectNewDaHeight_ok_of_lt behind found
    exact ⟨UInt64.lt_iff_toNat_lt.mpr above, UInt64.le_iff_toNat_le.mpr below, fits,
      fun height past within => greatest height (UInt64.lt_iff_toNat_lt.mp past)
        (UInt64.le_iff_toNat_le.mp within)⟩
  · -- a greatest height that fits is the one the loop stopped at
    obtain ⟨count, within, selected, fitsIff⟩ := @selectLoop_daHeights relayer gasLimit
      previousDaHeight transactionsLimit behind
    rw [selectNewDaHeight_of_lt behind]
    dsimp only
    generalize selectLoop relayer gasLimit transactionsLimit.toUInt64
      (daHeights (previousDaHeight + 1) relayer.highest) previousDaHeight 0 0 = newBest at selected
    have behind' := UInt64.lt_iff_toNat_lt.mp behind
    simp only [UInt64.lt_iff_toNat_lt, UInt64.le_iff_toNat_le]
    rintro ⟨above, below, fits, greatest⟩
    have upTo := (fitsIff best above below).mp fits
    have notPast : ¬ best.toNat < newBest.toNat := fun past =>
      greatest newBest past (by omega) ((fitsIff newBest (by omega) (by omega)).mpr (by omega))
    have same : newBest = best := UInt64.toNat_inj.mp (by omega)
    rw [if_neg (fun none => by rw [same] at none; rw [none] at above; exact Nat.lt_irrefl _ above),
      same]

/-- A relayer six DA blocks ahead whose DA blocks cost ten gas a height. -/
def costlyRelayer : Relayer :=
  ⟨6, fun height => ⟨height * 10, 1⟩⟩

theorem costly_relayer_selects_only_the_next_da_block :
    (1 : DaBlockHeight) < costlyRelayer.highest ∧
      selectNewDaHeight costlyRelayer 35 1 Producer.transactionsLimit = .ok 2 ∧
      ∀ height, 2 < height → height ≤ costlyRelayer.highest →
        ¬ Fits costlyRelayer 35 Producer.transactionsLimit.toUInt64 (daHeights (1 + 1) height) := by
  have behind : (1 : DaBlockHeight) < costlyRelayer.highest := by decide
  have selected : selectNewDaHeight costlyRelayer 35 1 Producer.transactionsLimit = .ok 2 := by decide
  exact ⟨behind, selected, ((selected_da_height_is_greatest_fitting behind 2).mp selected).2.2.2⟩

theorem selectNewDaHeight_eq_noNewDaHeightFound_iff (behind : previousDaHeight < relayer.highest) :
    selectNewDaHeight relayer gasLimit previousDaHeight transactionsLimit =
        .error .noNewDaHeightFound ↔
      ¬ Fits relayer gasLimit transactionsLimit.toUInt64 [previousDaHeight + 1] := by
  obtain ⟨count, -, selected, fitsIff⟩ := @selectLoop_daHeights relayer gasLimit
    previousDaHeight transactionsLimit behind
  have behind' := UInt64.lt_iff_toNat_lt.mp behind
  have successor := toNat_add_one_of_lt behind
  have single : daHeights (previousDaHeight + 1) (previousDaHeight + 1) = [previousDaHeight + 1] := by
    simp [daHeights]
  rw [← single, fitsIff (previousDaHeight + 1) (by rw [successor]; omega)
    (by rw [successor]; omega), successor, selectNewDaHeight_of_lt behind]
  dsimp only
  generalize selectLoop relayer gasLimit transactionsLimit.toUInt64
    (daHeights (previousDaHeight + 1) relayer.highest) previousDaHeight 0 0 = newBest at selected
  by_cases none : newBest = previousDaHeight
  · rw [none] at selected
    simp only [none, if_true, true_iff]
    omega
  · have : newBest.toNat ≠ previousDaHeight.toNat := fun same => none (UInt64.toNat_inj.mp same)
    simp only [none, if_false, reduceCtorEq, false_iff, not_not]
    omega

theorem selectNewDaHeight_eq_ok {best : DaBlockHeight}
    (found : selectNewDaHeight relayer gasLimit previousDaHeight transactionsLimit = .ok best) :
    best = previousDaHeight ∨ (previousDaHeight.toNat < best.toNat ∧
      best.toNat ≤ relayer.highest.toNat ∧
      Fits relayer gasLimit transactionsLimit.toUInt64 (daHeights (previousDaHeight + 1) best)) := by
  by_cases behind : previousDaHeight < relayer.highest
  · obtain ⟨above, below, fits, -⟩ := selectNewDaHeight_ok_of_lt behind found
    exact .inr ⟨above, below, fits⟩
  · -- the relayer is not past the previous DA height: one of the two early returns
    unfold selectNewDaHeight at found
    dsimp only at found
    by_cases ahead : relayer.highest < previousDaHeight
    · rw [if_pos ahead] at found
      cases found
    · have same : relayer.highest = previousDaHeight := by
        rw [UInt64.lt_iff_toNat_lt] at behind ahead
        exact UInt64.toNat_inj.mp (by omega)
      rw [if_neg ahead, if_pos same] at found
      exact .inl ((Except.ok.inj found).symm.trans same)

end Select

/-! ## Producing a block -/

theorem latest_of_newHeader {view : View} {header : PartialBlockHeader}
    (built : newHeader view = .ok header) :
    ∃ latest, view.latestHeight = some latest ∧ view.blockDaHeight latest = some header.daHeight ∧
      latest.checkedAdd 1 = some header.height ∧
      header.consensusParametersVersion = view.latestConsensusParametersVersion := by
  unfold newHeader at built
  dsimp only at built
  simp only [pure_bind] at built
  -- each step that fails throws, so the header comes from the three successful ones
  split at built
  · rename_i latest latestIs
    split at built
    · rename_i daHeight daHeightIs
      split at built
      · rename_i height next
        cases built
        exact ⟨latest, latestIs, daHeightIs, next, rfl⟩
      · cases built
    · cases built
  · cases built

theorem height_ne_zero_of_newHeader {view : View} {header : PartialBlockHeader}
    (built : newHeader view = .ok header) : header.height ≠ 0 := by
  obtain ⟨latest, -, -, next, -⟩ := latest_of_newHeader built
  have successor := (UInt32.checkedAdd_eq_some_iff.mp next).2
  intro zero
  rw [zero, UInt32.toNat_zero, UInt32.toNat_one] at successor
  omega

/-- Once the first DA block after the latest block's DA height does not fit into a block alone,
`produce_and_execute` fails for every height asked: at the expected height it finds no new DA
height, and any other height is refused. The view changes only when a block is produced, and
the relayer reports the same for a DA block however far it moves on, so production stops. -/
theorem production_halts_past_an_oversized_da_block {σ : Type} (relayer : Relayer)
    (blockGasLimit : ConsensusParametersVersion → Option UInt64)
    (coinbaseRecipient : Option ContractId) (gasPrice : Word) (view : View)
    {header : PartialBlockHeader} {gasLimit : UInt64}
    (built : newHeader view = .ok header)
    (limited : blockGasLimit header.consensusParametersVersion = some gasLimit)
    (behind : header.daHeight < relayer.highest)
    (oversized : ¬ Fits relayer gasLimit transactionsLimit.toUInt64 [header.daHeight + 1])
    (height : BlockHeight) (txSource : Word → BlockHeight → TransactionsSource σ) :
    produceAndExecute relayer blockGasLimit coinbaseRecipient gasPrice view height txSource =
      .error (if height = header.height then .noNewDaHeightFound
        else if height = 0 then .cannotProduceGenesisBlock
        else .mustProduceBlockWithExpectedHeight height header.height) := by
  obtain ⟨latest, latestIs, -, next, -⟩ := latest_of_newHeader built
  have notFound := (selectNewDaHeight_eq_noNewDaHeightFound_iff behind).mpr oversized
  have noHeader : newHeaderWithNewDaHeight relayer blockGasLimit view =
      .error .noNewDaHeightFound := by
    simp only [newHeaderWithNewDaHeight, built, limited, notFound, bind, Except.bind, pure,
      Except.pure]
  have nonzero := height_ne_zero_of_newHeader built
  -- the checks of the height come first; past them the header is what fails
  by_cases expected : height = header.height
  · subst expected
    simp [produceAndExecute, latestIs, next, nonzero, noHeader]
  · by_cases zero : height = 0
    · subst zero
      simp only [produceAndExecute, latestIs, next, pure_bind, if_true, if_neg expected]
      rfl
    · simp only [produceAndExecute, latestIs, next, pure_bind, zero, expected, if_false, ne_eq,
        not_false_eq_true, if_true]
      rfl

/-- A chain at height four whose blocks lie at DA height one. -/
def stuckView : View :=
  ⟨some 4, fun _ => some 1, 0⟩

/-- A relayer whose DA block after the first costs fifty gas. -/
def stuckRelayer : Relayer :=
  ⟨6, fun height => ⟨height * 25, 1⟩⟩

theorem stuck_producer_refuses_every_height :
    newHeader stuckView = .ok ⟨5, 1, 0⟩ ∧ (1 : DaBlockHeight) < stuckRelayer.highest ∧
      ¬ Fits stuckRelayer 35 transactionsLimit.toUInt64 [1 + 1] ∧
      ∀ height, produceAndExecute stuckRelayer (fun _ => some 35) none 0 stuckView height
          (fun _ _ => FuelCore.Executor.onceTransactionsSource) =
        .error (if height = 5 then .noNewDaHeightFound
          else if height = 0 then .cannotProduceGenesisBlock
          else .mustProduceBlockWithExpectedHeight height 5) := by
  have built : newHeader stuckView = .ok ⟨5, 1, 0⟩ := by decide
  have behind : (1 : DaBlockHeight) < stuckRelayer.highest := by decide
  have oversized : ¬ Fits stuckRelayer 35 transactionsLimit.toUInt64 [1 + 1] := by decide
  exact ⟨built, behind, oversized, fun height => production_halts_past_an_oversized_da_block
    stuckRelayer (fun _ => some 35) none 0 stuckView built rfl behind oversized height
    (fun _ _ => FuelCore.Executor.onceTransactionsSource)⟩

theorem newHeaderWithNewDaHeight_eq_ok {relayer : Relayer}
    {blockGasLimit : ConsensusParametersVersion → Option UInt64} {view : View}
    {header : PartialBlockHeader}
    (built : newHeaderWithNewDaHeight relayer blockGasLimit view = .ok header) :
    ∃ base gasLimit, newHeader view = .ok base ∧
      blockGasLimit base.consensusParametersVersion = some gasLimit ∧
      selectNewDaHeight relayer gasLimit base.daHeight transactionsLimit = .ok header.daHeight ∧
      header.height = base.height := by
  unfold newHeaderWithNewDaHeight at built
  obtain ⟨base, baseIs, rest⟩ := Except.bind_eq_ok.mp built
  split at rest
  · rename_i gasLimit limited
    simp only [pure_bind] at rest
    obtain ⟨daHeight, selected, rest⟩ := Except.bind_eq_ok.mp rest
    cases rest
    exact ⟨base, gasLimit, baseIs, limited, selected, rfl⟩
  · cases rest

theorem produceAndExecute_eq_ok {σ : Type} {relayer : Relayer}
    {blockGasLimit : ConsensusParametersVersion → Option UInt64}
    {coinbaseRecipient : Option ContractId} {gasPrice : Word} {view : View} {height : BlockHeight}
    {txSource : Word → BlockHeight → TransactionsSource σ} {components : Components σ}
    (produced : produceAndExecute relayer blockGasLimit coinbaseRecipient gasPrice view height
      txSource = .ok components) :
    ∃ latest header, view.latestHeight = some latest ∧ latest.checkedAdd 1 = some height ∧
      newHeaderWithNewDaHeight relayer blockGasLimit view = .ok header ∧
      components = ⟨header, txSource gasPrice height, coinbaseRecipient.getD 0, gasPrice⟩ := by
  unfold produceAndExecute at produced
  dsimp only at produced
  simp only [pure_bind] at produced
  split at produced
  · rename_i latest latestIs
    split at produced
    · rename_i next nextIs
      split at produced
      · cases produced
      · split at produced
        · cases produced
        · rename_i same
          obtain ⟨header, built, rest⟩ := Except.bind_eq_ok.mp produced
          cases rest
          rw [not_not] at same
          subst same
          exact ⟨latest, header, latestIs, nextIs, built, rfl⟩
    · cases produced
  · cases produced

/-- Every block `produce_and_execute` hands to the executor is the one after the latest block, at
the height asked and with the transaction source for it; its DA height stays at the latest
block's or moves, no further than the relayer, to one whose DA blocks since the latest block's
fit into the block's gas limit and `u16::MAX - 1` transactions. -/
theorem produced_block_follows_latest_and_fits {σ : Type} (relayer : Relayer)
    (blockGasLimit : ConsensusParametersVersion → Option UInt64)
    (coinbaseRecipient : Option ContractId) (gasPrice : Word) (view : View) (height : BlockHeight)
    (txSource : Word → BlockHeight → TransactionsSource σ) {components : Components σ}
    (produced : produceAndExecute relayer blockGasLimit coinbaseRecipient gasPrice view height
      txSource = .ok components) :
    ∃ latest previous gasLimit, view.latestHeight = some latest ∧
      view.blockDaHeight latest = some previous ∧ latest.checkedAdd 1 = some height ∧
      components.headerToProduce.height = height ∧
      components.transactionsSource = txSource gasPrice height ∧
      blockGasLimit view.latestConsensusParametersVersion = some gasLimit ∧
      (components.headerToProduce.daHeight = previous ∨
        (previous.toNat < components.headerToProduce.daHeight.toNat ∧
          components.headerToProduce.daHeight.toNat ≤ relayer.highest.toNat ∧
          Fits relayer gasLimit transactionsLimit.toUInt64
            (daHeights (previous + 1) components.headerToProduce.daHeight))) := by
  obtain ⟨latest, header, latestIs, next, built, rfl⟩ := produceAndExecute_eq_ok produced
  obtain ⟨base, gasLimit, baseIs, limited, selected, sameHeight⟩ :=
    newHeaderWithNewDaHeight_eq_ok built
  -- the header was built on the same latest block the height was checked against
  obtain ⟨latest', latestIs', daIs, next', version⟩ := latest_of_newHeader baseIs
  have sameLatest : latest' = latest := Option.some_inj.mp (latestIs'.symm.trans latestIs)
  subst sameLatest
  have baseHeight : base.height = height := Option.some_inj.mp (next'.symm.trans next)
  refine ⟨latest', base.daHeight, gasLimit, latestIs, daIs, next, sameHeight.trans baseHeight,
    rfl, by rw [← version]; exact limited, selectNewDaHeight_eq_ok selected⟩

theorem costly_relayer_block_five_fits :
    produceAndExecute costlyRelayer (fun _ => some 35) none 0 stuckView 5
        (fun _ _ => FuelCore.Executor.onceTransactionsSource) =
      .ok ⟨⟨5, 2, 0⟩, FuelCore.Executor.onceTransactionsSource, 0, 0⟩ ∧
      Fits costlyRelayer 35 transactionsLimit.toUInt64 (daHeights (1 + 1) 2) := by
  have produced : produceAndExecute costlyRelayer (fun _ => some 35) none 0 stuckView 5
      (fun _ _ => FuelCore.Executor.onceTransactionsSource) =
      .ok ⟨⟨5, 2, 0⟩, FuelCore.Executor.onceTransactionsSource, 0, 0⟩ := rfl
  obtain ⟨latest, previous, gasLimit, latestIs, daIs, -, -, -, limited, moved⟩ :=
    produced_block_follows_latest_and_fits costlyRelayer _ none 0 stuckView 5 _ produced
  cases latestIs
  cases daIs
  cases limited
  exact ⟨produced, (moved.resolve_left (by decide)).2.2⟩

end FuelCore.Producer
