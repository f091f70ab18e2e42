import TickForge.LatencyProfilerModel
import TickForge.NearestRank
import Mathlib.Algebra.Order.BigOperators.Group.List
import Mathlib.Algebra.Order.Field.Basic
import Mathlib.Data.List.GetD

/-!
# The reported latency statistics

With products and quotients read as exact, the three percentiles are the doubles nearest
to nearest-rank quantiles, read from the sorted copy at a rank that needs no clamp, in
order between the doubles nearest to the extremes. The order of the samples can show in
the mean only. Samples of 53 digits are reported as they are, and a total that `long
double` holds makes the mean lie between the extremes too; without these bounds both fail.
-/

namespace TickForge.LatencyStatistics

open LatencyProfilerModel NearestRank BinaryRounding

set_option autoImplicit false

section Percentiles

variable {samples : List Nat} {longDigits : Nat}

/-- The percentiles that are reported, as shares of the samples. -/
def reportedShares : List Rat := [50 / 100, 95 / 100, 99 / 100]

/-- A `uint64_t` as the nearest `double`. -/
def asDouble (sample : Nat) : Rat := roundDigits 53 sample

theorem reported_share_range {q : Rat} (reported : q ∈ reportedShares) : 0 < q ∧ q ≤ 1 := by
  simp only [reportedShares, List.mem_cons, List.not_mem_nil, or_false] at reported
  rcases reported with rfl | rfl | rfl <;> norm_num

theorem as_double_mono {lower upper : Nat} (ordered : lower ≤ upper) :
    asDouble lower ≤ asDouble upper :=
  round_digits_mono (by norm_num) lower.cast_nonneg (by exact_mod_cast ordered)

theorem as_double_exact {sample : Nat} (short : sample ≤ 2 ^ 53) : asDouble sample = sample :=
  round_digits_nat (by norm_num) short

theorem percentile_index_eq {count : Nat} {q : Rat} (nonempty : 0 < count) (positive : 0 < q)
    (bounded : q ≤ 1) (short : count ≤ 2 ^ 53) :
    percentileIndex (exactProducts longDigits) count q = nearestRank count q - 1 := by
  have ranked := rank_pos count positive nonempty
  have within := rank_le_count count bounded
  have converted : (exactProducts longDigits).toDouble (count : Rat) = count :=
    round_digits_nat (by norm_num) short
  unfold percentileIndex
  rw [converted]
  change (if nearestRank count q = 0 then 0 else min (nearestRank count q - 1) (count - 1)) = _
  rw [if_neg ranked.ne']
  omega

theorem percentile_eq (sorted : List Nat) (q : Rat) :
    percentile (exactProducts longDigits) sorted q =
      asDouble (sorted.getD (percentileIndex (exactProducts longDigits) sorted.length q) 0) := rfl

theorem percentile_is_quantile (nonempty : samples ≠ []) (short : samples.length ≤ 2 ^ 53)
    {q : Rat} (positive : 0 < q) (bounded : q ≤ 1) :
    ∃ sample, IsQuantile samples q sample ∧
      percentile (exactProducts longDigits) samples.mergeSort q = asDouble sample := by
  have sameLength : samples.mergeSort.length = samples.length := List.length_mergeSort samples
  have counted : 0 < samples.mergeSort.length := by
    rw [sameLength]
    exact List.length_pos_iff.mpr nonempty
  have inside : nearestRank samples.mergeSort.length q - 1 < samples.mergeSort.length := by
    have within := rank_le_count samples.mergeSort.length bounded
    omega
  refine ⟨samples.mergeSort[nearestRank samples.mergeSort.length q - 1], ?_, ?_⟩
  · apply quantile_perm (List.mergeSort_perm _ _)
    exact sorted_quantile List.sortedLE_mergeSort positive counted inside
  · have index : percentileIndex (exactProducts longDigits) samples.mergeSort.length q =
        nearestRank samples.mergeSort.length q - 1 :=
      percentile_index_eq counted positive bounded (sameLength ▸ short)
    rw [percentile_eq, index, List.getD_eq_getElem _ _ inside]

end Percentiles

section Extremes

variable {samples : List Nat}

theorem merge_sort_pos (nonempty : samples ≠ []) : 0 < samples.mergeSort.length := by
  rw [List.length_mergeSort]
  exact List.length_pos_iff.mpr nonempty

theorem head_is_least (nonempty : samples ≠ []) :
    IsLeast {sample | sample ∈ samples} (samples.mergeSort.head?.getD 0) := by
  have counted := merge_sort_pos nonempty
  have first : samples.mergeSort.head?.getD 0 = samples.mergeSort[0] := by
    rw [List.head?_eq_getElem?, List.getElem?_eq_getElem counted, Option.getD_some]
  rw [first]
  constructor
  · exact List.mem_mergeSort.mp (List.getElem_mem counted)
  · intro sample listed
    have inSorted : sample ∈ samples.mergeSort := List.mem_mergeSort.mpr listed
    rcases List.mem_iff_getElem.mp inSorted with ⟨index, inside, rfl⟩
    exact List.sortedLE_mergeSort.getElem_le_getElem_of_le (Nat.zero_le index)

theorem last_is_greatest (nonempty : samples ≠ []) :
    IsGreatest {sample | sample ∈ samples} (samples.mergeSort.getLast?.getD 0) := by
  have counted := merge_sort_pos nonempty
  have last : samples.mergeSort.getLast?.getD 0 =
      samples.mergeSort[samples.mergeSort.length - 1] := by
    rw [List.getLast?_eq_getElem?, List.getElem?_eq_getElem (by omega), Option.getD_some]
  rw [last]
  constructor
  · exact List.mem_mergeSort.mp (List.getElem_mem (by omega))
  · intro sample listed
    have inSorted : sample ∈ samples.mergeSort := List.mem_mergeSort.mpr listed
    rcases List.mem_iff_getElem.mp inSorted with ⟨index, inside, rfl⟩
    exact List.sortedLE_mergeSort.getElem_le_getElem_of_le (by omega)

/-- Between bounds of all samples lies their mean. -/
theorem mean_between (nonempty : samples ≠ []) (low high : Nat)
    (above : ∀ sample ∈ samples, low ≤ sample) (below : ∀ sample ∈ samples, sample ≤ high) :
    (low : Rat) ≤ (samples.sum : Rat) / samples.length ∧
      (samples.sum : Rat) / samples.length ≤ (high : Rat) := by
  have counted : (0 : Rat) < samples.length := by
    exact_mod_cast List.length_pos_iff.mpr nonempty
  constructor
  · rw [le_div_iff₀ counted, mul_comm]
    have least := List.card_nsmul_le_sum samples low above
    exact_mod_cast least
  · rw [div_le_iff₀ counted, mul_comm]
    have greatest := List.sum_le_card_nsmul samples high below
    exact_mod_cast greatest

end Extremes

section Sums

variable {longDigits : Nat}

/-- A total of so many digits is summed up without a rounding that shows. -/
theorem sample_sum_from (positive : 1 ≤ longDigits) (samples : List Nat) :
    ∀ start : Nat, start + samples.sum ≤ 2 ^ longDigits →
      samples.foldl (fun (acc : Rat) (value : Nat) => (exactProducts longDigits).addLongDouble
        (acc + (exactProducts longDigits).toLongDouble value)) (start : Rat) =
          (start + samples.sum : Nat) := by
  induction samples with
  | nil => exact fun start _ => rfl
  | cons sample rest ih =>
    intro start short
    rw [List.sum_cons] at short ⊢
    have converted : (exactProducts longDigits).toLongDouble (sample : Rat) = sample :=
      round_digits_nat positive (by omega)
    have added : (exactProducts longDigits).addLongDouble ((start : Rat) + sample) =
        (start + sample : Nat) := by
      rw [← Nat.cast_add]
      exact round_digits_nat positive (by omega)
    rw [List.foldl_cons, converted, added, ih (start + sample) (by omega), Nat.add_assoc]

theorem sample_sum_exact (positive : 1 ≤ longDigits) {samples : List Nat}
    (short : samples.sum ≤ 2 ^ longDigits) :
    sampleSum (exactProducts longDigits) samples = samples.sum := by
  have summed := sample_sum_from positive samples 0 (by rwa [Nat.zero_add])
  rw [Nat.cast_zero, Nat.zero_add] at summed
  exact summed

/-- The mean of a total that is summed up exactly is the double nearest to it. -/
theorem mean_exact (precise : 53 ≤ longDigits) {profiler : LatencyProfiler}
    (nonempty : profiler.samples ≠ []) (counted : profiler.samples.length ≤ 2 ^ 53)
    (short : profiler.samples.sum ≤ 2 ^ longDigits) (elapsedNs : Nat) :
    (stats (exactProducts longDigits) profiler elapsedNs).meanNs =
      roundDigits 53 ((profiler.samples.sum : Rat) / profiler.samples.length) := by
  have total := sample_sum_exact (by omega) short
  have length : (exactProducts longDigits).toLongDouble (profiler.samples.length : Rat) =
      profiler.samples.length :=
    round_digits_nat (by omega) (counted.trans (Nat.pow_le_pow_right (by norm_num) precise))
  rw [stats, if_neg nonempty]
  dsimp only
  rw [total, length]
  rfl

end Sums

section Statistics

variable {profiler : LatencyProfiler} {longDigits : Nat}

theorem merge_sort_perm {samples shuffled : List Nat} (rearranged : samples.Perm shuffled) :
    samples.mergeSort = shuffled.mergeSort := by
  have sameItems : samples.mergeSort.Perm shuffled.mergeSort :=
    (List.mergeSort_perm _ _).trans (rearranged.trans (List.mergeSort_perm _ _).symm)
  exact sameItems.eq_of_sortedLE List.sortedLE_mergeSort List.sortedLE_mergeSort

/-- Every statistic but the mean is a function of the multiset of samples. -/
theorem stats_of_perm (arithmetic : FloatArithmetic) {shuffled : LatencyProfiler}
    (rearranged : profiler.samples.Perm shuffled.samples) (elapsedNs : Nat) :
    { stats arithmetic shuffled elapsedNs with
        meanNs := (stats arithmetic profiler elapsedNs).meanNs } =
      stats arithmetic profiler elapsedNs := by
  have sameEmpty : profiler.samples = [] ↔ shuffled.samples = [] := by
    rw [← List.length_eq_zero_iff, rearranged.length_eq, List.length_eq_zero_iff]
  by_cases empty : profiler.samples = []
  · rw [stats, stats, if_pos empty, if_pos (sameEmpty.mp empty)]
  · rw [stats, stats, if_neg empty, if_neg (mt sameEmpty.mpr empty)]
    dsimp only
    rw [merge_sort_perm rearranged, rearranged.length_eq]

/-- What the statistics report of the samples, each sample as `reported`: quantiles in
order between the extremes. -/
structure NearestRankReport (reported : Nat → Rat) (samples : List Nat)
    (result : LatencyStats) : Prop where
  least : IsLeast {sample | sample ∈ samples} result.minNs
  greatest : IsGreatest {sample | sample ∈ samples} result.maxNs
  median : ∃ sample, IsQuantile samples (50 / 100) sample ∧ result.p50Ns = reported sample
  ninetyFifth : ∃ sample, IsQuantile samples (95 / 100) sample ∧ result.p95Ns = reported sample
  ninetyNinth : ∃ sample, IsQuantile samples (99 / 100) sample ∧ result.p99Ns = reported sample
  ordered : reported result.minNs ≤ result.p50Ns ∧ result.p50Ns ≤ result.p95Ns ∧
    result.p95Ns ≤ result.p99Ns ∧ result.p99Ns ≤ reported result.maxNs

theorem reported_as_doubles (nonempty : profiler.samples ≠ [])
    (counted : profiler.samples.length ≤ 2 ^ 53) (elapsedNs : Nat) :
    NearestRankReport asDouble profiler.samples
      (stats (exactProducts longDigits) profiler elapsedNs) := by
  have quantile : ∀ q ∈ reportedShares, ∃ sample, IsQuantile profiler.samples q sample ∧
      percentile (exactProducts longDigits) profiler.samples.mergeSort q = asDouble sample := by
    intro q reported
    have range := reported_share_range reported
    exact percentile_is_quantile nonempty counted range.1 range.2
  rcases quantile (50 / 100) (by simp [reportedShares]) with ⟨median, atHalf, halfRead⟩
  rcases quantile (95 / 100) (by simp [reportedShares]) with ⟨high, atHigh, highRead⟩
  rcases quantile (99 / 100) (by simp [reportedShares]) with ⟨higher, atHigher, higherRead⟩
  rw [stats, if_neg nonempty]
  exact
    { least := head_is_least nonempty
      greatest := last_is_greatest nonempty
      median := ⟨median, atHalf, halfRead⟩
      ninetyFifth := ⟨high, atHigh, highRead⟩
      ninetyNinth := ⟨higher, atHigher, higherRead⟩
      ordered := by
        dsimp only
        rw [halfRead, highRead, higherRead]
        refine ⟨as_double_mono ?_, as_double_mono ?_, as_double_mono ?_, as_double_mono ?_⟩
        · exact (head_is_least nonempty).2 atHalf.listed
        · exact quantile_mono (by norm_num) atHalf atHigh
        · exact quantile_mono (by norm_num) atHigh atHigher
        · exact (last_is_greatest nonempty).2 atHigher.listed }

/-- Where the doubles are the samples, the report is about the samples. -/
theorem NearestRankReport.exact {samples : List Nat} {result : LatencyStats}
    (report : NearestRankReport asDouble samples result)
    (short : ∀ sample ∈ samples, sample ≤ 2 ^ 53) :
    NearestRankReport Nat.cast samples result where
  least := report.least
  greatest := report.greatest
  median := by
    rcases report.median with ⟨sample, quantile, read⟩
    exact ⟨sample, quantile, read.trans (as_double_exact (short sample quantile.listed))⟩
  ninetyFifth := by
    rcases report.ninetyFifth with ⟨sample, quantile, read⟩
    exact ⟨sample, quantile, read.trans (as_double_exact (short sample quantile.listed))⟩
  ninetyNinth := by
    rcases report.ninetyNinth with ⟨sample, quantile, read⟩
    exact ⟨sample, quantile, read.trans (as_double_exact (short sample quantile.listed))⟩
  ordered := by
    have low := as_double_exact (short _ report.least.1)
    have high := as_double_exact (short _ report.greatest.1)
    rw [← low, ← high]
    exact report.ordered

/-- The rank of every reported percentile is inside the sorted array as it is. -/
def RanksUnclamped (arithmetic : FloatArithmetic) (count : Nat) : Prop :=
  ∀ q ∈ reportedShares, 1 ≤ ⌈q * count⌉ ∧ ⌈q * count⌉ ≤ count ∧
    (percentileIndex arithmetic count q : Int) = ⌈q * count⌉ - 1

theorem ranks_unclamped {count : Nat} (nonempty : 0 < count) (short : count ≤ 2 ^ 53) :
    RanksUnclamped (exactProducts longDigits) count := by
  intro q reported
  rcases reported_share_range reported with ⟨positive, bounded⟩
  have ranked := rank_pos count positive nonempty
  have within := rank_le_count count bounded
  have index : percentileIndex (exactProducts longDigits) count q = nearestRank count q - 1 :=
    percentile_index_eq nonempty positive bounded short
  unfold nearestRank at *
  omega

/-- The report on any samples that a `double` counts. A total that `long double` holds
puts the mean between the doubles nearest to the extremes and leaves no trace of the order
in which the samples came; short samples are themselves reported. -/
theorem stats_are_nearest_rank (longDigits : Nat) (precise : 53 ≤ longDigits)
    (profiler : LatencyProfiler) (elapsedNs : Nat) (nonempty : profiler.samples ≠ [])
    (counted : profiler.samples.length ≤ 2 ^ 53) :
    let samples := profiler.samples
    let result := stats (exactProducts longDigits) profiler elapsedNs
    NearestRankReport asDouble samples result ∧
      RanksUnclamped (exactProducts longDigits) samples.length ∧
      (∀ shuffled : LatencyProfiler, samples.Perm shuffled.samples →
        { stats (exactProducts longDigits) shuffled elapsedNs with meanNs := result.meanNs } =
          result) ∧
      (samples.sum ≤ 2 ^ longDigits →
        (asDouble result.minNs ≤ result.meanNs ∧ result.meanNs ≤ asDouble result.maxNs) ∧
          ∀ shuffled : LatencyProfiler, samples.Perm shuffled.samples →
            stats (exactProducts longDigits) shuffled elapsedNs = result) ∧
      ((∀ sample ∈ samples, sample ≤ 2 ^ 53) →
        NearestRankReport Nat.cast samples result ∧
          (samples.sum ≤ 2 ^ longDigits →
            (result.minNs : Rat) ≤ result.meanNs ∧ result.meanNs ≤ result.maxNs)) := by
  intro samples result
  have report : NearestRankReport asDouble samples result :=
    reported_as_doubles nonempty counted elapsedNs
  have between : samples.sum ≤ 2 ^ longDigits →
      asDouble result.minNs ≤ result.meanNs ∧ result.meanNs ≤ asDouble result.maxNs := by
    intro short
    have mean : result.meanNs = _ := mean_exact precise nonempty counted short elapsedNs
    have bounds := mean_between nonempty result.minNs result.maxNs
      (fun sample listed => report.least.2 listed) (fun sample listed => report.greatest.2 listed)
    rw [mean]
    constructor
    · exact round_digits_mono (by norm_num) (Nat.cast_nonneg _) bounds.1
    · exact round_digits_mono (by norm_num) (by positivity) bounds.2
  refine ⟨report, ?_, ?_, ?_, ?_⟩
  · exact ranks_unclamped (List.length_pos_iff.mpr nonempty) counted
  · exact fun shuffled rearranged => stats_of_perm _ rearranged elapsedNs
  · intro short
    refine ⟨between short, ?_⟩
    intro shuffled rearranged
    have meanOf : result.meanNs = _ := mean_exact precise nonempty counted short elapsedNs
    have sameSum := rearranged.sum_eq
    have sameLength := rearranged.length_eq
    have remaining : shuffled.samples ≠ [] :=
      List.length_pos_iff.mp (sameLength ▸ List.length_pos_iff.mpr nonempty)
    have mean : (stats (exactProducts longDigits) shuffled elapsedNs).meanNs = _ :=
      mean_exact precise remaining (sameLength ▸ counted) (sameSum ▸ short) elapsedNs
    rw [← sameSum, ← sameLength, ← meanOf] at mean
    have others := stats_of_perm (exactProducts longDigits) rearranged elapsedNs
    rw [← mean] at others
    exact others
  · intro short
    refine ⟨report.exact short, ?_⟩
    intro held
    rw [← as_double_exact (short _ report.least.1), ← as_double_exact (short _ report.greatest.1)]
    exact between held

/-- Four samples with a duplicate: half of them is an exact rank. -/
theorem four_samples_are_nearest_rank :
    let samples := [30, 10, 20, 10]
    let result := stats (exactProducts 64) ⟨samples⟩ 80
    NearestRankReport Nat.cast samples result ∧ RanksUnclamped (exactProducts 64) 4 ∧
      ((result.minNs : Rat) ≤ result.meanNs ∧ result.meanNs ≤ result.maxNs) ∧
      ∀ shuffled : LatencyProfiler, samples.Perm shuffled.samples →
        stats (exactProducts 64) shuffled 80 = result := by
  intro samples result
  have report := stats_are_nearest_rank 64 (by norm_num) ⟨[30, 10, 20, 10]⟩ 80 (by decide)
    (by decide)
  rcases report with ⟨_, unclamped, _, summed, short⟩
  rcases short (by decide) with ⟨exact, between⟩
  exact ⟨exact, unclamped, between (by decide), (summed (by decide)).2⟩

end Statistics

section Bounds

/-- A sample of 54 digits is reported as the double below it, so that neither the median
nor the mean reaches the least sample. -/
theorem long_sample_rounded :
    let result := stats (exactProducts 64) ⟨[2 ^ 53 + 1]⟩ 1
    result.minNs = 2 ^ 53 + 1 ∧ result.p50Ns = 2 ^ 53 ∧ result.meanNs = 2 ^ 53 := by
  decide +kernel

/-- More samples than a `double` counts: so many zeros, and one more one. -/
def uncountedSamples : List Nat := List.replicate (2 ^ 52) 0 ++ List.replicate (2 ^ 52 + 1) 1

theorem uncounted_sorted : uncountedSamples.mergeSort = uncountedSamples := by
  apply List.mergeSort_of_pairwise
  unfold uncountedSamples
  rw [List.pairwise_append, List.pairwise_replicate, List.pairwise_replicate]
  refine ⟨.inr (by decide), .inr (by decide), ?_⟩
  intro low listed high _
  rw [List.eq_of_mem_replicate listed, decide_eq_true_iff]
  exact Nat.zero_le high

theorem uncounted_length : uncountedSamples.length = 2 ^ 53 + 1 := by
  unfold uncountedSamples
  rw [List.length_append, List.length_replicate, List.length_replicate]
  norm_num

/-- The count is rounded down, and so is the rank. -/
theorem uncounted_median :
    percentile (exactProducts 64) uncountedSamples.mergeSort (50 / 100) = 0 := by
  have index : percentileIndex (exactProducts 64) (2 ^ 53 + 1) (50 / 100) = 2 ^ 52 - 1 := by
    decide +kernel
  rw [uncounted_sorted, percentile_eq, uncounted_length, index]
  unfold uncountedSamples
  rw [List.getD_append _ _ _ _ (by rw [List.length_replicate]; decide),
    List.getD_replicate _ (by decide)]
  exact round_digits_zero 53

theorem zero_is_not_uncounted_median : ¬ IsQuantile uncountedSamples (50 / 100) 0 := by
  intro quantile
  have reached := quantile.reached
  have zeros : uncountedSamples.countP (· ≤ 0) = 2 ^ 52 := by
    unfold uncountedSamples
    rw [List.countP_append, List.countP_replicate, List.countP_replicate]
    rfl
  rw [zeros, uncounted_length] at reached
  norm_num at reached

/-- Without the bounds a percentile or a mean can be below every sample, a mean can depend
on the order of the samples, and a percentile can miss its share. -/
theorem long_samples_are_misreported :
    (let samples := [2 ^ 53 + 1]
      let result := stats (exactProducts 64) ⟨samples⟩ 1
      ¬ (∃ sample, IsQuantile samples (50 / 100) sample ∧ result.p50Ns = sample) ∧
        ¬ (result.minNs : Rat) ≤ result.p50Ns ∧ ¬ (result.minNs : Rat) ≤ result.meanNs) ∧
      (stats (exactProducts 64) ⟨[2 ^ 64 - 1, 2, 1, 2048]⟩ 1).meanNs ≠
        (stats (exactProducts 64) ⟨[2, 1, 2048, 2 ^ 64 - 1]⟩ 1).meanNs ∧
      ¬ ∃ sample, IsQuantile uncountedSamples (50 / 100) sample ∧
        (stats (exactProducts 64) ⟨uncountedSamples⟩ 1).p50Ns = sample := by
  refine ⟨?_, by decide +kernel, ?_⟩
  · intro samples result
    have rounded : result.minNs = _ ∧ result.p50Ns = _ ∧ result.meanNs = _ := long_sample_rounded
    rw [rounded.1, rounded.2.1, rounded.2.2]
    refine ⟨?_, by norm_num, by norm_num⟩
    rintro ⟨sample, quantile, read⟩
    rw [List.mem_singleton.mp quantile.listed] at read
    norm_num at read
  · rintro ⟨sample, quantile, read⟩
    have nonempty : uncountedSamples ≠ [] := by
      apply List.ne_nil_of_length_pos
      rw [uncounted_length]
      norm_num
    have reported : (stats (exactProducts 64) ⟨uncountedSamples⟩ 1).p50Ns = 0 := by
      rw [stats, if_neg nonempty]
      exact uncounted_median
    rw [reported] at read
    have isZero : sample = 0 := by exact_mod_cast read.symm
    rw [isZero] at quantile
    exact zero_is_not_uncounted_median quantile

end Bounds

end TickForge.LatencyStatistics
