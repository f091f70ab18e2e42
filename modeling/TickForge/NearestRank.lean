import Mathlib.Algebra.Order.Floor.Ring
import Mathlib.Data.List.Sort
import Mathlib.Data.Rat.Floor
import Mathlib.Tactic.Linarith

/-!
# Nearest-rank quantiles

The quantile at `q` is an item that at least the share `q` of the list does not
exceed while less than that share lies below it. There is at most one such
item, it grows with `q`, and a sorted list holds it at the rank `⌈q * n⌉`,
counted from one.
-/

namespace TickForge.NearestRank

set_option autoImplicit false

section Ranks

variable (count : Nat) {q : Rat}

def nearestRank (count : Nat) (q : Rat) : Nat := ⌈q * count⌉.toNat

theorem share_le_rank (q : Rat) : q * count ≤ nearestRank count q := by
  have above : q * count ≤ (⌈q * count⌉ : Rat) := Int.le_ceil _
  have kept : (⌈q * count⌉ : Rat) ≤ (nearestRank count q : Nat) := by
    exact_mod_cast Int.self_le_toNat ⌈q * count⌉
  exact above.trans kept

theorem rank_pos (positive : 0 < q) (nonempty : 0 < count) : 0 < nearestRank count q := by
  have share : 0 < q * count := mul_pos positive (by exact_mod_cast nonempty)
  have reached := share.trans_le (share_le_rank count q)
  exact_mod_cast reached

theorem rank_le_count (bounded : q ≤ 1) : nearestRank count q ≤ count := by
  have share : q * count ≤ (count : Int) := by
    calc
      q * count ≤ 1 * count := by gcongr
      _ = (count : Int) := by simp
  exact Int.toNat_le.mpr (Int.ceil_le.mpr share)

/-- The rank before the nearest one falls short of the share. -/
theorem rank_pred_lt_share (positive : 0 < q) (nonempty : 0 < count) :
    ((nearestRank count q - 1 : Nat) : Rat) < q * count := by
  have ranked := rank_pos count positive nonempty
  have above : ((nearestRank count q - 1 : Nat) : Int) < ⌈q * count⌉ := by
    unfold nearestRank at *
    omega
  exact_mod_cast Int.lt_ceil.mp above

end Ranks

section Counts

variable {Item : Type*} [LinearOrder Item] {items : List Item}

/-- Up to an index of a sorted list nothing exceeds the item there. -/
theorem sorted_count_le (sorted : items.SortedLE) (index : Nat)
    (inside : index < items.length) : index + 1 ≤ items.countP (· ≤ items[index]) := by
  have prefixed : (items.take (index + 1)).countP (· ≤ items[index]) = index + 1 := by
    have all : ∀ item ∈ items.take (index + 1), decide (item ≤ items[index]) = true := by
      intro item listed
      obtain ⟨earlier, bound, rfl⟩ := List.mem_iff_getElem.mp listed
      rw [List.getElem_take, decide_eq_true_iff]
      rw [List.length_take] at bound
      exact sorted.getElem_le_getElem_of_le (by omega)
    rw [List.countP_eq_length.mpr all, List.length_take]
    omega
  have kept := (List.take_sublist (index + 1) items).countP_le (p := (· ≤ items[index]))
  omega

/-- From an index of a sorted list on nothing lies below the item there. -/
theorem sorted_count_lt (sorted : items.SortedLE) (index : Nat)
    (inside : index < items.length) : items.countP (· < items[index]) ≤ index := by
  have suffixed : (items.drop index).countP (· < items[index]) = 0 := by
    rw [List.countP_eq_zero]
    intro item listed
    obtain ⟨later, bound, rfl⟩ := List.mem_iff_getElem.mp listed
    rw [List.getElem_drop, decide_eq_true_iff, not_lt]
    rw [List.length_drop] at bound
    exact sorted.getElem_le_getElem_of_le (by omega)
  calc
    items.countP (· < items[index]) =
        (items.take index).countP (· < items[index]) +
          (items.drop index).countP (· < items[index]) := by
      rw [← List.countP_append, List.take_append_drop]
    _ ≤ index := by
      rw [suffixed]
      exact List.countP_le_length.trans (by rw [List.length_take]; omega)

end Counts

section Quantiles

variable {Item : Type*} [LinearOrder Item] {items : List Item}

/-- `value` is the nearest-rank quantile of the items at `q`. -/
structure IsQuantile (items : List Item) (q : Rat) (value : Item) : Prop where
  listed : value ∈ items
  reached : q * items.length ≤ items.countP (· ≤ value)
  below : (items.countP (· < value) : Rat) < q * items.length

theorem quantile_mono {low high : Rat} {value other : Item} (ordered : low ≤ high)
    (atLow : IsQuantile items low value) (atHigh : IsQuantile items high other) :
    value ≤ other := by
  by_contra above
  -- Everything up to `other` lies below `value`, so the low share would be missed.
  have counted : items.countP (· ≤ other) ≤ items.countP (· < value) := by
    apply List.countP_mono_left
    intro item _ within
    rw [decide_eq_true_iff] at *
    exact within.trans_lt (not_le.mp above)
  have shares : low * items.length ≤ high * items.length := by gcongr
  have counts : (items.countP (· ≤ other) : Rat) ≤ items.countP (· < value) := by
    exact_mod_cast counted
  have missed := atLow.below
  have reached := atHigh.reached
  linarith

theorem quantile_perm {shuffled : List Item} (rearranged : items.Perm shuffled) {q : Rat}
    {value : Item} (quantile : IsQuantile items q value) : IsQuantile shuffled q value where
  listed := rearranged.mem_iff.mp quantile.listed
  reached := by
    rw [← rearranged.length_eq, ← rearranged.countP_eq]
    exact quantile.reached
  below := by
    rw [← rearranged.length_eq, ← rearranged.countP_eq]
    exact quantile.below

/-- A sorted list holds its quantile at the nearest rank. -/
theorem sorted_quantile (sorted : items.SortedLE) {q : Rat} (positive : 0 < q)
    (nonempty : 0 < items.length) (inside : nearestRank items.length q - 1 < items.length) :
    IsQuantile items q items[nearestRank items.length q - 1] where
  listed := List.getElem_mem inside
  reached := by
    have counted := sorted_count_le sorted _ inside
    have ranked := rank_pos items.length positive nonempty
    have shared : nearestRank items.length q ≤
        items.countP (· ≤ items[nearestRank items.length q - 1]) := by omega
    exact (share_le_rank items.length q).trans (by exact_mod_cast shared)
  below := by
    have counted := sorted_count_lt sorted _ inside
    have short := rank_pred_lt_share items.length positive nonempty
    exact lt_of_le_of_lt (by exact_mod_cast counted) short

end Quantiles

end TickForge.NearestRank
