import Mathlib.Data.List.Perm.Basic
import Mathlib.Algebra.BigOperators.Group.List.Basic
import Mathlib.Algebra.Order.BigOperators.Group.List
import Mathlib.Algebra.BigOperators.Group.Multiset.Basic
import Mathlib.Tactic.Abel
import Mathlib.Tactic.Push
import Std.Data.ExtTreeMap

/-!
# Totals over finite ordered maps

A finite map is summed entry by entry. The rules say how a total moves when
one key is written or erased, and when a total of nonnegative weights
vanishes. Keys, values and comparison are arbitrary.
-/

namespace TickForge.KeyedTotals

open Std (ExtTreeMap TransCmp LawfulEqCmp ReflCmp)

set_option autoImplicit false

variable {Key Value : Type*} {cmp : Key → Key → Ordering} [TransCmp cmp] [LawfulEqCmp cmp]

theorem lookup_insert [DecidableEq Key] (table : ExtTreeMap Key Value cmp) (key other : Key)
    (value : Value) :
    (table.insert key value)[other]? = if key = other then some value else table[other]? := by
  simp only [ExtTreeMap.getElem?_insert, LawfulEqCmp.compare_eq_iff_eq]

theorem lookup_erase [DecidableEq Key] (table : ExtTreeMap Key Value cmp) (key other : Key) :
    (table.erase key)[other]? = if key = other then none else table[other]? := by
  simp only [ExtTreeMap.getElem?_erase, LawfulEqCmp.compare_eq_iff_eq]

/-- Writing `some` stores an entry and writing `none` removes it. -/
def put (table : ExtTreeMap Key Value cmp) (key : Key) : Option Value → ExtTreeMap Key Value cmp
  | some value => table.insert key value
  | none => table.erase key

theorem lookup_put [DecidableEq Key] (table : ExtTreeMap Key Value cmp) (key other : Key)
    (entry : Option Value) :
    (put table key entry)[other]? = if key = other then entry else table[other]? := by
  cases entry with
  | none => exact lookup_erase table key other
  | some value => exact lookup_insert table key other value

/-- Pairs of distinct keys overwrite what a table holds under these keys. -/
theorem lookup_insert_many [DecidableEq Key] (table : ExtTreeMap Key Value cmp)
    (pairs : List (Key × Value)) (distinct : (pairs.map Prod.fst).Nodup) (key : Key)
    (value : Value) :
    (table.insertMany pairs)[key]? = some value ↔
      (key, value) ∈ pairs ∨ (table[key]? = some value ∧ key ∉ pairs.map Prod.fst) := by
  induction pairs generalizing table with
  | nil => simp
  | cons pair rest ih =>
      rw [List.map_cons, List.nodup_cons] at distinct
      rw [ExtTreeMap.insertMany_cons, ih _ distinct.2, lookup_insert, List.map_cons]
      by_cases same : pair.1 = key
      · have unlisted : ∀ other, (key, other) ∉ rest := by
          intro other listed
          exact distinct.1 (same ▸ List.mem_map_of_mem listed)
        have absent : key ∉ rest.map Prod.fst := same ▸ distinct.1
        simp [same, unlisted, absent, Prod.ext_iff, eq_comm]
      · have other : (key, value) ≠ pair := fun pairEq => same (congrArg Prod.fst pairEq.symm)
        simp [same, other, Ne.symm same]

theorem toList_nodup (table : ExtTreeMap Key Value cmp) : table.toList.Nodup := by
  apply table.distinct_keys_toList.imp
  intro left right distinct same
  exact distinct (same ▸ ReflCmp.compare_self)

/-- One stored entry can be drawn to the front; what is left is the erased table. -/
theorem toList_perm_cons_erase (table : ExtTreeMap Key Value cmp) (key : Key) (value : Value)
    (stored : table[key]? = some value) :
    table.toList.Perm ((key, value) :: (table.erase key).toList) := by
  classical
  have fresh : (key, value) ∉ (table.erase key).toList := by
    simp [ExtTreeMap.mem_toList_iff_getElem?_eq_some]
  rw [List.perm_ext_iff_of_nodup (toList_nodup table)
    (List.nodup_cons.mpr ⟨fresh, toList_nodup _⟩)]
  rintro ⟨other, held⟩
  rw [List.mem_cons, ExtTreeMap.mem_toList_iff_getElem?_eq_some,
    ExtTreeMap.mem_toList_iff_getElem?_eq_some, lookup_erase, Prod.mk.injEq]
  by_cases same : key = other
  · subst same
    simp [stored, eq_comm]
  · simp [same, Ne.symm same]

/-- A list in key order with a table's entries is the list of the table. -/
theorem toList_eq_of_sorted (table : ExtTreeMap Key Value cmp) (entries : List (Key × Value))
    (sorted : entries.Pairwise fun left right => cmp left.1 right.1 = .lt)
    (same : ∀ key value, table[key]? = some value ↔ (key, value) ∈ entries) :
    table.toList = entries := by
  have irreflexive : ∀ entry : Key × Value, cmp entry.1 entry.1 ≠ .lt := by
    intro entry less
    have equal : cmp entry.1 entry.1 = .eq := ReflCmp.compare_self
    rw [equal] at less
    cases less
  have distinct : entries.Nodup := by
    apply sorted.imp
    rintro left right less rfl
    exact irreflexive left less
  apply List.Perm.eq_of_pairwise _ table.ordered_keys_toList sorted
  · rw [List.perm_ext_iff_of_nodup (toList_nodup table) distinct]
    rintro ⟨key, value⟩
    rw [ExtTreeMap.mem_toList_iff_getElem?_eq_some, same]
  · intro left right _ _ forward backward
    exact absurd (TransCmp.lt_trans forward backward) (irreflexive left)

section Totals

variable {Amount : Type*} [AddCommMonoid Amount] (weight : Key → Value → Amount)

def total (table : ExtTreeMap Key Value cmp) : Amount :=
  (table.toList.map fun entry => weight entry.1 entry.2).sum

/-- What one key contributes; an absent entry contributes nothing. -/
def share (key : Key) : Option Value → Amount
  | none => 0
  | some value => weight key value

@[simp] theorem share_none (key : Key) : share weight key none = 0 := rfl

@[simp] theorem share_some (key : Key) (value : Value) :
    share weight key (some value) = weight key value := rfl

omit [LawfulEqCmp cmp] in
@[simp] theorem total_empty : total weight (∅ : ExtTreeMap Key Value cmp) = 0 := by
  simp [total, ExtTreeMap.toList_eq_nil_iff.mpr]

theorem total_split (table : ExtTreeMap Key Value cmp) (key : Key) :
    total weight table = share weight key table[key]? + total weight (table.erase key) := by
  classical
  cases stored : table[key]? with
  | none =>
      have unchanged : table.erase key = table := by
        apply ExtTreeMap.ext_getElem?
        intro other
        rw [lookup_erase]
        split_ifs with same
        · rw [← same, stored]
        · rfl
      rw [unchanged, share_none, zero_add]
  | some value =>
      have moved := (toList_perm_cons_erase table key value stored).map
        fun entry => weight entry.1 entry.2
      simpa [total] using moved.sum_eq

theorem erase_put (table : ExtTreeMap Key Value cmp) (key : Key) (entry : Option Value) :
    (put table key entry).erase key = table.erase key := by
  classical
  apply ExtTreeMap.ext_getElem?
  intro other
  simp only [lookup_erase, lookup_put]
  split_ifs <;> rfl

theorem total_put_split (table : ExtTreeMap Key Value cmp) (key : Key) (entry : Option Value) :
    total weight (put table key entry) =
      share weight key entry + total weight (table.erase key) := by
  classical
  rw [total_split weight (put table key entry) key, erase_put, lookup_put, if_pos rfl]

theorem exists_of_total_ne_zero (table : ExtTreeMap Key Value cmp)
    (nonzero : total weight table ≠ 0) :
    ∃ key value, table[key]? = some value ∧ weight key value ≠ 0 := by
  by_contra absent
  push Not at absent
  apply nonzero
  apply List.sum_eq_zero
  intro amount member
  obtain ⟨⟨key, value⟩, listed, rfl⟩ := List.mem_map.mp member
  exact absent key value (ExtTreeMap.mem_toList_iff_getElem?_eq_some.mp listed)

omit [LawfulEqCmp cmp] in
theorem total_map {Other : Type*} (rename : Key → Other → Value)
    (table : ExtTreeMap Key Other cmp) :
    total weight (table.map rename) = total (fun key value => weight key (rename key value)) table := by
  simp only [total, ExtTreeMap.toList_map, List.map_map, Function.comp_def]

omit [LawfulEqCmp cmp] in
theorem total_of_fold (amounts : ExtTreeMap Key Amount cmp) :
    amounts.foldl (fun sum _ amount => sum + amount) 0 = total (fun _ amount => amount) amounts := by
  rw [ExtTreeMap.foldl_eq_foldl_toList, total, List.sum_eq_foldl, List.foldl_map]

end Totals

section Differences

variable {Amount : Type*} [AddCommGroup Amount] (weight : Key → Value → Amount)

/-- Rewriting one key moves the total by the new share less the old one. -/
theorem total_put (table : ExtTreeMap Key Value cmp) (key : Key) (entry : Option Value) :
    total weight (put table key entry) =
      total weight table - share weight key table[key]? + share weight key entry := by
  rw [total_put_split, total_split weight table key]
  abel

end Differences

section Ordered

variable {Amount : Type*} [AddCommMonoid Amount] [PartialOrder Amount] [IsOrderedAddMonoid Amount]
variable (weight : Key → Value → Amount)

theorem total_nonneg (table : ExtTreeMap Key Value cmp)
    (nonneg : ∀ key value, table[key]? = some value → 0 ≤ weight key value) :
    0 ≤ total weight table := by
  apply List.sum_nonneg
  intro amount member
  obtain ⟨⟨key, value⟩, listed, rfl⟩ := List.mem_map.mp member
  exact nonneg key value (ExtTreeMap.mem_toList_iff_getElem?_eq_some.mp listed)

theorem total_erase_nonneg (table : ExtTreeMap Key Value cmp) (key : Key)
    (nonneg : ∀ key value, table[key]? = some value → 0 ≤ weight key value) :
    0 ≤ total weight (table.erase key) := by
  classical
  apply total_nonneg
  intro other value stored
  rw [lookup_erase] at stored
  split_ifs at stored
  exact nonneg other value stored

theorem share_le_total (table : ExtTreeMap Key Value cmp) (key : Key)
    (nonneg : ∀ key value, table[key]? = some value → 0 ≤ weight key value) :
    share weight key table[key]? ≤ total weight table := by
  rw [total_split weight table key]
  exact le_add_of_nonneg_right (total_erase_nonneg weight table key nonneg)

theorem weight_le_total (table : ExtTreeMap Key Value cmp) (key : Key) (value : Value)
    (stored : table[key]? = some value)
    (nonneg : ∀ key value, table[key]? = some value → 0 ≤ weight key value) :
    weight key value ≤ total weight table := by
  have bounded := share_le_total weight table key nonneg
  rwa [stored, share_some] at bounded

end Ordered

theorem total_congr {Amount : Type*} [AddCommMonoid Amount] (left right : Key → Value → Amount)
    (table : ExtTreeMap Key Value cmp)
    (same : ∀ key value, table[key]? = some value → left key value = right key value) :
    total left table = total right table := by
  unfold total
  congr 1
  apply List.map_congr_left
  rintro ⟨key, value⟩ listed
  exact same key value (ExtTreeMap.mem_toList_iff_getElem?_eq_some.mp listed)

section Groups

variable {Amount : Type*} [AddCommMonoid Amount]
variable {Group : Type*} {groupCmp : Group → Group → Ordering}
variable [TransCmp groupCmp] [LawfulEqCmp groupCmp]

omit [LawfulEqCmp cmp] [LawfulEqCmp groupCmp] in
theorem total_comm {Held : Type*} (groups : ExtTreeMap Group Held groupCmp)
    (members : ExtTreeMap Key Value cmp) (weight : Group → Held → Key → Value → Amount) :
    total (fun group held => total (weight group held) members) groups =
      total (fun key value => total (fun group held => weight group held key value) groups)
        members := by
  have swapped := Multiset.sum_map_sum_map (groups.toList : Multiset (Group × Held))
    (members.toList : Multiset (Key × Value))
    (f := fun group entry => weight group.1 group.2 entry.1 entry.2)
  simpa [total] using swapped

/-- Entries summed group by group give the total over all entries, when every
entry of nonzero weight has its group listed. -/
theorem total_by_groups [DecidableEq Group] (groups : ExtTreeMap Group Amount groupCmp)
    (members : ExtTreeMap Key Value cmp) (weight : Key → Value → Amount)
    (groupOf : Key → Value → Group)
    (held : ∀ group amount, groups[group]? = some amount →
      amount = total (fun key value => if groupOf key value = group then weight key value else 0)
        members)
    (listed : ∀ key value, members[key]? = some value → weight key value ≠ 0 →
      (groups[groupOf key value]?).isSome) :
    total (fun _ amount => amount) groups = total weight members := by
  have expanded : total (fun _ amount => amount) groups =
      total (fun group _ => total
        (fun key value => if groupOf key value = group then weight key value else 0) members)
        groups := total_congr _ _ groups held
  rw [expanded, total_comm]
  apply total_congr
  intro key value stored
  rw [total_split _ groups (groupOf key value)]
  have others : total (fun group _ => if groupOf key value = group then weight key value else 0)
      (groups.erase (groupOf key value)) = 0 := by
    by_contra nonzero
    obtain ⟨group, amount, found, weighs⟩ := exists_of_total_ne_zero _ _ nonzero
    rw [lookup_erase] at found
    split_ifs at found with same
    exact weighs (if_neg same)
  rw [others, add_zero]
  cases present : groups[groupOf key value]? with
  | some amount => simp
  | none =>
      by_contra differs
      have weighs : weight key value ≠ 0 := by
        intro vanishes
        exact differs (by simp [vanishes])
      have someGroup := listed key value stored weighs
      simp [present] at someGroup

end Groups

section FirstKey

omit [LawfulEqCmp cmp] in
theorem first_key_eq_min_key (table : ExtTreeMap Key Value cmp) :
    (table.toList.head?).map Prod.fst = table.minKey? := by
  rw [ExtTreeMap.minKey?_eq_head?_keys, ← ExtTreeMap.map_fst_toList_eq_keys, List.head?_map]

/-- Iteration starts at the least key. -/
theorem first_key_eq_some_iff (table : ExtTreeMap Key Value cmp) (key : Key) :
    (table.toList.head?).map Prod.fst = some key ↔
      (table[key]?).isSome ∧ ∀ other, (table[other]?).isSome → (cmp key other).isLE := by
  rw [first_key_eq_min_key, ExtTreeMap.minKey?_eq_some_iff_mem_and_forall]
  simp only [ExtTreeMap.mem_iff_isSome_getElem?]

theorem first_key_eq_none_iff (table : ExtTreeMap Key Value cmp) :
    (table.toList.head?).map Prod.fst = none ↔ ∀ key : Key, table[key]? = none := by
  rw [Option.map_eq_none_iff, List.head?_eq_none_iff, ExtTreeMap.toList_eq_nil_iff]
  constructor
  · rintro rfl key
    rfl
  · intro absent
    exact ExtTreeMap.ext_getElem? absent

end FirstKey

end TickForge.KeyedTotals
