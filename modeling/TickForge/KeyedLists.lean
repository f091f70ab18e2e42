import TickForge.KeyedTotals
import Mathlib.Data.List.Nodup

/-!
# Lists of items with distinct keys

Such a list is a table kept by hand: lookups search for a key, and appending a
fresh item, replacing an item by one of the same key and erasing an item change
the lookup of that key alone. Where a table and a list look up alike they hold
the same entries and have the same totals.
-/

namespace TickForge.KeyedLists

open Std (ExtTreeMap TransCmp LawfulEqCmp)
open KeyedTotals

set_option autoImplicit false

variable {Item Key : Type*} (keyOf : Item → Key) {items : List Item}

section Members

variable {Sound : Item → Prop} (sound : ∀ item ∈ items, Sound item)
include sound

theorem all_append {item : Item} (isSound : Sound item) : ∀ other ∈ items ++ [item], Sound other := by
  rw [List.forall_mem_append, List.forall_mem_singleton]
  exact ⟨sound, isSound⟩

theorem all_set (index : Nat) {item : Item} (isSound : Sound item) :
    ∀ other ∈ items.set index item, Sound other := by
  intro other listed
  rcases List.mem_or_eq_of_mem_set listed with old | rfl
  · exact sound other old
  · exact isSound

theorem all_erase (index : Nat) : ∀ other ∈ items.eraseIdx index, Sound other :=
  fun other listed => sound other (List.mem_of_mem_eraseIdx listed)

end Members

section Distinctness

def DistinctKeys (items : List Item) : Prop := (items.map keyOf).Nodup

theorem split_at (index : Nat) (inside : index < items.length) :
    items = items.take index ++ items[index] :: items.drop (index + 1) := by
  rw [← List.drop_eq_getElem_cons inside, List.take_append_drop]

variable (distinct : DistinctKeys keyOf items)
include distinct

theorem distinct_append {item : Item} (fresh : ∀ other ∈ items, keyOf other ≠ keyOf item) :
    DistinctKeys keyOf (items ++ [item]) := by
  rw [DistinctKeys, List.map_append, List.map_singleton, ← List.concat_eq_append,
    List.nodup_concat]
  refine ⟨?_, distinct⟩
  intro listed
  obtain ⟨other, member, same⟩ := List.mem_map.mp listed
  exact fresh other member same

theorem distinct_set (index : Nat) (inside : index < items.length) {item : Item}
    (sameKey : keyOf item = keyOf items[index]) : DistinctKeys keyOf (items.set index item) := by
  have insideKeys : index < (items.map keyOf).length := by rwa [List.length_map]
  have kept : (items.map keyOf)[index] = keyOf item := by
    rw [List.getElem_map, sameKey]
  rw [DistinctKeys, List.map_set, ← kept, List.set_getElem_self]
  exact distinct

theorem distinct_erase (index : Nat) : DistinctKeys keyOf (items.eraseIdx index) := by
  exact distinct.sublist ((List.eraseIdx_sublist items index).map keyOf)

end Distinctness

variable [DecidableEq Key]

/-- The item with this key. -/
def find (items : List Item) (key : Key) : Option Item :=
  items.find? fun item => keyOf item = key

section Lookups

theorem find_eq_none_iff (key : Key) :
    find keyOf items key = none ↔ ∀ item ∈ items, keyOf item ≠ key := by
  simp [find]

theorem find_append (before after : List Item) (key : Key) :
    find keyOf (before ++ after) key = (find keyOf before key).or (find keyOf after key) :=
  List.find?_append

theorem find_cons (item : Item) (rest : List Item) (key : Key) :
    find keyOf (item :: rest) key =
      if keyOf item = key then some item else find keyOf rest key := by
  by_cases same : keyOf item = key <;> simp [find, same]

theorem find_sound {key : Key} {item : Item} (found : find keyOf items key = some item) :
    item ∈ items ∧ keyOf item = key := by
  exact ⟨List.mem_of_find?_eq_some found, by simpa using List.find?_some found⟩

/-- Around an item of a list with distinct keys nothing else has its key. -/
theorem find_around {before after : List Item} {item : Item}
    (distinct : DistinctKeys keyOf (before ++ item :: after)) :
    find keyOf before (keyOf item) = none ∧ find keyOf after (keyOf item) = none := by
  rw [DistinctKeys, List.map_append, List.map_cons, List.nodup_middle, List.nodup_cons,
    List.mem_append, not_or] at distinct
  rw [find_eq_none_iff, find_eq_none_iff]
  constructor
  · intro other listed same
    exact distinct.1.1 (List.mem_map.mpr ⟨other, listed, same⟩)
  · intro other listed same
    exact distinct.1.2 (List.mem_map.mpr ⟨other, listed, same⟩)

theorem find_of_mem (distinct : DistinctKeys keyOf items) {item : Item} (listed : item ∈ items) :
    find keyOf items (keyOf item) = some item := by
  obtain ⟨before, after, rfl⟩ := List.append_of_mem listed
  rw [find_append, find_cons, if_pos rfl, (find_around keyOf distinct).1, Option.none_or]

end Lookups

section Updates

theorem find_fresh {item : Item} (fresh : ∀ other ∈ items, keyOf other ≠ keyOf item) (key : Key) :
    find keyOf (items ++ [item]) key =
      if keyOf item = key then some item else find keyOf items key := by
  rw [find_append, find_cons]
  split_ifs with same
  · rw [← same, (find_eq_none_iff keyOf (keyOf item)).mpr fresh, Option.none_or]
  · cases find keyOf items key <;> rfl

variable (distinct : DistinctKeys keyOf items)
include distinct

theorem find_set (index : Nat) (inside : index < items.length) {item : Item}
    (sameKey : keyOf item = keyOf items[index]) (key : Key) :
    find keyOf (items.set index item) key =
      if keyOf item = key then some item else find keyOf items key := by
  have whole := split_at index inside
  rw [whole] at distinct
  have alone := find_around keyOf distinct
  rw [List.set_eq_take_append_cons_drop, if_pos inside, find_append, find_cons]
  split_ifs with same
  · rw [← same, sameKey, alone.1, Option.none_or]
  · conv_rhs => rw [whole, find_append, find_cons, ← sameKey, if_neg same]

theorem find_erase (index : Nat) (inside : index < items.length) (key : Key) :
    find keyOf (items.eraseIdx index) key =
      if keyOf items[index] = key then none else find keyOf items key := by
  have whole := split_at index inside
  rw [whole] at distinct
  have alone := find_around keyOf distinct
  rw [List.eraseIdx_eq_take_drop_succ, find_append]
  split_ifs with same
  · rw [← same, alone.1, alone.2, Option.none_or]
  · conv_rhs => rw [whole, find_append, find_cons, if_neg same]

end Updates

section Tables

variable {Value : Type*} {cmp : Key → Key → Ordering} [TransCmp cmp] [LawfulEqCmp cmp]
variable {table : ExtTreeMap Key Value cmp} {valueOf : Item → Value}
variable (distinct : DistinctKeys keyOf items)
variable (alike : ∀ key : Key, table[key]? = (find keyOf items key).map valueOf)
include distinct alike

theorem toList_perm_items :
    table.toList.Perm (items.map fun item => (keyOf item, valueOf item)) := by
  classical
  have distinctEntries : (items.map fun item => (keyOf item, valueOf item)).Nodup := by
    apply List.Nodup.of_map Prod.fst
    rw [List.map_map]
    exact distinct
  rw [List.perm_ext_iff_of_nodup (toList_nodup table) distinctEntries]
  rintro ⟨key, value⟩
  rw [ExtTreeMap.mem_toList_iff_getElem?_eq_some, alike key, Option.map_eq_some_iff,
    List.mem_map]
  constructor
  · rintro ⟨item, found, rfl⟩
    obtain ⟨listed, same⟩ := find_sound keyOf found
    exact ⟨item, listed, Prod.ext same rfl⟩
  · rintro ⟨item, listed, same⟩
    cases same
    exact ⟨item, find_of_mem keyOf distinct listed, rfl⟩

theorem total_eq_items {Amount : Type*} [AddCommMonoid Amount] (weight : Key → Value → Amount) :
    total weight table = (items.map fun item => weight (keyOf item) (valueOf item)).sum := by
  rw [total, ((toList_perm_items keyOf distinct alike).map _).sum_eq, List.map_map]
  rfl

theorem size_eq_length : table.size = items.length := by
  rw [← ExtTreeMap.length_toList, (toList_perm_items keyOf distinct alike).length_eq,
    List.length_map]

end Tables

end TickForge.KeyedLists
