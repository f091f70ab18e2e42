import Mathlib.Data.List.Induction
import Mathlib.Data.List.Range
import Mathlib.Tactic.Common

/-!
# Positions on a cycle of slots

Positions count on without bound and are served by `count` slots in turn.
Within one lap the slots of different positions differ; `slotHistory` lists the
slots of the positions `0 .. last`.
-/

namespace TickForge.CyclicSlots

set_option autoImplicit false

theorem same_slot_iff {count position later : Nat} (ordered : position ≤ later)
    (oneLap : later < position + count) :
    position % count = later % count ↔ position = later := by
  constructor
  · intro same
    have apart : (later - position) % count = 0 := Nat.sub_mod_eq_zero_of_mod_eq same.symm
    rw [Nat.mod_eq_of_lt (by omega)] at apart
    omega
  · rintro rfl
    rfl

/-- The slot after a slot, back to the first one after the last. -/
theorem next_slot (count position : Nat) (positive : 0 < count) :
    (position + 1) % count =
      if position % count + 1 = count then 0 else position % count + 1 := by
  have inside := Nat.mod_lt position positive
  rw [← Nat.mod_add_mod]
  split_ifs with last
  · rw [last, Nat.mod_self]
  · exact Nat.mod_eq_of_lt (by omega)

/-- Going `offset` slots on from the slot of a position. -/
theorem slot_offset (count position offset : Nat) :
    (position % count + offset) % count = (position + offset) % count := Nat.mod_add_mod ..

/-- The slots passed from one position to a later one of the same lap. -/
theorem slot_distance {count position later : Nat} (ordered : position ≤ later)
    (oneLap : later < position + count) :
    (later % count + count - position % count) % count = later - position := by
  have inside := Nat.mod_lt position (show 0 < count by omega)
  have split : later % count + count - position % count =
      later % count + (count - position % count) := by omega
  have whole : position + (count - position % count) =
      count * (position / count + 1) := by
    have parts := Nat.div_add_mod position count
    rw [Nat.mul_add, Nat.mul_one]
    omega
  calc
    (later % count + count - position % count) % count =
        (later + (count - position % count)) % count := by rw [split, Nat.mod_add_mod]
    _ = ((later - position) + (position + (count - position % count))) % count := by
      congr 1
      omega
    _ = (later - position) % count := by rw [whole, Nat.add_mul_mod_self_left]
    _ = later - position := Nat.mod_eq_of_lt (by omega)

def slotHistory (count last : Nat) : List Nat := (List.range (last + 1)).map (· % count)

theorem slot_history_length (count last : Nat) : (slotHistory count last).length = last + 1 := by
  simp [slotHistory]

theorem slot_history_lookup (count last version slot : Nat) :
    (slotHistory count last)[version]? = some slot ↔ version ≤ last ∧ slot = version % count := by
  simp only [slotHistory, List.getElem?_map, Option.map_eq_some_iff, List.getElem?_eq_some_iff,
    List.length_range, List.getElem_range]
  constructor
  · rintro ⟨position, ⟨inside, rfl⟩, rfl⟩
    exact ⟨by omega, rfl⟩
  · rintro ⟨inside, rfl⟩
    exact ⟨version, ⟨by omega, rfl⟩, rfl⟩

theorem slot_history_extend (count last : Nat) :
    slotHistory count last ++ [(last + 1) % count] = slotHistory count (last + 1) := by
  simp [slotHistory, List.range_succ]

theorem slot_history_last (count last : Nat) :
    (slotHistory count last).getLast?.getD 0 = last % count := by
  simp [slotHistory, List.range_succ]

/-- Looking a list up at every index gives the list. -/
theorem lookups_range {Item : Type*} (items : List Item) (lookup : Nat → Option Item)
    (found : ∀ offset, offset < items.length → lookup offset = items[offset]?) :
    (List.range items.length).filterMap lookup = items := by
  induction items using List.reverseRecOn with
  | nil => rfl
  | append_singleton earlier item ih =>
      have last := found earlier.length (by simp)
      rw [List.getElem?_concat_length] at last
      have prior : ∀ offset, offset < earlier.length → lookup offset = earlier[offset]? := by
        intro offset inside
        rw [found offset (by simp; omega), List.getElem?_append_left inside]
      rw [List.length_append, List.length_singleton, List.range_succ, List.filterMap_append,
        ih prior, List.filterMap_cons, last, List.filterMap_nil]

end TickForge.CyclicSlots
