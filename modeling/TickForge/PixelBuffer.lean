import Mathlib.Data.List.Basic
import Mathlib.Tactic.Ring

/-!
# Pictures in a flat buffer

The pixels of a picture follow each other row by row, each with the same number of
samples. Assigning a slice of the size of a pixel changes that pixel alone, so what is
painted later covers what was there. Lines with a filter mark before each of them are
read back as the rows they were cut from.
-/

namespace TickForge.PixelBuffer

set_option autoImplicit false

variable {Item : Type*}

section Pixels

/-- Slice assignment: what stood from `start` up to `stop` gives way to `piece`. -/
def assignSlice (buffer : List Item) (start stop : Nat) (piece : List Item) : List Item :=
  buffer.take start ++ (piece ++ buffer.drop stop)

def pixelAt (channels : Nat) (buffer : List Item) (index : Nat) : List Item :=
  (buffer.drop (index * channels)).take channels

variable {channels : Nat} {color : List Item}

theorem assign_slice_length {buffer piece : List Item} {start stop : Nat}
    (size : start + piece.length = stop) (room : stop ≤ buffer.length) :
    (assignSlice buffer start stop piece).length = buffer.length := by
  simp only [assignSlice, List.length_append, List.length_take, List.length_drop]
  omega

theorem assign_slice_lookup {buffer piece : List Item} {start stop : Nat}
    (size : start + piece.length = stop) (room : stop ≤ buffer.length) (place : Nat) :
    (assignSlice buffer start stop piece)[place]? =
      if start ≤ place ∧ place < stop then piece[place - start]? else buffer[place]? := by
  have front : (buffer.take start).length = start := by
    rw [List.length_take]
    omega
  rw [assignSlice, List.getElem?_append, List.getElem?_append, front]
  split_ifs with before inPiece inside inside inside
  · omega
  · rw [List.getElem?_take_of_lt before]
  · rfl
  · omega
  · omega
  · rw [List.getElem?_drop]
    congr 1
    omega

/-- A slice of the size of a pixel is that pixel and no other. -/
theorem pixel_assigned (colored : color.length = channels) {buffer : List Item} {index : Nat}
    (room : (index + 1) * channels ≤ buffer.length) (other : Nat) :
    pixelAt channels
        (assignSlice buffer (index * channels) (index * channels + channels) color) other =
      if other = index then color else pixelAt channels buffer other := by
  rw [Nat.add_mul, Nat.one_mul] at room
  apply List.ext_getElem?
  intro sample
  by_cases inside : sample < channels
  · have sized : index * channels + color.length = index * channels + channels := by
      rw [colored]
    rw [pixelAt, List.getElem?_take_of_lt inside, List.getElem?_drop,
      assign_slice_lookup sized room]
    by_cases same : other = index
    · rw [if_pos same, same, if_pos (by omega)]
      congr 1
      omega
    · have outside : ¬(index * channels ≤ other * channels + sample ∧
          other * channels + sample < index * channels + channels) := by
        rintro ⟨above, below⟩
        rcases Nat.lt_or_gt_of_ne same with isBefore | isAfter
        · have rows := Nat.mul_le_mul_right channels (Nat.succ_le_of_lt isBefore)
          rw [Nat.succ_mul] at rows
          omega
        · have rows := Nat.mul_le_mul_right channels (Nat.succ_le_of_lt isAfter)
          rw [Nat.succ_mul] at rows
          omega
      rw [if_neg same, if_neg outside, pixelAt, List.getElem?_take_of_lt inside,
        List.getElem?_drop]
  · have past := not_lt.mp inside
    rw [pixelAt, List.getElem?_eq_none ((List.length_take_le _ _).trans past)]
    split_ifs
    · rw [List.getElem?_eq_none (colored.le.trans past)]
    · rw [pixelAt, List.getElem?_eq_none ((List.length_take_le _ _).trans past)]

/-- The pixels at these places get the color one after the other. -/
def paintAll (channels : Nat) (color buffer : List Item) (indices : List Nat) : List Item :=
  indices.foldl
    (fun painted index =>
      assignSlice painted (index * channels) (index * channels + channels) color) buffer

theorem paint_all_pixel (colored : color.length = channels) (indices : List Nat)
    (buffer : List Item) (room : ∀ index ∈ indices, (index + 1) * channels ≤ buffer.length) :
    (paintAll channels color buffer indices).length = buffer.length ∧
      ∀ other, pixelAt channels (paintAll channels color buffer indices) other =
        if other ∈ indices then color else pixelAt channels buffer other := by
  induction indices generalizing buffer with
  | nil => exact ⟨rfl, fun other => (if_neg List.not_mem_nil).symm⟩
  | cons index rest ih =>
      rw [List.forall_mem_cons] at room
      have inRoom := room.1
      rw [Nat.add_mul, Nat.one_mul] at inRoom
      let painted := assignSlice buffer (index * channels) (index * channels + channels) color
      have length : painted.length = buffer.length :=
        assign_slice_length (by omega) inRoom
      have later := ih painted (by
        intro other listed
        rw [length]
        exact room.2 other listed)
      refine ⟨later.1.trans length, ?_⟩
      intro other
      have whole : paintAll channels color buffer (index :: rest) =
          paintAll channels color painted rest := rfl
      rw [whole, later.2, pixel_assigned colored room.1]
      by_cases isLater : other ∈ rest
      · rw [if_pos isLater, if_pos (List.mem_cons_of_mem index isLater)]
      · rw [if_neg isLater]
        by_cases isFirst : other = index
        · rw [if_pos isFirst, if_pos (List.mem_cons.mpr (.inl isFirst))]
        · rw [if_neg isFirst, if_neg]
          intro listed
          exact (List.mem_cons.mp listed).elim isFirst isLater

theorem blank_pixel (colored : color.length = channels) (count index : Nat) (inside : index < count) :
    pixelAt channels (List.replicate count color).flatten index = color := by
  induction index generalizing count with
  | zero =>
      rcases Nat.exists_eq_succ_of_ne_zero (Nat.ne_zero_of_lt inside) with ⟨rest, rfl⟩
      rw [pixelAt, Nat.zero_mul, List.drop_zero, List.replicate_succ, List.flatten_cons, ← colored,
        List.take_left]
  | succ index ih =>
      rcases Nat.exists_eq_succ_of_ne_zero (Nat.ne_zero_of_lt inside) with ⟨rest, rfl⟩
      have moved : (index + 1) * channels = color.length + index * channels := by
        rw [Nat.add_mul, Nat.one_mul, colored]
        omega
      rw [pixelAt, moved, List.replicate_succ, List.flatten_cons, ← List.drop_drop, List.drop_left]
      exact ih rest (Nat.lt_of_succ_lt_succ inside)

end Pixels

section Rectangles

/-- The places of a rectangle, row by row. -/
def rectangle (width : Nat) (columns rows : List Nat) : List Nat :=
  rows.flatMap fun y => columns.map fun x => y * width + x

theorem place_unique {width x y column row : Nat} (inside : x < width) (narrow : column < width)
    (same : row * width + column = y * width + x) : row = y ∧ column = x := by
  have rows : row = y := by
    rcases Nat.lt_trichotomy row y with above | here | below
    · have further := Nat.mul_le_mul_right width (Nat.succ_le_of_lt above)
      rw [Nat.succ_mul] at further
      omega
    · exact here
    · have further := Nat.mul_le_mul_right width (Nat.succ_le_of_lt below)
      rw [Nat.succ_mul] at further
      omega
  rw [rows] at same
  exact ⟨rows, Nat.add_left_cancel same⟩

theorem mem_rectangle {width x y : Nat} {columns rows : List Nat} (inside : x < width)
    (narrow : ∀ column ∈ columns, column < width) :
    y * width + x ∈ rectangle width columns rows ↔ x ∈ columns ∧ y ∈ rows := by
  simp only [rectangle, List.mem_flatMap, List.mem_map]
  constructor
  · rintro ⟨row, isRow, column, isColumn, same⟩
    rcases place_unique inside (narrow column isColumn) same with ⟨rfl, rfl⟩
    exact ⟨isColumn, isRow⟩
  · rintro ⟨isColumn, isRow⟩
    exact ⟨y, isRow, x, isColumn, rfl⟩

theorem rectangle_inside {width height : Nat} {columns rows : List Nat}
    (narrow : ∀ column ∈ columns, column < width) (low : ∀ row ∈ rows, row < height) :
    ∀ index ∈ rectangle width columns rows, index < width * height := by
  intro index listed
  simp only [rectangle, List.mem_flatMap, List.mem_map] at listed
  rcases listed with ⟨row, isRow, column, isColumn, rfl⟩
  have further := Nat.mul_le_mul_right width (Nat.succ_le_of_lt (low row isRow))
  have column := narrow column isColumn
  rw [Nat.succ_mul] at further
  rw [Nat.mul_comm width height]
  omega

end Rectangles

section Scanlines

/-- The rows of a buffer, each behind a filter mark. -/
def scanlines (rowLength : Nat) (mark : Item) (height : Nat) (buffer : List Item) : List Item :=
  (List.range height).flatMap fun y => mark :: (buffer.drop (y * rowLength)).take rowLength

/-- The rows of lines that carry this mark, and nothing behind the last of them. -/
def unfilter [DecidableEq Item] (rowLength : Nat) (mark : Item) : Nat → List Item →
    Option (List Item)
  | 0, [] => some []
  | 0, _ :: _ => none
  | _ + 1, [] => none
  | height + 1, filter :: line =>
      if filter ≠ mark ∨ line.length < rowLength then none
      else (unfilter rowLength mark height (line.drop rowLength)).map (line.take rowLength ++ ·)

theorem scanlines_succ (rowLength : Nat) (mark : Item) (height : Nat) (buffer : List Item) :
    scanlines rowLength mark (height + 1) buffer =
      mark :: (buffer.take rowLength ++ scanlines rowLength mark height (buffer.drop rowLength)) := by
  rw [scanlines, List.range_succ_eq_map, List.flatMap_cons, List.flatMap_map, Nat.zero_mul,
    List.drop_zero, List.cons_append]
  congr 2
  apply List.flatMap_congr
  intro y _
  rw [List.drop_drop, Nat.succ_mul, Nat.add_comm]

theorem scanlines_length_le (rowLength : Nat) (mark : Item) (height : Nat) (buffer : List Item) :
    (scanlines rowLength mark height buffer).length ≤ height * (rowLength + 1) := by
  induction height generalizing buffer with
  | zero => exact Nat.zero_le _
  | succ height ih =>
      have below := ih (buffer.drop rowLength)
      have row := List.length_take_le rowLength buffer
      rw [scanlines_succ, List.length_cons, List.length_append, Nat.succ_mul]
      omega

/-- The rows come back from their lines. -/
theorem unfilter_scanlines [DecidableEq Item] (rowLength : Nat) (mark : Item) (height : Nat)
    (buffer : List Item) (size : buffer.length = height * rowLength) :
    unfilter rowLength mark height (scanlines rowLength mark height buffer) = some buffer := by
  induction height generalizing buffer with
  | zero =>
      rw [Nat.zero_mul] at size
      rw [List.length_eq_zero_iff.mp size]
      rfl
  | succ height ih =>
      rw [Nat.succ_mul] at size
      have row : (buffer.take rowLength).length = rowLength := by
        rw [List.length_take]
        omega
      have long : ¬(mark ≠ mark ∨ (buffer.take rowLength ++
          scanlines rowLength mark height (buffer.drop rowLength)).length < rowLength) := by
        rw [List.length_append, row]
        simp
      have below := ih (buffer.drop rowLength) (by
        rw [List.length_drop]
        omega)
      have kept : (buffer.take rowLength ++
          scanlines rowLength mark height (buffer.drop rowLength)).take rowLength =
            buffer.take rowLength := by
        rw [List.take_append_of_le_length row.ge, List.take_of_length_le row.le]
      have left : (buffer.take rowLength ++
          scanlines rowLength mark height (buffer.drop rowLength)).drop rowLength =
            scanlines rowLength mark height (buffer.drop rowLength) := by
        rw [List.drop_append_of_le_length row.ge, List.drop_of_length_le row.le, List.nil_append]
      rw [scanlines_succ, unfilter, if_neg long, left, below, kept, Option.map_some,
        List.take_append_drop]

end Scanlines

end TickForge.PixelBuffer
