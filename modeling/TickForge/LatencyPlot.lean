import TickForge.LatencyPlotModel

/-!
# What the latency plot shows

The picture a PNG reader finds in the file is the histogram of the samples: bars over
axes over grid lines on white. Every sample stands in one bin and the tallest bar
reaches the top line.
-/

namespace TickForge.LatencyPlot

open BinaryChunks PixelBuffer BinaryRounding
open MarketEventModel ReplayEngineModel ReplayReportModel ReplayMainModel ReplayMain
open ReplayScriptsModel LatencyReport LatencyPlotModel

set_option autoImplicit false

section Drawing

/-- The bounds of a rectangle as they are passed to `fill_rect`. -/
structure Rect where
  x0 : Int
  y0 : Int
  x1 : Int
  y1 : Int
  deriving DecidableEq, Repr

def Rect.Covers (rect : Rect) (x y : Nat) : Prop :=
  (rect.x0 ≤ x ∧ (x : Int) < rect.x1) ∧ (rect.y0 ≤ y ∧ (y : Int) < rect.y1)

instance (rect : Rect) (x y : Nat) : Decidable (rect.Covers x y) :=
  inferInstanceAs (Decidable (_ ∧ _))

/-- The buffer holds this picture. -/
structure Shows (pixels : Bytes) (picture : Nat → Nat → Color) : Prop where
  size : pixels.length = height * (width * 3)
  pixel : ∀ x y, x < width → y < height →
    pixelAt 3 pixels (y * width + x) = (picture x y).bytes

theorem mem_clamped_range {size : Nat} {low high : Int} {place : Nat} (inside : place < size) :
    place ∈ pyRange (clamped size low) (clamped size high) ↔ low ≤ place ∧ (place : Int) < high := by
  rw [pyRange, List.mem_range'_1]
  unfold clamped
  omega

theorem clamped_range_inside {size : Nat} {low high : Int} :
    ∀ place ∈ pyRange (clamped size low) (clamped size high), place < size := by
  intro place listed
  rw [pyRange, List.mem_range'_1] at listed
  unfold clamped at listed
  omega

def fill (rect : Rect) (color : Color) (pixels : Bytes) : Bytes :=
  fillRect rect.x0 rect.y0 rect.x1 rect.y1 color pixels

theorem fill_rect_eq (x0 y0 x1 y1 : Int) (color : Color) (pixels : Bytes) :
    fillRect x0 y0 x1 y1 color pixels = fill ⟨x0, y0, x1, y1⟩ color pixels := rfl

/-- The pixels of a rectangle. -/
def Rect.places (rect : Rect) : List Nat :=
  rectangle width (pyRange (clamped width rect.x0) (clamped width rect.x1))
    (pyRange (clamped height rect.y0) (clamped height rect.y1))

theorem mem_places (rect : Rect) {x y : Nat} (across : x < width) (down : y < height) :
    y * width + x ∈ rect.places ↔ rect.Covers x y := by
  rw [Rect.places, mem_rectangle across clamped_range_inside, mem_clamped_range across,
    mem_clamped_range down]
  rfl

theorem fill_eq_paint (rect : Rect) (color : Color) (pixels : Bytes) :
    fill rect color pixels = paintAll 3 color.bytes pixels rect.places := by
  rw [paintAll, Rect.places, rectangle, List.foldl_flatMap]
  simp only [List.foldl_map, Nat.add_mul]
  rfl

variable {pixels : Bytes} {picture : Nat → Nat → Color}

theorem places_in_buffer (shows : Shows pixels picture) (rect : Rect) :
    ∀ index ∈ rect.places, (index + 1) * 3 ≤ pixels.length := by
  intro index listed
  have inside := rectangle_inside clamped_range_inside clamped_range_inside index listed
  rw [shows.size]
  calc
    (index + 1) * 3 ≤ width * height * 3 := Nat.mul_le_mul_right 3 (Nat.succ_le_of_lt inside)
    _ = height * (width * 3) := by ring

/-- Filling covers what was there and leaves the rest. -/
theorem fill_shows (shows : Shows pixels picture) (rect : Rect) (color : Color) :
    Shows (fill rect color pixels)
      (fun x y => if rect.Covers x y then color else picture x y) := by
  have colored : color.bytes.length = 3 := rfl
  have painted := paint_all_pixel colored rect.places pixels (places_in_buffer shows rect)
  rw [fill_eq_paint]
  constructor
  · exact painted.1.trans shows.size
  · intro x y across down
    have isPainted := mem_places rect across down
    rw [painted.2]
    by_cases covered : rect.Covers x y
    · rw [if_pos (isPainted.mpr covered), if_pos covered]
    · rw [if_neg fun listed => covered (isPainted.mp listed), if_neg covered]
      exact shows.pixel x y across down

/-- Rectangles of one color, filled one after the other. -/
theorem fill_all_shows (shows : Shows pixels picture) (rects : List Rect) (color : Color) :
    Shows (rects.foldl (fun pixels rect => fill rect color pixels) pixels)
      (fun x y => if ∃ rect ∈ rects, rect.Covers x y then color else picture x y) := by
  induction rects generalizing pixels picture with
  | nil => simpa using shows
  | cons rect rest ih =>
      have later := ih (fill_shows shows rect color)
      rw [List.foldl_cons]
      convert later using 3 with x y
      by_cases isLater : ∃ other ∈ rest, other.Covers x y
      · rcases isLater with ⟨other, listed, covers⟩
        rw [if_pos ⟨other, List.mem_cons_of_mem rect listed, covers⟩,
          if_pos ⟨other, listed, covers⟩]
      · rw [if_neg isLater]
        by_cases isFirst : rect.Covers x y
        · rw [if_pos isFirst, if_pos ⟨rect, List.mem_cons_self, isFirst⟩]
        · rw [if_neg isFirst, if_neg]
          rintro ⟨other, listed, covers⟩
          rcases List.mem_cons.mp listed with rfl | isRest
          · exact isFirst covers
          · exact isLater ⟨other, isRest, covers⟩

theorem blank_shows :
    Shows (List.replicate (width * height) white.bytes).flatten (fun _ _ => white) where
  size := by
    rw [List.length_flatten, List.map_replicate, List.sum_replicate_nat]
    calc
      width * height * white.bytes.length = width * height * 3 := rfl
      _ = height * (width * 3) := by ring
  pixel := by
    intro x y across down
    have colored : white.bytes.length = 3 := rfl
    apply blank_pixel colored
    have further := Nat.mul_le_mul_right width (Nat.succ_le_of_lt down)
    rw [Nat.succ_mul] at further
    rw [Nat.mul_comm width height]
    omega

/-- The grid lines, from the top line of the plot down to its axis. -/
def gridLines : List Rect :=
  (List.range 6).map fun i => ⟨marginLeft, gridRow i, (width : Int) - marginRight, gridRow i + 1⟩

def axes : List Rect :=
  [⟨marginLeft, marginTop, marginLeft + 2, (height : Int) - marginBottom⟩,
    ⟨marginLeft, (height : Int) - marginBottom, (width : Int) - marginRight,
      (height : Int) - marginBottom + 2⟩]

/-- The bar of a bin: its share of the width, less a gap on either side. -/
def bar (counts : List Nat) (entry : Nat × Nat) : Rect where
  x0 := (binEdge counts.length entry.2 : Int) + 1
  y0 := (height : Int) - marginBottom - barHeight (tallest counts) entry.1
  x1 := max ((binEdge counts.length entry.2 : Int) + 2)
    ((binEdge counts.length (entry.2 + 1) : Int) - 1)
  y1 := (height : Int) - marginBottom

def bars (counts : List Nat) : List Rect := counts.zipIdx.map (bar counts)

/-- Bars over axes over grid lines on white. -/
def plotted (counts : List Nat) (x y : Nat) : Color :=
  if ∃ rect ∈ bars counts, rect.Covers x y then barColor
  else if ∃ rect ∈ axes, rect.Covers x y then axisColor
  else if ∃ rect ∈ gridLines, rect.Covers x y then gridColor
  else white

theorem draw_grid_eq (pixels : Bytes) :
    drawGrid pixels = gridLines.foldl (fun pixels rect => fill rect gridColor pixels) pixels := by
  rw [gridLines, List.foldl_map]
  rfl

theorem draw_axes_eq (pixels : Bytes) :
    drawAxes pixels = axes.foldl (fun pixels rect => fill rect axisColor pixels) pixels := by
  unfold drawAxes
  rw [axes, List.foldl_cons, List.foldl_cons, List.foldl_nil, ← fill_rect_eq, ← fill_rect_eq]

theorem draw_bars_eq (counts : List Nat) (pixels : Bytes) :
    drawBars counts pixels =
      (bars counts).foldl (fun pixels rect => fill rect barColor pixels) pixels := by
  rw [bars, List.foldl_map]
  rfl

theorem draw_histogram_shows (counts : List Nat) : Shows (drawHistogram counts) (plotted counts) := by
  have grid := fill_all_shows blank_shows gridLines gridColor
  have framed := fill_all_shows grid axes axisColor
  have filled := fill_all_shows framed (bars counts) barColor
  rw [drawHistogram, draw_bars_eq, draw_axes_eq, draw_grid_eq]
  exact filled

end Drawing

section Bins

variable {count : Nat} {lowest highest latency : Int}

theorem double_digits : 1 ≤ 53 := by decide

theorem bin_index_inside (positive : 0 < count) :
    binIndex count lowest highest latency < count := by
  have upTo := min_le_left (count - 1)
    (truncatedQuotient 53 ((latency - lowest).toNat * count) (highest - lowest).toNat)
  rw [binIndex]
  omega

theorem lowest_bin (apart : lowest < highest) : binIndex count lowest highest lowest = 0 := by
  have span : 0 < (highest - lowest).toNat := by omega
  have none : (lowest - lowest).toNat * count ≤ 0 * (highest - lowest).toNat := by
    rw [sub_self, Int.toNat_zero, Nat.zero_mul, Nat.zero_mul]
  have rounded := truncated_quotient_le double_digits span none (Nat.zero_le _)
  rw [binIndex, Nat.le_zero.mp rounded, Nat.min_zero]

theorem highest_bin (apart : lowest < highest) (few : count < 2 ^ 53) :
    binIndex count lowest highest highest = count - 1 := by
  have span : 0 < (highest - lowest).toNat := by omega
  have small : (highest - lowest).toNat * count < 2 ^ 53 * (highest - lowest).toNat := by
    rw [Nat.mul_comm]
    exact Nat.mul_lt_mul_of_pos_right few span
  have rounded := le_truncated_quotient double_digits small
  rw [Nat.mul_div_cancel_left _ span] at rounded
  rw [binIndex]
  omega

/-- Where the product has 53 binary digits the bins are equal shares of the span. -/
theorem bin_index_exact (apart : lowest < highest)
    (short : (latency - lowest).toNat * count < 2 ^ 53) :
    binIndex count lowest highest latency =
      min (count - 1) ((latency - lowest).toNat * count / (highest - lowest).toNat) := by
  have span : 0 < (highest - lowest).toNat := by omega
  rw [binIndex, truncated_quotient_exact double_digits span short]

theorem sum_counted (counts : List Nat) (place : Nat) (inside : place < counts.length) :
    (counts.modify place (· + 1)).sum = counts.sum + 1 := by
  induction counts generalizing place with
  | nil => exact absurd inside (Nat.not_lt_zero place)
  | cons first rest ih =>
      cases place with
      | zero =>
          rw [List.modify_zero_cons, List.sum_cons, List.sum_cons]
          omega
      | succ place =>
          have later := ih place (Nat.lt_of_succ_lt_succ inside)
          rw [List.modify_succ_cons, List.sum_cons, List.sum_cons, later, Nat.add_assoc]

/-- The loop over the latencies adds one to the bin of each. -/
theorem tallied_counts (index : Int → Nat) (latencies : List Int) (counts : List Nat)
    (inside : ∀ latency, index latency < counts.length) :
    let tallied := latencies.foldl
      (fun counts latency => counts.modify (index latency) (· + 1)) counts
    tallied.length = counts.length ∧ tallied.sum = counts.sum + latencies.length ∧
      ∀ place, tallied[place]? =
        counts[place]?.map (· + latencies.countP fun latency => index latency = place) := by
  induction latencies generalizing counts with
  | nil =>
      refine ⟨rfl, rfl, ?_⟩
      intro place
      exact Option.map_id'.symm
  | cons latency rest ih =>
      have later := ih (counts.modify (index latency) (· + 1)) (by
        intro other
        rw [List.length_modify]
        exact inside other)
      dsimp only at later ⊢
      rw [List.foldl_cons, later.1, later.2.1, List.length_modify,
        sum_counted _ _ (inside latency)]
      refine ⟨rfl, by rw [List.length_cons]; omega, ?_⟩
      intro place
      rw [later.2.2, List.getElem?_modify, List.countP_cons]
      cases counts[place]? with
      | none => rfl
      | some held =>
          simp only [Option.map_eq_map, Option.map_some, decide_eq_true_iff, Option.some.injEq]
          split_ifs <;> omega

theorem lowest_spec (first : Int) (rest : List Int) :
    rest.foldl min first ∈ first :: rest ∧
      ∀ latency ∈ first :: rest, rest.foldl min first ≤ latency := by
  exact List.min?_eq_some_iff.mp List.min?_cons'

theorem highest_spec (first : Int) (rest : List Int) :
    rest.foldl max first ∈ first :: rest ∧
      ∀ latency ∈ first :: rest, latency ≤ rest.foldl max first := by
  exact List.max?_eq_some_iff.mp List.max?_cons'

theorem tallest_spec (counts : List Nat) :
    tallest counts ∈ 0 :: counts ∧ ∀ count ∈ 0 :: counts, count ≤ tallest counts := by
  exact List.max?_eq_some_iff.mp List.max?_cons'

theorem bar_height_le (maxCount count : Nat) (isMost : count ≤ maxCount) :
    barHeight maxCount count ≤ plotHeight - 1 := by
  unfold barHeight
  split_ifs with none
  · exact Nat.zero_le _
  · have bounded : count * (plotHeight - 1) ≤ (plotHeight - 1) * maxCount := by
      rw [Nat.mul_comm]
      exact Nat.mul_le_mul_left _ isMost
    exact truncated_quotient_le double_digits (Nat.pos_of_ne_zero none) bounded (by decide)

theorem tallest_bar_height (maxCount : Nat) (some_samples : maxCount ≠ 0) :
    barHeight maxCount maxCount = plotHeight - 1 := by
  have positive := Nat.pos_of_ne_zero some_samples
  apply le_antisymm (bar_height_le maxCount maxCount (le_refl _))
  have small : maxCount * (plotHeight - 1) < 2 ^ 53 * maxCount := by
    rw [Nat.mul_comm]
    exact Nat.mul_lt_mul_of_pos_right (by decide) positive
  have rounded := le_truncated_quotient double_digits small
  rw [Nat.mul_div_cancel_left _ positive] at rounded
  rw [barHeight, if_neg some_samples]
  exact rounded

/-- As many counts as bins, which make up the samples: each sample counts in the bin of
its share of the span, or all in the first bin where they are one value. -/
structure HistogramOf (bins : Int) (latencies : List Int) (counts : List Nat) : Prop where
  size : counts.length = binCount bins
  whole : counts.sum = latencies.length
  each : ∀ lowest ∈ latencies, ∀ highest ∈ latencies,
    (∀ latency ∈ latencies, lowest ≤ latency ∧ latency ≤ highest) → lowest < highest →
      ∀ bin < binCount bins, counts[bin]? = some (latencies.countP fun latency =>
        binIndex (binCount bins) lowest highest latency = bin)
  alike : (∀ latency ∈ latencies, ∀ other ∈ latencies, latency = other) →
    counts[0]? = some latencies.length

theorem bin_count_positive (bins : Int) : 0 < binCount bins := by
  unfold binCount
  omega

theorem histogram_spec (bins first : Int) (rest : List Int) :
    HistogramOf bins (first :: rest) (histogram bins first rest) := by
  have low := lowest_spec first rest
  have high := highest_spec first rest
  have blank : (List.replicate (binCount bins) 0).length = binCount bins := List.length_replicate
  have nothing : (List.replicate (binCount bins) 0).sum = 0 := by simp
  have positive := bin_count_positive bins
  have unique : ∀ lowest ∈ first :: rest, ∀ highest ∈ first :: rest,
      (∀ latency ∈ first :: rest, lowest ≤ latency ∧ latency ≤ highest) →
        rest.foldl min first = lowest ∧ rest.foldl max first = highest := by
    intro lowest isLowest highest isHighest bounds
    exact ⟨le_antisymm (low.2 lowest isLowest) (bounds _ low.1).1,
      le_antisymm (bounds _ high.1).2 (high.2 highest isHighest)⟩
  by_cases oneValue : rest.foldl min first = rest.foldl max first
  · have counts : histogram bins first rest =
        (List.replicate (binCount bins) 0).set 0 (first :: rest).length := if_pos oneValue
    rw [counts]
    constructor
    · rw [List.length_set, blank]
    · rcases Nat.exists_eq_succ_of_ne_zero positive.ne' with ⟨others, isCount⟩
      rw [isCount, List.replicate_succ, List.set_cons_zero, List.sum_cons]
      simp
    · intro lowest isLowest highest isHighest bounds apart
      have same := unique lowest isLowest highest isHighest bounds
      rw [same.1, same.2] at oneValue
      exact absurd oneValue apart.ne
    · intro _
      rw [List.getElem?_set, if_pos rfl, blank, if_pos positive]
  · let index := binIndex (binCount bins) (rest.foldl min first) (rest.foldl max first)
    have tallied := tallied_counts index (first :: rest) (List.replicate (binCount bins) 0) (by
      intro latency
      rw [blank]
      exact bin_index_inside positive)
    have counts : histogram bins first rest = (first :: rest).foldl
        (fun counts latency => counts.modify (index latency) (· + 1))
          (List.replicate (binCount bins) 0) := if_neg oneValue
    rw [counts]
    constructor
    · exact tallied.1.trans blank
    · rw [tallied.2.1, nothing, Nat.zero_add]
    · intro lowest isLowest highest isHighest bounds _ bin inside
      have same := unique lowest isLowest highest isHighest bounds
      rw [tallied.2.2, List.getElem?_replicate_of_lt inside, Option.map_some, Nat.zero_add,
        ← same.1, ← same.2]
    · intro alike
      exact absurd (alike _ low.1 _ high.1) oneValue

/-- Where the products are short, each bin counts an equal share of the span; the outer bins
are then not empty. -/
structure EqualShares (bins : Int) (latencies : List Int) (counts : List Nat)
    (lowest highest : Int) : Prop where
  each : ∀ bin < binCount bins, counts[bin]? = some (latencies.countP fun latency =>
    min (binCount bins - 1)
      ((latency - lowest).toNat * binCount bins / (highest - lowest).toNat) = bin)
  first : ∃ others, counts[0]? = some (others + 1)
  last : ∃ others, counts[binCount bins - 1]? = some (others + 1)

theorem equal_shares {bins : Int} {latencies : List Int} {counts : List Nat}
    (isHistogram : HistogramOf bins latencies counts) {lowest highest : Int}
    (isLowest : lowest ∈ latencies) (isHighest : highest ∈ latencies)
    (bounds : ∀ latency ∈ latencies, lowest ≤ latency ∧ latency ≤ highest)
    (apart : lowest < highest) (short : (highest - lowest).toNat * binCount bins < 2 ^ 53) :
    EqualShares bins latencies counts lowest highest := by
  have counted := isHistogram.each lowest isLowest highest isHighest bounds apart
  have positive := bin_count_positive bins
  have occupied : ∀ bin < binCount bins, ∀ latency ∈ latencies,
      binIndex (binCount bins) lowest highest latency = bin →
        ∃ others, counts[bin]? = some (others + 1) := by
    intro bin inside latency listed own
    have here : 0 < latencies.countP fun latency =>
        binIndex (binCount bins) lowest highest latency = bin :=
      List.countP_pos_iff.mpr ⟨latency, listed, decide_eq_true own⟩
    rcases Nat.exists_eq_add_of_lt here with ⟨others, isCount⟩
    rw [counted bin inside, isCount]
    exact ⟨others, by rw [Nat.zero_add]⟩
  constructor
  · intro bin inside
    rw [counted bin inside]
    apply congrArg some
    apply List.countP_congr
    intro latency listed
    have within := (bounds latency listed).2
    have shorter : (latency - lowest).toNat * binCount bins < 2 ^ 53 :=
      (Nat.mul_le_mul_right _ (by omega)).trans_lt short
    rw [bin_index_exact apart shorter]
  · exact occupied 0 positive lowest isLowest (lowest_bin apart)
  · have span : 1 ≤ (highest - lowest).toNat := by omega
    have few : binCount bins < 2 ^ 53 :=
      (Nat.le_mul_of_pos_left _ span).trans_lt short
    exact occupied _ (Nat.sub_one_lt positive.ne') highest isHighest (highest_bin apart few)

/-- The tallest bar reaches the top line of the plot and no bar passes it. -/
theorem bars_reach_the_top {bins : Int} {latencies : List Int} {counts : List Nat}
    (isHistogram : HistogramOf bins latencies counts) (nonempty : latencies ≠ []) :
    (∀ count ∈ counts, barHeight (tallest counts) count ≤ plotHeight - 1) ∧
      ∃ count ∈ counts, barHeight (tallest counts) count = plotHeight - 1 := by
  have spec := tallest_spec counts
  have counted : tallest counts ≠ 0 := by
    intro none
    have empty : counts.sum = 0 := by
      apply List.sum_eq_zero
      intro count listed
      have within := spec.2 count (List.mem_cons_of_mem 0 listed)
      omega
    rw [isHistogram.whole, List.length_eq_zero_iff] at empty
    exact nonempty empty
  constructor
  · intro count listed
    exact bar_height_le _ _ (spec.2 count (List.mem_cons_of_mem 0 listed))
  · rcases List.mem_cons.mp spec.1 with isZero | listed
    · exact absurd isZero counted
    · exact ⟨tallest counts, listed, tallest_bar_height _ counted⟩

end Bins

section Reading

structure Picture where
  width : Nat
  height : Nat
  pixels : Bytes

/-- What a reader finds in a PNG file of three chunks with unfiltered rows of pixels:
the signature and the checksums have to be right, and no byte may be missing or left. -/
def readPng (zlib : Zlib) (file : Bytes) : Option Picture :=
  if file.take 8 ≠ pngSignature then none
  else match readChunks crc32 (file.drop 8) with
    | some [header, image, closing] =>
        let columns := fromBigEndian (header.data.take 4)
        let rows := fromBigEndian ((header.data.drop 4).take 4)
        if header.kind = headerKind ∧ header.data.drop 8 = pixelFormat ∧ image.kind = dataKind ∧
            closing = ⟨endKind, []⟩ then
          (zlib.decompress image.data).bind fun lines =>
            (unfilter (columns * 3) 0 rows lines).map fun pixels => ⟨columns, rows, pixels⟩
        else none
    | _ => none

theorem crc32_lt (data : Bytes) : crc32 data < 2 ^ 32 := BitVec.isLt _

theorem png_chunk_written (kind data : Bytes) (short : data.length < 2 ^ 32) :
    pngChunk kind data = .ok (writeChunk crc32 ⟨kind, data⟩) := by
  simp only [pngChunk, packUint32, if_pos short, if_pos (crc32_lt _), bind, Except.bind, pure,
    Except.pure, writeChunk, List.append_assoc]

variable (zlib : Zlib)

/-- The compressed rows of a picture of this size, whatever it shows. -/
def imageData (pixels : Bytes) : Bytes := zlib.compress (scanlines (width * 3) 0 height pixels)

theorem image_data_short (pixels : Bytes) : (imageData zlib pixels).length < 2 ^ 32 := by
  have lines := scanlines_length_le (width * 3) 0 height pixels
  have size : height * (width * 3 + 1) = 1800600 := rfl
  have compressed := zlib.bounded (scanlines (width * 3) 0 height pixels)
  rw [size] at lines
  rw [imageData]
  omega

def headerData : Bytes := bigEndian 4 width ++ bigEndian 4 height ++ pixelFormat

def pngChunks (pixels : Bytes) : List Chunk :=
  [⟨headerKind, headerData⟩, ⟨dataKind, imageData zlib pixels⟩, ⟨endKind, []⟩]

theorem write_simple_png_chunks (bins first : Int) (rest : List Int) :
    writeSimplePng zlib (first :: rest) bins = .ok (pngSignature ++
      (pngChunks zlib (drawHistogram (histogram bins first rest))).flatMap (writeChunk crc32)) := by
  have columns : packUint32 width = .ok (bigEndian 4 width) := if_pos (by decide)
  have rows : packUint32 height = .ok (bigEndian 4 height) := if_pos (by decide)
  have header := png_chunk_written headerKind headerData (by decide)
  have image := png_chunk_written dataKind _
    (image_data_short zlib (drawHistogram (histogram bins first rest)))
  have closing := png_chunk_written endKind [] (by decide)
  rw [headerData] at header
  rw [imageData] at image
  simp only [writeSimplePng, columns, rows, header, image, closing, bind, Except.bind, pure,
    Except.pure, pngChunks, headerData, imageData, List.flatMap_cons, List.flatMap_nil,
    List.append_nil]
  rw [List.append_assoc, List.append_assoc]

theorem chunks_encodable (pixels : Bytes) :
    ∀ chunk ∈ pngChunks zlib pixels, Encodable crc32 chunk := by
  have fits : ∀ chunk : Chunk, chunk.kind.length = 4 → chunk.data.length < 2 ^ 32 →
      Encodable crc32 chunk := fun chunk kind data => ⟨kind, data, crc32_lt _⟩
  intro chunk listed
  simp only [pngChunks, List.mem_cons, List.not_mem_nil, or_false] at listed
  rcases listed with rfl | rfl | rfl
  · exact fits _ rfl (by decide)
  · exact fits _ rfl (image_data_short zlib pixels)
  · exact fits _ rfl (by decide)

theorem read_written_png (pixels : Bytes) (size : pixels.length = height * (width * 3)) :
    readPng zlib (pngSignature ++ (pngChunks zlib pixels).flatMap (writeChunk crc32)) =
      some ⟨width, height, pixels⟩ := by
  have signed : (pngSignature ++ (pngChunks zlib pixels).flatMap (writeChunk crc32)).take 8 =
      pngSignature := take_piece _ _ 8 rfl
  have chunks : (pngSignature ++ (pngChunks zlib pixels).flatMap (writeChunk crc32)).drop 8 =
      (pngChunks zlib pixels).flatMap (writeChunk crc32) := drop_piece _ _ 8 rfl
  have columns : fromBigEndian (headerData.take 4) = width := by decide
  have rows : fromBigEndian ((headerData.drop 4).take 4) = height := by decide
  have format : headerData.drop 8 = pixelFormat := by decide
  have lines := unfilter_scanlines (width * 3) (0 : UInt8) height pixels size
  have restored := zlib.restores (scanlines (width * 3) 0 height pixels)
  rw [readPng, signed, chunks, read_written_chunks _ (chunks_encodable zlib pixels)]
  simp only [ne_eq, not_true, if_false, pngChunks, columns, rows, format, and_self, if_true,
    imageData, restored, Option.bind_some, lines, Option.map_some]

/-- The picture shows this histogram. -/
structure ShowsHistogram (picture : Picture) (counts : List Nat) : Prop where
  columns : picture.width = 1000
  rows : picture.height = 600
  pixel : ∀ x y, x < 1000 → y < 600 →
    pixelAt 3 picture.pixels (y * 1000 + x) = (plotted counts x y).bytes

theorem written_png_shows (bins first : Int) (rest : List Int) :
    ∃ file picture, writeSimplePng zlib (first :: rest) bins = .ok file ∧
      readPng zlib file = some picture ∧
      ShowsHistogram picture (histogram bins first rest) := by
  have shows := draw_histogram_shows (histogram bins first rest)
  exact ⟨_, _, write_simple_png_chunks zlib bins first rest,
    read_written_png zlib _ shows.size, rfl, rfl, shows.pixel⟩

/-- For all samples and any number of bins: a reader of the file finds the histogram of the
samples, bars over axes over grid lines, in equal shares where the products are short, and
the tallest bar reaches the top line. -/
theorem plot_shows_histogram (latencies : List Int) (nonempty : latencies ≠ []) (bins : Int) :
    ∃ file picture counts, writeSimplePng zlib latencies bins = .ok file ∧
      readPng zlib file = some picture ∧ HistogramOf bins latencies counts ∧
      (∀ lowest ∈ latencies, ∀ highest ∈ latencies,
        (∀ latency ∈ latencies, lowest ≤ latency ∧ latency ≤ highest) → lowest < highest →
          (highest - lowest).toNat * binCount bins < 2 ^ 53 →
            EqualShares bins latencies counts lowest highest) ∧
      ShowsHistogram picture counts ∧
      (∀ count ∈ counts, barHeight (tallest counts) count ≤ plotHeight - 1) ∧
      ∃ count ∈ counts, barHeight (tallest counts) count = plotHeight - 1 := by
  cases latencies with
  | nil => exact absurd rfl nonempty
  | cons first rest =>
      have counted := histogram_spec bins first rest
      rcases written_png_shows zlib bins first rest with ⟨file, picture, written, found, shows⟩
      refine ⟨file, picture, _, written, found, counted, ?_, shows,
        bars_reach_the_top counted nonempty⟩
      intro lowest isLowest highest isHighest
      exact equal_shares counted isLowest isHighest

end Reading

section StoredBlocks

/-- The two sums of Adler-32. -/
def adler32 (data : Bytes) : Nat :=
  let sums := data.foldl (fun (sums : Nat × Nat) byte =>
    let low := (sums.1 + byte.toNat) % 65521
    (low, (sums.2 + low) % 65521)) (1, 0)
  sums.2 * 65536 + sums.1

/-- A block of data that is not compressed: its mark, its length, the complement of the
length, both with their lowest byte first, and the data. -/
def storedBlock (mark : UInt8) (data : Bytes) : Bytes :=
  mark :: ((bigEndian 2 data.length).reverse ++
    ((bigEndian 2 (65535 - data.length)).reverse ++ data))

def storedBlocks (data : Bytes) : Bytes :=
  if data.length ≤ 65535 then storedBlock 1 data
  else storedBlock 0 (data.take 65535) ++ storedBlocks (data.drop 65535)
termination_by data.length

/-- The data of the blocks up to the one marked as the last, and what follows it. -/
def readStored : Bytes → Option (Bytes × Bytes)
  | [] => none
  | mark :: input =>
      let size := fromBigEndian (input.take 2).reverse
      let body := input.drop 4
      if fromBigEndian ((input.drop 2).take 2).reverse ≠ 65535 - size ∨ body.length < size then none
      else if mark = 1 then some (body.take size, body.drop size)
      else if mark = 0 then
        (readStored (body.drop size)).map fun read => (body.take size ++ read.1, read.2)
      else none
termination_by input => input.length
decreasing_by
  simp only [List.length_drop, List.length_cons]
  omega

theorem read_stored_block (mark : UInt8) (data rest : Bytes) (short : data.length ≤ 65535) :
    readStored (storedBlock mark data ++ rest) =
      if mark = 1 then some (data, rest)
      else if mark = 0 then (readStored rest).map fun read => (data ++ read.1, read.2)
      else none := by
  let sizes := (bigEndian 2 data.length).reverse
  let complement := (bigEndian 2 (65535 - data.length)).reverse
  have sizesLength : sizes.length = 2 := by rw [List.length_reverse, big_endian_length]
  have complementLength : complement.length = 2 := by
    rw [List.length_reverse, big_endian_length]
  have input : storedBlock mark data ++ rest = mark :: (sizes ++ (complement ++ (data ++ rest))) := by
    simp only [storedBlock, sizes, complement, List.cons_append, List.append_assoc]
  have size : fromBigEndian ((sizes ++ (complement ++ (data ++ rest))).take 2).reverse =
      data.length := by
    rw [take_piece _ _ 2 sizesLength, List.reverse_reverse]
    exact from_big_endian 2 _ (by omega)
  have afterSize : (sizes ++ (complement ++ (data ++ rest))).drop 2 =
      complement ++ (data ++ rest) := drop_piece _ _ 2 sizesLength
  have checked : fromBigEndian ((complement ++ (data ++ rest)).take 2).reverse =
      65535 - data.length := by
    rw [take_piece _ _ 2 complementLength, List.reverse_reverse]
    exact from_big_endian 2 _ (by omega)
  have body : (sizes ++ (complement ++ (data ++ rest))).drop 4 = data ++ rest := by
    rw [show 4 = 2 + 2 from rfl, ← List.drop_drop, afterSize, drop_piece _ _ 2 complementLength]
  have long : ¬(data ++ rest).length < data.length := by
    rw [List.length_append]
    omega
  rw [input, readStored]
  simp only [size, afterSize, checked, body, long, ne_eq, not_true, or_self, if_false,
    List.take_left, List.drop_left]

theorem read_stored_blocks (data rest : Bytes) :
    readStored (storedBlocks data ++ rest) = some (data, rest) := by
  fun_induction storedBlocks data with
  | case1 data short => exact read_stored_block 1 data rest short
  | case2 data long ih =>
      have whole : (data.take 65535).length ≤ 65535 := List.length_take_le _ _
      rw [List.append_assoc, read_stored_block 0 _ _ whole, ih]
      simp

theorem stored_blocks_length (data : Bytes) :
    (storedBlocks data).length ≤ data.length + 5 * (data.length / 65535) + 5 := by
  have block : ∀ (mark : UInt8) (data : Bytes),
      (storedBlock mark data).length = data.length + 5 := by
    intro mark data
    simp only [storedBlock, List.length_cons, List.length_append, List.length_reverse,
      big_endian_length]
    omega
  fun_induction storedBlocks data with
  | case1 data short =>
      rw [block]
      omega
  | case2 data long ih =>
      rw [List.length_append, block, List.length_take]
      rw [List.length_drop] at ih
      omega

/-- `zlib` at its lowest level: stored blocks behind its header, and the check sum. -/
def storedZlib : Zlib where
  compress := fun data => [120, 1] ++ (storedBlocks data ++ bigEndian 4 (adler32 data))
  decompress := fun input =>
    if input.take 2 ≠ [120, 1] then none
    else (readStored (input.drop 2)).bind fun read =>
      if read.2 = bigEndian 4 (adler32 read.1) then some read.1 else none
  restores := by
    intro data
    have header : ([120, 1] ++ (storedBlocks data ++ bigEndian 4 (adler32 data))).take 2 =
        ([120, 1] : Bytes) := take_piece _ _ 2 rfl
    have blocks : ([120, 1] ++ (storedBlocks data ++ bigEndian 4 (adler32 data))).drop 2 =
        storedBlocks data ++ bigEndian 4 (adler32 data) := drop_piece _ _ 2 rfl
    simp only [header, blocks, read_stored_blocks, ne_eq, not_true, if_false, Option.bind_some,
      if_true]
  bounded := by
    intro data
    have blocks := stored_blocks_length data
    simp only [List.length_append, List.length_cons, List.length_nil, big_endian_length]
    omega

theorem three_samples_plotted :
    ∃ file picture counts, writeSimplePng storedZlib [40, 90, 40] 80 = .ok file ∧
      readPng storedZlib file = some picture ∧ HistogramOf 80 [40, 90, 40] counts ∧
      EqualShares 80 [40, 90, 40] counts 40 90 ∧ ShowsHistogram picture counts ∧
      (∀ count ∈ counts, barHeight (tallest counts) count ≤ plotHeight - 1) ∧
      ∃ count ∈ counts, barHeight (tallest counts) count = plotHeight - 1 := by
  rcases plot_shows_histogram storedZlib [40, 90, 40] (List.cons_ne_nil _ _) 80 with
    ⟨file, picture, counts, written, found, counted, shares, shows, reach⟩
  have equal := shares 40 (by decide) 90 (by decide) (by decide) (by decide) (by decide)
  exact ⟨file, picture, counts, written, found, counted, equal, shows, reach⟩

end StoredBlocks

section Replays

/-- From the replay to the picture: the report of a replay of some events is plotted as the
histogram of samples of which there is one for each event. -/
theorem replay_is_plotted (zlib : Zlib) (env : Environment) (path : Text) (rest : List Text)
    (result : ProcessResult) (yields : MainYields env (path :: rest) result) (config : CommandLine)
    (configured : Configures env rest config) (events : List MarketEvent) (nonempty : events ≠ [])
    (replayable : Replayable env path config events) (report : Text)
    (asked : config.reportPath = some report) (bins : Int) :
    ∃ text samples file picture counts, result.reportFile = some (report, text) ∧
      samples.length = events.length ∧
      plotLatency zlib (withFile env report text) report bins = .ok file ∧
      readPng zlib file = some picture ∧ HistogramOf bins samples counts ∧
      ShowsHistogram picture counts := by
  rcases main_yields_replayed yields configured replayable with ⟨samples, elapsedNs, counted, rfl⟩
  have read : loadLatencies (withFile env report (writeCsv { samples := samples }))
      report = .ok (samples.map Int.ofNat) := report_reads_back samples (if_pos rfl)
  have written : (replayedResult env config events samples elapsedNs).reportFile =
      some (report, writeCsv { samples := samples }) := by
    rw [replayedResult, asked]
    rfl
  cases samples with
  | nil =>
      rw [List.length_nil] at counted
      exact absurd (List.length_eq_zero_iff.mp counted.symm) nonempty
  | cons first others =>
      rcases written_png_shows zlib bins (Int.ofNat first) (others.map Int.ofNat) with
        ⟨file, picture, drawn, found, shows⟩
      have plotted : plotLatency zlib (withFile env report (writeCsv { samples := first :: others }))
          report bins = .ok file := by
        simp only [plotLatency, read, bind, Except.bind, List.map_cons]
        exact drawn
      have length : ((first :: others).map Int.ofNat).length = events.length := by
        rw [List.length_map, counted]
      exact ⟨_, (first :: others).map Int.ofNat, file, picture, _, written, length, plotted, found,
        histogram_spec bins (Int.ofNat first) (others.map Int.ofNat), shows⟩

theorem one_order_replay_is_plotted :
    let args := ["--report".toList, "latency.csv".toList]
    ∃ result, MainYields reportingFile ("feed.csv".toList :: args) result ∧
      ∃ text samples file picture counts,
        result.reportFile = some ("latency.csv".toList, text) ∧ samples.length = 1 ∧
        plotLatency storedZlib (withFile reportingFile "latency.csv".toList text)
          "latency.csv".toList 80 = .ok file ∧
        readPng storedZlib file = some picture ∧ HistogramOf 80 samples counts ∧
        ShowsHistogram picture counts := by
  intro args
  rcases main_returns reportingFile ("feed.csv".toList :: args) with ⟨result, yields⟩
  exact ⟨result, yields, replay_is_plotted storedZlib reportingFile "feed.csv".toList args result
    yields _ reporting_configures [enteredOrder] (List.cons_ne_nil _ _) reporting_replayable
    "latency.csv".toList rfl 80⟩

end Replays

end TickForge.LatencyPlot
