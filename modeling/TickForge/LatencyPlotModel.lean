import Mathlib.Data.BitVec
import TickForge.BinaryChunks
import TickForge.LatencyReport
import TickForge.PixelBuffer
import TickForge.BinaryRounding

/-!
# The histogram of a latency report

A transcription of the part of `plot_latency.py` that needs no plotting library: the
bins, the bars on a bitmap and the PNG file around it. `zlib.compress` comes from
outside with what it promises.
-/

namespace TickForge.LatencyPlotModel

open BinaryChunks PixelBuffer BinaryRounding
open MarketEventModel ReplayMainModel ReplayScriptsModel LatencyReport

set_option autoImplicit false

section Histogram

def binCount (bins : Int) : Nat := (max 1 bins).toNat

/-- `int((latency - min_latency) * bin_count / span)`, or the last bin. -/
def binIndex (count : Nat) (minLatency maxLatency latency : Int) : Nat :=
  min (count - 1)
    (truncatedQuotient 53 ((latency - minLatency).toNat * count) (maxLatency - minLatency).toNat)

/-- The samples of each bin; `first` and `rest` are the latencies. -/
def histogram (bins first : Int) (rest : List Int) : List Nat :=
  let minLatency := rest.foldl min first
  let maxLatency := rest.foldl max first
  let counts := List.replicate (binCount bins) 0
  if minLatency = maxLatency then counts.set 0 (first :: rest).length
  else (first :: rest).foldl
    (fun counts latency =>
      counts.modify (binIndex (binCount bins) minLatency maxLatency latency) (· + 1)) counts

end Histogram

section Drawing

def width : Nat := 1000
def height : Nat := 600
def marginLeft : Nat := 70
def marginRight : Nat := 30
def marginTop : Nat := 40
def marginBottom : Nat := 70
def plotWidth : Nat := width - marginLeft - marginRight
def plotHeight : Nat := height - marginTop - marginBottom

structure Color where
  red : UInt8
  green : UInt8
  blue : UInt8
  deriving DecidableEq, Repr

def Color.bytes (color : Color) : Bytes := [color.red, color.green, color.blue]

def white : Color := ⟨255, 255, 255⟩
def axisColor : Color := ⟨50, 50, 50⟩
def gridColor : Color := ⟨230, 230, 230⟩
def barColor : Color := ⟨31, 119, 180⟩

/-- `range(start, stop)` for bounds that are not negative. -/
def pyRange (start stop : Nat) : List Nat := List.range' start (stop - start)

/-- A bound of a rectangle, kept inside the picture. -/
def clamped (size : Nat) (bound : Int) : Nat := (max 0 (min (size : Int) bound)).toNat

def fillRect (x0 y0 x1 y1 : Int) (color : Color) (pixels : Bytes) : Bytes :=
  (pyRange (clamped height y0) (clamped height y1)).foldl
    (fun pixels y =>
      let row := y * width * 3
      (pyRange (clamped width x0) (clamped width x1)).foldl
        (fun pixels x =>
          let offset := row + x * 3
          assignSlice pixels offset (offset + 3) color.bytes) pixels) pixels

/-- The top of a grid line. -/
def gridRow (i : Nat) : Nat := marginTop + truncatedQuotient 53 (i * plotHeight) 5

def drawGrid (pixels : Bytes) : Bytes :=
  (List.range 6).foldl
    (fun pixels i =>
      fillRect marginLeft (gridRow i) ((width : Int) - marginRight) (gridRow i + 1) gridColor pixels)
    pixels

def drawAxes (pixels : Bytes) : Bytes :=
  let upright := fillRect marginLeft marginTop (marginLeft + 2) ((height : Int) - marginBottom)
    axisColor pixels
  fillRect marginLeft ((height : Int) - marginBottom) ((width : Int) - marginRight)
    ((height : Int) - marginBottom + 2) axisColor upright

def barHeight (maxCount count : Nat) : Nat :=
  if maxCount = 0 then 0 else truncatedQuotient 53 (count * (plotHeight - 1)) maxCount

/-- Where the share of a bin begins, and where the one before it ends. -/
def binEdge (count i : Nat) : Nat := marginLeft + truncatedQuotient 53 (i * plotWidth) count

def drawBar (count maxCount : Nat) (pixels : Bytes) (bar : Nat × Nat) : Bytes :=
  let x0 : Int := binEdge count bar.2
  let x1 : Int := binEdge count (bar.2 + 1)
  let y0 : Int := (height : Int) - marginBottom - barHeight maxCount bar.1
  let y1 : Int := (height : Int) - marginBottom
  fillRect (x0 + 1) y0 (max (x0 + 2) (x1 - 1)) y1 barColor pixels

/-- `max(counts)` for counts. -/
def tallest (counts : List Nat) : Nat := counts.foldl max 0

def drawBars (counts : List Nat) (pixels : Bytes) : Bytes :=
  counts.zipIdx.foldl (drawBar counts.length (tallest counts)) pixels

def drawHistogram (counts : List Nat) : Bytes :=
  drawBars counts (drawAxes (drawGrid (List.replicate (width * height) white.bytes).flatten))

end Drawing

section PngFile

def crcBit (crc : BitVec 32) : BitVec 32 :=
  if crc.getLsbD 0 then (crc >>> 1) ^^^ 0xEDB88320#32 else crc >>> 1

def crcByte (crc : BitVec 32) (byte : UInt8) : BitVec 32 :=
  (List.range 8).foldl (fun crc _ => crcBit crc) (crc ^^^ byte.toBitVec.zeroExtend 32)

/-- `zlib.crc32`. -/
def crc32 (data : Bytes) : Nat := (~~~(data.foldl crcByte 0xFFFFFFFF#32)).toNat

/-- What `zlib.compress` promises: the data can be had back, and it grows by no more
than the library's bound. -/
structure Zlib where
  compress : Bytes → Bytes
  decompress : Bytes → Option Bytes
  restores : ∀ data, decompress (compress data) = some data
  bounded : ∀ data, (compress data).length ≤
    data.length + data.length / 2 ^ 12 + data.length / 2 ^ 14 + data.length / 2 ^ 25 + 13

/-- `struct.pack(">I", value)`. -/
def packUint32 (value : Nat) : Except ScriptError Bytes :=
  if value < 2 ^ 32 then .ok (bigEndian 4 value) else .error .structError

def pngChunk (kind data : Bytes) : Except ScriptError Bytes := do
  let size ← packUint32 data.length
  let crc ← packUint32 (crc32 (kind ++ data))
  return size ++ kind ++ data ++ crc

def pngSignature : Bytes := [137, 80, 78, 71, 13, 10, 26, 10]
def headerKind : Bytes := [73, 72, 68, 82]
def dataKind : Bytes := [73, 68, 65, 84]
def endKind : Bytes := [73, 69, 78, 68]

/-- Eight bits a sample, three samples a pixel, nothing interlaced. -/
def pixelFormat : Bytes := [8, 2, 0, 0, 0]

/-- The bytes `write_simple_png` writes. -/
def writeSimplePng (zlib : Zlib) (latencies : List Int) (bins : Int) : Except ScriptError Bytes :=
  match latencies with
  | [] => .error (.systemExit "input CSV contains no latency samples".toList)
  | first :: rest => do
      let rawRows := scanlines (width * 3) 0 height (drawHistogram (histogram bins first rest))
      let columns ← packUint32 width
      let rows ← packUint32 height
      let header ← pngChunk headerKind (columns ++ rows ++ pixelFormat)
      let image ← pngChunk dataKind (zlib.compress rawRows)
      let closing ← pngChunk endKind []
      return pngSignature ++ header ++ image ++ closing

/-- `main` where no plotting library is installed: the file it writes. -/
def plotLatency (zlib : Zlib) (env : Environment) (input : Text) (bins : Int) :
    Except ScriptError Bytes := do
  let latencies ← loadLatencies env input
  writeSimplePng zlib latencies bins

end PngFile

end TickForge.LatencyPlotModel
