import Mathlib.Data.List.Basic
import Mathlib.Tactic.Ring

/-!
# Checked chunks of bytes

A number is written with its greatest byte first. A chunk says how long its data is,
names a kind and closes with a checksum over the kind and the data; a file of chunks
is read back chunk by chunk.
-/

namespace TickForge.BinaryChunks

set_option autoImplicit false

abbrev Bytes := List UInt8

section Numbers

/-- The lowest bytes of a number, greatest first. -/
def bigEndian : Nat → Nat → Bytes
  | 0, _ => []
  | width + 1, value => bigEndian width (value / 256) ++ [UInt8.ofNat value]

def fromBigEndian (bytes : Bytes) : Nat := bytes.foldl (fun value byte => value * 256 + byte.toNat) 0

@[simp] theorem big_endian_length (width value : Nat) : (bigEndian width value).length = width := by
  induction width generalizing value with
  | zero => rfl
  | succ width ih => rw [bigEndian, List.length_append, ih, List.length_singleton]

theorem from_big_endian (width value : Nat) (fits : value < 256 ^ width) :
    fromBigEndian (bigEndian width value) = value := by
  induction width generalizing value with
  | zero =>
      rw [pow_zero] at fits
      exact (Nat.lt_one_iff.mp fits).symm
  | succ width ih =>
      rw [pow_succ] at fits
      have upper := ih (value / 256) (by omega)
      have lower : (UInt8.ofNat value).toNat = value % 256 := by simp
      rw [fromBigEndian] at upper ⊢
      rw [bigEndian, List.foldl_append, upper, List.foldl_cons, List.foldl_nil, lower]
      omega

end Numbers

section Chunks

structure Chunk where
  kind : Bytes
  data : Bytes
  deriving DecidableEq, Repr

variable (checksum : Bytes → Nat)

def writeChunk (chunk : Chunk) : Bytes :=
  bigEndian 4 chunk.data.length ++
    (chunk.kind ++ (chunk.data ++ bigEndian 4 (checksum (chunk.kind ++ chunk.data))))

/-- The first chunk and what follows it; `none` where the input is cut short or the
checksum is another one. -/
def readChunk (input : Bytes) : Option (Chunk × Bytes) :=
  let size := fromBigEndian (input.take 4)
  let chunk : Chunk := ⟨(input.drop 4).take 4, (input.drop 8).take size⟩
  let close := input.drop (8 + size)
  if close.length < 4 then none
  else if fromBigEndian (close.take 4) ≠ checksum (chunk.kind ++ chunk.data) then none
  else some (chunk, close.drop 4)

theorem read_chunk_shorter {input : Bytes} {chunk : Chunk} {rest : Bytes}
    (read : readChunk checksum input = some (chunk, rest)) : rest.length < input.length := by
  unfold readChunk at read
  dsimp only at read
  split_ifs at read with short
  cases read
  rw [List.length_drop] at short
  rw [List.length_drop, List.length_drop]
  omega

/-- All chunks of an input. -/
def readChunks (input : Bytes) : Option (List Chunk) :=
  if input = [] then some []
  else match read : readChunk checksum input with
    | none => none
    | some (chunk, rest) =>
        have := read_chunk_shorter checksum read
        (readChunks rest).map (chunk :: ·)
termination_by input.length

/-- A chunk whose kind has four bytes and whose numbers fit. -/
structure Encodable (chunk : Chunk) : Prop where
  kind : chunk.kind.length = 4
  data : chunk.data.length < 256 ^ 4
  checked : checksum (chunk.kind ++ chunk.data) < 256 ^ 4

variable {checksum}

theorem write_chunk_length {chunk : Chunk} (encodable : Encodable checksum chunk) :
    (writeChunk checksum chunk).length = chunk.data.length + 12 := by
  simp only [writeChunk, List.length_append, big_endian_length, encodable.kind]
  omega

theorem drop_piece (front back : Bytes) (size : Nat) (isFront : front.length = size) :
    (front ++ back).drop size = back := by
  rw [← isFront, List.drop_left]

theorem take_piece (front back : Bytes) (size : Nat) (isFront : front.length = size) :
    (front ++ back).take size = front := by
  rw [← isFront, List.take_left]

theorem read_written_chunk {chunk : Chunk} (encodable : Encodable checksum chunk) (rest : Bytes) :
    readChunk checksum (writeChunk checksum chunk ++ rest) = some (chunk, rest) := by
  let sizes := bigEndian 4 chunk.data.length
  let close := bigEndian 4 (checksum (chunk.kind ++ chunk.data)) ++ rest
  have input : writeChunk checksum chunk ++ rest =
      sizes ++ (chunk.kind ++ (chunk.data ++ close)) := by
    simp only [writeChunk, sizes, close, List.append_assoc]
  have size : fromBigEndian ((sizes ++ (chunk.kind ++ (chunk.data ++ close))).take 4) =
      chunk.data.length := by
    rw [take_piece _ _ 4 (big_endian_length 4 _)]
    exact from_big_endian 4 _ encodable.data
  have afterSize : (sizes ++ (chunk.kind ++ (chunk.data ++ close))).drop 4 =
      chunk.kind ++ (chunk.data ++ close) := drop_piece _ _ 4 (big_endian_length 4 _)
  have afterKind : (sizes ++ (chunk.kind ++ (chunk.data ++ close))).drop 8 =
      chunk.data ++ close := by
    rw [show 8 = 4 + 4 from rfl, ← List.drop_drop, afterSize, drop_piece _ _ 4 encodable.kind]
  have afterData : (sizes ++ (chunk.kind ++ (chunk.data ++ close))).drop (8 + chunk.data.length) =
      close := by
    rw [← List.drop_drop, afterKind, List.drop_left]
  have checked : fromBigEndian (close.take 4) = checksum (chunk.kind ++ chunk.data) := by
    rw [take_piece _ _ 4 (big_endian_length 4 _)]
    exact from_big_endian 4 _ encodable.checked
  have long : ¬close.length < 4 := by
    rw [List.length_append, big_endian_length]
    omega
  have left : close.drop 4 = rest := drop_piece _ _ 4 (big_endian_length 4 _)
  rw [input]
  simp only [readChunk, size, afterSize, afterKind, afterData, List.take_left,
    take_piece _ _ 4 encodable.kind, checked, left, if_neg long, ne_eq, not_true, if_false]

/-- What is written as chunks is read back as these chunks. -/
theorem read_written_chunks (chunks : List Chunk)
    (encodable : ∀ chunk ∈ chunks, Encodable checksum chunk) :
    readChunks checksum (chunks.flatMap (writeChunk checksum)) = some chunks := by
  induction chunks with
  | nil =>
      rw [readChunks]
      rfl
  | cons chunk rest ih =>
      rw [List.forall_mem_cons] at encodable
      have filled : writeChunk checksum chunk ++ rest.flatMap (writeChunk checksum) ≠ [] := by
        intro empty
        have length := congrArg List.length empty
        rw [List.length_append, write_chunk_length encodable.1, List.length_nil] at length
        omega
      have read := read_written_chunk encodable.1 (rest.flatMap (writeChunk checksum))
      rw [List.flatMap_cons, readChunks, if_neg filled]
      split
      · rename_i failed
        rw [read] at failed
        cases failed
      · rename_i first left found
        rw [read] at found
        cases found
        rw [ih encodable.2]
        rfl

end Chunks

end TickForge.BinaryChunks
