import Mathlib.Tactic.Common

/-!
# Python's csv reader

The states of `csv.reader` in the `excel` dialect, one letter after another, and the
rows it makes of the lines of a file. Rows that were joined from fields with
nothing to quote are read back. The fields are arbitrary otherwise.
-/

namespace TickForge.CsvReader

set_option autoImplicit false

section Reader

inductive ReaderState where
  | startRecord
  | startField
  | inField
  | inQuotedField
  | quoteInQuotedField
  | eatCrnl
  deriving DecidableEq, Repr

structure Reader where
  state : ReaderState := .startRecord
  field : List Char := []
  fields : List (List Char) := []
  deriving DecidableEq, Repr

def isLineEnd (letter : Char) : Bool := letter = '\n' || letter = '\r'

def Reader.saveField (reader : Reader) (state : ReaderState) : Reader :=
  { state := state, field := [], fields := reader.fields ++ [reader.field] }

def Reader.addChar (reader : Reader) (state : ReaderState) (letter : Char) : Reader :=
  { reader with state := state, field := reader.field ++ [letter] }

def processStartField (reader : Reader) (letter : Char) : Reader :=
  if isLineEnd letter then reader.saveField .eatCrnl
  else if letter = '"' then { reader with state := .inQuotedField }
  else if letter = ',' then reader.saveField .startField
  else reader.addChar .inField letter

/-- One letter of a line; `none` is the error about a line end inside one. -/
def processChar (reader : Reader) (letter : Char) : Option Reader :=
  match reader.state with
  | .startRecord =>
      if isLineEnd letter then some { reader with state := .eatCrnl }
      else some (processStartField reader letter)
  | .startField => some (processStartField reader letter)
  | .inField =>
      if isLineEnd letter then some (reader.saveField .eatCrnl)
      else if letter = ',' then some (reader.saveField .startField)
      else some (reader.addChar .inField letter)
  | .inQuotedField =>
      if letter = '"' then some { reader with state := .quoteInQuotedField }
      else some (reader.addChar .inQuotedField letter)
  | .quoteInQuotedField =>
      if letter = '"' then some (reader.addChar .inQuotedField letter)
      else if letter = ',' then some (reader.saveField .startField)
      else if isLineEnd letter then some (reader.saveField .eatCrnl)
      else some (reader.addChar .inField letter)
  | .eatCrnl => if isLineEnd letter then some reader else none

/-- The end of a line; a quoted field goes on in the next one. -/
def processEol (reader : Reader) : Reader :=
  match reader.state with
  | .startRecord => reader
  | .startField | .inField | .quoteInQuotedField => reader.saveField .startRecord
  | .inQuotedField => reader
  | .eatCrnl => { reader with state := .startRecord }

def readLine (reader : Reader) (line : List Char) : Option Reader :=
  (line.foldlM processChar reader).map processEol

/-- The rows of some lines, and whether an error ended them. -/
def readRows : Reader → List (List Char) → List (List (List Char)) × Bool
  | reader, [] =>
      if reader.field ≠ [] ∨ reader.state = .inQuotedField then
        ([reader.fields ++ [reader.field]], false)
      else ([], false)
  | reader, line :: rest =>
      match readLine reader line with
      | none => ([], true)
      | some next =>
          if next.state = .startRecord then
            let below := readRows {} rest
            (next.fields :: below.1, below.2)
          else readRows next rest

end Reader

section Unquoted

/-- A field the writer leaves unquoted. -/
def Unquoted (field : List Char) : Prop :=
  field ≠ [] ∧ ∀ letter ∈ field, letter ≠ ',' ∧ letter ≠ '"' ∧ isLineEnd letter = false

theorem process_inside (field : List Char) (fields : List (List Char)) (letters : List Char)
    (plain : ∀ letter ∈ letters, letter ≠ ',' ∧ letter ≠ '"' ∧ isLineEnd letter = false) :
    letters.foldlM processChar { state := .inField, field := field, fields := fields } =
      some { state := .inField, field := field ++ letters, fields := fields } := by
  induction letters generalizing field with
  | nil => simp
  | cons letter rest ih =>
      rw [List.forall_mem_cons] at plain
      have added : processChar { state := .inField, field := field, fields := fields } letter =
          some { state := .inField, field := field ++ [letter], fields := fields } := by
        simp [processChar, plain.1.1, plain.1.2.2, Reader.addChar]
      rw [List.foldlM_cons, added, Option.bind_eq_bind, Option.bind_some, ih _ plain.2,
        List.append_assoc, List.singleton_append]

/-- Where a field may start, an unquoted one is collected. -/
theorem process_field (reader : Reader) (starts : reader.state = .startRecord ∨
      reader.state = .startField) (clean : reader.field = []) (field : List Char)
    (unquoted : Unquoted field) :
    field.foldlM processChar reader =
      some { state := .inField, field := field, fields := reader.fields } := by
  rcases unquoted with ⟨nonempty, plain⟩
  cases field with
  | nil => exact absurd rfl nonempty
  | cons letter rest =>
      rw [List.forall_mem_cons] at plain
      have added : processChar reader letter =
          some { state := .inField, field := [letter], fields := reader.fields } := by
        rcases starts with atStart | atStart <;>
          simp [processChar, atStart, processStartField, plain.1.1, plain.1.2.1, plain.1.2.2,
            Reader.addChar, clean]
      rw [List.foldlM_cons, added, Option.bind_eq_bind, Option.bind_some,
        process_inside _ _ _ plain.2]
      rfl

theorem process_fields (reader : Reader) (starts : reader.state = .startRecord ∨
      reader.state = .startField) (clean : reader.field = []) (fields : List (List Char))
    (nonempty : fields ≠ []) (unquoted : ∀ field ∈ fields, Unquoted field) :
    ([','].intercalate fields ++ ['\n']).foldlM processChar reader =
      some { state := .eatCrnl, field := [], fields := reader.fields ++ fields } := by
  induction fields generalizing reader with
  | nil => exact absurd rfl nonempty
  | cons field rest ih =>
      rw [List.forall_mem_cons] at unquoted
      have collected := process_field reader starts clean field unquoted.1
      cases rest with
      | nil =>
          rw [List.intercalate_singleton, List.foldlM_append, collected]
          simp [processChar, isLineEnd, Reader.saveField]
      | cons next others =>
          rw [List.intercalate_cons_cons, List.append_assoc, List.append_assoc,
            List.foldlM_append, collected]
          have saved : processChar { state := .inField, field := field, fields := reader.fields } ',' =
              some { state := .startField, field := [], fields := reader.fields ++ [field] } := by
            simp [processChar, isLineEnd, Reader.saveField]
          rw [Option.bind_eq_bind, Option.bind_some, List.singleton_append, List.foldlM_cons, saved,
            Option.bind_eq_bind, Option.bind_some,
            ih _ (.inr rfl) rfl (List.cons_ne_nil _ _) unquoted.2]
          simp

/-- The line of an unquoted row. -/
def unquotedLine (fields : List (List Char)) : List Char := [','].intercalate fields ++ ['\n']

theorem read_unquoted_line (fields : List (List Char)) (nonempty : fields ≠ [])
    (unquoted : ∀ field ∈ fields, Unquoted field) :
    readLine {} (unquotedLine fields) = some { state := .startRecord, fields := fields } := by
  rw [readLine, unquotedLine, process_fields {} (.inl rfl) rfl fields nonempty unquoted]
  simp [processEol]

/-- Unquoted rows are read back, line by line. -/
theorem read_unquoted_rows (rows : List (List (List Char))) (nonempty : ∀ fields ∈ rows, fields ≠ [])
    (unquoted : ∀ fields ∈ rows, ∀ field ∈ fields, Unquoted field) :
    readRows {} (rows.map unquotedLine) = (rows, false) := by
  induction rows with
  | nil => rfl
  | cons fields rest ih =>
      rw [List.forall_mem_cons] at nonempty unquoted
      rw [List.map_cons, readRows, read_unquoted_line fields nonempty.1 unquoted.1]
      simp only [if_true, ih nonempty.2 unquoted.2]

end Unquoted

end TickForge.CsvReader
