import TickForge.LobsterReconstruction
import TickForge.LobsterRescaling

/-!
# Every row of a message file is accounted for

A row is passed over, written or skipped, and the summary of the adapter counts
it as such. With `--strict` the first row that would be skipped as faulty ends the
conversion; without it the file is what its messages alone make of it. A time that is
no finite number ends either conversion.
-/

namespace TickForge.RowAccounting

open Std (ExtTreeMap)
open KeyedTotals MarketEventModel OrderBookModel LobsterAdapterModel LobsterReconstruction
open LobsterRescaling CsvRoundTrip CsvParserModel

set_option autoImplicit false

section Rows

/-- The rows behind those that are blank or passed over, with their line numbers. -/
def considered (skipFirstMessages lineNo : Nat) (rows : List MessageRow) :
    List (MessageRow × Nat) :=
  ((rows.zipIdx lineNo).filter fun row => row.1 ≠ .blank).drop skipFirstMessages

/-- What a conversion without `--strict` does with a row that does not end it. -/
def takeRow (args : AdapterArgs) (state : AdapterState) : MessageRow → AdapterState
  | .blank | .infiniteTime => state
  | .short _ => state.skip "malformed".toList
  | .unparsable _ => state.skip "parse_error".toList
  | .message message => writeMessage args state message

def takeRows (args : AdapterArgs) (state : AdapterState) (rows : List MessageRow) : AdapterState :=
  rows.foldl (takeRow args) state

/-- What a row ends the conversion with: one that is no message names its line where the
conversion is strict, an infinite time raises an exception in any. -/
def fault (strict : Bool) (row : MessageRow × Nat) : Option Text :=
  let located (reason : Text) : Option Text :=
    if strict then some ("line ".toList ++ Nat.toDigits 10 row.2 ++ ": ".toList ++ reason)
    else none
  match row.1 with
  | .short columns => located ("expected 6 LOBSTER columns, got ".toList ++ Nat.toDigits 10 columns)
  | .infiniteTime => some "OverflowError: cannot convert float infinity to integer".toList
  | .unparsable reason => located ("parse error: ".toList ++ reason)
  | .blank | .message _ => none

/-- What ends a conversion, if anything. -/
def firstFault (strict : Bool) (rows : List (MessageRow × Nat)) : Option Text :=
  rows.findSome? (fault strict)

theorem finite_of_sound {strict : Bool} {rows : List (MessageRow × Nat)}
    (sound : firstFault strict rows = none) : MessageRow.infiniteTime ∉ rows.map Prod.fst := by
  intro listed
  rcases List.mem_map.mp listed with ⟨row, member, isInfinite⟩
  have none := List.findSome?_eq_none_iff.mp sound row member
  rw [fault, isInfinite] at none
  cases none

/-- Only an infinite time ends a conversion that is not strict. -/
theorem lenient_fault_none_iff (rows : List (MessageRow × Nat)) :
    firstFault false rows = none ↔ MessageRow.infiniteTime ∉ rows.map Prod.fst := by
  refine ⟨finite_of_sound, ?_⟩
  intro absent
  rw [firstFault, List.findSome?_eq_none_iff]
  intro row listed
  rcases row with ⟨_ | _ | _ | _ | _, lineNo⟩
  case infiniteTime => exact absurd (List.mem_map.mpr ⟨_, listed, rfl⟩) absent
  all_goals rfl

/-- The state with another message index; nothing that is written depends on it. -/
def atIndex (state : AdapterState) (msgIndex : Int) : AdapterState :=
  { state with msgIndex := msgIndex }

variable (args : AdapterArgs)

theorem take_row_at_index (state : AdapterState) (msgIndex : Int) (row : MessageRow) :
    takeRow args (atIndex state msgIndex) row = atIndex (takeRow args state row) msgIndex := by
  cases row with
  | blank => rfl
  | short columns => rfl
  | infiniteTime => rfl
  | unparsable reason => rfl
  | message message =>
      have sameActive : (atIndex state msgIndex).active = state.active := rfl
      simp only [takeRow, writeMessage, sameActive]
      cases convertMessage args state.active message with
      | none => rfl
      | some conversion =>
          cases counted : conversion.counted <;> simp only [counted] <;> rfl

theorem take_rows_at_index (state : AdapterState) (msgIndex : Int) (rows : List MessageRow) :
    takeRows args (atIndex state msgIndex) rows = atIndex (takeRows args state rows) msgIndex := by
  induction rows generalizing state with
  | nil => rfl
  | cons row rest ih =>
      change takeRows args (takeRow args (atIndex state msgIndex) row) rest = _
      rw [take_row_at_index, ih]
      rfl

/-- One row that is not passed over ends the conversion or is taken. -/
theorem convert_row_taken (skipFirstMessages : Int) (state : AdapterState) (lineNo : Nat)
    (row : MessageRow) (notBlank : row ≠ .blank) (reached : skipFirstMessages ≤ state.msgIndex + 1) :
    convertRow args skipFirstMessages state lineNo row =
      match fault args.strict (row, lineNo) with
      | some reason => .error reason
      | none => .ok (atIndex (takeRow args state row) (state.msgIndex + 1)) := by
  have taken := take_row_at_index args state (state.msgIndex + 1) row
  unfold convertRow
  rw [if_neg notBlank, if_neg (not_lt.mpr reached), ← taken]
  cases row with
  | blank => exact absurd rfl notBlank
  | message message => rfl
  | infiniteTime => rfl
  | short columns =>
      unfold rejectRow fault
      cases args.strict <;> rfl
  | unparsable reason =>
      unfold rejectRow fault
      cases args.strict <;> rfl

/-- The loop over the rows: it takes the rows that are left over, up to the first
fault where there is one. -/
theorem convert_rows_taken (skipFirstMessages : Nat) (state : AdapterState) (lineNo passed : Nat)
    (index : state.msgIndex = (passed : Int) - 1) (rows : List MessageRow) :
    convertRows args skipFirstMessages state lineNo rows =
      let left := considered (skipFirstMessages - passed) lineNo rows
      match firstFault args.strict left with
      | some reason => .error reason
      | none => .ok (atIndex (takeRows args state (left.map Prod.fst))
          (state.msgIndex + rows.countP (· ≠ .blank))) := by
  induction rows generalizing state lineNo passed with
  | nil => simp [considered, convertRows, firstFault, takeRows, atIndex]
  | cons row rest ih =>
      by_cases isBlank : row = .blank
      · have later := ih state (lineNo + 1) passed index
        have same : considered (skipFirstMessages - passed) lineNo (row :: rest) =
            considered (skipFirstMessages - passed) (lineNo + 1) rest := by
          simp [considered, List.zipIdx_cons, isBlank]
        have counted : (row :: rest).countP (· ≠ .blank) = rest.countP (· ≠ .blank) := by
          simp [isBlank]
        rw [convertRows, convertRow, if_pos isBlank, same, counted]
        exact later
      · have nextIndex : ∀ taken : AdapterState,
            (atIndex taken (state.msgIndex + 1)).msgIndex = ((passed + 1 : Nat) : Int) - 1 := by
          intro taken
          change state.msgIndex + 1 = _
          omega
        have counted : ∀ taken : AdapterState, (atIndex taken (state.msgIndex + 1)).msgIndex +
            rest.countP (· ≠ .blank) = state.msgIndex + (row :: rest).countP (· ≠ .blank) := by
          intro taken
          rw [List.countP_cons_of_pos (by simpa using isBlank)]
          change state.msgIndex + 1 + _ = _
          push_cast
          ring
        by_cases early : passed < skipFirstMessages
        · have passedOver : convertRow args skipFirstMessages state lineNo row =
              .ok (atIndex state (state.msgIndex + 1)) := by
            have below : state.msgIndex + 1 < (skipFirstMessages : Int) := by omega
            rw [convertRow, if_neg isBlank, if_pos below]
            rfl
          have later := ih _ (lineNo + 1) (passed + 1) (nextIndex state)
          have same : considered (skipFirstMessages - passed) lineNo (row :: rest) =
              considered (skipFirstMessages - (passed + 1)) (lineNo + 1) rest := by
            have amount : skipFirstMessages - passed = (skipFirstMessages - (passed + 1)) + 1 := by
              omega
            simp [considered, List.zipIdx_cons, isBlank, amount]
          rw [convertRows, passedOver, same]
          simp only [take_rows_at_index, counted] at later
          exact later
        · have none : skipFirstMessages - passed = 0 := by omega
          have noneLater : skipFirstMessages - (passed + 1) = 0 := by omega
          have same : considered 0 lineNo (row :: rest) =
              (row, lineNo) :: considered 0 (lineNo + 1) rest := by
            simp [considered, List.zipIdx_cons, isBlank]
          have reached : (skipFirstMessages : Int) ≤ state.msgIndex + 1 := by omega
          have one := convert_row_taken args skipFirstMessages state lineNo row isBlank reached
          have later := ih _ (lineNo + 1) (passed + 1) (nextIndex (takeRow args state row))
          rw [noneLater] at later
          rw [convertRows, one, none, same]
          unfold firstFault at later ⊢
          simp only [List.findSome?_cons]
          cases fault args.strict (row, lineNo) with
          | some reason => rfl
          | none =>
              simp only [take_rows_at_index, counted] at later
              exact later

end Rows

section Conversions

variable (args : AdapterArgs)

/-- The state behind the seeds. -/
def seededStart (sides : List PriceLevel × List PriceLevel) : AdapterState where
  rows := fileSeeds args sides.1 sides.2
  nSeeded := sides.2.length + sides.1.length

/-- What a run starts from: nothing, or the seeds of the orderbook file. -/
def startState : Option BookFile → Except Text AdapterState
  | none => .ok {}
  | some file => (readInitialBook file).map (seededStart args)

/-- The number of messages a run passes over: the one the orderbook row shows already. -/
def passedOver (initialBook : Option BookFile) : Nat := if initialBook.isSome then 1 else 0

theorem convert_taken (initialBook : Option BookFile) (rows : List MessageRow) :
    convert args initialBook rows =
      match startState args initialBook with
      | .error reason => .error reason
      | .ok start =>
          let left := considered (passedOver initialBook) 1 rows
          match firstFault args.strict left with
          | some reason => .error reason
          | none => .ok (atIndex (takeRows args start (left.map Prod.fst))
              (rows.countP (· ≠ .blank) - 1)) := by
  have fromStart : ∀ count : Nat, (-1 : Int) + count = count - 1 := by
    intro count
    ring
  cases initialBook with
  | none =>
      have taken := convert_rows_taken args 0 {} 1 0 rfl rows
      simp only [fromStart] at taken
      exact taken
  | some file =>
      cases read : readInitialBook file with
      | error reason => simp only [convert, startState, read, Except.map]
      | ok sides =>
          have taken := convert_rows_taken args 1 (seededStart args sides) 1 0 rfl rows
          have index : (seededStart args sides).msgIndex = -1 := rfl
          simp only [index, fromStart] at taken
          simp only [convert, startState, read, Except.map, write_seeds_eq, List.nil_append,
            Nat.zero_add]
          exact taken

/-- A conversion ends where its seeds can be read and no row stops it. -/
theorem converts_iff (initialBook : Option BookFile) (rows : List MessageRow) :
    (∃ output, convert args initialBook rows = .ok output) ↔
      (∃ start, startState args initialBook = .ok start) ∧
        firstFault args.strict (considered (passedOver initialBook) 1 rows) = none := by
  rw [convert_taken]
  cases startState args initialBook with
  | error reason => simp
  | ok start =>
      cases faulty : firstFault args.strict (considered (passedOver initialBook) 1 rows) with
      | some reason => simp [faulty]
      | none => simp [faulty]

end Conversions

section Accounts

/-- The note on orphan reductions, which are written and not skipped. -/
def orphanNote : Text := "orphan_partial_cancel_emitted".toList

def IsDisplayed (message : Message) : Prop :=
  message.type = 1 ∨ message.type = 2 ∨ message.type = 3 ∨ message.type = 4

instance (message : Message) : Decidable (IsDisplayed message) :=
  inferInstanceAs (Decidable (_ ∨ _ ∨ _ ∨ _))

/-- The key a skipped row is counted under. -/
def skipKey : MessageRow → Option Text
  | .blank | .infiniteTime => none
  | .short _ => some "malformed".toList
  | .unparsable _ => some "parse_error".toList
  | .message message =>
      if IsDisplayed message then none else some ("lobster_type_".toList ++ pyInt message.type)

def displayed : MessageRow → Option Message
  | .message message => if IsDisplayed message then some message else none
  | .blank | .short _ | .infiniteTime | .unparsable _ => none

/-- What a written row has of its message whatever the adapter knows of the order. -/
def heading (row : AdapterRow) : Int × Nat × Side × Int :=
  (row.timestampNs, row.orderId, row.side, row.price)

def messageHeading (args : AdapterArgs) (message : Message) : Int × Nat × Side × Int :=
  (message.timeNs + args.timeBaseNs, message.orderId, messageSide message,
    messagePrice args message)

def counted (state : AdapterState) (key : Text) : Nat := state.skippedBreakdown[key]?.getD 0

/-- What a run from `start` over these rows wrote and skipped. -/
structure Accounted (args : AdapterArgs) (start : AdapterState) (taken : List MessageRow)
    (state : AdapterState) : Prop where
  seeded : state.nSeeded = start.nSeeded
  written : ∃ below, state.rows = start.rows ++ below ∧
    below.map heading = (taken.filterMap displayed).map (messageHeading args)
  nWritten : state.nWritten = start.nWritten + (taken.filterMap displayed).length
  nSkipped : state.nSkipped = start.nSkipped + (taken.filterMap skipKey).length
  breakdown : ∀ key, key ≠ orphanNote →
    counted state key = counted start key + (taken.filterMap skipKey).count key

theorem counted_note (state : AdapterState) (key other : Text) :
    counted (state.note key) other = counted state other + if key = other then 1 else 0 := by
  simp only [counted, AdapterState.note, lookup_insert]
  split_ifs with same
  · rw [same, Option.getD_some]
  · rfl

theorem converts_displayed {args : AdapterArgs} {active : ActiveTable} {message : Message} :
    convertMessage args active message = none ↔ ¬IsDisplayed message := by
  unfold convertMessage IsDisplayed
  split_ifs with submitted reduced deleted executed
  · simp [submitted]
  · simp only [reduced, true_or, or_true, not_true, iff_false]
    cases active[message.orderId]? with
    | none => simp
    | some existing =>
        simp only
        split_ifs <;> simp
  · simp [deleted]
  · simp only [executed, or_true, not_true, iff_false]
    cases active[message.orderId]? with
    | none => simp
    | some existing =>
        simp only
        split_ifs <;> simp
  · simp [submitted, reduced, deleted, executed]

theorem conversion_note {args : AdapterArgs} {active : ActiveTable} {message : Message}
    {conversion : Conversion} (converts : convertMessage args active message = some conversion) :
    conversion.counted = none ∨ conversion.counted = some orphanNote := by
  unfold convertMessage at converts
  split_ifs at converts
  · cases converts
    exact .inl rfl
  · cases known : active[message.orderId]? with
    | none =>
        simp only [known, Option.some.injEq] at converts
        cases converts
        exact .inr rfl
    | some existing =>
        simp only [known] at converts
        split_ifs at converts <;> cases converts <;> exact .inl rfl
  · cases converts
    exact .inl rfl
  · cases known : active[message.orderId]? with
    | none =>
        simp only [known, Option.some.injEq] at converts
        cases converts
        exact .inl rfl
    | some existing =>
        simp only [known] at converts
        split_ifs at converts <;> cases converts <;> exact .inl rfl

/-- A row that the conversion gets beyond is either displayed or skipped. -/
theorem shown_or_skipped (row : MessageRow) (present : row ≠ .blank ∧ row ≠ .infiniteTime) :
    (∃ message, row = .message message ∧ IsDisplayed message ∧
      displayed row = some message ∧ skipKey row = none) ∨
    (∃ key, displayed row = none ∧ skipKey row = some key ∧
      ∀ args state, takeRow args state row = state.skip key) := by
  cases row with
  | blank => exact absurd rfl present.1
  | infiniteTime => exact absurd rfl present.2
  | short columns => exact .inr ⟨_, rfl, rfl, fun _ _ => rfl⟩
  | unparsable reason => exact .inr ⟨_, rfl, rfl, fun _ _ => rfl⟩
  | message message =>
      by_cases isDisplayed : IsDisplayed message
      · exact .inl ⟨message, rfl, isDisplayed, if_pos isDisplayed, if_pos isDisplayed⟩
      · refine .inr ⟨_, if_neg isDisplayed, if_neg isDisplayed, ?_⟩
        intro args state
        have skips : convertMessage args state.active message = none :=
          converts_displayed.mpr isDisplayed
        rw [takeRow, writeMessage, skips]

variable {args : AdapterArgs} {start state : AdapterState} {taken : List MessageRow}

/-- A skipped row is counted under its key. -/
theorem skip_accounted (accounted : Accounted args start taken state) (row : MessageRow) (key : Text)
    (skips : skipKey row = some key) (silent : displayed row = none) :
    Accounted args start (taken ++ [row]) (state.skip key) := by
  have sameDisplayed : (taken ++ [row]).filterMap displayed = taken.filterMap displayed := by
    rw [List.filterMap_append, List.filterMap_cons_none silent, List.filterMap_nil, List.append_nil]
  have oneMore : (taken ++ [row]).filterMap skipKey = taken.filterMap skipKey ++ [key] := by
    rw [List.filterMap_append, List.filterMap_cons_some skips, List.filterMap_nil]
  constructor
  · exact accounted.seeded
  · rw [sameDisplayed]
    exact accounted.written
  · rw [sameDisplayed]
    exact accounted.nWritten
  · rw [oneMore, List.length_append, ← Nat.add_assoc, ← accounted.nSkipped]
    rfl
  · intro other notOrphan
    have noted := counted_note { state with nSkipped := state.nSkipped + 1 } key other
    have before := accounted.breakdown other notOrphan
    rw [oneMore, List.count_append, List.count_singleton, ← Nat.add_assoc, ← before]
    simp only [beq_iff_eq]
    exact noted

/-- A displayed message is written and counted nowhere but in the orphan note. -/
theorem message_accounted (accounted : Accounted args start taken state) (row : MessageRow)
    (message : Message) (isDisplayed : IsDisplayed message) (shows : displayed row = some message)
    (silent : skipKey row = none) :
    Accounted args start (taken ++ [row]) (writeMessage args state message) := by
  have shown : (taken ++ [row]).filterMap displayed = taken.filterMap displayed ++ [message] := by
    rw [List.filterMap_append, List.filterMap_cons_some shows, List.filterMap_nil]
  have sameSkipped : (taken ++ [row]).filterMap skipKey = taken.filterMap skipKey := by
    rw [List.filterMap_append, List.filterMap_cons_none silent, List.filterMap_nil, List.append_nil]
  cases converts : convertMessage args state.active message with
  | none => exact absurd isDisplayed (converts_displayed.mp converts)
  | some conversion =>
      have rows := (write_message_converted args state message conversion converts).1
      rcases accounted.written with ⟨below, before, headings⟩
      have others : (writeMessage args state message).nSeeded = state.nSeeded ∧
          (writeMessage args state message).nWritten = state.nWritten + 1 ∧
          (writeMessage args state message).nSkipped = state.nSkipped ∧
          ∀ key, key ≠ orphanNote →
            counted (writeMessage args state message) key = counted state key := by
        simp only [writeMessage, converts]
        rcases conversion_note converts with unnoted | noted
        · rw [unnoted]
          exact ⟨rfl, rfl, rfl, fun key _ => rfl⟩
        · rw [noted]
          refine ⟨rfl, rfl, rfl, ?_⟩
          intro key notOrphan
          have same := counted_note { state with active := conversion.active } orphanNote key
          rw [if_neg (Ne.symm notOrphan)] at same
          exact same
      constructor
      · rw [others.1, accounted.seeded]
      · refine ⟨below ++ [messageRow args message conversion], ?_, ?_⟩
        · rw [rows, before, List.append_assoc]
        · rw [List.map_append, headings, shown, List.map_append]
          rfl
      · rw [others.2.1, shown, List.length_append, ← Nat.add_assoc, ← accounted.nWritten]
        rfl
      · rw [others.2.2.1, sameSkipped, accounted.nSkipped]
      · intro key notOrphan
        rw [others.2.2.2 key notOrphan, sameSkipped, accounted.breakdown key notOrphan]

theorem take_rows_accounted (args : AdapterArgs) (start : AdapterState) (taken : List MessageRow)
    (present : ∀ row ∈ taken, row ≠ .blank ∧ row ≠ .infiniteTime) :
    Accounted args start taken (takeRows args start taken) := by
  induction taken using List.reverseRecOn with
  | nil =>
      constructor
      · rfl
      · exact ⟨[], (List.append_nil _).symm, rfl⟩
      · rfl
      · rfl
      · intro key _
        rfl
  | append_singleton earlier row ih =>
      rw [List.forall_mem_append] at present
      have before := ih present.1
      rw [takeRows, List.foldl_append]
      change Accounted args start _ (takeRow args (takeRows args start earlier) row)
      rcases shown_or_skipped row (present.2 row (List.mem_singleton_self row)) with
        ⟨message, rfl, isDisplayed, shows, silent⟩ | ⟨key, silent, skips, taken⟩
      · exact message_accounted before _ message isDisplayed shows silent
      · rw [taken]
        exact skip_accounted before row key skips silent

theorem shown_and_skipped_length (taken : List MessageRow)
    (present : ∀ row ∈ taken, row ≠ .blank ∧ row ≠ .infiniteTime) :
    (taken.filterMap displayed).length + (taken.filterMap skipKey).length = taken.length := by
  induction taken with
  | nil => rfl
  | cons row rest ih =>
      rw [List.forall_mem_cons] at present
      have later := ih present.2
      rcases shown_or_skipped row present.1 with ⟨message, _, _, shows, silent⟩ | ⟨key, silent, skips, _⟩
      · rw [List.filterMap_cons_some shows, List.filterMap_cons_none silent, List.length_cons,
          List.length_cons]
        omega
      · rw [List.filterMap_cons_none silent, List.filterMap_cons_some skips, List.length_cons,
          List.length_cons]
        omega

theorem considered_present (skipFirstMessages lineNo : Nat) (rows : List MessageRow) :
    ∀ row ∈ (considered skipFirstMessages lineNo rows).map Prod.fst, row ≠ .blank := by
  intro row listed
  rcases List.mem_map.mp listed with ⟨numbered, member, rfl⟩
  have kept := (List.mem_filter.mp (List.mem_of_mem_drop member)).2
  simpa using kept

/-- A run starts with its seeds and nothing counted. -/
structure Fresh (start : AdapterState) : Prop where
  rows : start.rows.length = start.nSeeded
  nWritten : start.nWritten = 0
  nSkipped : start.nSkipped = 0
  uncounted : ∀ key, counted start key = 0

theorem start_counts (args : AdapterArgs) (initialBook : Option BookFile) (start : AdapterState)
    (started : startState args initialBook = .ok start) : Fresh start := by
  have noneCounted : ∀ state : AdapterState, state.skippedBreakdown = ∅ →
      ∀ key, counted state key = 0 := by
    intro state empty key
    rw [counted, empty, ExtTreeMap.getElem?_empty]
    rfl
  cases initialBook with
  | none =>
      cases started
      exact ⟨rfl, rfl, rfl, noneCounted _ rfl⟩
  | some file =>
      simp only [startState] at started
      cases read : readInitialBook file with
      | error reason =>
          rw [read] at started
          cases started
      | ok sides =>
          rw [read] at started
          cases started
          refine ⟨?_, rfl, rfl, noneCounted _ rfl⟩
          rw [seededStart, fileSeeds, List.length_append, seed_rows_length, seed_rows_length]

/-- A conversion that is not strict ends unless its seeds cannot be read or a time is
infinite. Whenever a conversion ends, every row behind those passed over is written or
skipped: the written ones are the displayed messages in file order behind the seeds, and
the summary counts the skipped ones by their reasons. -/
theorem every_row_is_accounted_for (args : AdapterArgs) (initialBook : Option BookFile)
    (rows : List MessageRow) :
    let taken := (considered (passedOver initialBook) 1 rows).map Prod.fst
    let skipped := taken.filterMap skipKey
    (args.strict = false →
      ((∃ output, convert args initialBook rows = .ok output) ↔
        (∃ start, startState args initialBook = .ok start) ∧
          MessageRow.infiniteTime ∉ taken)) ∧
    ∀ output, convert args initialBook rows = .ok output →
      output.rows.length = output.nSeeded + output.nWritten ∧
        (output.rows.drop output.nSeeded).map heading =
          (taken.filterMap displayed).map (messageHeading args) ∧
        output.nWritten + output.nSkipped = taken.length ∧
        output.nSkipped = skipped.length ∧
        ∀ key, key ≠ orphanNote → counted output key = skipped.count key := by
  intro taken skipped
  constructor
  · intro lenient
    rw [converts_iff, lenient, lenient_fault_none_iff]
  intro output converted
  rcases (converts_iff args initialBook rows).mp ⟨output, converted⟩ with ⟨⟨start, started⟩, sound⟩
  have present : ∀ row ∈ taken, row ≠ .blank ∧ row ≠ .infiniteTime := by
    intro row listed
    refine ⟨considered_present (passedOver initialBook) 1 rows row listed, ?_⟩
    rintro rfl
    exact finite_of_sound sound listed
  rw [convert_taken, started] at converted
  simp only [sound, Except.ok.injEq] at converted
  have accounted := take_rows_accounted args start taken present
  have fresh := start_counts args initialBook start started
  rcases accounted.written with ⟨below, whole, headings⟩
  have length := congrArg List.length headings
  rw [List.length_map, List.length_map] at length
  have both := shown_and_skipped_length taken present
  rw [← converted]
  refine ⟨?_, ?_, ?_, ?_, ?_⟩
  · change (takeRows args start taken).rows.length =
      (takeRows args start taken).nSeeded + (takeRows args start taken).nWritten
    rw [whole, List.length_append, accounted.seeded, accounted.nWritten, fresh.rows,
      fresh.nWritten]
    omega
  · change ((takeRows args start taken).rows.drop (takeRows args start taken).nSeeded).map
      heading = _
    rw [whole, accounted.seeded, ← fresh.rows, List.drop_left, headings]
  · change (takeRows args start taken).nWritten + (takeRows args start taken).nSkipped = _
    rw [accounted.nWritten, accounted.nSkipped, fresh.nWritten, fresh.nSkipped]
    omega
  · change (takeRows args start taken).nSkipped = _
    rw [accounted.nSkipped, fresh.nSkipped, Nat.zero_add]
  · intro key notOrphan
    change counted (takeRows args start taken) key = _
    rw [accounted.breakdown key notOrphan, fresh.uncounted key, Nat.zero_add]

/-- A blank line, a halt, a short row and an order. -/
theorem four_rows_are_accounted_for :
    let entered : Message := { type := 1, orderId := 7, size := 5, price := 100, direction := 1 }
    let halt : Message := { type := 7, orderId := 0, size := 0, price := -1, direction := -1 }
    let rows : List MessageRow := [.blank, .message halt, .short 3, .message entered]
    ∃ output, convert {} none rows = .ok output ∧
      output.rows.length = output.nSeeded + output.nWritten ∧
      (output.rows.drop output.nSeeded).map heading = [messageHeading {} entered] ∧
      output.nWritten + output.nSkipped = 3 ∧ output.nSkipped = 2 ∧
      ∀ key, key ≠ orphanNote →
        counted output key = ["lobster_type_7".toList, "malformed".toList].count key := by
  intro entered halt rows
  refine ⟨_, rfl, ?_⟩
  exact (every_row_is_accounted_for {} none rows).2 _ rfl

end Accounts

end TickForge.RowAccounting
