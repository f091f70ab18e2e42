import TickForge.ReplayReportModel

/-!
# Printed levels read back

Numbers are printed with digits and a sign, levels with an at sign between two
numbers, so neither line ends nor spaces get into a printed line by accident. The
reader finds the lines again, stores the fields of the summary and reads both lists of
levels as they were printed.
-/

namespace TickForge.ReplayReport

open Std (ExtTreeMap)
open DelimitedText MarketEventModel OrderBookModel CsvGrammar CsvRoundTrip LobsterAdapterModel
open ReplayEngineModel ReplayReportModel

set_option autoImplicit false

section Letters

/-- The letters of a printed value. -/
def isFigure (letter : Char) : Bool :=
  letter.isDigit || letter = '-' || letter = '.' || letter = 'N' || letter = 'A'

theorem digit_bounds {letter : Char} (digit : letter.isDigit = true) :
    48 ≤ letter.toNat ∧ letter.toNat ≤ 57 := by
  simpa [Char.isDigit, UInt32.le_iff_toNat_le] using digit

theorem digit_solid {letter : Char} (digit : letter.isDigit = true) :
    isPySpace letter = false ∧ isLineBreak letter = false := by
  have bounds := digit_bounds digit
  constructor
  · rw [isPySpace, Bool.eq_false_iff, ne_eq, List.contains_iff_mem]
    intro listed
    simp only [List.mem_cons, List.not_mem_nil, or_false] at listed
    omega
  · rw [isLineBreak, Bool.eq_false_iff, ne_eq, List.contains_iff_mem]
    intro listed
    simp only [List.mem_cons, List.not_mem_nil, or_false] at listed
    omega

/-- A printed value holds no space, no line end and no punctuation of a line. -/
theorem figure_solid {letter : Char} (figure : isFigure letter = true) :
    isPySpace letter = false ∧ isLineBreak letter = false ∧ letter ≠ '@' ∧ letter ≠ 'b' := by
  simp only [isFigure, Bool.or_eq_true, decide_eq_true_iff] at figure
  rcases figure with (((digit | rfl) | rfl) | rfl) | rfl
  · have bounds := digit_bounds digit
    refine ⟨(digit_solid digit).1, (digit_solid digit).2, ?_, ?_⟩
    · rintro rfl
      exact absurd bounds.2 (by decide)
    · rintro rfl
      exact absurd bounds.2 (by decide)
  · decide
  · decide
  · decide
  · decide

theorem digit_figure {letter : Char} (digit : letter.isDigit = true) : isFigure letter = true := by
  simp [isFigure, digit]

theorem to_digits_figures (value : Nat) :
    ∀ letter ∈ Nat.toDigits 10 value, isFigure letter = true := by
  intro letter listed
  exact digit_figure (Nat.isDigit_of_mem_toDigits (by decide) (by decide) listed)

theorem py_int_figures (value : Int) : ∀ letter ∈ pyInt value, isFigure letter = true := by
  cases value with
  | ofNat magnitude => exact to_digits_figures magnitude
  | negSucc magnitude =>
      intro letter listed
      rcases List.mem_cons.mp listed with rfl | digit
      · decide
      · exact to_digits_figures (magnitude + 1) letter digit

theorem optional_figures (value : Option Int) :
    ∀ letter ∈ formatOptional value, isFigure letter = true := by
  cases value with
  | none => exact List.all_eq_true.mp (by decide)
  | some value => exact py_int_figures value

theorem sign_figures (negative : Prop) [Decidable negative] :
    ∀ letter ∈ (if negative then ['-'] else []), isFigure letter = true := by
  split_ifs
  · simp [isFigure]
  · simp

theorem fixed_figures (value : Rat) : ∀ letter ∈ fixedTwo value, isFigure letter = true := by
  intro letter listed
  simp only [fixedTwo, List.mem_append, List.mem_cons] at listed
  rcases listed with ((sign | units) | rfl | tenths) | hundredths
  · exact sign_figures _ letter sign
  · exact to_digits_figures _ letter units
  · decide
  · exact to_digits_figures _ letter tenths
  · exact to_digits_figures _ letter hundredths

end Letters

section Numbers

theorem read_digits_to_digits (value : Nat) : readDigits (Nat.toDigits 10 value) = some value := by
  obtain ⟨nonempty, digits, valued⟩ := is_number_to_digits value
  have allDigits : (Nat.toDigits 10 value).all Char.isDigit = true := List.all_eq_true.mpr digits
  rw [readDigits, List.splitOn_eq_singleton (avoids_to_digits (by decide) value)]
  simp [nonempty, allDigits, valued]

theorem strip_figures (text : Text) (figures : ∀ letter ∈ text, isFigure letter = true) :
    strip text = text := by
  apply trimmed_of_no_blank
  intro letter listed
  exact (figure_solid (figures letter listed)).1

/-- What `str` wrote, `int` reads. -/
theorem read_int_py_int (value : Int) : readInt (pyInt value) = some value := by
  rw [readInt, strip_figures _ (py_int_figures value)]
  cases value with
  | ofNat magnitude =>
      have plain := number_starts_plain (is_number_to_digits magnitude)
      have unsigned : (Nat.toDigits 10 magnitude).head? ≠ some '+' := by
        intro plus
        exact avoids_to_digits (by decide) magnitude (List.mem_of_mem_head? plus)
      simp only [pyInt, if_neg plain, if_neg unsigned, read_digits_to_digits, Option.map_some]
  | negSucc magnitude =>
      simp only [pyInt, List.head?_cons, if_true, List.drop_succ_cons, List.drop_zero,
        read_digits_to_digits, Option.map_some]
      rfl

end Numbers

section Levels

theorem partition_append (separator : Char) (before after : Text) (absent : separator ∉ before) :
    partition separator (before ++ separator :: after) = (before, after) := by
  have kept : ∀ letter ∈ before, decide (letter ≠ separator) = true := by
    intro letter listed
    exact decide_eq_true fun same => absent (same ▸ listed)
  rw [partition, List.takeWhile_append_of_pos kept, List.dropWhile_append_of_pos kept]
  simp

theorem figures_avoid {text : Text} (figures : ∀ letter ∈ text, isFigure letter = true)
    {other : Char} (notFigure : isFigure other = false) : other ∉ text := by
  intro listed
  rw [figures other listed] at notFigure
  cases notFigure

theorem parse_token_level_text (level : PriceLevel) : parseToken (levelText level) = some level := by
  have apart := figures_avoid (py_int_figures level.1) (show isFigure '@' = false by decide)
  rw [parseToken, levelText, partition_append '@' _ _ apart]
  simp only [read_int_py_int]

theorem level_text_letters (level : PriceLevel) :
    ∀ letter ∈ levelText level, isFigure letter = true ∨ letter = '@' := by
  intro letter listed
  rcases List.mem_append.mp listed with price | rest
  · exact .inl (py_int_figures level.1 letter price)
  · rcases List.mem_cons.mp rest with isAt | size
    · exact .inr isAt
    · exact .inl (py_int_figures level.2 letter size)

theorem level_text_solid (level : PriceLevel) :
    ∀ letter ∈ levelText level,
      isPySpace letter = false ∧ isLineBreak letter = false ∧ letter ≠ 'b' := by
  intro letter listed
  rcases level_text_letters level letter listed with figure | rfl
  · have solid := figure_solid figure
    exact ⟨solid.1, solid.2.1, solid.2.2.2⟩
  · decide

theorem level_words (levels : List PriceLevel) :
    words isPySpace ((levels.map levelText).flatMap (' ' :: ·)) = levels.map levelText := by
  apply words_spaced isPySpace ' ' (by decide)
  · intro token listed
    obtain ⟨level, _, rfl⟩ := List.mem_map.mp listed
    exact List.append_ne_nil_of_right_ne_nil _ (List.cons_ne_nil _ _)
  · intro token listed
    obtain ⟨level, _, rfl⟩ := List.mem_map.mp listed
    intro letter inside
    exact (level_text_solid level letter inside).1

theorem parse_level_texts (levels : List PriceLevel) :
    (levels.map levelText).mapM parseToken = some levels := by
  induction levels with
  | nil => rfl
  | cons level rest ih =>
      rw [List.map_cons, List.mapM_cons, parse_token_level_text, ih]
      rfl

/-- The key of a line of levels, and what stands behind it: both labels end in their only
colon. -/
theorem top_line_parts (n : Nat) (stem : Text) (plain : ':' ∉ stem) (levels : List PriceLevel) :
    partition ':' (topLine n (stem ++ [':']) levels) =
      ("top_".toList ++ Nat.toDigits 10 n ++ stem, (levels.map levelText).flatMap (' ' :: ·)) := by
  have noColon : ':' ∉ "top_".toList ++ Nat.toDigits 10 n ++ stem := by
    have inDigits := figures_avoid (to_digits_figures n) (show isFigure ':' = false by decide)
    have inName : ':' ∉ "top_".toList := by decide
    simp only [List.mem_append, not_or]
    exact ⟨⟨inName, inDigits⟩, plain⟩
  have shape : topLine n (stem ++ [':']) levels =
      ("top_".toList ++ Nat.toDigits 10 n ++ stem) ++
        ':' :: (levels.map levelText).flatMap (' ' :: ·) := by
    simp only [top_line_eq, List.append_assoc, List.singleton_append]
  rw [shape, partition_append ':' _ _ noColon]

theorem read_levels_top_line (n : Nat) (stem : Text) (plain : ':' ∉ stem)
    (levels : List PriceLevel) :
    readLevels (topLine n (stem ++ [':']) levels) = some levels := by
  rw [readLevels, top_line_parts n stem plain]
  change (words isPySpace ((levels.map levelText).flatMap (' ' :: ·))).mapM parseToken = some levels
  rw [level_words]
  exact parse_level_texts levels

end Levels

section Lines

/-- A fixed text is checked letter by letter. -/
theorem unbroken_of_all {text : Text}
    (checked : text.all (fun letter => !isLineBreak letter) = true) :
    ∀ letter ∈ text, isLineBreak letter = false := by
  intro letter listed
  simpa using List.all_eq_true.mp checked letter listed

theorem starts_top_line (n : Nat) (label : Text) (levels : List PriceLevel) :
    startswith "top_".toList (topLine n label levels) = true := by
  rw [startswith, List.isPrefixOf_iff_prefix, top_line_eq, List.append_assoc, List.append_assoc]
  exact List.prefix_append _ _

theorem occurs_inside (before needle after : Text) :
    occursIn needle (before ++ needle ++ after) = true := by
  apply List.any_eq_true.mpr
  refine ⟨needle ++ after, ?_, ?_⟩
  · rw [List.mem_tails, List.append_assoc]
    exact List.suffix_append _ _
  · rw [List.isPrefixOf_iff_prefix]
    exact List.prefix_append _ _

/-- What occurs in a line brings its letters along. -/
theorem occurs_letters {needle line : Text} (occurs : occursIn needle line = true) :
    ∀ letter ∈ needle, letter ∈ line := by
  intro letter listed
  obtain ⟨tail, isTail, starts⟩ := List.any_eq_true.mp occurs
  rw [List.mem_tails] at isTail
  rw [List.isPrefixOf_iff_prefix] at starts
  exact isTail.subset (starts.subset listed)

theorem top_line_letters (n : Nat) (label : Text) (levels : List PriceLevel) (letter : Char)
    (listed : letter ∈ topLine n label levels) :
    letter ∈ "top_".toList ∨ letter ∈ label ∨ letter = ' ' ∨
      (isLineBreak letter = false ∧ letter ≠ 'b') := by
  simp only [top_line_eq, List.mem_append, List.mem_flatMap, List.mem_map, List.mem_cons] at listed
  rcases listed with ((name | digit) | inLabel) | ⟨token, ⟨level, _, rfl⟩, rfl | inside⟩
  · exact .inl name
  · have solid := figure_solid (to_digits_figures n letter digit)
    exact .inr (.inr (.inr ⟨solid.2.1, solid.2.2.2⟩))
  · exact .inr (.inl inLabel)
  · exact .inr (.inr (.inl rfl))
  · exact .inr (.inr (.inr (level_text_solid level letter inside).2))

theorem top_line_unbroken (n : Nat) (label : Text) (levels : List PriceLevel)
    (unbroken : ∀ letter ∈ label, isLineBreak letter = false) :
    ∀ letter ∈ topLine n label levels, isLineBreak letter = false := by
  intro letter listed
  have name : ∀ other ∈ "top_".toList, isLineBreak other = false := unbroken_of_all (by decide)
  rcases top_line_letters n label levels letter listed with inName | inLabel | rfl | solid
  · exact name letter inName
  · exact unbroken letter inLabel
  · decide
  · exact solid.1

/-- No `_bids:` in the line of asks: nothing in it holds the letter b. -/
theorem asks_line_no_bids (n : Nat) (levels : List PriceLevel) :
    occursIn "_bids:".toList (topLine n "_asks:".toList levels) = false := by
  rw [Bool.eq_false_iff]
  intro occurs
  have listed := occurs_letters occurs 'b' (by decide)
  rcases top_line_letters n _ levels 'b' listed with inName | inLabel | isSpace | solid
  · revert inName
    decide
  · revert inLabel
    decide
  · revert isSpace
    decide
  · exact solid.2 rfl

theorem read_bids_line (reading : ReplayReading) (n : Nat) (levels : List PriceLevel) :
    readLine reading (topLine n "_bids:".toList levels) = some { reading with bids := levels } := by
  have read := read_levels_top_line n "_bids".toList (by decide) levels
  have occurs := occurs_inside ("top_".toList ++ Nat.toDigits 10 n) "_bids:".toList
    ((levels.map levelText).flatMap (' ' :: ·))
  have both : (startswith "top_".toList (topLine n "_bids:".toList levels) &&
      occursIn "_bids:".toList (topLine n "_bids:".toList levels)) = true := by
    rw [starts_top_line, Bool.true_and]
    exact occurs
  rw [readLine, if_pos both]
  exact congrArg (Option.map fun bids => { reading with bids := bids }) read

theorem read_asks_line (reading : ReplayReading) (n : Nat) (levels : List PriceLevel) :
    readLine reading (topLine n "_asks:".toList levels) = some { reading with asks := levels } := by
  have read := read_levels_top_line n "_asks".toList (by decide) levels
  have occurs := occurs_inside ("top_".toList ++ Nat.toDigits 10 n) "_asks:".toList
    ((levels.map levelText).flatMap (' ' :: ·))
  have noBids : ¬(startswith "top_".toList (topLine n "_asks:".toList levels) &&
      occursIn "_bids:".toList (topLine n "_asks:".toList levels)) = true := by
    rw [asks_line_no_bids, Bool.and_false]
    exact Bool.false_ne_true
  have both : (startswith "top_".toList (topLine n "_asks:".toList levels) &&
      occursIn "_asks:".toList (topLine n "_asks:".toList levels)) = true := by
    rw [starts_top_line, Bool.true_and]
    exact occurs
  rw [readLine, if_neg noBids, if_pos both]
  exact congrArg (Option.map fun asks => { reading with asks := asks }) read

end Lines

section Fields

/-- What is checked of each label of the summary. -/
def quietLabel (label : Text) : Bool :=
  label.all (fun letter => !isLineBreak letter) && 4 ≤ label.length &&
    label.take 4 ≠ "top_".toList

theorem starts_label {label : Text} (quiet : quietLabel label = true) (rest : Text) :
    startswith "top_".toList (label ++ rest) = false := by
  simp only [quietLabel, Bool.and_eq_true, decide_eq_true_iff] at quiet
  rw [Bool.eq_false_iff, startswith, ne_eq, List.isPrefixOf_iff_prefix, List.prefix_iff_eq_take]
  intro starts
  have short : "top_".toList.length ≤ label.length := quiet.1.2
  rw [List.take_append_of_le_length short] at starts
  exact quiet.2 starts.symm

/-- What is checked of each label: both scripts take its line for a field. -/
def fieldLabel (label : Text) : Bool :=
  quietLabel label && label.all fun letter => letter != ':' && !isPySpace letter

theorem stream_labels (summary : ReplaySummary) :
    ∀ field ∈ streamFields summary, fieldLabel field.1 = true := by
  have labels : ((streamFields summary).map Prod.fst).all fieldLabel = true := by
    simp only [streamFields, List.map_cons, List.map_nil]
    decide +kernel
  intro field listed
  exact List.all_eq_true.mp labels field.1 (List.mem_map_of_mem listed)

theorem stream_labels_distinct (summary : ReplaySummary) :
    ((streamFields summary).map Prod.fst).Nodup := by
  simp only [streamFields, List.map_cons, List.map_nil]
  decide +kernel

theorem stream_figures (summary : ReplaySummary) :
    ∀ field ∈ streamFields summary, ∀ letter ∈ field.2, isFigure letter = true := by
  simp only [streamFields, List.forall_mem_cons]
  exact ⟨to_digits_figures _, to_digits_figures _, optional_figures _, optional_figures _,
    optional_figures _, py_int_figures _, py_int_figures _, to_digits_figures _,
    to_digits_figures _, fixed_figures _, fixed_figures _, fixed_figures _, fixed_figures _,
    fixed_figures _, by simp⟩

variable {label : Text}

theorem label_letters (isLabel : fieldLabel label = true) :
    ':' ∉ label ∧ ∀ letter ∈ label, isPySpace letter = false := by
  rw [fieldLabel, Bool.and_eq_true, List.all_eq_true] at isLabel
  constructor
  · intro listed
    have checked := isLabel.2 ':' listed
    simp at checked
  · intro letter listed
    have checked := isLabel.2 letter listed
    rw [Bool.and_eq_true, Bool.not_eq_true'] at checked
    exact checked.2

theorem label_quiet (isLabel : fieldLabel label = true) : quietLabel label = true := by
  rw [fieldLabel, Bool.and_eq_true] at isLabel
  exact isLabel.1

theorem occurs_colon (before after : Text) : occursIn ":".toList (before ++ ':' :: after) = true := by
  have inside := occurs_inside before ":".toList after
  rw [List.append_assoc] at inside
  exact inside

theorem field_line_eq (field : Text × Text) : fieldLine field = field.1 ++ ':' :: ' ' :: field.2 := by
  rw [fieldLine, List.append_assoc]
  rfl

theorem solid_of_all {text : Text} (checked : text.all (fun letter => !isPySpace letter) = true) :
    ∀ letter ∈ text, isPySpace letter = false := by
  intro letter listed
  simpa using List.all_eq_true.mp checked letter listed

theorem strip_value {value : Text} (figures : ∀ letter ∈ value, isFigure letter = true) :
    strip (' ' :: value) = value := by
  have blank : ∀ letter ∈ [' '], isPySpace letter = true := by
    intro letter listed
    rw [List.mem_singleton.mp listed]
    rfl
  have padded := trimmed_append_left isPySpace [' '] value blank
  exact padded.trans (strip_figures value figures)

theorem strip_label (isLabel : fieldLabel label = true) : strip label = label :=
  trimmed_of_no_blank isPySpace label (label_letters isLabel).2

variable (reading : ReplayReading) (field : Text × Text)

/-- The validator stores a field's value under its label. -/
theorem read_field_line (isLabel : fieldLabel field.1 = true)
    (figures : ∀ letter ∈ field.2, isFigure letter = true) :
    readLine reading (fieldLine field) =
      some { reading with summary := reading.summary.insert field.1 field.2 } := by
  have quiet := starts_label (label_quiet isLabel) (':' :: ' ' :: field.2)
  rw [field_line_eq, readLine, quiet]
  simp only [Bool.false_and, Bool.false_eq_true, if_false, occurs_colon, if_true,
    partition_append ':' _ _ (label_letters isLabel).1, strip_label isLabel, strip_value figures]

/-- A run of field lines goes into the table in its order. -/
theorem read_field_lines (read : ReplayReading → Text → Option ReplayReading)
    (readAll : ReplayReading → List Text → Option ReplayReading)
    (unfolds : ∀ reading line rest, readAll reading (line :: rest) =
      (read reading line).bind fun next => readAll next rest)
    (fields : List (Text × Text))
    (stores : ∀ field ∈ fields, ∀ reading, read reading (fieldLine field) =
      some { reading with summary := reading.summary.insert field.1 field.2 })
    (reading : ReplayReading) (rest : List Text) :
    readAll reading (fields.map fieldLine ++ rest) =
      readAll { reading with summary := reading.summary.insertMany fields } rest := by
  induction fields generalizing reading with
  | nil =>
      rw [ExtTreeMap.insertMany_nil]
      rfl
  | cons field later ih =>
      rw [List.forall_mem_cons] at stores
      rw [List.map_cons, List.cons_append, unfolds, stores.1 reading, Option.bind_some,
        ih stores.2, ExtTreeMap.insertMany_cons]

theorem read_title (reading : ReplayReading) :
    readLine reading "TickForge replay summary".toList = some reading := by
  have noLevels : startswith "top_".toList "TickForge replay summary".toList = false := by decide
  have noColon : occursIn ":".toList "TickForge replay summary".toList = false := by decide
  simp only [readLine, noLevels, noColon, Bool.false_and, Bool.false_eq_true, if_false]

end Fields

section Output

theorem newlines_kept (text : Text) (absent : '\r' ∉ text) : universalNewlines text = text := by
  fun_induction universalNewlines text with
  | case1 => rfl
  | case2 rest ih => exact absurd List.mem_cons_self absent
  | case3 letter rest other ih =>
      have notReturn : letter ≠ '\r' := fun same => absent (same ▸ List.mem_cons_self)
      rw [if_neg notReturn, ih fun listed => absent (List.mem_cons_of_mem letter listed)]

theorem printed_lines_found (lines : List Text)
    (unbroken : ∀ line ∈ lines, ∀ letter ∈ line, isLineBreak letter = false) :
    splitlines (universalNewlines (printLines lines)) = lines := by
  have noReturn : '\r' ∉ printLines lines := by
    intro listed
    obtain ⟨line, member, inside⟩ := List.mem_flatMap.mp listed
    rcases List.mem_append.mp inside with inLine | isEnd
    · have solid := unbroken line member _ inLine
      revert solid
      decide
    · revert isEnd
      decide
  rw [newlines_kept _ noReturn]
  exact lines_of_terminated isLineBreak '\n' (by decide) lines unbroken

/-- What the lines of the report say. -/
def reported (summary : ReplaySummary) (book : OrderBook) : ReplayReading where
  bids := topN book .buy 10
  asks := topN book .sell 10
  summary := (∅ : ExtTreeMap Text Text compare).insertMany (streamFields summary)

theorem stream_lines_found (summary : ReplaySummary) (book : OrderBook) :
    splitlines (universalNewlines (streamOutput summary book)) = streamLines summary book := by
  apply printed_lines_found
  rw [streamLines, List.cons_append, List.forall_mem_cons, List.forall_mem_append]
  refine ⟨unbroken_of_all (by decide), ?_, ?_⟩
  · intro line listed
    rcases List.mem_map.mp listed with ⟨field, member, rfl⟩
    have isLabel := label_quiet (stream_labels summary field member)
    rw [field_line_eq]
    intro letter inside
    rcases List.mem_append.mp inside with inLabel | behind
    · simp only [quietLabel, Bool.and_eq_true] at isLabel
      exact unbroken_of_all isLabel.1.1 letter inLabel
    · rcases List.mem_cons.mp behind with rfl | later
      · decide
      · rcases List.mem_cons.mp later with rfl | inValue
        · decide
        · exact (figure_solid (stream_figures summary field member letter inValue)).2.1
  · simp only [topLines, List.forall_mem_cons]
    exact ⟨top_line_unbroken 10 _ _ (unbroken_of_all (by decide)),
      top_line_unbroken 10 _ _ (unbroken_of_all (by decide)), by simp⟩

theorem replay_reads_stream (summary : ReplaySummary) (book : OrderBook) :
    replay (streamOutput summary book) = some (reported summary book) := by
  have stores : ∀ field ∈ streamFields summary, ∀ reading, readLine reading (fieldLine field) =
      some { reading with summary := reading.summary.insert field.1 field.2 } := by
    intro field listed reading
    exact read_field_line reading field (stream_labels summary field listed)
      (stream_figures summary field listed)
  have fields := read_field_lines readLine readLines (fun _ _ _ => rfl) _ stores {}
    (topLines book 10)
  rw [replay, stream_lines_found, streamLines, List.cons_append, readLines, read_title,
    Option.bind_some, fields, topLines, readLines, read_bids_line, Option.bind_some, readLines,
    read_asks_line]
  rfl

end Output

end TickForge.ReplayReport
