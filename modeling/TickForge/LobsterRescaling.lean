import TickForge.LobsterAdapterModel

/-!
# The same feed at two price scales

Two runs of the adapter over one message file and one orderbook row, at any
scale and at the default one, take the same branches: every decision reads sizes
and never a price. Message rows differ by the scale alone. Seed rows carry the
price of the orderbook row at every scale, so the two files agree up to scale
exactly while the scale moves no seeded level.
-/

namespace TickForge.LobsterRescaling

open Std (ExtTreeMap)
open KeyedTotals MarketEventModel OrderBookModel LobsterAdapterModel

set_option autoImplicit false

section Output

/-- The rows the file holds when the loop of `main` ends, also where a strict run
is aborted. -/
def emittedFrom (args : AdapterArgs) (skipFirstMessages : Int) :
    AdapterState → Nat → List MessageRow → List AdapterRow
  | state, _, [] => state.rows
  | state, lineNo, row :: rest =>
      match convertRow args skipFirstMessages state lineNo row with
      | .error _ => state.rows
      | .ok next => emittedFrom args skipFirstMessages next (lineNo + 1) rest

/-- The rows below the header once `main` is over. A refused orderbook row ends
it before any is written. -/
def emittedRows (args : AdapterArgs) (initialBook : Option BookFile) (rows : List MessageRow) :
    List AdapterRow :=
  match initialBook with
  | none => emittedFrom args 0 {} 1 rows
  | some file =>
      match readInitialBook file with
      | .error _ => []
      | .ok (seedBids, seedAsks) =>
          let asked := writeSeeds .sell {} args.seedIdBase seedAsks
          let seeded := writeSeeds .buy asked.1 asked.2 seedBids
          emittedFrom args 1 seeded.1 1 rows

end Output

section Messages

def rescaled (scale price : Int) : Int := (price * scale).fdiv 10000

def rescaledRow (scale : Int) (row : AdapterRow) : AdapterRow :=
  { row with price := rescaled scale row.price }

def defaultScale (args : AdapterArgs) : AdapterArgs := { args with priceScale := 10000 }

theorem rescaled_default (price : Int) : rescaled 10000 price = price := by
  exact Int.mul_fdiv_cancel price (by decide)

/-- The scale leaves a price alone when what it adds is less than one unit. -/
theorem rescaled_fixed_iff (scale price : Int) :
    rescaled scale price = price ↔
      0 ≤ price * (scale - 10000) ∧ price * (scale - 10000) < 10000 := by
  rw [rescaled, Int.fdiv_eq_ediv_of_nonneg _ (by decide), Int.mul_sub]
  omega

theorem message_price_rescaled (args : AdapterArgs) (message : Message) :
    messagePrice args message = rescaled args.priceScale message.price := by
  unfold messagePrice
  split_ifs with moved
  · rfl
  · rw [not_not.mp moved, rescaled_default]

theorem default_message_price (args : AdapterArgs) (message : Message) :
    messagePrice (defaultScale args) message = message.price := by
  rw [message_price_rescaled]
  exact rescaled_default message.price

/-- Two active tables know the same ids with the same sizes. -/
def SameSizes (left right : ActiveTable) : Prop :=
  ∀ orderId : Nat, left[orderId]?.map ActiveOrder.size = right[orderId]?.map ActiveOrder.size

theorem same_sizes_insert {left right : ActiveTable} (same : SameSizes left right) (orderId : Nat)
    (kept other : ActiveOrder) (size : kept.size = other.size) :
    SameSizes (left.insert orderId kept) (right.insert orderId other) := by
  intro looked
  rw [lookup_insert, lookup_insert]
  split_ifs
  · exact congrArg some size
  · exact same looked

theorem same_sizes_erase {left right : ActiveTable} (same : SameSizes left right) (orderId : Nat) :
    SameSizes (left.erase orderId) (right.erase orderId) := by
  intro looked
  rw [lookup_erase, lookup_erase]
  split_ifs
  · rfl
  · exact same looked

/-- What two conversions of one message have in common at different scales. -/
structure SameBranch (left right : Conversion) : Prop where
  type : left.tfType = right.tfType
  quantity : left.tfQty = right.tfQty
  active : SameSizes left.active right.active

/-- Both runs skip the message or both take the same branch. -/
def SameConversions (left right : Option Conversion) : Prop :=
  (left = none ∧ right = none) ∨
    ∃ kept other, left = some kept ∧ right = some other ∧ SameBranch kept other

theorem same_branch {type : EventType} {quantity : Int} {left right : ActiveTable}
    (counted : Option Text) (same : SameSizes left right) :
    SameConversions (some ⟨type, quantity, left, counted⟩)
      (some ⟨type, quantity, right, counted⟩) :=
  .inr ⟨_, _, rfl, rfl, rfl, rfl, same⟩

theorem same_sizes_lookup {left right : ActiveTable} (same : SameSizes left right) (orderId : Nat) :
    (left[orderId]? = none ∧ right[orderId]? = none) ∨
      ∃ kept other, left[orderId]? = some kept ∧ right[orderId]? = some other ∧
        kept.size = other.size := by
  have sizes := same orderId
  cases found : left[orderId]? with
  | none =>
      rw [found, Option.map_none] at sizes
      exact .inl ⟨rfl, Option.map_eq_none_iff.mp sizes.symm⟩
  | some kept =>
      rw [found, Option.map_some] at sizes
      obtain ⟨other, stored, size⟩ := Option.map_eq_some_iff.mp sizes.symm
      exact .inr ⟨kept, other, rfl, stored, size.symm⟩

/-- No branch of the conversion looks at a price. -/
theorem conversions_agree (left right : AdapterArgs) {kept other : ActiveTable}
    (same : SameSizes kept other) (message : Message) :
    SameConversions (convertMessage left kept message) (convertMessage right other message) := by
  unfold convertMessage
  rcases same_sizes_lookup same message.orderId with ⟨absent, alsoAbsent⟩ |
    ⟨order, twin, stored, alsoStored, size⟩
  · simp only [absent, alsoAbsent]
    split_ifs
    · exact same_branch none (same_sizes_insert same _ _ _ rfl)
    · exact same_branch _ same
    · exact same_branch none (same_sizes_erase same _)
    · exact same_branch none same
    · exact .inl ⟨rfl, rfl⟩
  · simp only [stored, alsoStored, size]
    split_ifs
    · exact same_branch none (same_sizes_insert same _ _ _ rfl)
    · exact same_branch none (same_sizes_erase same _)
    · exact same_branch none (same_sizes_insert same _ _ _ rfl)
    · exact same_branch none (same_sizes_erase same _)
    · exact same_branch none (same_sizes_erase same _)
    · exact same_branch none (same_sizes_insert same _ _ _ rfl)
    · exact .inl ⟨rfl, rfl⟩

end Messages

section Runs

variable {seeds : List AdapterRow} {args : AdapterArgs} {state base : AdapterState}

/-- The run at the scale of `args` beside the run at the default scale: the rows
below the seeds differ by the scale, the active orders by their prices. -/
structure Rescales (seeds : List AdapterRow) (scale : Int) (state base : AdapterState) : Prop where
  rows : ∃ below, base.rows = seeds ++ below ∧
    state.rows = seeds ++ below.map (rescaledRow scale)
  active : SameSizes state.active base.active
  index : state.msgIndex = base.msgIndex

/-- Both runs abort on a row or both go on. -/
def SameOutcome (seeds : List AdapterRow) (scale : Int) (left right : Except Text AdapterState) :
    Prop :=
  (∃ reason, left = .error reason ∧ right = .error reason) ∨
    ∃ next other, left = .ok next ∧ right = .ok other ∧ Rescales seeds scale next other

theorem write_message_rescales (rescales : Rescales seeds args.priceScale state base)
    (message : Message) :
    Rescales seeds args.priceScale (writeMessage args state message)
      (writeMessage (defaultScale args) base message) := by
  obtain ⟨below, baseRows, stateRows⟩ := rescales.rows
  have index : (writeMessage args state message).msgIndex =
      (writeMessage (defaultScale args) base message).msgIndex := by
    rw [write_message_index, write_message_index]
    exact rescales.index
  rcases conversions_agree args (defaultScale args) rescales.active message with
    ⟨skips, alsoSkips⟩ | ⟨kept, other, converts, alsoConverts, same⟩
  · obtain ⟨rows, active⟩ := write_message_skipped args state message skips
    obtain ⟨otherRows, otherActive⟩ :=
      write_message_skipped (defaultScale args) base message alsoSkips
    refine ⟨⟨below, ?_, ?_⟩, ?_, index⟩
    · rw [otherRows, baseRows]
    · rw [rows, stateRows]
    · rw [active, otherActive]
      exact rescales.active
  · obtain ⟨rows, active⟩ := write_message_converted args state message kept converts
    obtain ⟨otherRows, otherActive⟩ :=
      write_message_converted (defaultScale args) base message other alsoConverts
    have scaledRow : messageRow args message kept =
        rescaledRow args.priceScale (messageRow (defaultScale args) message other) := by
      have price : rescaled args.priceScale (messagePrice (defaultScale args) message) =
          messagePrice args message := by
        rw [default_message_price, message_price_rescaled]
      simp only [messageRow, rescaledRow, price, same.type, same.quantity]
      rfl
    refine ⟨⟨below ++ [messageRow (defaultScale args) message other], ?_, ?_⟩, ?_, index⟩
    · rw [otherRows, baseRows, List.append_assoc]
    · rw [rows, stateRows, scaledRow, List.map_append, List.map_singleton, List.append_assoc]
    · rw [active, otherActive]
      exact same.active

theorem reject_row_rescales (rescales : Rescales seeds args.priceScale state base) (lineNo : Nat)
    (key reason : Text) :
    SameOutcome seeds args.priceScale (rejectRow args state lineNo key reason)
      (rejectRow (defaultScale args) base lineNo key reason) := by
  unfold rejectRow
  cases strict : args.strict with
  | true =>
      have alsoStrict : (defaultScale args).strict = true := strict
      rw [if_pos rfl, if_pos alsoStrict]
      exact .inl ⟨_, rfl, rfl⟩
  | false =>
      have alsoLenient : ¬(defaultScale args).strict = true := by
        rw [defaultScale, strict]
        exact Bool.false_ne_true
      rw [if_neg Bool.false_ne_true, if_neg alsoLenient]
      exact .inr ⟨_, _, rfl, rfl, rescales.rows, rescales.active, rescales.index⟩

/-- The step of the two runs. -/
theorem convert_row_rescales (skipFirstMessages : Int)
    (rescales : Rescales seeds args.priceScale state base) (lineNo : Nat) (row : MessageRow) :
    SameOutcome seeds args.priceScale (convertRow args skipFirstMessages state lineNo row)
      (convertRow (defaultScale args) skipFirstMessages base lineNo row) := by
  have reached : Rescales seeds args.priceScale { state with msgIndex := state.msgIndex + 1 }
      { base with msgIndex := base.msgIndex + 1 } :=
    ⟨rescales.rows, rescales.active, congrArg (· + 1) rescales.index⟩
  unfold convertRow
  by_cases isBlank : row = .blank
  · rw [if_pos isBlank, if_pos isBlank]
    exact .inr ⟨state, base, rfl, rfl, rescales⟩
  · rw [if_neg isBlank, if_neg isBlank]
    simp only [rescales.index]
    rw [rescales.index] at reached
    split_ifs with passedOver
    · exact .inr ⟨_, _, rfl, rfl, reached⟩
    · cases row with
      | blank => exact absurd rfl isBlank
      | short columns => exact reject_row_rescales reached lineNo _ _
      | infiniteTime => exact .inl ⟨_, rfl, rfl⟩
      | unparsable reason => exact reject_row_rescales reached lineNo _ _
      | message message => exact .inr ⟨_, _, rfl, rfl, write_message_rescales reached message⟩

/-- The run of the two runs, aborted or not. -/
theorem emitted_from_rescales (skipFirstMessages : Int)
    (rescales : Rescales seeds args.priceScale state base) (lineNo : Nat)
    (rows : List MessageRow) :
    ∃ below, emittedFrom (defaultScale args) skipFirstMessages base lineNo rows = seeds ++ below ∧
      emittedFrom args skipFirstMessages state lineNo rows =
        seeds ++ below.map (rescaledRow args.priceScale) := by
  induction rows generalizing state base lineNo with
  | nil => exact rescales.rows
  | cons row rest ih =>
      rw [emittedFrom, emittedFrom]
      rcases convert_row_rescales skipFirstMessages rescales lineNo row with
        ⟨reason, aborted, alsoAborted⟩ | ⟨next, other, stepped, alsoStepped, stillRescales⟩
      · rw [aborted, alsoAborted]
        exact rescales.rows
      · rw [stepped, alsoStepped]
        exact ih stillRescales (lineNo + 1)

end Runs

section Files

/-- The rows written for an accepted orderbook row, the same at every scale. -/
def fileSeeds (args : AdapterArgs) (bids asks : List PriceLevel) : List AdapterRow :=
  seedRows .sell args.seedIdBase asks ++ seedRows .buy (args.seedIdBase + asks.length) bids

theorem emitted_rows_split (args : AdapterArgs) (file : BookFile) (rows : List MessageRow)
    (bids asks : List PriceLevel) (read : readInitialBook file = .ok (bids, asks)) :
    ∃ below, emittedRows (defaultScale args) (some file) rows = fileSeeds args bids asks ++ below ∧
      emittedRows args (some file) rows =
        fileSeeds args bids asks ++ below.map (rescaledRow args.priceScale) := by
  have started : Rescales (fileSeeds args bids asks) args.priceScale
      { rows := fileSeeds args bids asks, nSeeded := asks.length + bids.length }
      { rows := fileSeeds args bids asks, nSeeded := asks.length + bids.length } :=
    ⟨⟨[], (List.append_nil _).symm, (List.append_nil _).symm⟩, fun _ => rfl, rfl⟩
  obtain ⟨below, baseRows, scaledRows⟩ := emitted_from_rescales 1 started 1 rows
  refine ⟨below, ?_, ?_⟩
  · simp only [emittedRows, read, write_seeds_eq, List.nil_append, zero_add]
    exact baseRows
  · simp only [emittedRows, read, write_seeds_eq, List.nil_append, zero_add]
    exact scaledRows

theorem seed_rows_fixed_iff (scale : Int) (side : Side) (seedId : Nat) (levels : List PriceLevel) :
    (seedRows side seedId levels).map (rescaledRow scale) = seedRows side seedId levels ↔
      ∀ level ∈ levels, rescaled scale level.1 = level.1 := by
  induction levels generalizing seedId with
  | nil => simp [seedRows]
  | cons level rest ih =>
      have sameRow : rescaledRow scale (seedRow seedId side level) = seedRow seedId side level ↔
          rescaled scale level.1 = level.1 := by
        simp [rescaledRow, seedRow]
      rw [seedRows, List.map_cons, List.cons.injEq, ih, sameRow, List.forall_mem_cons]

theorem file_seeds_fixed_iff (args : AdapterArgs) (bids asks : List PriceLevel) (scale : Int) :
    (fileSeeds args bids asks).map (rescaledRow scale) = fileSeeds args bids asks ↔
      ∀ level ∈ bids ++ asks, rescaled scale level.1 = level.1 := by
  rw [fileSeeds, List.map_append, List.forall_mem_append,
    ← seed_rows_fixed_iff scale .sell args.seedIdBase asks,
    ← seed_rows_fixed_iff scale .buy (args.seedIdBase + asks.length) bids]
  constructor
  · intro same
    exact (List.append_inj same (List.length_map _)).symm
  · rintro ⟨bidsFixed, asksFixed⟩
    rw [asksFixed, bidsFixed]

/-- The scale moves none of the levels the orderbook row keeps, or the row is
refused. -/
def KeptLevelsFixed (args : AdapterArgs) (file : BookFile) : Prop :=
  ∀ bids asks, readInitialBook file = .ok (bids, asks) → ∀ level ∈ bids ++ asks,
    0 ≤ level.1 * (args.priceScale - 10000) ∧ level.1 * (args.priceScale - 10000) < 10000

/-- The file at the given scale is the file at the default scale with every price
rescaled, and a message at a seeded LOBSTER price addresses the seed's level. -/
structure ScalesUniformly (args : AdapterArgs) (file : BookFile) (rows : List MessageRow) :
    Prop where
  rows : emittedRows args (some file) rows =
    (emittedRows (defaultScale args) (some file) rows).map (rescaledRow args.priceScale)
  meets : ∀ bids asks, readInitialBook file = .ok (bids, asks) →
    ∀ level ∈ bids ++ asks, ∀ (seedId : Nat) (side : Side) (message : Message),
      message.price = level.1 → messagePrice args message = (seedRow seedId side level).price

theorem rows_rescaled_iff (args : AdapterArgs) (file : BookFile) (rows : List MessageRow) :
    emittedRows args (some file) rows =
        (emittedRows (defaultScale args) (some file) rows).map (rescaledRow args.priceScale) ↔
      KeptLevelsFixed args file := by
  cases read : readInitialBook file with
  | error reason =>
      have refused : KeptLevelsFixed args file := by
        intro bids asks accepted
        rw [read] at accepted
        cases accepted
      simp only [emittedRows, read, List.map_nil, true_iff]
      exact refused
  | ok levels =>
      obtain ⟨bids, asks⟩ := levels
      obtain ⟨below, baseRows, scaledRows⟩ := emitted_rows_split args file rows bids asks read
      rw [baseRows, scaledRows, List.map_append, List.append_cancel_right_eq, eq_comm,
        file_seeds_fixed_iff]
      simp only [rescaled_fixed_iff]
      constructor
      · intro fixed otherBids otherAsks alsoRead
        rw [read] at alsoRead
        cases alsoRead
        exact fixed
      · intro fixed
        exact fixed bids asks read

/-- Rescaling is uniform exactly while it leaves the seeded prices alone: seed
rows carry the orderbook row's prices at every scale. -/
theorem scales_uniformly_iff (args : AdapterArgs) (file : BookFile) (rows : List MessageRow) :
    ScalesUniformly args file rows ↔ KeptLevelsFixed args file := by
  constructor
  · intro uniform
    exact (rows_rescaled_iff args file rows).mp uniform.rows
  · intro fixed
    refine ⟨(rows_rescaled_iff args file rows).mpr fixed, ?_⟩
    intro bids asks read level kept seedId side message samePrice
    rw [message_price_rescaled, samePrice]
    exact (rescaled_fixed_iff args.priceScale level.1).mpr (fixed bids asks read level kept)

/-- At scale 20000 a deletion of the seeded ask at 10000 is written for 20000. -/
theorem doubled_scale_misses_seed :
    ¬ScalesUniformly { priceScale := 20000 } ⟨[], some [10000, 5, -9999999999, 0]⟩
      [.message { type := 1, orderId := 1, size := 5, price := 10000, direction := -1 },
        .message { type := 3, orderId := 1, size := 5, price := 10000, direction := -1 }] := by
  intro uniform
  exact absurd uniform.rows (by decide)

end Files

end TickForge.LobsterRescaling
