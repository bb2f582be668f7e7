import Mathlib.Data.List.Forall2
import StockImport.Csv.Records

/-!
# Record assembly

Where the boundaries of the records lie, which the text alone decides, and how much of
a record `parts` holds while it is put together.
-/

set_option autoImplicit false

namespace StockImport.Csv

open PyText CsvReader

/-! ## Boundaries -/

/-- The flags after characters of which none ends the record. -/
def Flags.run : Flags → Text → Option Flags
  | flags, [] => some flags
  | flags, c :: rest => (flags.step c).bind (·.run rest)

theorem Flags.run_snoc {flags middle : Flags} {text : Text} (c : Nat)
    (ran : flags.run text = some middle) : flags.run (text ++ [c]) = middle.step c := by
  induction text generalizing flags with
  | nil =>
      cases ran
      simp [Flags.run]
  | cons d rest ih =>
      obtain ⟨next, step, later⟩ := Option.bind_eq_some_iff.mp ran
      rw [List.cons_append, Flags.run, step]
      exact ih later

/-- A text and its records: each ends at the first character that ends a record, the
last where the text ends, and an LF after a record that a CR has ended belongs to none. -/
inductive CutAtBoundaries : Text → List Text → Prop
  | nil : CutAtBoundaries [] []
  | last {record : Text} {flags : Flags} :
      record ≠ [] → Flags.start.run record = some flags → CutAtBoundaries record [record]
  | boundary {own rest : Text} {flags : Flags} {c : Nat} {records : List Text} :
      Flags.start.run own = some flags → flags.step c = none → ¬ (c = CR ∧ rest.head? = some LF) →
      CutAtBoundaries rest records → CutAtBoundaries (own ++ c :: rest) ((own ++ [c]) :: records)
  | paired {own rest : Text} {flags : Flags} {records : List Text} :
      Flags.start.run own = some flags → flags.step CR = none → CutAtBoundaries rest records →
      CutAtBoundaries (own ++ CR :: LF :: rest) ((own ++ [CR]) :: records)

/-- A text without the LF that a CR before it has taken along. -/
def withoutPairedLf (skipLf : Bool) (text : Text) : Text :=
  if skipLf = true ∧ text.head? = some LF then text.tail else text

theorem recordsFrom_cut (text : Text) {skipLf : Bool} {flags : Flags} {sofar : Text}
    (ran : Flags.start.run sofar = some flags) (skipping : skipLf = true → sofar = []) :
    CutAtBoundaries (sofar ++ withoutPairedLf skipLf text)
      (recordsFrom skipLf flags sofar text) := by
  induction text generalizing skipLf flags sofar with
  | nil =>
      have rest : withoutPairedLf skipLf [] = [] := by simp [withoutPairedLf]
      rw [rest, List.append_nil, recordsFrom]
      split
      · next empty =>
          subst empty
          exact .nil
      · next some => exact .last some ran
  | cons c rest ih =>
      rw [recordsFrom]
      by_cases skips : skipLf = true ∧ c = LF
      · rw [if_pos skips]
        have dropped : withoutPairedLf skipLf (c :: rest) = withoutPairedLf false rest := by
          simp [withoutPairedLf, skips.1, skips.2]
        rw [dropped]
        exact ih ran fun impossible => Bool.noConfusion impossible
      · rw [if_neg skips]
        have kept : withoutPairedLf skipLf (c :: rest) = c :: rest := by
          simpa [withoutPairedLf] using skips
        rw [kept]
        cases step : flags.step c with
        | none =>
            have start : Flags.start.run [] = some .start := rfl
            have later : CutAtBoundaries ([] ++ withoutPairedLf (c == CR) rest)
                (recordsFrom (c == CR) .start [] rest) := ih start fun _ => rfl
            rw [List.nil_append] at later
            by_cases takes : c = CR ∧ rest.head? = some LF
            · obtain ⟨rfl, isLf⟩ := takes
              obtain ⟨rest, rfl⟩ := List.head?_eq_some_iff.mp isLf
              exact .paired ran step later
            · have whole : withoutPairedLf (c == CR) rest = rest := by
                refine if_neg fun paired => takes ⟨?_, paired.2⟩
                exact beq_iff_eq.mp paired.1
              rw [whole] at later
              exact .boundary ran step takes later
        | some next =>
            have more : Flags.start.run (sofar ++ [c]) = some next :=
              (Flags.run_snoc c ran).trans step
            have later : CutAtBoundaries (sofar ++ [c] ++ withoutPairedLf false rest)
                (recordsFrom false next (sofar ++ [c]) rest) :=
              ih more fun impossible => Bool.noConfusion impossible
            rw [List.append_assoc] at later
            exact later

/-- The records of a text lie between its boundaries. -/
theorem logicalRecords_cut (text : Text) : CutAtBoundaries text (logicalRecords text) := by
  have start : Flags.start.run [] = some .start := rfl
  have cut : CutAtBoundaries ([] ++ withoutPairedLf false text) (logicalRecords text) :=
    recordsFrom_cut text start fun _ => rfl
  exact cut

/-! ## What is held -/

/-- The values that `parts` takes in `append_piece`, in their order. -/
def appendPieceParts (limits : RecordLimits) (st : SplitState) (piece : Text) : List (List Text) :=
  if piece = [] ∨ st.truncated = true then []
  else
    let remaining := limits.maxRecordChars - st.storedChars
    if piece.length ≤ remaining then [st.parts ++ [piece]]
    else
      let parts := if 0 < remaining then st.parts ++ [piece.take remaining] else st.parts
      [parts, [parts.flatten.take limits.previewChars]]

/-- The values that `parts` takes in one block. -/
def scanBlockParts (limits : RecordLimits) (chunk : Text) :
    (index : Nat) → (rest : Text) → (segmentStart countedStart : Nat) → SplitState →
      List (List Text)
  | _, [], segmentStart, countedStart, st =>
      let trailingChars := chunk.length - countedStart
      let st := if trailingChars = 0 then st
        else countNormal { st with skipLfAfterCr := false } trailingChars
      appendPieceParts limits st (chunk.drop segmentStart)
  | index, c :: rest, segmentStart, countedStart, st =>
      if isSpecial c = false then
        scanBlockParts limits chunk (index + 1) rest segmentStart countedStart st
      else if st.skipLfAfterCr = true ∧ index = segmentStart ∧ c = LF then
        scanBlockParts limits chunk (index + 1) rest (index + 1) (index + 1)
          { st with skipLfAfterCr := false }
      else
        let processed := processSpecial (countUpTo st (index - countedStart)) c
        if processed.2 then
          appendPieceParts limits processed.1 ((chunk.take (index + 1)).drop segmentStart) ++
            [] :: scanBlockParts limits chunk (index + 1) rest (index + 1) (index + 1)
              { SplitState.start with skipLfAfterCr := c == CR }
        else scanBlockParts limits chunk (index + 1) rest segmentStart (index + 1) processed.1

def heldFrom (limits : RecordLimits) : SplitState → List Text → List (List Text)
  | _, [] => []
  | st, chunk :: rest =>
      if chunk = [] then []
      else scanBlockParts limits chunk 0 chunk 0 0 st ++
        heldFrom limits (splitBlock limits st chunk).1 rest

/-- Every value of `parts` in `_iter_logical_records`, in their order. -/
def heldParts (limits : RecordLimits) (blocks : List Text) : List (List Text) :=
  [] :: heldFrom limits .start blocks

/-- `stored_chars` counts what `parts` holds. -/
structure Bounded (limits : RecordLimits) (st : SplitState) : Prop where
  counts : st.storedChars = st.parts.flatten.length
  bound : st.storedChars ≤ limits.maxRecordChars

theorem Bounded.start (limits : RecordLimits) (skipLf : Bool) :
    Bounded limits { SplitState.start with skipLfAfterCr := skipLf } :=
  ⟨rfl, Nat.zero_le _⟩

theorem Bounded.of_same {limits : RecordLimits} {st other : SplitState}
    (bounded : Bounded limits st) (parts : other.parts = st.parts)
    (stored : other.storedChars = st.storedChars) : Bounded limits other :=
  ⟨by rw [parts, stored, bounded.counts], stored ▸ bounded.bound⟩

theorem appendPiece_bounded {limits : RecordLimits} {st : SplitState} (piece : Text)
    (bounded : Bounded limits st) :
    Bounded limits (appendPiece limits st piece) ∧
      ∀ parts ∈ appendPieceParts limits st piece, parts.flatten.length ≤ limits.maxRecordChars := by
  obtain ⟨counts, bound⟩ := bounded
  unfold appendPiece appendPieceParts
  split
  · exact ⟨⟨counts, bound⟩, fun _ none => nomatch none⟩
  · dsimp only
    split
    · next fits =>
        have total : (st.parts ++ [piece]).flatten.length = st.storedChars + piece.length := by
          simp [counts]
        have within : st.storedChars + piece.length ≤ limits.maxRecordChars := by omega
        refine ⟨⟨total.symm, within⟩, fun parts member => ?_⟩
        rw [List.mem_singleton.mp member, total]
        exact within
    · have kept : (if 0 < limits.maxRecordChars - st.storedChars then
          st.parts ++ [piece.take (limits.maxRecordChars - st.storedChars)]
          else st.parts).flatten.length ≤ limits.maxRecordChars := by
        split
        · simp only [List.flatten_append, List.length_append, List.flatten_cons, List.flatten_nil,
            List.append_nil, List.length_take, ← counts]
          omega
        · omega
      generalize (if 0 < limits.maxRecordChars - st.storedChars then
          st.parts ++ [piece.take (limits.maxRecordChars - st.storedChars)]
          else st.parts) = parts at kept ⊢
      have shorter : (parts.flatten.take limits.previewChars).length ≤ limits.maxRecordChars := by
        rw [List.length_take]
        omega
      refine ⟨⟨by simp, shorter⟩, fun held member => ?_⟩
      rw [List.mem_cons, List.mem_singleton] at member
      rcases member with rfl | rfl
      · exact kept
      · simpa using shorter

theorem countNormal_kept (st : SplitState) (n : Nat) :
    (countNormal st n).parts = st.parts ∧ (countNormal st n).storedChars = st.storedChars := by
  unfold countNormal
  dsimp only
  split
  · exact ⟨rfl, rfl⟩
  · split <;> split <;> exact ⟨rfl, rfl⟩

theorem processUnquoted_kept (st : SplitState) (c : Nat) :
    (processUnquoted st c).1.parts = st.parts ∧
      (processUnquoted st c).1.storedChars = st.storedChars := by
  unfold processUnquoted
  split
  · exact ⟨rfl, rfl⟩
  · split
    · exact ⟨rfl, rfl⟩
    · split <;> exact ⟨rfl, rfl⟩

theorem processSpecial_kept (st : SplitState) (c : Nat) :
    (processSpecial st c).1.parts = st.parts ∧
      (processSpecial st c).1.storedChars = st.storedChars := by
  unfold processSpecial
  split
  · split
    · split
      · exact ⟨rfl, rfl⟩
      · exact processUnquoted_kept _ c
    · split <;> exact ⟨rfl, rfl⟩
  · exact processUnquoted_kept st c

/-- What a special character leaves of the pieces held. -/
theorem Bounded.special {limits : RecordLimits} {st : SplitState} (bounded : Bounded limits st)
    (n c : Nat) : Bounded limits (processSpecial (countUpTo st n) c).1 := by
  obtain ⟨parts, stored⟩ := countNormal_kept { st with skipLfAfterCr := false } n
  obtain ⟨parts', stored'⟩ := processSpecial_kept (countUpTo st n) c
  exact bounded.of_same (parts'.trans parts) (stored'.trans stored)

theorem scanBlock_bounded (limits : RecordLimits) (chunk : Text) :
    ∀ (rest : Text) (index segmentStart countedStart : Nat) (st : SplitState),
      Bounded limits st →
      Bounded limits (scanBlock limits chunk index rest segmentStart countedStart st).1 ∧
        ∀ parts ∈ scanBlockParts limits chunk index rest segmentStart countedStart st,
          parts.flatten.length ≤ limits.maxRecordChars := by
  intro rest
  induction rest with
  | nil =>
      intro index segmentStart countedStart st bounded
      simp only [scanBlock, scanBlockParts]
      split
      · exact appendPiece_bounded _ bounded
      · obtain ⟨parts, stored⟩ := countNormal_kept { st with skipLfAfterCr := false }
          (chunk.length - countedStart)
        exact appendPiece_bounded _ (bounded.of_same parts stored)
  | cons c rest ih =>
      intro index segmentStart countedStart st bounded
      rw [scanBlock, scanBlockParts]
      split
      · exact ih _ _ _ st bounded
      · split
        · exact ih _ _ _ _ (bounded.of_same rfl rfl)
        · dsimp only
          have special := bounded.special (index - countedStart) c
          split
          · -- the record ends: its last piece, and `parts` is empty again
            obtain ⟨later, held⟩ := ih (index + 1) (index + 1) (index + 1)
              { SplitState.start with skipLfAfterCr := c == CR } (.start limits _)
            refine ⟨later, fun parts member => ?_⟩
            rw [List.mem_append, List.mem_cons] at member
            rcases member with piece | rfl | after
            · exact (appendPiece_bounded _ special).2 parts piece
            · exact Nat.zero_le _
            · exact held parts after
          · exact ih _ _ _ _ special

theorem heldFrom_bounded (limits : RecordLimits) : ∀ (blocks : List Text) (st : SplitState),
    Bounded limits st →
      ∀ parts ∈ heldFrom limits st blocks, parts.flatten.length ≤ limits.maxRecordChars := by
  intro blocks
  induction blocks with
  | nil => exact fun _ _ _ none => nomatch none
  | cons block rest ih =>
      intro st bounded parts member
      rw [heldFrom] at member
      split at member
      · cases member
      · obtain ⟨after, held⟩ := scanBlock_bounded limits block block 0 0 0 st bounded
        rw [List.mem_append] at member
        exact member.elim (held parts) (ih _ after parts)

theorem heldParts_bounded (limits : RecordLimits) (blocks : List Text) :
    ∀ parts ∈ heldParts limits blocks, parts.flatten.length ≤ limits.maxRecordChars := by
  intro parts member
  rcases List.mem_cons.mp member with rfl | later
  · exact Nat.zero_le _
  · exact heldFrom_bounded limits blocks .start (.start limits false) parts later

/-- The trace of a block ends with what the state after it holds. -/
theorem scanBlockParts_last (limits : RecordLimits) (chunk : Text) :
    ∀ (rest : Text) (index segmentStart countedStart : Nat) (st : SplitState),
      (scanBlockParts limits chunk index rest segmentStart countedStart st).getLast?.getD st.parts =
        (scanBlock limits chunk index rest segmentStart countedStart st).1.parts := by
  have piece_last : ∀ (st : SplitState) (piece : Text),
      (appendPieceParts limits st piece).getLast?.getD st.parts =
        (appendPiece limits st piece).parts := by
    intro st piece
    unfold appendPieceParts appendPiece
    split
    · rfl
    · dsimp only
      split <;> rfl
  intro rest
  induction rest with
  | nil =>
      intro index segmentStart countedStart st
      simp only [scanBlock, scanBlockParts]
      split
      · exact piece_last _ _
      · rw [← piece_last, (countNormal_kept _ _).1]
  | cons c rest ih =>
      intro index segmentStart countedStart st
      rw [scanBlock, scanBlockParts]
      split
      · exact ih _ _ _ st
      · split
        · exact ih _ _ _ { st with skipLfAfterCr := false }
        · dsimp only
          split
          · rw [← ih, List.getLast?_append, List.getLast?_cons]
            rfl
          · rw [← ih, (processSpecial_kept _ _).1]
            exact congrArg _ (countNormal_kept { st with skipLfAfterCr := false } _).1.symm

/-! ## Assembly -/

/-- One way in which the text arrives in blocks. -/
structure Partition (text : Text) where
  blocks : List Text
  nonempty : ∀ block ∈ blocks, block ≠ []
  joined : blocks.flatten = text

/-- A record as it is yielded: its characters counted, its text kept or cut. -/
structure Yields (limits : RecordLimits) (record : Text) (out : LogicalCsvRecord) : Prop where
  charCount : out.charCount = record.length
  truncated : out.truncated = true ↔ limits.maxRecordChars < out.charCount
  whole : out.truncated = false → out.text = record
  preview : out.truncated = true →
    out.text = record.take (min limits.previewChars limits.maxRecordChars)

theorem boundRecord_yields (limits : RecordLimits) (record : Text) :
    Yields limits record (boundRecord limits record) where
  charCount := rfl
  truncated := by simp [boundRecord]
  whole := by
    intro whole
    exact boundRecord_text (by simpa [boundRecord] using whole)
  preview := by
    intro cut
    have long : limits.maxRecordChars < record.length := by simpa [boundRecord] using cut
    simp only [boundRecord, if_neg (Nat.not_le_of_lt long)]

/-- What a run over the blocks of a text with these records yields and holds. -/
structure Assembles (limits : RecordLimits) (text : Text) (records blocks : List Text) : Prop where
  yields : List.Forall₂ (Yields limits) records (iterLogicalRecords limits blocks)
  holds : ∀ parts ∈ heldParts limits blocks, parts.flatten.length ≤ limits.maxRecordChars
  loses : (∀ out ∈ iterLogicalRecords limits blocks, out.truncated = false) →
    CutAtBoundaries text ((iterLogicalRecords limits blocks).map LogicalCsvRecord.text)

/-- The text alone decides the records, and the limits how much of each is kept. -/
theorem assembly_loses_nothing (text : Text) :
    ∃ records, CutAtBoundaries text records ∧
      ∀ (limits : RecordLimits) (partition : Partition text),
        Assembles limits text records partition.blocks := by
  refine ⟨logicalRecords text, logicalRecords_cut text, fun limits partition => ?_⟩
  have records := iterLogicalRecords_eq limits partition.blocks partition.nonempty
  rw [partition.joined] at records
  refine ⟨?_, heldParts_bounded limits partition.blocks, ?_⟩
  · rw [records, List.forall₂_map_right_iff, List.forall₂_same]
    exact fun record _ => boundRecord_yields limits record
  · rw [records]
    intro whole
    have same : ((logicalRecords text).map (boundRecord limits)).map LogicalCsvRecord.text =
        logicalRecords text := by
      rw [List.map_map]
      refine (List.map_congr_left fun record member => ?_).trans (List.map_id _)
      exact (boundRecord_yields limits record).whole (whole _ (List.mem_map_of_mem member))
    rw [same]
    exact logicalRecords_cut text

end StockImport.Csv
