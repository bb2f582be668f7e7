import StockImport.Csv.Accounting
import StockImport.Csv.RowRules

/-!
# What the callbacks show

The texts inside the events of a run, and for each kind of issue which texts of the
file they are: prefixes that the two raw-data limits leave, with the truncation
marker behind them.
-/

set_option autoImplicit false

namespace StockImport.Csv

open PyText CsvReader Utf8Escape

/-! ## The texts of a callback -/

def RawValue.texts : RawValue → List Text
  | .text value => [value]
  | .list items => items
  | .number _ => []
  | .flag _ => []

def RawData.texts (data : RawData) : List Text := data.flatMap fun entry => entry.2.texts

theorem RawData.texts_cons (key : String) (value : Text) (rest : RawData) :
    RawData.texts ((key, .text value) :: rest) = value :: RawData.texts rest := rfl

def ValidationIssue.texts (issue : ValidationIssue) : List Text :=
  RawData.texts (issue.rawData.getD [])

def ValidatedRow.texts (row : ValidatedRow) : List Text :=
  [row.warehouseCode, row.warehouseName, row.sku, row.productName]

def StreamEvent.texts : StreamEvent → List Text
  | .fetch => []
  | .validRow row => row.texts
  | .issues found => found.flatMap ValidationIssue.texts

/-- A text without the characters that `bad` marks. -/
def Free (bad : Nat → Bool) (text : Text) : Prop := ∀ c ∈ text, bad c = false

instance (bad : Nat → Bool) (text : Text) : Decidable (Free bad text) :=
  inferInstanceAs (Decidable (∀ c ∈ text, bad c = false))

/-- No row and no issue of a run has a marked character. -/
def ValidationRun.Shows (bad : Nat → Bool) (run : ValidationRun) : Prop :=
  (∀ row ∈ run.rows, ∀ text ∈ row.texts, Free bad text) ∧
    ∀ issue ∈ run.reported, ∀ text ∈ issue.texts, Free bad text

instance (bad : Nat → Bool) (run : ValidationRun) : Decidable (run.Shows bad) :=
  inferInstanceAs (Decidable (_ ∧ _))

theorem ValidationRun.shows_iff (bad : Nat → Bool) (run : ValidationRun) :
    run.Shows bad ↔ ∀ event ∈ run.events, ∀ text ∈ event.texts, Free bad text := by
  constructor
  · rintro ⟨rows, reported⟩ event member text inEvent
    cases event with
    | fetch => cases inEvent
    | validRow row =>
        exact rows row (List.mem_flatMap.mpr ⟨_, member, List.mem_singleton.mpr rfl⟩) text inEvent
    | issues found =>
        obtain ⟨issue, inFound, inIssue⟩ := List.mem_flatMap.mp inEvent
        exact reported issue (List.mem_flatMap.mpr ⟨_, member, inFound⟩) text inIssue
  · intro events
    refine ⟨?_, ?_⟩
    · intro row member text inRow
      obtain ⟨event, inEvents, isRow⟩ := List.mem_flatMap.mp member
      cases event with
      | fetch => cases isRow
      | issues found => cases isRow
      | validRow other =>
          rw [List.mem_singleton.mp isRow] at inRow
          exact events _ inEvents text inRow
    · intro issue member text inIssue
      obtain ⟨event, inEvents, inFound⟩ := List.mem_flatMap.mp member
      cases event with
      | fetch => cases inFound
      | validRow row => cases inFound
      | issues found => exact events _ inEvents text (List.mem_flatMap.mpr ⟨issue, inFound, inIssue⟩)

/-! ## What the limits leave of a text -/

/-- The first characters that a bounded copy keeps of a text of some length. -/
def keptChars (valueLimit remaining length : Nat) : Nat :=
  if length ≤ min valueLimit remaining then length
  else if truncationMarker.length < min valueLimit remaining then
    min valueLimit remaining - truncationMarker.length
  else min valueLimit remaining

/-- The prefixes of some texts that share one total limit. -/
def shownTexts (valueLimit : Nat) : (remaining : Nat) → List Text → List Text
  | _, [] => []
  | remaining, text :: rest =>
      text.take (keptChars valueLimit remaining text.length) ::
        shownTexts valueLimit (remaining - min text.length (min valueLimit remaining)) rest

/-- A bounded copy is such a prefix, with the marker where it was cut. -/
theorem boundedRawText_spec (value : Text) (valueLimit remaining : Nat) :
    (∃ tail, (tail = [] ∨ tail = truncationMarker) ∧
        (boundedRawText value valueLimit remaining).bounded =
          value.take (keptChars valueLimit remaining value.length) ++ tail) ∧
      (boundedRawText value valueLimit remaining).used =
        min value.length (min valueLimit remaining) := by
  unfold boundedRawText keptChars
  dsimp only
  by_cases fits : value.length ≤ min valueLimit remaining
  · rw [if_pos fits, if_pos fits]
    exact ⟨⟨[], Or.inl rfl, by simp⟩, (Nat.min_eq_left fits).symm⟩
  · rw [if_neg fits, if_neg fits]
    by_cases none : min valueLimit remaining = 0
    · rw [if_pos none, none]
      exact ⟨⟨[], Or.inl rfl, by simp⟩, (Nat.min_zero _).symm⟩
    · rw [if_neg none]
      by_cases long : truncationMarker.length < min valueLimit remaining
      · simp only [if_pos long]
        refine ⟨⟨truncationMarker, Or.inr rfl, rfl⟩, ?_⟩
        rw [List.length_append, List.length_take]
        omega
      · simp only [if_neg long]
        refine ⟨⟨[], Or.inl rfl, by simp⟩, ?_⟩
        rw [List.length_take]
        omega

section Bounded

variable {bad : Nat → Bool}

theorem free_append {text other : Text} :
    Free bad (text ++ other) ↔ Free bad text ∧ Free bad other := by
  simp only [Free, List.mem_append]
  exact ⟨fun all => ⟨fun c member => all c (Or.inl member), fun c member => all c (Or.inr member)⟩,
    fun both c member => member.elim (both.1 c) (both.2 c)⟩

theorem boundedRawText_free (marker : Free bad truncationMarker) (value : Text)
    (valueLimit remaining : Nat) :
    Free bad (boundedRawText value valueLimit remaining).bounded ↔
      Free bad (value.take (keptChars valueLimit remaining value.length)) := by
  obtain ⟨⟨tail, shape, bounded⟩, _⟩ := boundedRawText_spec value valueLimit remaining
  rw [bounded, free_append]
  refine ⟨fun both => both.1, fun front => ⟨front, ?_⟩⟩
  rcases shape with rfl | rfl
  · intro c member
    cases member
  · exact marker

/-- With nothing left of the total limit nothing more is shown. -/
theorem shownTexts_zero (valueLimit : Nat) : ∀ texts : List Text,
    ∀ text ∈ shownTexts valueLimit 0 texts, text = [] := by
  intro texts
  induction texts with
  | nil => intro text member; cases member
  | cons first rest ih =>
      intro text member
      simp only [shownTexts, Nat.zero_sub, List.mem_cons] at member
      rcases member with rfl | later
      · have none : keptChars valueLimit 0 first.length = 0 := by
          unfold keptChars
          split
          · omega
          · split <;> omega
        rw [none, List.take_zero]
      · exact ih text later

theorem boundedItems_free (marker : Free bad truncationMarker) (valueLimit : Nat) :
    ∀ (items : List Text) (remaining : Nat),
      (∀ text ∈ (boundedItems valueLimit remaining items).items, Free bad text) ↔
        ∀ text ∈ shownTexts valueLimit remaining items, Free bad text := by
  intro items
  induction items with
  | nil => intro remaining; simp [boundedItems, shownTexts]
  | cons item rest ih =>
      intro remaining
      rw [boundedItems]
      by_cases none : remaining = 0
      · rw [if_pos none, none]
        refine ⟨fun _ text member => ?_, fun _ text member => by cases member⟩
        rw [shownTexts_zero valueLimit _ text member]
        intro c inEmpty
        cases inEmpty
      · rw [if_neg none]
        simp only [shownTexts, List.forall_mem_cons, boundedRawText_free marker, ih,
          (boundedRawText_spec item valueLimit remaining).2]

/-- Entries that are all texts. -/
theorem boundedEntries_free (marker : Free bad truncationMarker) (valueLimit : Nat) :
    ∀ (pairs : List (String × Text)) (remaining : Nat),
      (∀ text ∈ RawData.texts (boundedEntries valueLimit remaining
          (pairs.map fun pair => (pair.1, .text pair.2))).entries, Free bad text) ↔
        ∀ text ∈ shownTexts valueLimit remaining (pairs.map Prod.snd), Free bad text := by
  intro pairs
  induction pairs with
  | nil => intro remaining; simp [boundedEntries, shownTexts, RawData.texts]
  | cons pair rest ih =>
      intro remaining
      simp only [List.map_cons, boundedEntries, RawData.texts_cons, List.forall_mem_cons,
        boundedRawText_free marker, (boundedRawText_spec pair.2 valueLimit remaining).2,
        shownTexts, ih]

end Bounded

theorem boundedEntries_keys (valueLimit : Nat) : ∀ (data : RawData) (remaining : Nat),
    (boundedEntries valueLimit remaining data).entries.map Prod.fst = data.map Prod.fst := by
  intro data
  induction data with
  | nil => intro remaining; rfl
  | cons entry rest ih =>
      intro remaining
      obtain ⟨key, value⟩ := entry
      cases value with
      | text _ | list _ | number _ | flag _ => simp only [boundedEntries, List.map_cons, ih]

/-- The entries under a key hold no text. -/
def Textless (data : RawData) (key : String) : Prop :=
  ∀ entry ∈ data, entry.1 = key → entry.2.texts = []

theorem set_texts {data : RawData} {key : String} {value : RawValue} (none : value.texts = [])
    (before : Textless data key) : RawData.texts (data.set key value) = RawData.texts data := by
  unfold RawData.set RawData.texts
  split
  · rw [List.flatMap_map]
    refine List.flatMap_congr fun entry member => ?_
    by_cases same : entry.1 = key
    · simp [same, none, before entry member same]
    · simp [same]
  · simp [none]

theorem Textless.set {data : RawData} {key other : String} {value : RawValue}
    (before : Textless data key) (none : value.texts = []) :
    Textless (data.set other value) key := by
  intro entry member same
  unfold RawData.set at member
  split at member
  · obtain ⟨old, inData, rfl⟩ := List.mem_map.mp member
    split at same
    · next replaced =>
        rw [if_pos replaced]
        exact none
    · next kept =>
        rw [if_neg kept]
        exact before old inData same
  · rcases List.mem_append.mp member with old | new
    · exact before entry old same
    · rw [List.mem_singleton.mp new]
      exact none

theorem boundedRawData_textless {data : RawData} {key : String}
    (absent : key ∉ data.map Prod.fst) (limits : CsvLimits) :
    Textless (boundedRawData data limits) key := by
  have entries : Textless
      (boundedEntries limits.errorRawValueChars limits.errorRawTotalChars data).entries key := by
    intro entry member same
    refine absurd ?_ absent
    rw [← boundedEntries_keys limits.errorRawValueChars data limits.errorRawTotalChars, ← same]
    exact List.mem_map_of_mem member
  unfold boundedRawData
  dsimp only
  split
  · exact entries.set rfl
  · exact entries

theorem boundedRawData_texts {data : RawData} (absent : "_truncated" ∉ data.map Prod.fst)
    (limits : CsvLimits) :
    RawData.texts (boundedRawData data limits) = RawData.texts
      (boundedEntries limits.errorRawValueChars limits.errorRawTotalChars data).entries := by
  unfold boundedRawData
  dsimp only
  split
  · refine set_texts rfl ?_
    intro entry member same
    refine absurd ?_ absent
    rw [← boundedEntries_keys limits.errorRawValueChars data limits.errorRawTotalChars, ← same]
    exact List.mem_map_of_mem member
  · rfl

/-! ## The issues -/

/-- Texts as they are shown under the limits of a run. -/
def CsvLimits.shows (limits : CsvLimits) (texts : List Text) : List Text :=
  shownTexts limits.errorRawValueChars limits.errorRawTotalChars texts

/-- The five required fields of a row. -/
def requiredFields (row header : List Text) : List Text :=
  requiredColumns.map fun column => row.getD (columnIndex header column) []

section Issues

variable {bad : Nat → Bool}

/-- Raw data with one text for each key. -/
theorem boundedRawData_free (marker : Free bad truncationMarker) (limits : CsvLimits)
    (pairs : List (String × Text)) (absent : "_truncated" ∉ pairs.map Prod.fst) :
    (∀ text ∈ RawData.texts (boundedRawData (pairs.map fun pair => (pair.1, .text pair.2)) limits),
        Free bad text) ↔
      ∀ text ∈ limits.shows (pairs.map Prod.snd), Free bad text := by
  rw [boundedRawData_texts (by rw [List.map_map]; exact absent)]
  exact boundedEntries_free marker limits.errorRawValueChars pairs limits.errorRawTotalChars

/-- Raw data with one list. -/
theorem boundedList_free (marker : Free bad truncationMarker) (limits : CsvLimits) {key : String}
    (different : "_truncated" ≠ key) (items : List Text) :
    (∀ text ∈ RawData.texts (boundedRawData [(key, .list items)] limits), Free bad text) ↔
      ∀ text ∈ limits.shows items, Free bad text := by
  rw [boundedRawData_texts (by simpa using different)]
  have items := boundedItems_free marker limits.errorRawValueChars items limits.errorRawTotalChars
  simpa [CsvLimits.shows, RawData.texts, RawValue.texts, boundedEntries] using items

theorem fieldTooLargeIssue_free (marker : Free bad truncationMarker) (record : LogicalCsvRecord)
    (lineNumber : Option Nat) (limits : CsvLimits) :
    (∀ text ∈ (fieldTooLargeIssue record lineNumber limits).texts, Free bad text) ↔
      ∀ text ∈ limits.shows [record.text], Free bad text := by
  have limit : Textless (boundedRawData [("record_preview", .text record.text)] limits)
      "max_field_chars" := boundedRawData_textless (by simp) limits
  have cut : Textless (boundedRawData [("record_preview", .text record.text)] limits)
      "_truncated" := boundedRawData_textless (by simp) limits
  simp only [ValidationIssue.texts, fieldTooLargeIssue, Option.getD_some]
  rw [set_texts rfl (cut.set rfl), set_texts rfl limit]
  exact boundedRawData_free marker limits [("record_preview", record.text)] (by simp)

theorem recordTooLargeIssue_free (marker : Free bad truncationMarker) (record : LogicalCsvRecord)
    (lineNumber : Option Nat) (limits : CsvLimits) :
    (∀ text ∈ (recordTooLargeIssue lineNumber record limits).texts, Free bad text) ↔
      ∀ text ∈ limits.shows [record.text], Free bad text := by
  have chars : Textless (boundedRawData [("record_preview", .text record.text)] limits)
      "record_chars" := boundedRawData_textless (by simp) limits
  have limit : Textless (boundedRawData [("record_preview", .text record.text)] limits)
      "max_record_chars" := boundedRawData_textless (by simp) limits
  have cut : Textless (boundedRawData [("record_preview", .text record.text)] limits)
      "_truncated" := boundedRawData_textless (by simp) limits
  simp only [ValidationIssue.texts, recordTooLargeIssue, Option.getD_some]
  rw [set_texts rfl ((cut.set rfl).set rfl), set_texts rfl (limit.set rfl), set_texts rfl chars]
  exact boundedRawData_free marker limits [("record_preview", record.text)] (by simp)

theorem columnCountIssue_free (marker : Free bad truncationMarker) (lineNumber : Nat)
    (row : List Text) (limits : CsvLimits) :
    (∀ text ∈ (columnCountIssue lineNumber row limits).texts, Free bad text) ↔
      ∀ text ∈ limits.shows row, Free bad text :=
  boundedList_free marker limits (by decide) row

theorem fieldData_free (marker : Free bad truncationMarker) (row header : List Text)
    (limits : CsvLimits) :
    (∀ text ∈ RawData.texts (fieldData row header limits), Free bad text) ↔
      ∀ text ∈ limits.shows (requiredFields row header), Free bad text := by
  have pairs := boundedRawData_free marker limits
    (requiredColumns.map fun column => (column.text, row.getD (columnIndex header column) []))
    (by rw [List.map_map]; exact (by decide : "_truncated" ∉ requiredColumns.map Column.text))
  rw [List.map_map, List.map_map] at pairs
  exact pairs

/-- Issues that all show the same data. -/
theorem sameData_free {issues : List ValidationIssue} {data : RawData} (nonempty : issues ≠ [])
    (same : ∀ issue ∈ issues, issue.rawData = some data) :
    (∀ text ∈ issues.flatMap ValidationIssue.texts, Free bad text) ↔
      ∀ text ∈ RawData.texts data, Free bad text := by
  constructor
  · intro all text member
    obtain ⟨issue, inIssues⟩ := List.exists_mem_of_ne_nil issues nonempty
    refine all text (List.mem_flatMap.mpr ⟨issue, inIssues, ?_⟩)
    rw [ValidationIssue.texts, same issue inIssues]
    exact member
  · intro all text member
    obtain ⟨issue, inIssues, inIssue⟩ := List.mem_flatMap.mp member
    rw [ValidationIssue.texts, same issue inIssues] at inIssue
    exact all text inIssue

theorem validateHeader_eq_nil_iff {header : List Text} {limits : CsvLimits} :
    validateHeader header limits = [] ↔ ∀ column : Column, header.count column.name = 1 := by
  simp only [validateHeader, List.flatMap_eq_nil_iff]
  constructor
  · intro none column
    have fine := none column column.required
    split at fine
    · cases fine
    · split at fine
      · cases fine
      · omega
  · intro once column _
    rw [once column]
    rfl

/-- The issues of a header are about missing and about repeated columns, and show the header. -/
theorem mem_validateHeader {header : List Text} {limits : CsvLimits} {issue : ValidationIssue}
    (member : issue ∈ validateHeader header limits) :
    ∃ column code message,
      (code = IssueCode.missingRequiredColumn ∨ code = IssueCode.duplicateRequiredColumn) ∧
      issue = headerIssue column code message (boundedRawData [("header", .list header)] limits) := by
  obtain ⟨column, _, found⟩ := List.mem_flatMap.mp member
  dsimp only at found
  split at found
  · exact ⟨column, _, _, Or.inl rfl, List.mem_singleton.mp found⟩
  · split at found
    · exact ⟨column, _, _, Or.inr rfl, List.mem_singleton.mp found⟩
    · cases found

theorem validateHeader_data {header : List Text} {limits : CsvLimits} {issue : ValidationIssue}
    (member : issue ∈ validateHeader header limits) :
    issue.rawData = some (boundedRawData [("header", .list header)] limits) := by
  obtain ⟨column, code, message, _, rfl⟩ := mem_validateHeader member
  rfl

theorem validateHeader_free (marker : Free bad truncationMarker) {header : List Text}
    {limits : CsvLimits} (rejected : validateHeader header limits ≠ []) :
    (∀ text ∈ (validateHeader header limits).flatMap ValidationIssue.texts, Free bad text) ↔
      ∀ text ∈ limits.shows header, Free bad text := by
  rw [sameData_free rejected fun issue => validateHeader_data]
  exact boundedList_free marker limits (by decide) header

end Issues

end StockImport.Csv
