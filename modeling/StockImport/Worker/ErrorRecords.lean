import Mathlib.Data.List.TakeDrop
import StockImport.Csv.RawData
import StockImport.Csv.Terminators
import StockImport.Worker.Programs

/-!
# Error records

The raw data of the errors a report is left with: those of the validation and those of
the duplicate pairs.  Their texts keep to both limits.  Their lists do not, since an
empty field takes nothing from the remainder.
-/

set_option autoImplicit false

namespace StockImport.Worker

open PyText CsvReader Utf8Escape Csv Db

/-! ## Both limits -/

/-- `Settings`, with what its fields and `validate_csv_limits` check. -/
structure Settings where
  validationBatchSize : Nat
  csvMaxFieldChars : Nat
  csvMaxRecordChars : Nat
  csvErrorRawValueChars : Nat
  csvErrorRawTotalChars : Nat
  batchSize_range : 1 ≤ validationBatchSize ∧ validationBatchSize ≤ 10000
  maxFieldChars_range : 1024 ≤ csvMaxFieldChars ∧ csvMaxFieldChars ≤ 4194304
  maxRecordChars_range : 4096 ≤ csvMaxRecordChars ∧ csvMaxRecordChars ≤ 16777216
  rawValueChars_range : 64 ≤ csvErrorRawValueChars ∧ csvErrorRawValueChars ≤ 16384
  rawTotalChars_range : 256 ≤ csvErrorRawTotalChars ∧ csvErrorRawTotalChars ≤ 65536
  field_le_record : csvMaxFieldChars ≤ csvMaxRecordChars
  values_le_total : 4 * csvErrorRawValueChars ≤ csvErrorRawTotalChars

def Settings.limits (settings : Settings) : CsvLimits where
  maxFieldChars := settings.csvMaxFieldChars
  maxRecordChars := settings.csvMaxRecordChars
  errorRawValueChars := settings.csvErrorRawValueChars
  errorRawTotalChars := settings.csvErrorRawTotalChars

def Settings.deployment (settings : Settings) (original : String → String → Bytes) :
    Deployment where
  limits := settings.limits
  batchSize := settings.validationBatchSize
  batchSize_pos := settings.batchSize_range.1
  original := original

/-- A dictionary of raw data before it is bounded. -/
structure RawMapping where
  entries : RawData
  distinct : (entries.map Prod.fst).Nodup
  unmarked : "_truncated" ∉ entries.map Prod.fst

/-- What the raw data of a duplicate pair shows of its row. -/
structure ShowsRow (limits : CsvLimits) (row : ValidatedRow) (data : RawData) : Prop where
  values : ∀ text ∈ RawData.texts data, text.length ≤ limits.errorRawValueChars
  total : totalChars (RawData.texts data) ≤ limits.errorRawTotalChars
  marked : ("_truncated", RawValue.flag true) ∈ data ↔ RawData.texts data ≠ row.texts
  unmarked : ("_truncated", RawValue.flag false) ∈ data ↔ RawData.texts data = row.texts

/-- The flag of a duplicate pair. -/
def cutShort (count : Nat) (row : ValidatedRow) : Bool :=
  count < row.warehouseCode.length || count < row.warehouseName.length ||
    count < row.sku.length || count < row.productName.length

theorem cutShort_iff (count : Nat) (row : ValidatedRow) :
    cutShort count row = true ↔ row.texts.map (·.take count) ≠ row.texts := by
  simp only [cutShort, ValidatedRow.texts, List.map_cons, List.map_nil, ne_eq, List.cons.injEq, and_true,
    List.take_eq_self_iff, Bool.or_eq_true, decide_eq_true_eq]
  omega

/-- The flag at the end of raw data whose other entries have other names. -/
theorem mem_flag_last {entries : RawData} {flag value : Bool}
    (others : ∀ entry ∈ entries, entry.1 ≠ "_truncated") :
    ("_truncated", RawValue.flag value) ∈ entries ++ [("_truncated", .flag flag)] ↔
      flag = value := by
  constructor
  · intro member
    rcases List.mem_append.mp member with earlier | last
    · exact absurd rfl (others _ earlier)
    · cases List.mem_singleton.mp last
      rfl
  · rintro rfl
    exact List.mem_append_right _ (List.mem_singleton_self _)

theorem duplicateIssue_shows (settings : Settings) (original : String → String → Bytes)
    (row : ValidatedRow) :
    ∃ data, (duplicateIssue (settings.deployment original).duplicateRawValueChars row).rawData =
        some data ∧ ShowsRow settings.limits row data := by
  have chars : (settings.deployment original).duplicateRawValueChars =
      settings.csvErrorRawValueChars := by
    have least := settings.rawValueChars_range.1
    have total := settings.values_le_total
    simp only [Deployment.duplicateRawValueChars, Settings.deployment, Settings.limits]
    omega
  rw [chars]
  have shown : ∀ text : Text, (text.take settings.csvErrorRawValueChars).length ≤
      settings.csvErrorRawValueChars := fun text => List.length_take_le _ text
  have four := settings.values_le_total
  have flagged := cutShort_iff settings.csvErrorRawValueChars row
  have texts : ∀ data, (duplicateIssue settings.csvErrorRawValueChars row).rawData = some data →
      RawData.texts data = row.texts.map (·.take settings.csvErrorRawValueChars) := by
    intro data built
    cases built
    rfl
  have entries : ∃ entries : RawData, (∀ entry ∈ entries, entry.1 ≠ "_truncated") ∧
      (duplicateIssue settings.csvErrorRawValueChars row).rawData =
        some (entries ++
          [("_truncated", .flag (cutShort settings.csvErrorRawValueChars row))]) := by
    refine ⟨[_, _, _, _, _], ?_, rfl⟩
    simp
  obtain ⟨entries, others, built⟩ := entries
  refine ⟨_, built, ?_, ?_, ?_, ?_⟩
  · rw [texts _ built]
    exact List.forall_mem_map.mpr fun text _ => shown text
  · rw [texts _ built]
    have sum : totalChars (row.texts.map (·.take settings.csvErrorRawValueChars)) ≤
        4 * settings.csvErrorRawValueChars := by
      simp only [ValidatedRow.texts, List.map_cons, List.map_nil, totalChars_cons, totalChars_nil,
        List.length_take]
      omega
    exact Nat.le_trans sum four
  · rw [texts _ built, ← flagged]
    exact mem_flag_last others
  · rw [texts _ built, ← not_ne_iff, ← flagged, Bool.not_eq_true]
    exact mem_flag_last others

/-- Raw data keep to both limits, and say where a text was cut. -/
theorem raw_data_respects_limits :
    (∀ (limits : CsvLimits) (mapping : RawMapping),
      RespectsLimits limits.errorRawValueChars limits.errorRawTotalChars mapping.entries
        (boundedRawData mapping.entries limits)) ∧
    ∀ (settings : Settings) (original : String → String → Bytes) (row : ValidatedRow),
      ∃ data, (duplicateIssue (settings.deployment original).duplicateRawValueChars row).rawData =
        some data ∧ ShowsRow settings.limits row data :=
  ⟨fun limits mapping => boundedRawData_respects limits mapping.unmarked, duplicateIssue_shows⟩

/-! ## The size of an error record -/

def RawValue.listEntries : RawValue → Nat
  | .list items => items.length
  | _ => 0

/-- The stored list entries and characters of raw data. -/
def RawData.size (data : RawData) : Nat :=
  (data.map fun entry => RawValue.listEntries entry.2).sum + totalChars (RawData.texts data)

/-- The two limits bound the raw data of every issue, whatever the file and the other limits. -/
def ErrorSizeBounded (valueLimit totalLimit : Nat) : Prop :=
  ∃ bound, ∀ (maxFieldChars maxRecordChars : Nat) (sizes : StreamSizes) (chunks : List Bytes),
    ∀ issue ∈ (validateCsvStream ⟨maxFieldChars, maxRecordChars, valueLimit, totalLimit⟩ sizes
      chunks).reported, ∀ data, issue.rawData = some data → RawData.size data ≤ bound

/-- Empty items take nothing from the remainder. -/
theorem boundedItems_empty (valueLimit : Nat) {remaining : Nat} (some : 0 < remaining) :
    ∀ count : Nat, boundedItems valueLimit remaining (List.replicate count []) =
      ⟨List.replicate count [], remaining, false⟩ := by
  intro count
  induction count with
  | zero => rfl
  | succ count ih =>
      have free : boundedRawText [] valueLimit remaining = ⟨[], 0, false⟩ := by
        simp [boundedRawText]
      rw [List.replicate_succ, boundedItems, if_neg (Nat.ne_of_gt some), free]
      dsimp only
      rw [Nat.sub_zero, ih]
      rfl

theorem commas_run (count : Nat) :
    Flags.start.run (List.replicate count comma) = some .start := by
  induction count with
  | zero => rfl
  | succ count ih => exact ih

/-- A record of commas alone. -/
def commaRecord (count : Nat) : RecordText where
  text := comma :: List.replicate count comma
  nonempty := List.cons_ne_nil _ _
  closed := ⟨.start, commas_run (count + 1), Bool.noConfusion⟩

/-- A file of one record, which is a record of commas. -/
def commaFile (count : Nat) : RecordFile where
  first := []
  last := commaRecord count
  bytes := encode (commaRecord count).text
  decoded := by
    have scalars : ∀ c ∈ comma :: List.replicate count comma, IsScalar c := by
      intro c member
      rw [List.eq_of_mem_replicate (n := count + 1) member]
      decide
    have decoded := decode_encode_of_ascii comma (List.replicate count comma) (by decide) scalars
    rw [writtenText, if_neg Bool.false_ne_true, List.append_nil]
    exact decoded

theorem resume_commas (limit : Nat) : ∀ (count : Nat) (fields : List Text),
    resume limit ⟨.startField, [], fields⟩ (List.replicate count comma) =
      .row (fields ++ List.replicate (count + 1) []) [] := by
  intro count
  induction count with
  | zero => intro fields; rfl
  | succ count ih =>
      intro fields
      have fed : Parser.feedChar limit ⟨.startField, [], fields⟩ comma =
          .ok ⟨.startField, [], fields ++ [[]]⟩ := rfl
      rw [List.replicate_succ, resume_step limit _ _ comma _ fed (Or.inl rfl), ih,
        List.append_assoc, List.singleton_append, ← List.replicate_succ]

theorem recordKind_commas {limits : CsvLimits} {count : Nat}
    (fits : count + 1 ≤ limits.maxRecordChars) :
    recordKind limits (yielded limits .lf false (commaRecord count)) =
      .row (List.replicate (count + 2) []) := by
  have text : endedText .lf false (commaRecord count) = comma :: List.replicate count comma := by
    simp [endedText, commaRecord]
  have bound : (comma :: List.replicate count comma).length ≤ limits.records.maxRecordChars := by
    simpa [CsvLimits.records] using fits
  have whole : (yielded limits .lf false (commaRecord count)).truncated = false := by
    rw [← Bool.not_eq_true, yielded_truncated]
    simpa [commaRecord] using fits
  have read : next limits.maxFieldChars .fresh (splitLines (comma :: List.replicate count comma)) =
      .row (List.replicate (count + 2) []) [] := by
    have fed : Parser.feedChar limits.maxFieldChars .fresh comma =
        .ok ⟨.startField, [], [[]]⟩ := rfl
    rw [next_splitLines, resume_step _ _ _ comma _ fed (Or.inl rfl), resume_commas,
      List.singleton_append, ← List.replicate_succ]
  have stop : next limits.maxFieldChars .fresh [] = .stop := rfl
  rw [recordKind, whole, if_neg Bool.false_ne_true]
  rw [yielded, text, boundRecord_text bound, read]
  dsimp only
  rw [stop]

/-- A header of empty fields is stored as it is, with as many entries as it has fields. -/
theorem validateBytes_commas {limits : CsvLimits} {count : Nat}
    (accepted : limits.Accepted) (fits : count + 1 ≤ limits.maxRecordChars) :
    ∃ issue ∈ (validateBytes limits (commaFile count).bytes).reported, ∃ data,
      issue.rawData = some data ∧ count < RawData.size data := by
  have rejected : validateHeader (List.replicate (count + 2) []) limits ≠ [] := by
    intro none
    have once := validateHeader_eq_nil_iff.mp none .quantity
    rw [List.count_replicate, if_neg (by decide)] at once
    cases once
  have run : validateBytes limits (commaFile count).bytes =
      .after (.issues (validateHeader (List.replicate (count + 2) []) limits)) (.returns 0 false) := by
    have items := (commaFile count).unended.validateBytes accepted
    rw [RecordFile.unended, List.flatten_cons, List.flatten_nil, List.append_nil] at items
    have decoded : containsSurrogate (List.replicate (count + 2) []) = false := by
      simp [containsSurrogate]
    rw [items]
    simp only [RecordFile.yields, commaFile, List.map_nil, List.nil_append, List.map_cons,
      validateItems_kind, recordKind_commas fits, decoded, Bool.false_eq_true, if_false]
    exact if_pos rejected
  obtain ⟨issue, member⟩ := List.exists_mem_of_ne_nil _ rejected
  refine ⟨issue, ?_, _, validateHeader_data member, ?_⟩
  · rw [run]
    exact List.mem_append_left _ member
  · have left := boundedItems_empty limits.errorRawValueChars accepted.2.2.2 (count + 2)
    simp only [boundedRawData, boundedEntries, left]
    simp [RawData.size, RawValue.listEntries]
    omega

/-- Headers of empty fields outgrow every bound. -/
theorem not_errorSizeBounded {valueLimit totalLimit : Nat} (value : 0 < valueLimit)
    (total : 0 < totalLimit) : ¬ ErrorSizeBounded valueLimit totalLimit := by
  rintro ⟨bound, bounded⟩
  have accepted : CsvLimits.Accepted ⟨1, bound + 1, valueLimit, totalLimit⟩ :=
    ⟨Nat.one_pos, Nat.succ_pos _, value, total⟩
  have enough : bound + 1 ≤ (CsvLimits.mk 1 (bound + 1) valueLimit totalLimit).maxRecordChars :=
    Nat.le_refl _
  obtain ⟨issue, member, data, built, large⟩ := validateBytes_commas accepted enough
  have sizes : StreamSizes := ⟨fun _ => 1, fun _ => Nat.one_pos, 1, Nat.one_pos⟩
  have stream := (validateCsvStream_agrees ⟨1, bound + 1, valueLimit, totalLimit⟩ sizes
    [(commaFile bound).bytes]).1
  rw [List.flatten_cons, List.flatten_nil, List.append_nil] at stream
  rw [ValidationRun.reported_callbacks, ← stream, ← ValidationRun.reported_callbacks] at member
  exact Nat.not_le_of_lt large (bounded 1 (bound + 1) sizes _ issue member data built)

/-- No two limits bound an error record, unless they are refused. -/
theorem error_size_unbounded (valueLimit totalLimit : Nat) :
    ErrorSizeBounded valueLimit totalLimit ↔ valueLimit = 0 ∨ totalLimit = 0 := by
  constructor
  · intro bounded
    by_contra positive
    rw [not_or] at positive
    exact not_errorSizeBounded (Nat.pos_of_ne_zero positive.1) (Nat.pos_of_ne_zero positive.2)
      bounded
  · intro refused
    refine ⟨0, fun maxFieldChars maxRecordChars sizes chunks issue member => ?_⟩
    have notAccepted : ¬ CsvLimits.Accepted
        ⟨maxFieldChars, maxRecordChars, valueLimit, totalLimit⟩ := by
      rintro ⟨_, _, value, total⟩
      rcases refused with none | none
      · exact Nat.ne_of_gt value none
      · exact Nat.ne_of_gt total none
    rw [validateCsvStream, if_neg notAccepted] at member
    cases member

theorem default_errorSize_unbounded : ¬ ErrorSizeBounded 1024 4096 :=
  not_errorSizeBounded (by decide) (by decide)

end StockImport.Worker
