import StockImport.Csv.ChunkIO

/-!
# CSV validation

`validate_csv_stream` and the functions it calls: the bounded raw data of an
issue, the parsing of one record, the checks of the header and of a row, and the
loop that ties them to the stream.  Its callbacks become a list of events in
call order, in between the attempts to fetch a chunk.
-/

set_option autoImplicit false

namespace StockImport.Csv

open PyText CsvReader Utf8Escape

/-- The exceptions that leave the modelled functions. -/
inductive PyException where
  | valueError
  | runtimeError
  | storageUnavailable
  | sqlAlchemyError
  | hookError
  | reportNotReadyForApply
  | lockConnectionLost
  deriving DecidableEq, Repr

inductive Column where
  | warehouseCode
  | warehouseName
  | sku
  | productName
  | quantity
  deriving DecidableEq, Repr

def Column.text : Column → String
  | .warehouseCode => "warehouse_code"
  | .warehouseName => "warehouse_name"
  | .sku => "sku"
  | .productName => "product_name"
  | .quantity => "quantity"

def Column.name (column : Column) : Text := ofString column.text

def requiredColumns : List Column :=
  [.warehouseCode, .warehouseName, .sku, .productName, .quantity]

theorem Column.required (column : Column) : column ∈ requiredColumns := by
  cases column <;> decide

def textColumns : List Column := [.warehouseCode, .warehouseName, .sku, .productName]

def postgresBigintMax : Int := 9223372036854775807

def truncationMarker : Text := ofString "...[truncated]"

inductive FieldName where
  | column (column : Column)
  | warehouseCodeSku
  deriving DecidableEq, Repr

def FieldName.text : FieldName → String
  | .column name => name.text
  | .warehouseCodeSku => "warehouse_code+sku"

/-- The `code` of a validation issue or of a stored report error. -/
inductive IssueCode where
  | missingHeader
  | csvRecordTooLarge
  | csvFieldTooLarge
  | malformedCsv
  | invalidUtf8
  | missingRequiredColumn
  | duplicateRequiredColumn
  | invalidColumnCount
  | required
  | invalidQuantity
  | quantityNegative
  | quantityTooLarge
  | noDataRows
  | duplicateWarehouseSku
  | processingError
  | applyError
  deriving DecidableEq, Repr

def IssueCode.text : IssueCode → String
  | .missingHeader => "missing_header"
  | .csvRecordTooLarge => "csv_record_too_large"
  | .csvFieldTooLarge => "csv_field_too_large"
  | .malformedCsv => "malformed_csv"
  | .invalidUtf8 => "invalid_utf8"
  | .missingRequiredColumn => "missing_required_column"
  | .duplicateRequiredColumn => "duplicate_required_column"
  | .invalidColumnCount => "invalid_column_count"
  | .required => "required"
  | .invalidQuantity => "invalid_quantity"
  | .quantityNegative => "quantity_negative"
  | .quantityTooLarge => "quantity_too_large"
  | .noDataRows => "no_data_rows"
  | .duplicateWarehouseSku => "duplicate_warehouse_sku"
  | .processingError => "processing_error"
  | .applyError => "apply_error"

inductive RawValue where
  | text (value : Text)
  | list (items : List Text)
  | number (value : Int)
  | flag (value : Bool)
  deriving DecidableEq, Repr

abbrev RawData := List (String × RawValue)

/-- `data[key] = value` on a dictionary. -/
def RawData.set (data : RawData) (key : String) (value : RawValue) : RawData :=
  if data.any (fun entry => entry.1 == key) then
    data.map fun entry => if entry.1 == key then (key, value) else entry
  else data ++ [(key, value)]

structure ValidationIssue where
  lineNumber : Option Nat
  fieldName : Option FieldName
  code : IssueCode
  message : String
  rawData : Option RawData
  deriving DecidableEq, Repr

/-- A quantity that fits the database column. -/
structure Quantity where
  value : Int
  nonneg : 0 ≤ value
  le_max : value ≤ postgresBigintMax
  deriving DecidableEq, Repr

structure ValidatedRow where
  lineNumber : Nat
  warehouseCode : Text
  warehouseName : Text
  sku : Text
  productName : Text
  quantity : Quantity
  deriving DecidableEq, Repr

structure CsvValidationSummary where
  rowCount : Nat
  reachedEof : Bool
  deriving DecidableEq, Repr

structure CsvLimits where
  maxFieldChars : Nat
  maxRecordChars : Nat
  errorRawValueChars : Nat
  errorRawTotalChars : Nat
  deriving DecidableEq, Repr

def CsvLimits.records (limits : CsvLimits) : RecordLimits :=
  ⟨limits.maxRecordChars, limits.errorRawValueChars⟩

/-- The limits for which `validate_csv_stream` does not raise `ValueError`. -/
def CsvLimits.Accepted (limits : CsvLimits) : Prop :=
  0 < limits.maxFieldChars ∧ limits.maxFieldChars ≤ limits.maxRecordChars ∧
    0 < limits.errorRawValueChars ∧ 0 < limits.errorRawTotalChars

instance (limits : CsvLimits) : Decidable limits.Accepted := by
  unfold CsvLimits.Accepted
  infer_instance

/-! ## Raw data of an issue -/

structure BoundedText where
  bounded : Text
  used : Nat
  wasTruncated : Bool

def boundedRawText (value : Text) (valueLimit remaining : Nat) : BoundedText :=
  let allowed := min valueLimit remaining
  if value.length ≤ allowed then ⟨value, value.length, false⟩
  else if allowed = 0 then ⟨[], 0, value != []⟩
  else
    let bounded :=
      if truncationMarker.length < allowed then
        value.take (allowed - truncationMarker.length) ++ truncationMarker
      else value.take allowed
    ⟨bounded, bounded.length, true⟩

structure BoundedItems where
  items : List Text
  remaining : Nat
  truncated : Bool

/-- The loop over the items of a list value, with its early `break`. -/
def boundedItems (valueLimit : Nat) : (remaining : Nat) → List Text → BoundedItems
  | remaining, [] => ⟨[], remaining, false⟩
  | remaining, item :: rest =>
      if remaining = 0 then ⟨[], remaining, true⟩
      else
        let first := boundedRawText item valueLimit remaining
        let later := boundedItems valueLimit (remaining - first.used) rest
        ⟨first.bounded :: later.items, later.remaining, first.wasTruncated || later.truncated⟩

structure BoundedEntries where
  entries : RawData
  truncated : Bool

def boundedEntries (valueLimit : Nat) : (remaining : Nat) → RawData → BoundedEntries
  | _, [] => ⟨[], false⟩
  | remaining, (key, .text value) :: rest =>
      let first := boundedRawText value valueLimit remaining
      let later := boundedEntries valueLimit (remaining - first.used) rest
      ⟨(key, .text first.bounded) :: later.entries, first.wasTruncated || later.truncated⟩
  | remaining, (key, .list items) :: rest =>
      let first := boundedItems valueLimit remaining items
      let later := boundedEntries valueLimit first.remaining rest
      ⟨(key, .list first.items) :: later.entries,
        first.truncated || first.items.length != items.length || later.truncated⟩
  | remaining, (key, value) :: rest =>
      let later := boundedEntries valueLimit remaining rest
      ⟨(key, value) :: later.entries, later.truncated⟩

def boundedRawData (rawData : RawData) (limits : CsvLimits) : RawData :=
  let bounded := boundedEntries limits.errorRawValueChars limits.errorRawTotalChars rawData
  if bounded.truncated then bounded.entries.set "_truncated" (.flag true) else bounded.entries

/-! ## Issues about a record -/

def invalidUtf8Issue (lineNumber : Option Nat) : ValidationIssue where
  lineNumber := lineNumber
  fieldName := none
  code := .invalidUtf8
  message := "CSV must be encoded as UTF-8"
  rawData := none

def containsSurrogate (values : List Text) : Bool :=
  values.any fun value => value.any fun c => 0xDC80 ≤ c && c ≤ 0xDCFF

def malformedCsvIssue (lineNumber : Nat) : ValidationIssue where
  lineNumber := some lineNumber
  fieldName := none
  code := .malformedCsv
  message := "CSV syntax is malformed"
  rawData := none

def fieldTooLargeIssue (record : LogicalCsvRecord) (lineNumber : Option Nat)
    (limits : CsvLimits) : ValidationIssue where
  lineNumber := lineNumber
  fieldName := none
  code := .csvFieldTooLarge
  message := "CSV field exceeds " ++ toString limits.maxFieldChars ++ " characters"
  rawData := some (((boundedRawData [("record_preview", .text record.text)] limits).set
    "max_field_chars" (.number limits.maxFieldChars)).set "_truncated" (.flag true))

def recordTooLargeIssue (lineNumber : Option Nat) (record : LogicalCsvRecord)
    (limits : CsvLimits) : ValidationIssue where
  lineNumber := lineNumber
  fieldName := none
  code := .csvRecordTooLarge
  message := "CSV logical record exceeds " ++ toString limits.maxRecordChars ++ " characters"
  rawData := some ((((boundedRawData [("record_preview", .text record.text)] limits).set
    "record_chars" (.number record.charCount)).set
    "max_record_chars" (.number limits.maxRecordChars)).set "_truncated" (.flag true))

/-- `_parse_record`: the row, or the issue that takes its place.  The reader is
asked for a second row, which must not exist. -/
def parseRecord (record : LogicalCsvRecord) (lineNumber : Option Nat) (limits : CsvLimits) :
    Except ValidationIssue (List Text) :=
  let malformed := malformedCsvIssue (lineNumber.getD 1)
  let second (row : List Text) (lines : List Text) : Except ValidationIssue (List Text) :=
    match next limits.maxFieldChars .fresh lines with
    | .stop => .ok row
    | .error _ => .error malformed
    | .row _ _ => .error malformed
  match next limits.maxFieldChars .fresh (splitLines record.text) with
  | .stop => second [] []
  | .row row lines => second row lines
  | .error .fieldLimit => .error (fieldTooLargeIssue record lineNumber limits)
  | .error _ => .error malformed

/-! ## Header and row -/

def headerIssue (column : Column) (code : IssueCode) (message : String) (rawData : RawData) :
    ValidationIssue where
  lineNumber := none
  fieldName := some (.column column)
  code := code
  message := message
  rawData := some rawData

def validateHeader (header : List Text) (limits : CsvLimits) : List ValidationIssue :=
  let rawData := boundedRawData [("header", .list header)] limits
  requiredColumns.flatMap fun column =>
    let occurrences := header.count column.name
    if occurrences = 0 then
      [headerIssue column .missingRequiredColumn
        ("Required column '" ++ column.text ++ "' is missing") rawData]
    else if 1 < occurrences then
      [headerIssue column .duplicateRequiredColumn
        ("Required column '" ++ column.text ++ "' appears more than once") rawData]
    else []

def columnIndex (header : List Text) (column : Column) : Nat := header.idxOf column.name

def columnCountIssue (lineNumber : Nat) (row : List Text) (limits : CsvLimits) :
    ValidationIssue where
  lineNumber := some lineNumber
  fieldName := none
  code := .invalidColumnCount
  message := "CSV row has a different number of fields than the header"
  rawData := some (boundedRawData [("values", .list row)] limits)

def requiredIssue (lineNumber : Nat) (rawData : RawData) (column : Column) : ValidationIssue where
  lineNumber := some lineNumber
  fieldName := some (.column column)
  code := .required
  message := "Field '" ++ column.text ++ "' must not be empty"
  rawData := some rawData

def quantityIssue (lineNumber : Nat) (rawData : RawData) (code : IssueCode) (message : String) :
    ValidationIssue where
  lineNumber := some lineNumber
  fieldName := some (.column .quantity)
  code := code
  message := message
  rawData := some rawData

inductive QuantityCheck where
  | value (quantity : Quantity)
  | issue (code : IssueCode) (message : String)

/-- The branches over `quantity_text`; `int` raises on too many digits. -/
def checkQuantity (quantityText : Text) : Except PyException QuantityCheck :=
  if isInteger quantityText = false then
    .ok (.issue .invalidQuantity "Quantity must be a decimal integer")
  else
    match parseInt quantityText with
    | none => .error .valueError
    | some quantity =>
        if negative : quantity < 0 then
          .ok (.issue .quantityNegative "Quantity must be greater than or equal to zero")
        else if large : postgresBigintMax < quantity then
          .ok (.issue .quantityTooLarge "Quantity exceeds the PostgreSQL BIGINT range")
        else .ok (.value ⟨quantity, Int.not_lt.mp negative, Int.not_lt.mp large⟩)

def validateRow (row header : List Text) (index : Column → Nat) (lineNumber : Nat)
    (limits : CsvLimits) : Except PyException (List ValidationIssue × Option ValidatedRow) :=
  if row.length ≠ header.length then .ok ([columnCountIssue lineNumber row limits], none)
  else
    let rawValue (column : Column) : Text := row.getD (index column) []
    let value (column : Column) : Text := strip (rawValue column)
    let rawData := boundedRawData
      (requiredColumns.map fun column => (column.text, .text (rawValue column))) limits
    let missing := (textColumns.filter fun column => value column == []).map
      (requiredIssue lineNumber rawData)
    match checkQuantity (value .quantity) with
    | .error e => .error e
    | .ok (.issue code message) =>
        .ok (missing ++ [quantityIssue lineNumber rawData code message], none)
    | .ok (.value quantity) =>
        if missing ≠ [] then .ok (missing, none)
        else
          .ok ([], some
            { lineNumber := lineNumber
              warehouseCode := value .warehouseCode
              warehouseName := value .warehouseName
              sku := value .sku
              productName := value .productName
              quantity := quantity })

/-! ## The stream -/

inductive StreamEvent where
  /-- `before_next_chunk` and one attempt to get the next chunk. -/
  | fetch
  | validRow (row : ValidatedRow)
  | issues (issues : List ValidationIssue)
  deriving DecidableEq, Repr

structure ValidationRun where
  events : List StreamEvent
  result : Except PyException CsvValidationSummary

def ValidationRun.returns (rowCount : Nat) (reachedEof : Bool) : ValidationRun :=
  ⟨[], .ok ⟨rowCount, reachedEof⟩⟩

def ValidationRun.raises (e : PyException) : ValidationRun := ⟨[], .error e⟩

def ValidationRun.after (event : StreamEvent) (run : ValidationRun) : ValidationRun :=
  ⟨event :: run.events, run.result⟩

def missingHeaderIssue : ValidationIssue where
  lineNumber := none
  fieldName := none
  code := .missingHeader
  message := "CSV header is missing"
  rawData := none

def noDataRowsIssue : ValidationIssue where
  lineNumber := none
  fieldName := none
  code := .noDataRows
  message := "CSV contains no data rows"
  rawData := none

/-- The `for record in records` loop and what follows it.  `lineNumber` is
`logical_line_number` and `rowCount` is `row_count` before the iteration. -/
def validateRecords (limits : CsvLimits) (header : List Text) :
    List StreamItem → (lineNumber rowCount : Nat) → ValidationRun
  | [], _, rowCount =>
      if rowCount = 0 then .after (.issues [noDataRowsIssue]) (.returns rowCount true)
      else .returns rowCount true
  | .fetch :: rest, lineNumber, rowCount =>
      .after .fetch (validateRecords limits header rest lineNumber rowCount)
  | .record record :: rest, lineNumber, rowCount =>
      let continues := validateRecords limits header rest (lineNumber + 1) (rowCount + 1)
      if record.truncated then
        .after (.issues [recordTooLargeIssue (some (lineNumber + 1)) record limits]) continues
      else
        match parseRecord record (some (lineNumber + 1)) limits with
        | .error issue =>
            .after (.issues [issue])
              (if issue.code = .csvFieldTooLarge then continues
              else .returns (rowCount + 1) false)
        | .ok row =>
            if containsSurrogate row then
              .after (.issues [invalidUtf8Issue (some (lineNumber + 1))]) continues
            else
              match validateRow row header (columnIndex header) (lineNumber + 1) limits with
              | .error e => .raises e
              | .ok (issues, validatedRow) =>
                  if issues ≠ [] then .after (.issues issues) continues
                  else
                    match validatedRow with
                    | some validatedRow => .after (.validRow validatedRow) continues
                    | none => continues

/-- From `next(records)` for the header on. -/
def validateItems (limits : CsvLimits) : List StreamItem → ValidationRun
  | [] => .after (.issues [missingHeaderIssue]) (.returns 0 true)
  | .fetch :: rest => .after .fetch (validateItems limits rest)
  | .record headerRecord :: rest =>
      if headerRecord.truncated then
        .after (.issues [recordTooLargeIssue none headerRecord limits]) (.returns 0 false)
      else
        match parseRecord headerRecord none limits with
        | .error issue => .after (.issues [issue]) (.returns 0 false)
        | .ok header =>
            if containsSurrogate header then
              .after (.issues [invalidUtf8Issue none]) (.returns 0 false)
            else if validateHeader header limits ≠ [] then
              .after (.issues (validateHeader header limits)) (.returns 0 false)
            else validateRecords limits header rest 1 0

def validateCsvStream (limits : CsvLimits) (sizes : StreamSizes) (chunks : List Bytes) :
    ValidationRun :=
  if limits.Accepted then validateItems limits (streamItems limits.records sizes chunks)
  else .raises .valueError

/-! ## The callbacks of a run -/

def StreamEvent.isCallback : StreamEvent → Bool
  | .fetch => false
  | .validRow _ => true
  | .issues _ => true

/-- The calls of `on_valid_row` and `on_issues`, in order. -/
def ValidationRun.callbacks (run : ValidationRun) : List StreamEvent :=
  run.events.filter StreamEvent.isCallback

def StreamEvent.rows : StreamEvent → List ValidatedRow
  | .validRow row => [row]
  | _ => []

def StreamEvent.reported : StreamEvent → List ValidationIssue
  | .issues found => found
  | _ => []

def ValidationRun.rows (run : ValidationRun) : List ValidatedRow :=
  run.events.flatMap StreamEvent.rows

def ValidationRun.reported (run : ValidationRun) : List ValidationIssue :=
  run.events.flatMap StreamEvent.reported

end StockImport.Csv
