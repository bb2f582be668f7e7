import StockImport.Csv.Validation

/-!
# One row

What `_validate_row` answers for a row under an accepted header: the row itself, or
one issue for each empty text column and one for a bad quantity.  `int` refuses a
text of more than 4300 digits, where the code raises instead.
-/

set_option autoImplicit false

namespace StockImport.Csv

open PyText

/-- The text of a column as the row is tested. -/
def fieldText (row header : List Text) (column : Column) : Text :=
  strip (row.getD (columnIndex header column) [])

/-- The rows that validation accepts. -/
structure RowAccepted (row header : List Text) : Prop where
  count : row.length = header.length
  texts : ∀ column ∈ textColumns, fieldText row header column ≠ []
  quantity : ∃ value, Denotes (fieldText row header .quantity) value ∧ 0 ≤ value ∧
    value ≤ postgresBigintMax

/-- The stripped values of a row under its number. -/
structure Carries (row header : List Text) (lineNumber : Nat) (validated : ValidatedRow) :
    Prop where
  lineNumber : validated.lineNumber = lineNumber
  warehouseCode : validated.warehouseCode = fieldText row header .warehouseCode
  warehouseName : validated.warehouseName = fieldText row header .warehouseName
  sku : validated.sku = fieldText row header .sku
  productName : validated.productName = fieldText row header .productName
  quantity : Denotes (fieldText row header .quantity) validated.quantity.value

/-- What is wrong with a quantity. -/
def QuantityFault (text : Text) : IssueCode → Prop
  | .invalidQuantity => ∀ value, ¬ Denotes text value
  | .quantityNegative => ∃ value, Denotes text value ∧ value < 0
  | .quantityTooLarge => ∃ value, Denotes text value ∧ postgresBigintMax < value
  | _ => False

def missingColumns (row header : List Text) : List Column :=
  textColumns.filter fun column => fieldText row header column == []

def requiredFault (column : Column) : Option FieldName × IssueCode :=
  (some (.column column), .required)

def ValidationIssue.fault (issue : ValidationIssue) : Option FieldName × IssueCode :=
  (issue.fieldName, issue.code)

/-- The answers that a row may get. -/
inductive RowAnswer (row header : List Text) (lineNumber : Nat) :
    List ValidationIssue × Option ValidatedRow → Prop
  | accepted (validated : ValidatedRow) (accepted : RowAccepted row header)
      (carries : Carries row header lineNumber validated) :
      RowAnswer row header lineNumber ([], some validated)
  | count (issue : ValidationIssue) (different : row.length ≠ header.length)
      (line : issue.lineNumber = some lineNumber)
      (fault : issue.fault = (none, .invalidColumnCount)) :
      RowAnswer row header lineNumber ([issue], none)
  | fields (issues : List ValidationIssue) (quantity : List IssueCode)
      (same : row.length = header.length) (rejected : ¬ RowAccepted row header)
      (lines : ∀ issue ∈ issues, issue.lineNumber = some lineNumber)
      (faults : issues.map ValidationIssue.fault =
        (missingColumns row header).map requiredFault ++
          quantity.map fun code => (some (.column .quantity), code))
      (one : (∃ code, quantity = [code] ∧ QuantityFault (fieldText row header .quantity) code) ∨
        quantity = [] ∧ ∀ code, ¬ QuantityFault (fieldText row header .quantity) code) :
      RowAnswer row header lineNumber (issues, none)

/-- The columns are found in the row, and the row gets its answer. -/
structure RowValidated (limits : CsvLimits) (row header : List Text) (lineNumber : Nat) :
    Prop where
  indexes : row.length = header.length → ∀ column, columnIndex header column < row.length
  answers : ∃ answer, validateRow row header (columnIndex header) lineNumber limits = .ok answer ∧
    RowAnswer row header lineNumber answer

theorem columnIndex_lt {header : List Text} {limits : CsvLimits}
    (accepted : validateHeader header limits = []) (column : Column) :
    columnIndex header column < header.length := by
  refine List.idxOf_lt_length_of_mem (List.count_pos_iff.mp ?_)
  simp only [validateHeader, List.flatMap_eq_nil_iff] at accepted
  have none := accepted column column.required
  by_contra absent
  rw [if_pos (Nat.eq_zero_of_not_pos absent)] at none
  cases none

/-! ## The quantity -/

/-- The answers of `checkQuantity`, and where it raises. -/
theorem checkQuantity_cases (text : Text) :
    (isInteger text = true ∧ maxIntDigits < (splitSign text).2.length ∧
        checkQuantity text = .error .valueError) ∨
      (isInteger text = true → (splitSign text).2.length ≤ maxIntDigits) ∧
        ((∃ quantity, checkQuantity text = .ok (.value quantity) ∧
            Denotes text quantity.value) ∨
          ∃ code message, checkQuantity text = .ok (.issue code message) ∧
            QuantityFault text code) := by
  unfold checkQuantity
  cases matched : isInteger text with
  | false =>
      refine Or.inr ⟨by simp, Or.inr ⟨_, _, rfl, ?_⟩⟩
      intro value denotes
      have integer := (isInteger_iff text).mpr ⟨value, denotes⟩
      rw [matched] at integer
      cases integer
  | true =>
      obtain ⟨value, denotes⟩ := (isInteger_iff text).mp matched
      rw [denotes.parseInt]
      by_cases long : maxIntDigits < (splitSign text).2.length
      · rw [if_pos long]
        exact Or.inl ⟨rfl, long, rfl⟩
      · rw [if_neg long]
        refine Or.inr ⟨fun _ => Nat.le_of_not_lt long, ?_⟩
        simp only [Bool.true_eq_false, if_false]
        by_cases negative : value < 0
        · exact Or.inr ⟨.quantityNegative, _, dif_pos negative, value, denotes, negative⟩
        · by_cases large : postgresBigintMax < value
          · exact Or.inr ⟨.quantityTooLarge, _, (dif_neg negative).trans (dif_pos large),
              value, denotes, large⟩
          · exact Or.inl ⟨⟨value, Int.not_lt.mp negative, Int.not_lt.mp large⟩,
              (dif_neg negative).trans (dif_neg large), denotes⟩

/-- A quantity that is in range has no fault. -/
theorem not_quantityFault {text : Text} {quantity : Quantity}
    (denotes : Denotes text quantity.value) (code : IssueCode) : ¬ QuantityFault text code := by
  intro fault
  have nonneg := quantity.nonneg
  have bound := quantity.le_max
  cases code with
  | invalidQuantity => exact fault _ denotes
  | quantityNegative =>
      obtain ⟨value, other, negative⟩ := fault
      rw [other.unique denotes] at negative
      omega
  | quantityTooLarge =>
      obtain ⟨value, other, large⟩ := fault
      rw [other.unique denotes] at large
      omega
  | _ => exact fault

theorem RowAccepted.not_quantityFault {row header : List Text} (accepted : RowAccepted row header)
    (code : IssueCode) : ¬ QuantityFault (fieldText row header .quantity) code := by
  obtain ⟨value, denotes, nonneg, bound⟩ := accepted.quantity
  have quantity : Denotes (fieldText row header .quantity)
      (Quantity.mk value nonneg bound).value := denotes
  exact Csv.not_quantityFault quantity code

/-! ## The row -/

theorem missingColumns_eq_nil {row header : List Text} :
    missingColumns row header = [] ↔ ∀ column ∈ textColumns, fieldText row header column ≠ [] := by
  simp [missingColumns, List.filter_eq_nil_iff]

/-- The five fields of a row as an issue shows them. -/
def fieldData (row header : List Text) (limits : CsvLimits) : RawData :=
  boundedRawData (requiredColumns.map fun column =>
    (column.text, .text (row.getD (columnIndex header column) []))) limits

def missingIssues (row header : List Text) (lineNumber : Nat) (limits : CsvLimits) :
    List ValidationIssue :=
  (missingColumns row header).map (requiredIssue lineNumber (fieldData row header limits))

theorem missingIssues_eq_nil {row header : List Text} {lineNumber : Nat} {limits : CsvLimits} :
    missingIssues row header lineNumber limits = [] ↔ missingColumns row header = [] :=
  List.map_eq_nil_iff

/-- A row with as many fields as its header. -/
theorem validateRow_same {row header : List Text} (same : row.length = header.length)
    (lineNumber : Nat) (limits : CsvLimits) :
    validateRow row header (columnIndex header) lineNumber limits =
      match checkQuantity (fieldText row header .quantity) with
      | .error e => .error e
      | .ok (.issue code message) =>
          .ok (missingIssues row header lineNumber limits ++
            [quantityIssue lineNumber (fieldData row header limits) code message], none)
      | .ok (.value quantity) =>
          if missingIssues row header lineNumber limits ≠ [] then
            .ok (missingIssues row header lineNumber limits, none)
          else
            .ok ([], some
              { lineNumber := lineNumber
                warehouseCode := fieldText row header .warehouseCode
                warehouseName := fieldText row header .warehouseName
                sku := fieldText row header .sku
                productName := fieldText row header .productName
                quantity := quantity }) := by
  unfold validateRow
  rw [if_neg (not_not_intro same)]
  rfl

/-- A row with the fields of its header, unless `int` refuses its quantity. -/
theorem validateRow_fields {row header : List Text} {lineNumber : Nat} {limits : CsvLimits}
    (same : row.length = header.length)
    (short : isInteger (fieldText row header .quantity) = true →
      (splitSign (fieldText row header .quantity)).2.length ≤ maxIntDigits) :
    ∃ answer, validateRow row header (columnIndex header) lineNumber limits = .ok answer ∧
      RowAnswer row header lineNumber answer := by
  rw [validateRow_same same]
  have lines : ∀ issue ∈ missingIssues row header lineNumber limits,
      issue.lineNumber = some lineNumber := by
    intro issue member
    obtain ⟨column, _, rfl⟩ := List.mem_map.mp member
    rfl
  have faults : (missingIssues row header lineNumber limits).map ValidationIssue.fault =
      (missingColumns row header).map requiredFault := by
    rw [missingIssues, List.map_map]
    rfl
  rcases checkQuantity_cases (fieldText row header .quantity) with
    ⟨integer, long, _⟩ | ⟨_, ⟨quantity, checked, denotes⟩ | ⟨code, message, checked, fault⟩⟩
  · exact absurd (short integer) (Nat.not_le_of_lt long)
  · simp only [checked]
    by_cases missing : missingColumns row header = []
    · rw [if_neg (not_not_intro (missingIssues_eq_nil.mpr missing))]
      refine ⟨_, rfl, .accepted _ ⟨same, missingColumns_eq_nil.mp missing, ?_⟩ ?_⟩
      · exact ⟨quantity.value, denotes, quantity.nonneg, quantity.le_max⟩
      · exact ⟨rfl, rfl, rfl, rfl, rfl, denotes⟩
    · rw [if_pos (fun none => missing (missingIssues_eq_nil.mp none))]
      refine ⟨_, rfl, .fields _ [] same ?_ lines ?_ (Or.inr ⟨rfl, not_quantityFault denotes⟩)⟩
      · exact fun accepted => missing (missingColumns_eq_nil.mpr accepted.texts)
      · rw [faults]
        simp
  · simp only [checked]
    refine ⟨_, rfl, .fields _ [code] same ?_ ?_ ?_ (Or.inl ⟨code, rfl, fault⟩)⟩
    · exact fun accepted => accepted.not_quantityFault code fault
    · intro issue member
      rcases List.mem_append.mp member with required | quantity
      · exact lines issue required
      · rw [List.mem_singleton.mp quantity]
        rfl
    · rw [List.map_append, faults]
      rfl

/-- A quantity of too many digits makes the row raise. -/
theorem validateRow_raises {row header : List Text} {lineNumber : Nat} {limits : CsvLimits}
    (same : row.length = header.length)
    (integer : isInteger (fieldText row header .quantity) = true)
    (long : maxIntDigits < (splitSign (fieldText row header .quantity)).2.length) :
    validateRow row header (columnIndex header) lineNumber limits = .error .valueError := by
  rw [validateRow_same same]
  rcases checkQuantity_cases (fieldText row header .quantity) with
    ⟨_, _, raised⟩ | ⟨short, _⟩
  · simp only [raised]
  · exact absurd (short integer) (Nat.not_le_of_lt long)

/-! ## Where int refuses -/

def plainHeader : List Text := requiredColumns.map Column.name

/-- The limits that the service starts with. -/
def defaultLimits : CsvLimits := ⟨1048576, 4194304, 1024, 4096⟩

/-- A row whose quantity is zero, in so many digits. -/
def zerosRow (digits : Nat) : List Text :=
  [ofString "W", ofString "w", ofString "S", ofString "s", List.replicate digits 48]

theorem zerosRow_quantity (digits : Nat) :
    fieldText (zerosRow digits) plainHeader .quantity = List.replicate digits 48 := by
  refine strip_of_trimmed _ ⟨?_, ?_⟩
  · intro c first
    rw [List.eq_of_mem_replicate (List.mem_of_mem_head? first)]
    rfl
  · intro c last
    rw [List.eq_of_mem_replicate (List.mem_of_mem_getLast? last)]
    rfl

theorem replicate_zeros_digits (digits : Nat) : ∀ c ∈ List.replicate digits 48,
    isDigit c = true := by
  intro c member
  rw [List.eq_of_mem_replicate member]
  rfl

theorem zerosRow_denotes {digits : Nat} (positive : 0 < digits) :
    Denotes (fieldText (zerosRow digits) plainHeader .quantity)
      (digitsValue (List.replicate digits 48)) := by
  rw [zerosRow_quantity]
  refine .unsigned _ ?_ (replicate_zeros_digits digits)
  rw [ne_eq, List.replicate_eq_nil_iff]
  exact Nat.ne_of_gt positive

/-- The quantity has a value, and the row raises. -/
theorem zerosRow_raises {digits : Nat} (long : maxIntDigits < digits) (lineNumber : Nat) :
    ¬ RowValidated defaultLimits (zerosRow digits) plainHeader lineNumber := by
  intro validated
  obtain ⟨answer, returned, _⟩ := validated.answers
  have denotes := zerosRow_denotes (Nat.zero_lt_of_lt long)
  have same : (zerosRow digits).length = plainHeader.length := rfl
  rw [validateRow_raises same ((isInteger_iff _).mpr ⟨_, denotes⟩)] at returned
  · cases returned
  · rw [zerosRow_quantity, splitSign_digits _ (replicate_zeros_digits digits),
      List.length_replicate]
    exact long

theorem zerosRow_not_validated :
    validateHeader plainHeader defaultLimits = [] ∧
      (∃ value, Denotes (fieldText (zerosRow 4301) plainHeader .quantity) value) ∧
      ¬ RowValidated defaultLimits (zerosRow 4301) plainHeader 2 :=
  ⟨by decide +kernel, ⟨_, zerosRow_denotes (Nat.succ_pos 4300)⟩,
    zerosRow_raises (by unfold maxIntDigits; omega) 2⟩

/-- Under an accepted header a row gets its answer exactly where `int` takes its
quantity. -/
theorem row_validated (limits : CsvLimits) (header : List Text)
    (accepted : validateHeader header limits = []) (row : List Text) (lineNumber : Nat) :
    RowValidated limits row header lineNumber ↔
      (row.length = header.length → isInteger (fieldText row header .quantity) = true →
        (splitSign (fieldText row header .quantity)).2.length ≤ maxIntDigits) := by
  constructor
  · intro validated same integer
    obtain ⟨answer, returned, _⟩ := validated.answers
    by_contra long
    rw [validateRow_raises same integer (Nat.lt_of_not_le long)] at returned
    cases returned
  · intro short
    refine ⟨fun same column => same ▸ columnIndex_lt accepted column, ?_⟩
    by_cases same : row.length = header.length
    · exact validateRow_fields same (short same)
    · refine ⟨_, by rw [validateRow, if_pos same], .count _ same rfl rfl⟩

theorem row_validated_zerosRow : RowValidated defaultLimits (zerosRow 3) plainHeader 2 :=
  (row_validated defaultLimits plainHeader (by decide +kernel) (zerosRow 3) 2).mpr fun _ _ => by
    decide +kernel

end StockImport.Csv
