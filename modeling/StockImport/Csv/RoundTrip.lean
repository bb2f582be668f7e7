import StockImport.Csv.ReaderAgreement

/-!
# Round trip

A file with every field quoted, written with one of the three terminators, with
or without byte order mark, is read back row by row.  The splitter finds exactly
the written records, the reader their fields, and the header names put each
value back in its column.
-/

set_option autoImplicit false

namespace StockImport.Csv

open PyText CsvReader Utf8Escape

/-! ## The written file -/

def doubleQuotes : Text → Text
  | [] => []
  | c :: rest => if c = quote then quote :: quote :: doubleQuotes rest else c :: doubleQuotes rest

def encodeField (value : Text) : Text := quote :: doubleQuotes value ++ [quote]

def encodeRecord : List Text → Text
  | [] => []
  | [value] => encodeField value
  | value :: rest => encodeField value ++ comma :: encodeRecord rest

inductive Terminator where
  | lf
  | cr
  | crlf
  deriving DecidableEq, Repr

def Terminator.text : Terminator → Text
  | .lf => [LF]
  | .cr => [CR]
  | .crlf => [CR, LF]

/-- The character at which the splitter ends a record. -/
def Terminator.first : Terminator → Nat
  | .lf => LF
  | .cr => CR
  | .crlf => CR

def encodeRecords (terminator : Terminator) (records : List (List Text)) : Text :=
  records.flatMap fun record => encodeRecord record ++ terminator.text

/-- A value of a text column that the validation keeps as it is. -/
structure CleanText where
  text : Text
  nonempty : text ≠ []
  trimmed : Trimmed text
  scalars : ∀ c ∈ text, IsScalar c

structure ScalarText where
  text : Text
  scalars : ∀ c ∈ text, IsScalar c

/-- A row to be written; `extra` gives the values of the columns that are not
required, by position. -/
structure InputRow where
  warehouseCode : CleanText
  warehouseName : CleanText
  sku : CleanText
  productName : CleanText
  quantity : Quantity
  extra : Nat → ScalarText

def InputRow.value (row : InputRow) : Column → Text
  | .warehouseCode => row.warehouseCode.text
  | .warehouseName => row.warehouseName.text
  | .sku => row.sku.text
  | .productName => row.productName.text
  | .quantity => decimal row.quantity.value.toNat

def InputRow.validated (row : InputRow) (lineNumber : Nat) : ValidatedRow where
  lineNumber := lineNumber
  warehouseCode := row.warehouseCode.text
  warehouseName := row.warehouseName.text
  sku := row.sku.text
  productName := row.productName.text
  quantity := row.quantity

/-- The five required names, each once, among any other names. -/
structure InputHeader where
  names : List ScalarText
  once : ∀ column ∈ requiredColumns, (names.map ScalarText.text).count column.name = 1

def InputHeader.record (header : InputHeader) : List Text := header.names.map ScalarText.text

def requiredColumn (name : Text) : Option Column :=
  requiredColumns.find? fun column => column.name == name

/-- The field at a position of the header. -/
def InputRow.field (row : InputRow) (position : Nat) (name : Text) : Text :=
  match requiredColumn name with
  | some column => row.value column
  | none => (row.extra position).text

def InputRow.record (row : InputRow) (header : InputHeader) : List Text :=
  header.record.mapIdx row.field

structure InputFile where
  header : InputHeader
  rows : List InputRow
  terminator : Terminator
  marked : Bool

def InputFile.records (file : InputFile) : List (List Text) :=
  file.header.record :: file.rows.map fun row => row.record file.header

def InputFile.text (file : InputFile) : Text := encodeRecords file.terminator file.records

def InputFile.bytes (file : InputFile) : Bytes :=
  (if file.marked then byteOrderMark else []) ++ encode file.text

/-- Every written record, its terminator counted as one character, and every
field are within the limits. -/
def InputFile.Fits (file : InputFile) (limits : CsvLimits) : Prop :=
  ∀ record ∈ file.records, (encodeRecord record).length + 1 ≤ limits.maxRecordChars ∧
    ∀ value ∈ record, value.length ≤ limits.maxFieldChars

instance (file : InputFile) (limits : CsvLimits) : Decidable (file.Fits limits) := by
  unfold InputFile.Fits
  infer_instance

/-! ## The splitter on written records -/

theorem takeRecord_inner {flags next : Flags} {c : Nat} (rest : Text)
    (step : flags.step c = some next) :
    takeRecord flags (c :: rest) = (c :: (takeRecord next rest).1, (takeRecord next rest).2) := by
  rw [takeRecord, step]

theorem takeRecord_boundary {flags : Flags} {c : Nat} (rest : Text)
    (step : flags.step c = none) :
    takeRecord flags (c :: rest) = ([c], some (dropPairedLf c rest)) := by
  rw [takeRecord, step]

def insideQuotes : Flags := ⟨true, false, false⟩
def afterQuote : Flags := ⟨true, true, false⟩

theorem takeRecord_doubleQuotes (value rest : Text) :
    takeRecord insideQuotes (doubleQuotes value ++ quote :: rest) =
      (doubleQuotes value ++ quote :: (takeRecord afterQuote rest).1,
        (takeRecord afterQuote rest).2) := by
  induction value with
  | nil => exact takeRecord_inner rest rfl
  | cons c value ih =>
      by_cases isQuote : c = quote
      · simp only [doubleQuotes, if_pos isQuote, List.cons_append]
        have first : insideQuotes.step quote = some afterQuote := rfl
        have second : afterQuote.step quote = some insideQuotes := rfl
        rw [takeRecord_inner _ first, takeRecord_inner _ second, ih]
      · have step : insideQuotes.step c = some insideQuotes := by
          simp [Flags.step, insideQuotes, isQuote]
        simp only [doubleQuotes, if_neg isQuote, List.cons_append]
        rw [takeRecord_inner _ step, ih]

theorem takeRecord_encodeField (value rest : Text) :
    takeRecord .start (encodeField value ++ rest) =
      (encodeField value ++ (takeRecord afterQuote rest).1, (takeRecord afterQuote rest).2) := by
  have opened := takeRecord_doubleQuotes value rest
  simp only [encodeField, List.cons_append, List.append_assoc, List.nil_append] at opened ⊢
  have start : Flags.start.step quote = some insideQuotes := rfl
  rw [takeRecord_inner _ start, opened]

theorem takeRecord_encodeRecord (c : Nat) (newline : isNewline c = true) (rest : Text) :
    ∀ record : List Text, record ≠ [] →
      takeRecord .start (encodeRecord record ++ c :: rest) =
        (encodeRecord record ++ [c], some (dropPairedLf c rest)) := by
  have notQuote : c ≠ quote := (newline_not_quote newline).1
  have ends : afterQuote.step c = none := by
    simp [Flags.step, afterQuote, notQuote, Flags.outside, newline]
  intro record
  induction record with
  | nil => intro nonempty; exact absurd rfl nonempty
  | cons value record ih =>
      intro _
      cases record with
      | nil =>
          simp only [encodeRecord]
          rw [takeRecord_encodeField, takeRecord_boundary rest ends]
      | cons second record =>
          have later := ih (by simp)
          have step : afterQuote.step comma = some .start := rfl
          simp only [encodeRecord, List.append_assoc, List.cons_append]
          rw [takeRecord_encodeField, takeRecord_inner _ step, later]

theorem encodeRecord_head (record : List Text) (nonempty : record ≠ []) :
    ∃ rest, encodeRecord record = quote :: rest := by
  cases record with
  | nil => exact absurd rfl nonempty
  | cons value record =>
      cases record with
      | nil => exact ⟨_, rfl⟩
      | cons second record => exact ⟨_, rfl⟩

theorem encodeRecords_head (terminator : Terminator) (records : List (List Text))
    (nonempty : ∀ record ∈ records, record ≠ []) :
    (encodeRecords terminator records).head? ≠ some LF := by
  cases records with
  | nil => simp [encodeRecords]
  | cons record records =>
      obtain ⟨rest, shape⟩ := encodeRecord_head record (nonempty record (by simp))
      have different : quote ≠ LF := by decide
      simp [encodeRecords, shape, different]

/-- After the first character of a terminator only the next record is left. -/
theorem dropPairedLf_terminator (terminator : Terminator) (text : Text)
    (head : text.head? ≠ some LF) :
    ∃ paired, terminator.text = terminator.first :: paired ∧
      dropPairedLf terminator.first (paired ++ text) = text := by
  cases terminator with
  | lf => exact ⟨[], rfl, by simp [dropPairedLf, Terminator.first, LF, CR]⟩
  | cr => exact ⟨[], rfl, by simp [dropPairedLf, Terminator.first, head]⟩
  | crlf => exact ⟨[LF], rfl, by simp [dropPairedLf, Terminator.first]⟩

theorem Terminator.first_newline (terminator : Terminator) :
    isNewline terminator.first = true := by
  cases terminator <;> decide

theorem logicalRecords_encodeRecords (terminator : Terminator) :
    ∀ records : List (List Text), (∀ record ∈ records, record ≠ []) →
      logicalRecords (encodeRecords terminator records) =
        records.map fun record => encodeRecord record ++ [terminator.first] := by
  intro records
  induction records with
  | nil => intro _; rfl
  | cons record records ih =>
      intro nonempty
      have later : ∀ other ∈ records, other ≠ [] :=
        fun other member => nonempty other (List.mem_cons_of_mem record member)
      obtain ⟨paired, shape, dropped⟩ := dropPairedLf_terminator terminator
        (encodeRecords terminator records) (encodeRecords_head terminator records later)
      have taken := takeRecord_encodeRecord terminator.first terminator.first_newline
        (paired ++ encodeRecords terminator records) record (nonempty record (by simp))
      have text : encodeRecords terminator (record :: records) =
          encodeRecord record ++ terminator.first :: (paired ++ encodeRecords terminator records) := by
        simp [encodeRecords, shape]
      rw [text, logicalRecords_eq, taken, dropped]
      simp only [List.map_cons]
      rw [ih later]

/-! ## The reader on a written record -/

theorem resume_doubleQuotes (limit : Nat) (fields : List Text) (rest : Text) :
    ∀ (value field : Text), (field ++ value).length ≤ limit →
      resume limit ⟨.inQuotedField, field, fields⟩ (doubleQuotes value ++ quote :: rest) =
        resume limit ⟨.quoteInQuotedField, field ++ value, fields⟩ rest := by
  intro value
  induction value with
  | nil =>
      intro field _
      rw [List.append_nil]
      exact resume_step limit _ _ quote rest rfl (Or.inl (by decide))
  | cons c value ih =>
      intro field fits
      have room : ¬ limit ≤ field.length := by
        simp only [List.length_append, List.length_cons] at fits; omega
      have later := ih (field ++ [c]) (by simpa using fits)
      rw [List.append_assoc, List.singleton_append] at later
      by_cases isQuote : c = quote
      · subst isQuote
        simp only [doubleQuotes, if_true, List.cons_append]
        rw [resume_step limit ⟨.inQuotedField, field, fields⟩
            ⟨.quoteInQuotedField, field, fields⟩ quote _ rfl (Or.inl (by decide)),
          resume_step limit ⟨.quoteInQuotedField, field, fields⟩
            ⟨.inQuotedField, field ++ [quote], fields⟩ quote _
            (by simp [Parser.feedChar, Parser.addChar, room]) (Or.inr rfl)]
        exact later
      · simp only [doubleQuotes, if_neg isQuote, List.cons_append]
        rw [resume_step limit ⟨.inQuotedField, field, fields⟩
          ⟨.inQuotedField, field ++ [c], fields⟩ c _
          (by simp [Parser.feedChar, Parser.addChar, isQuote, room]) (Or.inr rfl)]
        exact later

theorem resume_encodeField (limit : Nat) (state : State) (fields : List Text) (value rest : Text)
    (front : state = .startRecord ∨ state = .startField) (fits : value.length ≤ limit) :
    resume limit ⟨state, [], fields⟩ (encodeField value ++ rest) =
      resume limit ⟨.quoteInQuotedField, value, fields⟩ rest := by
  have opened : Parser.feedChar limit ⟨state, [], fields⟩ quote =
      .ok ⟨.inQuotedField, [], fields⟩ := by
    rcases front with same | same <;> subst same <;> rfl
  have closed := resume_doubleQuotes limit fields rest value [] (by simpa using fits)
  simp only [encodeField, List.cons_append, List.append_assoc, List.nil_append] at closed ⊢
  rw [resume_step limit _ _ quote _ opened (Or.inl (by decide))]
  exact closed

theorem resume_encodeRecord (limit : Nat) (c : Nat) (newline : isNewline c = true) :
    ∀ (record fields : List Text) (state : State), record ≠ [] →
      state = .startRecord ∨ state = .startField → (∀ value ∈ record, value.length ≤ limit) →
        resume limit ⟨state, [], fields⟩ (encodeRecord record ++ [c]) =
          .row (fields ++ record) [] := by
  obtain ⟨notQuote, notComma⟩ := newline_not_quote newline
  intro record
  induction record with
  | nil => intro fields state nonempty; exact absurd rfl nonempty
  | cons value record ih =>
      intro fields state _ front fits
      have first := fits value (by simp)
      cases record with
      | nil =>
          have fed : Parser.feedChar limit ⟨.quoteInQuotedField, value, fields⟩ c =
              .ok ⟨.eatCrNl, [], fields ++ [value]⟩ := by
            simp [Parser.feedChar, Parser.saveField, notQuote, notComma, newline]
          simp only [encodeRecord]
          rw [resume_encodeField limit state fields value _ front first,
            resume_newline limit _ _ c [] newline fed rfl]
          simp [dropPairedLf, splitLines]
      | cons second record =>
          have fed : Parser.feedChar limit ⟨.quoteInQuotedField, value, fields⟩ comma =
              .ok ⟨.startField, [], fields ++ [value]⟩ := rfl
          have later := ih (fields ++ [value]) .startField (by simp) (Or.inr rfl)
            (fun other member => fits other (List.mem_cons_of_mem value member))
          simp only [encodeRecord, List.append_assoc, List.cons_append] at later ⊢
          rw [resume_encodeField limit state fields value _ front first,
            resume_step limit _ _ comma _ fed (Or.inl (by decide)), later]
          simp

/-- A written record as the splitter gives it. -/
def writtenRecord (limits : CsvLimits) (terminator : Terminator) (record : List Text) :
    LogicalCsvRecord :=
  boundRecord limits.records (encodeRecord record ++ [terminator.first])

theorem writtenRecord_whole {limits : CsvLimits} (terminator : Terminator) {record : List Text}
    (short : (encodeRecord record).length + 1 ≤ limits.maxRecordChars) :
    (writtenRecord limits terminator record).truncated = false := by
  simp only [writtenRecord, boundRecord, CsvLimits.records, List.length_append, List.length_cons,
    List.length_nil, decide_eq_false_iff_not]
  omega

theorem parseRecord_encodeRecord (limits : CsvLimits) (terminator : Terminator)
    (record : List Text) (lineNumber : Option Nat) (nonempty : record ≠ [])
    (short : (encodeRecord record).length + 1 ≤ limits.maxRecordChars)
    (fields : ∀ value ∈ record, value.length ≤ limits.maxFieldChars) :
    parseRecord (writtenRecord limits terminator record) lineNumber limits = .ok record := by
  have text : (writtenRecord limits terminator record).text =
      encodeRecord record ++ [terminator.first] := by
    apply boundRecord_text
    simpa [CsvLimits.records] using short
  have row := resume_encodeRecord limits.maxFieldChars terminator.first
    terminator.first_newline record [] .startRecord nonempty (Or.inl rfl) fields
  apply parseRecord_ok
  rw [text]
  obtain ⟨rest, shape⟩ := encodeRecord_head record nonempty
  rw [shape, List.cons_append] at row ⊢
  rw [next_splitLines]
  exact row

/-! ## Header and rows -/

theorem requiredColumn_name (column : Column) : requiredColumn column.name = some column := by
  cases column <;> decide

theorem InputHeader.mem (header : InputHeader) (column : Column) :
    column.name ∈ header.record := by
  have once := header.once column column.required
  exact List.count_pos_iff.mp (by unfold InputHeader.record; omega)

theorem InputHeader.record_ne_nil (header : InputHeader) : header.record ≠ [] :=
  List.ne_nil_of_mem (header.mem .quantity)

theorem validateHeader_inputHeader (header : InputHeader) (limits : CsvLimits) :
    validateHeader header.record limits = [] := by
  simp only [validateHeader, List.flatMap_eq_nil_iff]
  intro column member
  have once : header.record.count column.name = 1 := header.once column member
  simp [once]

theorem InputRow.getD_record (row : InputRow) (header : InputHeader) (column : Column) :
    (row.record header).getD (columnIndex header.record column) [] = row.value column := by
  have within : columnIndex header.record column < header.record.length :=
    List.idxOf_lt_length_of_mem (header.mem column)
  have name : header.record[columnIndex header.record column] = column.name :=
    List.getElem_idxOf within
  have within' : columnIndex header.record column < (row.record header).length := by
    simpa [InputRow.record] using within
  rw [List.getD_eq_getElem?_getD, List.getElem?_eq_getElem within', Option.getD_some]
  simp only [InputRow.record, List.getElem_mapIdx]
  rw [name, InputRow.field, requiredColumn_name]

theorem InputRow.strip_value (row : InputRow) (column : Column) :
    strip (row.value column) = row.value column := by
  cases column with
  | warehouseCode => exact strip_of_trimmed _ row.warehouseCode.trimmed
  | warehouseName => exact strip_of_trimmed _ row.warehouseName.trimmed
  | sku => exact strip_of_trimmed _ row.sku.trimmed
  | productName => exact strip_of_trimmed _ row.productName.trimmed
  | quantity => exact strip_of_trimmed _ (decimal_trimmed _)

theorem InputRow.text_value_ne_nil (row : InputRow) (column : Column)
    (member : column ∈ textColumns) : row.value column ≠ [] := by
  cases column with
  | warehouseCode => exact row.warehouseCode.nonempty
  | warehouseName => exact row.warehouseName.nonempty
  | sku => exact row.sku.nonempty
  | productName => exact row.productName.nonempty
  | quantity => exact absurd member (by decide)

theorem checkQuantity_decimal (quantity : Quantity) :
    checkQuantity (decimal quantity.value.toNat) = .ok (.value quantity) := by
  have exact : ((quantity.value.toNat : Nat) : Int) = quantity.value :=
    Int.toNat_of_nonneg quantity.nonneg
  have bound := quantity.le_max
  have short : (decimal quantity.value.toNat).length ≤ maxIntDigits := by
    have digits := decimal_length quantity.value.toNat 18
      (by unfold postgresBigintMax at bound; omega)
    unfold maxIntDigits
    omega
  unfold checkQuantity
  rw [isInteger_decimal, parseInt_decimal _ short]
  simp only [exact, Bool.true_eq_false, if_false]
  rw [dif_neg (Int.not_lt.mpr quantity.nonneg), dif_neg (Int.not_lt.mpr quantity.le_max)]

theorem validateRow_inputRow (row : InputRow) (header : InputHeader) (lineNumber : Nat)
    (limits : CsvLimits) :
    validateRow (row.record header) header.record (columnIndex header.record) lineNumber limits =
      .ok ([], some (row.validated lineNumber)) := by
  have width : (row.record header).length = header.record.length := by simp [InputRow.record]
  have present : (textColumns.filter fun column => row.value column == []) = [] := by
    simp only [List.filter_eq_nil_iff, beq_iff_eq]
    exact row.text_value_ne_nil
  unfold validateRow
  rw [if_neg (not_not_intro width)]
  simp only [InputRow.getD_record, InputRow.strip_value, present]
  simp only [InputRow.value, checkQuantity_decimal]
  rfl

theorem containsSurrogate_of_scalars (values : List Text)
    (scalars : ∀ value ∈ values, ∀ c ∈ value, IsScalar c) : containsSurrogate values = false := by
  simp only [containsSurrogate, List.any_eq_false, Bool.not_eq_true, Bool.and_eq_false_iff,
    decide_eq_false_iff_not]
  intro value member c inside
  have scalar := scalars value member c inside
  unfold IsScalar at scalar
  omega

theorem decimal_scalars (n : Nat) : ∀ c ∈ decimal n, IsScalar c := by
  intro c member
  have digit := decimal_digits n c member
  simp only [isDigit, Bool.and_eq_true, decide_eq_true_eq] at digit
  exact Or.inl (by omega)

theorem InputRow.value_scalars (row : InputRow) (column : Column) :
    ∀ c ∈ row.value column, IsScalar c := by
  cases column with
  | warehouseCode => exact row.warehouseCode.scalars
  | warehouseName => exact row.warehouseName.scalars
  | sku => exact row.sku.scalars
  | productName => exact row.productName.scalars
  | quantity => exact decimal_scalars _

theorem InputRow.record_scalars (row : InputRow) (header : InputHeader) :
    ∀ value ∈ row.record header, ∀ c ∈ value, IsScalar c := by
  intro value member
  obtain ⟨position, _, rfl⟩ := List.mem_mapIdx.mp member
  unfold InputRow.field
  split
  · exact row.value_scalars _
  · exact (row.extra position).scalars

theorem InputHeader.record_scalars (header : InputHeader) :
    ∀ value ∈ header.record, ∀ c ∈ value, IsScalar c := by
  intro value member
  obtain ⟨name, _, rfl⟩ := List.mem_map.mp member
  exact name.scalars

theorem InputRow.record_ne_nil (row : InputRow) (header : InputHeader) :
    row.record header ≠ [] := by
  intro empty
  have width : (row.record header).length = header.record.length := by simp [InputRow.record]
  rw [empty] at width
  exact header.record_ne_nil (List.eq_nil_of_length_eq_zero width.symm)

theorem InputFile.records_ne_nil (file : InputFile) : ∀ record ∈ file.records, record ≠ [] := by
  intro record member
  rcases List.mem_cons.mp member with same | later
  · exact same ▸ file.header.record_ne_nil
  · obtain ⟨row, _, rfl⟩ := List.mem_map.mp later
    exact row.record_ne_nil file.header

/-! ## The bytes -/

theorem doubleQuotes_scalars (value : Text) (scalars : ∀ c ∈ value, IsScalar c) :
    ∀ c ∈ doubleQuotes value, IsScalar c := by
  have quoteScalar : IsScalar quote := by decide
  induction value with
  | nil => simp [doubleQuotes]
  | cons d value ih =>
      have later := ih (fun c member => scalars c (List.mem_cons_of_mem d member))
      have first := scalars d (by simp)
      unfold doubleQuotes
      split
      · simpa [quoteScalar] using later
      · simpa [first] using later

theorem encodeField_scalars (value : Text) (scalars : ∀ c ∈ value, IsScalar c) :
    ∀ c ∈ encodeField value, IsScalar c := by
  have quoteScalar : IsScalar quote := by decide
  have inner := doubleQuotes_scalars value scalars
  intro c member
  simp only [encodeField, List.cons_append, List.mem_cons, List.mem_append, List.not_mem_nil,
    or_false] at member
  rcases member with same | inside | same
  · exact same ▸ quoteScalar
  · exact inner c inside
  · exact same ▸ quoteScalar

theorem encodeRecord_scalars : ∀ record : List Text,
    (∀ value ∈ record, ∀ c ∈ value, IsScalar c) → ∀ c ∈ encodeRecord record, IsScalar c := by
  have commaScalar : IsScalar comma := by decide
  intro record
  induction record with
  | nil => intro _ c member; simp [encodeRecord] at member
  | cons value record ih =>
      intro scalars
      have first := encodeField_scalars value (scalars value (by simp))
      have later := ih (fun other member => scalars other (List.mem_cons_of_mem value member))
      cases record with
      | nil => exact first
      | cons second record =>
          intro c member
          simp only [encodeRecord, List.mem_append, List.mem_cons] at member
          rcases member with inside | same | inside
          · exact first c inside
          · exact same ▸ commaScalar
          · exact later c (by simpa [encodeRecord] using inside)

theorem encodeRecords_scalars (terminator : Terminator) (records : List (List Text))
    (scalars : ∀ record ∈ records, ∀ value ∈ record, ∀ c ∈ value, IsScalar c) :
    ∀ c ∈ encodeRecords terminator records, IsScalar c := by
  have ends : ∀ c ∈ terminator.text, IsScalar c := by cases terminator <;> decide
  intro c member
  obtain ⟨record, inside, inText⟩ := List.mem_flatMap.mp member
  rcases List.mem_append.mp inText with written | terminates
  · exact encodeRecord_scalars record (scalars record inside) c written
  · exact ends c terminates

theorem InputFile.decode_bytes (file : InputFile) : decode file.bytes = file.text := by
  have scalars : ∀ c ∈ file.text, IsScalar c := by
    apply encodeRecords_scalars
    intro record member
    rcases List.mem_cons.mp member with same | later
    · exact same ▸ file.header.record_scalars
    · obtain ⟨row, _, rfl⟩ := List.mem_map.mp later
      exact row.record_scalars file.header
  unfold InputFile.bytes
  cases file.marked with
  | true => exact decode_mark_encode file.text scalars
  | false =>
      obtain ⟨rest, shape⟩ := encodeRecord_head file.header.record file.header.record_ne_nil
      have text : ∃ tail, file.text = quote :: tail := by
        simp [InputFile.text, encodeRecords, InputFile.records, shape]
      obtain ⟨tail, text⟩ := text
      rw [text] at scalars ⊢
      exact decode_encode_of_ascii quote tail (by decide) scalars

/-! ## The round trip -/

theorem validateRecords_inputRows (limits : CsvLimits) (header : InputHeader)
    (terminator : Terminator) : ∀ (rows : List InputRow) (lineNumber rowCount : Nat),
      (rows = [] → rowCount ≠ 0) →
      (∀ row ∈ rows, (encodeRecord (row.record header)).length + 1 ≤ limits.maxRecordChars ∧
        ∀ value ∈ row.record header, value.length ≤ limits.maxFieldChars) →
      validateRecords limits header.record
          (rows.map fun row => .record (writtenRecord limits terminator (row.record header)))
          lineNumber rowCount =
        ⟨rows.mapIdx fun i row => .validRow (row.validated (i + (lineNumber + 1))),
          .ok ⟨rowCount + rows.length, true⟩⟩ := by
  intro rows
  induction rows with
  | nil =>
      intro lineNumber rowCount counted _
      simp [validateRecords, counted rfl, ValidationRun.returns]
  | cons row rows ih =>
      intro lineNumber rowCount _ fits
      obtain ⟨short, fields⟩ := fits row (by simp)
      have parsed := parseRecord_encodeRecord limits terminator (row.record header)
        (some (lineNumber + 1)) (row.record_ne_nil header) short fields
      have clean := containsSurrogate_of_scalars _ (row.record_scalars header)
      have later := ih (lineNumber + 1) (rowCount + 1) (by simp)
        (fun other member => fits other (List.mem_cons_of_mem row member))
      simp only [List.map_cons, validateRecords, writtenRecord_whole terminator short, parsed,
        clean, validateRow_inputRow, Bool.false_eq_true, if_false, ne_eq,
        not_true_eq_false, later]
      simp only [ValidationRun.after, List.mapIdx_cons, List.length_cons, Nat.zero_add,
        Nat.add_comm, Nat.add_left_comm]

/-- A written file is read back row by row, wherever its bytes are cut. -/
theorem round_trip (limits : CsvLimits) (file : InputFile) (chunking : Chunking file.bytes)
    (sizes : StreamSizes) (accepted : limits.Accepted) (nonempty : file.rows ≠ [])
    (fits : file.Fits limits) :
    (validateCsvStream limits sizes chunking.chunks).callbacks =
        file.rows.mapIdx (fun i row => .validRow (row.validated (i + 2))) ∧
      (validateCsvStream limits sizes chunking.chunks).result = .ok ⟨file.rows.length, true⟩ := by
  obtain ⟨callbacks, result⟩ := validateCsvStream_agrees limits sizes chunking.chunks
  rw [callbacks, result, chunking.joined]
  have records : (logicalRecords (decode file.bytes)).map (boundRecord limits.records) =
      file.records.map (writtenRecord limits file.terminator) := by
    rw [file.decode_bytes, InputFile.text,
      logicalRecords_encodeRecords file.terminator file.records file.records_ne_nil, List.map_map]
    rfl
  obtain ⟨shortHeader, headerFields⟩ := fits file.header.record (by simp [InputFile.records])
  have parsed := parseRecord_encodeRecord limits file.terminator file.header.record none
    file.header.record_ne_nil shortHeader headerFields
  have rows := validateRecords_inputRows limits file.header file.terminator file.rows 1 0
    (fun empty => absurd empty nonempty)
    (fun row member => fits _ (List.mem_cons_of_mem _ (List.mem_map_of_mem member)))
  have run : validateBytes limits file.bytes =
      ⟨file.rows.mapIdx fun i row => .validRow (row.validated (i + 2)),
        .ok ⟨file.rows.length, true⟩⟩ := by
    unfold validateBytes
    rw [if_pos accepted, records]
    simp only [InputFile.records, List.map_cons, List.map_map, validateItems,
      writtenRecord_whole file.terminator shortHeader, Bool.false_eq_true, if_false]
    simp only [parsed, containsSurrogate_of_scalars _ file.header.record_scalars,
      validateHeader_inputHeader, Bool.false_eq_true, if_false, ne_eq, not_true_eq_false]
    simp only [Nat.zero_add] at rows
    exact rows
  rw [run]
  refine ⟨?_, rfl⟩
  simp only [ValidationRun.callbacks, List.filter_eq_self]
  intro event member
  obtain ⟨i, _, rfl⟩ := List.mem_mapIdx.mp member
  rfl

/-- An extra column in front, a name with a quote and a line break, CRLF
terminators and a byte order mark. -/
def sampleFile : InputFile where
  header :=
    { names :=
        [⟨ofString "note, old", by decide⟩, ⟨ofString "quantity", by decide⟩,
          ⟨ofString "sku", by decide⟩, ⟨ofString "product_name", by decide⟩,
          ⟨ofString "warehouse_code", by decide⟩, ⟨ofString "warehouse_name", by decide⟩]
      once := by decide }
  rows :=
    [{ warehouseCode := ⟨ofString "W1", by decide, by decide, by decide⟩
       warehouseName := ⟨ofString "a \"b\"\r\nc", by decide, by decide, by decide⟩
       sku := ⟨ofString "5,5", by decide, by decide, by decide⟩
       productName := ⟨ofString "é", by decide, by decide, by decide⟩
       quantity := ⟨120, by decide, by decide⟩
       extra := fun _ => ⟨ofString " ", by decide⟩ }]
  terminator := .crlf
  marked := true

def sampleLimits : CsvLimits := ⟨14, 100, 10, 20⟩

/-- Every chunk is one byte. -/
def byteByByte (bytes : Bytes) : Chunking bytes where
  chunks := bytes.map fun byte => [byte]
  joined := by induction bytes with
    | nil => rfl
    | cons byte rest ih => simpa using ih

def sampleSizes : StreamSizes := ⟨fun _ => 3, fun _ => by decide, 2, by decide⟩

theorem round_trip_sampleFile :
    (validateCsvStream sampleLimits sampleSizes (byteByByte sampleFile.bytes).chunks).callbacks =
        sampleFile.rows.mapIdx (fun i row => .validRow (row.validated (i + 2))) ∧
      (validateCsvStream sampleLimits sampleSizes (byteByByte sampleFile.bytes).chunks).result =
        .ok ⟨1, true⟩ :=
  round_trip sampleLimits sampleFile (byteByByte sampleFile.bytes) sampleSizes (by decide)
    (by decide) (by decide +kernel)

end StockImport.Csv
