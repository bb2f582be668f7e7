import StockImport.Csv.Storable
import StockImport.Db.Schema

/-!
# Undecodable bytes

A byte that is no UTF-8 is decoded to an escape.  The reader keeps every escape of a
record that it can read, so the record is answered by an issue without raw data; only
the preview of a record that is too large, which is cut from it before it is parsed,
can show one.  The issues of such a file can be stored where no NUL is shown beside
them either.
-/

set_option autoImplicit false

namespace StockImport.Csv

open PyText CsvReader Utf8Escape Db

/-- The code points that stand for undecodable bytes. -/
def isEscape (c : Nat) : Bool := 0xDC80 ≤ c && c ≤ 0xDCFF

theorem surrogate_plain {c : Nat} (surrogate : 0xD800 ≤ c ∧ c ≤ 0xDFFF) : isPlain c = true := by
  have different : c ≠ CR ∧ c ≠ LF ∧ c ≠ quote ∧ c ≠ comma := by
    unfold CR LF quote comma
    omega
  simp [isPlain, isNewline, different]

theorem isEscape_plain {c : Nat} (escape : isEscape c = true) : isPlain c = true := by
  simp only [isEscape, Bool.and_eq_true, decide_eq_true_eq] at escape
  exact surrogate_plain (by omega)

theorem plain_not_LF {c : Nat} (plain : isPlain c = true) : c ≠ LF := by
  rintro rfl
  cases plain

theorem containsSurrogate_eq_false {row : List Text} :
    containsSurrogate row = false ↔ ∀ text ∈ row, Free isEscape text := by
  simp [containsSurrogate, Free, isEscape]

theorem not_free {bad : Nat → Bool} {text : Text} :
    ¬ Free bad text ↔ ∃ c ∈ text, bad c = true := by
  simp [Free]

/-! ## The escapes of a record -/

/-- A row has the characters of its record, but for commas, quotes and line ends. -/
theorem row_plain {limits : CsvLimits} {record : LogicalCsvRecord} {row : List Text}
    (parsed : recordKind limits record = .row row) :
    row.flatten.filter isPlain = record.text.filter isPlain := by
  unfold recordKind at parsed
  split at parsed
  · cases parsed
  · split at parsed
    · next stop =>
        cases parsed
        have empty := splitLines_flatten record.text
        rw [(next_stop _ _ stop).1] at empty
        rw [← empty]
    · cases parsed
    · cases parsed
    · next fields lines read =>
        split at parsed
        · next stop =>
            cases parsed
            obtain ⟨taken, shape, plain⟩ := next_plain _ _ _ _ Parser.fresh_settled read
            rw [(next_stop _ _ stop).1, List.append_nil] at shape
            rw [plain, ← shape, splitLines_flatten]
            rfl
        · cases parsed

/-- A row has the escapes of its record. -/
theorem row_escaped {limits : CsvLimits} {text : Text} {row : List Text}
    (parsed : recordKind limits (boundRecord limits.records text) = .row row)
    (escaped : ¬ Free isEscape text) : containsSurrogate row = true := by
  rw [← Bool.not_eq_false, containsSurrogate_eq_false]
  intro decoded
  have whole : (boundRecord limits.records text).text = text := by
    refine boundRecord_text (Nat.le_of_not_lt fun long => ?_)
    have cut : (boundRecord limits.records text).truncated = true := decide_eq_true long
    rw [recordKind, if_pos cut] at parsed
    cases parsed
  obtain ⟨c, member, escape⟩ := not_free.mp escaped
  have kept : c ∈ row.flatten.filter isPlain := by
    rw [row_plain parsed, whole]
    exact List.mem_filter.mpr ⟨member, isEscape_plain escape⟩
  obtain ⟨field, inRow, inField⟩ := List.mem_flatten.mp (List.mem_filter.mp kept).1
  rw [decoded field inRow c inField] at escape
  cases escape

/-- A record with an escape gets an issue. -/
theorem checkRecord_escaped {limits : CsvLimits} {header : List Text} {lineNumber : Nat}
    {text : Text} {event : StreamEvent} {continues : Bool} (escaped : ¬ Free isEscape text)
    (checked : checkRecord limits header lineNumber (boundRecord limits.records text) =
      .ok (event, continues)) : ∃ found, found ≠ [] ∧ event = .issues found := by
  rw [checkRecord_kind] at checked
  cases kind : recordKind limits (boundRecord limits.records text) with
  | oversized =>
      simp only [kind] at checked
      cases checked
      exact ⟨_, List.cons_ne_nil _ _, rfl⟩
  | fieldTooLarge =>
      simp only [kind] at checked
      cases checked
      exact ⟨_, List.cons_ne_nil _ _, rfl⟩
  | malformed =>
      simp only [kind] at checked
      cases checked
      exact ⟨_, List.cons_ne_nil _ _, rfl⟩
  | row row =>
      simp only [kind, row_escaped kind escaped, if_true] at checked
      cases checked
      exact ⟨_, List.cons_ne_nil _ _, rfl⟩

/-- The records have the characters of the text, but for LFs in between. -/
theorem recordsFrom_mem {c : Nat} (kept : c ≠ LF) : ∀ (text : Text) (skipLf : Bool) (flags : Flags)
    (sofar : Text), (∃ record ∈ recordsFrom skipLf flags sofar text, c ∈ record) ↔
      c ∈ sofar ++ text := by
  intro text
  induction text with
  | nil =>
      intro skipLf flags sofar
      by_cases empty : sofar = []
      · simp [recordsFrom, empty]
      · simp [recordsFrom, empty]
  | cons d rest ih =>
      intro skipLf flags sofar
      unfold recordsFrom
      split
      · next skipped =>
          have different : c ≠ d := fun same => kept (same.trans skipped.2)
          rw [ih]
          simp [different]
      · split
        · simp only [List.exists_mem_cons_iff, ih]
          simp [or_assoc]
        · rw [ih]
          simp

theorem logicalRecords_escaped {text : Text} (escaped : ¬ Free isEscape text) :
    ∃ record ∈ logicalRecords text, ¬ Free isEscape record := by
  obtain ⟨c, member, escape⟩ := not_free.mp escaped
  obtain ⟨record, inRecords, inRecord⟩ :=
    (recordsFrom_mem (plain_not_LF (isEscape_plain escape)) text false .start []).mpr member
  exact ⟨record, inRecords, not_free.mpr ⟨c, inRecord, escape⟩⟩

theorem record_in_file {text record : Text} (member : record ∈ logicalRecords text)
    (escaped : ¬ Free isEscape record) : ¬ Free isEscape text := by
  obtain ⟨c, inRecord, escape⟩ := not_free.mp escaped
  have inText := (recordsFrom_mem (plain_not_LF (isEscape_plain escape)) text false .start []).mp
    ⟨record, member, inRecord⟩
  exact not_free.mpr ⟨c, inText, escape⟩

/-! ## What is shown without escapes -/

theorem free_take {bad : Nat → Bool} {text : Text} (free : Free bad text) (count : Nat) :
    Free bad (text.take count) := fun c member => free c (List.mem_of_mem_take member)

theorem free_strip {bad : Nat → Bool} {text : Text} (free : Free bad text) :
    Free bad (strip text) :=
  fun c member => free c ((List.dropWhile_sublist _).subset
    ((List.rdropWhile_prefix _ _).subset member))

theorem shownTexts_free {bad : Nat → Bool} {valueLimit : Nat} : ∀ (texts : List Text)
    (remaining : Nat), (∀ text ∈ texts, Free bad text) →
      ∀ text ∈ shownTexts valueLimit remaining texts, Free bad text := by
  intro texts
  induction texts with
  | nil =>
      intro remaining _ text member
      cases member
  | cons first rest ih =>
      intro remaining free text member
      simp only [shownTexts, List.mem_cons] at member
      rcases member with rfl | later
      · exact free_take (free first List.mem_cons_self) _
      · exact ih _ (fun other inRest => free other (List.mem_cons_of_mem _ inRest)) text later

theorem getD_free {bad : Nat → Bool} {row : List Text} (free : ∀ text ∈ row, Free bad text)
    (index : Nat) : Free bad (row.getD index []) := by
  rw [List.getD_eq_getElem?_getD]
  cases field : row[index]? with
  | none =>
      intro c member
      cases member
  | some text => exact free text (List.mem_of_getElem? field)

theorem requiredFields_free {bad : Nat → Bool} {row header : List Text}
    (free : ∀ text ∈ row, Free bad text) : ∀ text ∈ requiredFields row header, Free bad text := by
  intro text member
  obtain ⟨column, _, rfl⟩ := List.mem_map.mp member
  exact getD_free free _

/-- The prefixes that are shown of the records that are too large. -/
inductive FilePreview (limits : CsvLimits) (records : List LogicalCsvRecord) : Text → Prop
  | first (headerRecord : LogicalCsvRecord) (rest : List LogicalCsvRecord) (text : Text)
      (first : records = headerRecord :: rest)
      (large : recordKind limits headerRecord = .oversized ∨
        recordKind limits headerRecord = .fieldTooLarge)
      (kept : text ∈ limits.shows [headerRecord.text]) : FilePreview limits records text
  | later (header : List Text) (rest : List LogicalCsvRecord) (record : LogicalCsvRecord)
      (text : Text) (opened : Opened limits records header rest)
      (accepted : HeaderAccepted header) (reached : Reached limits header rest record)
      (large : recordKind limits record = .oversized ∨ recordKind limits record = .fieldTooLarge)
      (kept : text ∈ limits.shows [record.text]) : FilePreview limits records text

theorem shown_escape {limits : CsvLimits} {header : List Text} {record : LogicalCsvRecord}
    {text : Text} (shown : Shown limits header record text) (escaped : ¬ Free isEscape text) :
    (recordKind limits record = .oversized ∨ recordKind limits record = .fieldTooLarge) ∧
      text ∈ limits.shows [record.text] := by
  cases shown with
  | preview _ large kept => exact ⟨large, kept⟩
  | count row _ _ decoded _ kept =>
      exact absurd (shownTexts_free _ _ (containsSurrogate_eq_false.mp decoded) text kept) escaped
  | rejected row _ _ decoded _ _ _ kept =>
      have fields := @requiredFields_free _ row header (containsSurrogate_eq_false.mp decoded)
      exact absurd (shownTexts_free _ _ fields text kept) escaped
  | accepted row column _ decoded =>
      exact absurd (free_strip (getD_free (containsSurrogate_eq_false.mp decoded) _)) escaped

/-- Only a preview can show an escape. -/
theorem fileShown_escape {limits : CsvLimits} {records : List LogicalCsvRecord} :
    (∀ text, FileShown limits records text → Free isEscape text) ↔
      ∀ text, FilePreview limits records text → Free isEscape text := by
  constructor
  · intro free text preview
    cases preview with
    | first headerRecord rest _ first large kept =>
        exact free text (.preview headerRecord rest text first large kept)
    | later header rest record _ opened accepted reached large kept =>
        exact free text
          (.data header rest record text opened accepted reached (.preview text large kept))
  · intro free text shown
    by_contra escaped
    cases shown with
    | preview headerRecord rest _ first large kept =>
        exact escaped (free text (.first headerRecord rest text first large kept))
    | header header rest _ opened _ kept =>
        exact escaped
          (shownTexts_free _ _ (containsSurrogate_eq_false.mp opened.decoded) text kept)
    | data header rest record _ opened accepted reached shown =>
        obtain ⟨large, kept⟩ := shown_escape shown escaped
        exact escaped
          (free text (.later header rest record text opened accepted reached large kept))

/-! ## What can be stored -/

/-- The characters that no text and no JSON column takes. -/
def isUnstorable (c : Nat) : Bool := c == 0 || (0xD800 ≤ c && c ≤ 0xDFFF)

theorem storableText_iff {text : Text} : storableText text = true ↔ Free isUnstorable text := by
  have same : ∀ c : Nat,
      (c != 0 && !(decide (0xD800 ≤ c) && decide (c ≤ 0xDFFF))) = !isUnstorable c := by
    intro c
    simp [isUnstorable, bne]
  simp only [storableText, Free, List.all_eq_true, same, Bool.not_eq_true']

theorem storableRow_iff {row : ValidatedRow} :
    storableRow row = true ↔ ∀ text ∈ row.texts, Free isUnstorable text := by
  simp [storableRow, ValidatedRow.texts, storableText_iff, and_assoc]

theorem storableValue_iff {value : RawValue} :
    storableValue value = true ↔ ∀ text ∈ value.texts, Free isUnstorable text := by
  cases value with
  | text value => simp [storableValue, RawValue.texts, storableText_iff]
  | list items => simp [storableValue, RawValue.texts, storableText_iff]
  | number _ => simp [storableValue, RawValue.texts]
  | flag _ => simp [storableValue, RawValue.texts]

theorem storableIssue_iff {issue : ValidationIssue} :
    storableIssue issue = true ↔ ∀ text ∈ issue.texts, Free isUnstorable text := by
  simp only [storableIssue, ValidationIssue.texts, RawData.texts, List.all_eq_true,
    storableValue_iff, List.mem_flatMap]
  constructor
  · intro all text found
    obtain ⟨entry, member, inEntry⟩ := found
    exact all entry member text inEntry
  · intro all entry member text inEntry
    exact all text ⟨entry, member, inEntry⟩

/-- Every row and every issue of a run can be stored. -/
def ValidationRun.Storable (run : ValidationRun) : Prop :=
  (∀ row ∈ run.rows, storableRow row = true) ∧ ∀ issue ∈ run.reported, storableIssue issue = true

theorem ValidationRun.storable_iff (run : ValidationRun) :
    run.Storable ↔ run.Shows isUnstorable := by
  simp only [ValidationRun.Storable, ValidationRun.Shows, storableRow_iff, storableIssue_iff]

theorem shownTexts_mem {c valueLimit : Nat} : ∀ (texts : List Text) (remaining : Nat),
    ∀ text ∈ shownTexts valueLimit remaining texts, c ∈ text → c ∈ texts.flatten := by
  intro texts
  induction texts with
  | nil =>
      intro remaining text member
      cases member
  | cons first rest ih =>
      intro remaining text member inText
      simp only [shownTexts, List.mem_cons] at member
      rw [List.flatten_cons]
      rcases member with rfl | later
      · exact List.mem_append_left _ (List.mem_of_mem_take inText)
      · exact List.mem_append_right _ (ih _ text later inText)

theorem getD_mem {c : Nat} {row : List Text} {index : Nat} (member : c ∈ row.getD index []) :
    c ∈ row.flatten := by
  rw [List.getD_eq_getElem?_getD] at member
  cases field : row[index]? with
  | none =>
      rw [field] at member
      cases member
  | some text =>
      rw [field] at member
      exact List.mem_flatten.mpr ⟨text, List.mem_of_getElem? field, member⟩

theorem row_mem {limits : CsvLimits} {record : LogicalCsvRecord} {row : List Text} {c : Nat}
    (parsed : recordKind limits record = .row row) (plain : isPlain c = true)
    (member : c ∈ row.flatten) : c ∈ record.text := by
  have kept : c ∈ row.flatten.filter isPlain := List.mem_filter.mpr ⟨member, plain⟩
  rw [row_plain parsed] at kept
  exact (List.mem_filter.mp kept).1

/-- What is shown of a data record is from the record. -/
theorem shown_mem {limits : CsvLimits} {header : List Text} {record : LogicalCsvRecord}
    {text : Text} {c : Nat} (shown : Shown limits header record text) (plain : isPlain c = true)
    (member : c ∈ text) : c ∈ record.text := by
  cases shown with
  | preview _ _ kept => simpa using shownTexts_mem _ _ text kept member
  | count row _ parsed _ _ kept =>
      exact row_mem parsed plain (shownTexts_mem _ _ text kept member)
  | rejected row _ parsed _ _ _ _ kept =>
      obtain ⟨field, inFields, inField⟩ := List.mem_flatten.mp (shownTexts_mem _ _ text kept member)
      obtain ⟨column, _, rfl⟩ := List.mem_map.mp inFields
      exact row_mem parsed plain (getD_mem inField)
  | accepted row column parsed =>
      have inField : c ∈ row.getD (columnIndex header column) [] :=
        (List.dropWhile_sublist _).subset ((List.rdropWhile_prefix _ _).subset member)
      exact row_mem parsed plain (getD_mem inField)

theorem fileRecords_mem {limits : CsvLimits} {bytes : Bytes} {record : LogicalCsvRecord} {c : Nat}
    (inFile : record ∈ fileRecords limits bytes) (plain : isPlain c = true)
    (member : c ∈ record.text) : c ∈ decode bytes := by
  obtain ⟨text, inRecords, rfl⟩ := List.mem_map.mp inFile
  have inText : c ∈ text := by
    simp only [boundRecord] at member
    split at member
    · exact member
    · exact List.mem_of_mem_take member
  exact (recordsFrom_mem (plain_not_LF plain) (decode bytes) false .start []).mp ⟨text, inRecords, inText⟩

/-- What is shown of a file is from its text. -/
theorem fileShown_mem {limits : CsvLimits} {bytes : Bytes} {text : Text} {c : Nat}
    (shown : FileShown limits (fileRecords limits bytes) text) (plain : isPlain c = true)
    (member : c ∈ text) : c ∈ decode bytes := by
  cases shown with
  | preview headerRecord rest _ first _ kept =>
      have inRecord : c ∈ headerRecord.text := by simpa using shownTexts_mem _ _ text kept member
      exact fileRecords_mem (first ▸ List.mem_cons_self) plain inRecord
  | header header rest _ opened _ kept =>
      obtain ⟨headerRecord, first, kind⟩ := opened.first
      have inRecord := row_mem kind plain (shownTexts_mem _ _ text kept member)
      exact fileRecords_mem (first ▸ List.mem_cons_self) plain inRecord
  | data header rest record _ opened _ reached shown =>
      obtain ⟨headerRecord, first, _⟩ := opened.first
      obtain ⟨before, after, shape, _⟩ := reached
      have inRest : record ∈ rest := by
        rw [shape]
        exact List.mem_append_right _ List.mem_cons_self
      exact fileRecords_mem (first ▸ List.mem_cons_of_mem _ inRest) plain
        (shown_mem shown plain member)

/-- The surrogates of a decoded text are its escapes. -/
theorem decode_unstorable {bytes : Bytes} {c : Nat} (member : c ∈ decode bytes)
    (surrogate : 0xD800 ≤ c ∧ c ≤ 0xDFFF) : isEscape c = true := by
  rcases decode_decoded bytes c member with scalar | escape
  · unfold IsScalar at scalar
    omega
  · simp [isEscape, escape.1, escape.2]

/-- A text that is shown can be stored if it has neither NUL nor an escape. -/
theorem fileShown_storable {limits : CsvLimits} {bytes : Bytes} {text : Text}
    (shown : FileShown limits (fileRecords limits bytes) text) :
    Free isUnstorable text ↔ Free isNul text ∧ Free isEscape text := by
  constructor
  · intro storable
    constructor
    · intro c member
      have allowed := storable c member
      simp only [isUnstorable, Bool.or_eq_false_iff] at allowed
      exact allowed.1
    · intro c member
      have allowed := storable c member
      simp [isUnstorable] at allowed
      simp only [isEscape, Bool.and_eq_false_iff, decide_eq_false_iff_not]
      omega
  · intro free c member
    by_contra unstorable
    simp only [isUnstorable, Bool.not_eq_false, Bool.or_eq_true, beq_iff_eq, Bool.and_eq_true,
      decide_eq_true_eq] at unstorable
    rcases unstorable with rfl | surrogate
    · exact absurd (free.1 0 member) (by decide)
    · have inFile := fileShown_mem shown (surrogate_plain surrogate) member
      have escape := decode_unstorable inFile surrogate
      rw [free.2 c member] at escape
      cases escape

/-! ## Where the run returns -/

/-- `int` takes the quantity of a record, if it comes to that. -/
def Taken (limits : CsvLimits) (header : List Text) (record : LogicalCsvRecord) : Prop :=
  ∀ row, recordKind limits record = .row row → containsSurrogate row = false →
    QuantityRead row header

theorem checkRecord_taken {limits : CsvLimits} {header : List Text} {lineNumber : Nat}
    {record : LogicalCsvRecord} :
    (∃ answer, checkRecord limits header lineNumber record = .ok answer) ↔
      Taken limits header record := by
  constructor
  · rintro ⟨⟨event, continues⟩, checked⟩ row parsed decoded
    rw [checkRecord_kind] at checked
    simp only [parsed, decoded, Bool.false_eq_true, if_false] at checked
    split at checked
    · cases checked
    · next returned => exact validateRow_read returned
    · next returned => exact validateRow_read returned
  · intro taken
    cases checked : checkRecord limits header lineNumber record with
    | ok answer => exact ⟨answer, rfl⟩
    | error e =>
        rw [checkRecord_kind] at checked
        cases kind : recordKind limits record with
        | oversized => simp only [kind] at checked; cases checked
        | fieldTooLarge => simp only [kind] at checked; cases checked
        | malformed => simp only [kind] at checked; cases checked
        | row row =>
            simp only [kind] at checked
            split at checked
            · cases checked
            · next decoded =>
                split at checked
                · next failed =>
                    exact absurd (taken row kind (Bool.not_eq_true _ ▸ decoded))
                      (validateRow_unread failed)
                · cases checked
                · cases checked

theorem validateRecords_returns (limits : CsvLimits) (header : List Text) :
    ∀ (records : List LogicalCsvRecord) (lineNumber rowCount : Nat),
      (∃ summary, (validateRecords limits header (records.map .record) lineNumber rowCount).result =
          .ok summary) ↔
        ∀ record, Reached limits header records record → Taken limits header record := by
  intro records
  induction records with
  | nil =>
      intro lineNumber rowCount
      refine ⟨fun _ record reached => (not_reached_nil reached).elim, fun _ => ?_⟩
      simp only [List.map_nil, validateRecords]
      split
      · exact ⟨_, rfl⟩
      · exact ⟨_, rfl⟩
  | cons first rest ih =>
      intro lineNumber rowCount
      simp only [List.map_cons, validateRecords_record, reached_cons, forall_eq_or_imp,
        ← @checkRecord_taken limits header (lineNumber + 1) first]
      cases checked : checkRecord limits header (lineNumber + 1) first with
      | error e => simp [ValidationRun.raises]
      | ok answer =>
          obtain ⟨event, continues⟩ := answer
          have goesOn := (@checkRecord_shown isEscape _ _ _ _ (by decide) _ _ checked).1
          cases continues with
          | true => simp [ValidationRun.after, ih, goesOn.mp rfl]
          | false =>
              have stops : ¬ GoesOn limits header first := by simp [← goesOn]
              simp [ValidationRun.after, ValidationRun.returns, stops]

/-- No quantity that the loop comes to is refused by `int`. -/
def FileRead (limits : CsvLimits) (records : List LogicalCsvRecord) : Prop :=
  ∀ header rest record, Opened limits records header rest → HeaderAccepted header →
    Reached limits header rest record → Taken limits header record

theorem fileRead_nil (limits : CsvLimits) : FileRead limits [] := by
  intro header rest record opened
  obtain ⟨_, first, _⟩ := opened.first
  cases first

theorem fileRead_cons {limits : CsvLimits} {headerRecord : LogicalCsvRecord}
    {rest : List LogicalCsvRecord} :
    FileRead limits (headerRecord :: rest) ↔
      ∀ header, recordKind limits headerRecord = .row header → containsSurrogate header = false →
        HeaderAccepted header → ∀ record, Reached limits header rest record →
          Taken limits header record := by
  constructor
  · intro read header kind decoded accepted record reached
    exact read header rest record ⟨⟨_, rfl, kind⟩, decoded⟩ accepted reached
  · intro read header later record opened accepted reached
    obtain ⟨_, first, kind⟩ := opened.first
    cases first
    exact read header kind opened.decoded accepted record reached

theorem validateBytes_returns {limits : CsvLimits} (accepted : limits.Accepted) (bytes : Bytes) :
    (∃ summary, (validateBytes limits bytes).result = .ok summary) ↔
      FileRead limits (fileRecords limits bytes) := by
  unfold validateBytes
  rw [if_pos accepted]
  change (∃ summary, (validateItems limits ((fileRecords limits bytes).map .record)).result = _) ↔ _
  cases fileRecords limits bytes with
  | nil => exact ⟨fun _ => fileRead_nil limits, fun _ => ⟨_, rfl⟩⟩
  | cons headerRecord rest =>
      rw [List.map_cons, validateItems_kind, fileRead_cons]
      cases kind : recordKind limits headerRecord with
      | oversized => exact ⟨fun _ header other => (by cases other), fun _ => ⟨_, rfl⟩⟩
      | fieldTooLarge => exact ⟨fun _ header other => (by cases other), fun _ => ⟨_, rfl⟩⟩
      | malformed => exact ⟨fun _ header other => (by cases other), fun _ => ⟨_, rfl⟩⟩
      | row header =>
          simp only [RecordKind.row.injEq, forall_eq']
          by_cases escaped : containsSurrogate header = true
          · rw [if_pos escaped]
            refine ⟨fun _ decoded => ?_, fun _ => ⟨_, rfl⟩⟩
            rw [escaped] at decoded
            cases decoded
          · rw [if_neg escaped]
            have decoded := Bool.not_eq_true _ ▸ escaped
            by_cases fits : HeaderAccepted header
            · rw [if_neg (not_not_intro (validateHeader_eq_nil_iff.mpr fits)),
                validateRecords_returns]
              simp only [decoded, fits, forall_const]
            · have rejected : validateHeader header limits ≠ [] :=
                fun none => fits (validateHeader_eq_nil_iff.mp none)
              rw [if_pos rejected]
              exact ⟨fun _ _ valid => absurd valid fits, fun _ => ⟨_, rfl⟩⟩

/-! ## What becomes of an undecodable byte -/

/-- A callback of issues, all of which can be stored. -/
def StorableIssues (event : StreamEvent) : Prop :=
  ∃ found, found ≠ [] ∧ event = .issues found ∧ ∀ issue ∈ found, storableIssue issue = true

/-- No escape reaches a callback.  A header with one is the end of the run, with issues
that can be stored, and so are the issues that a data record with one has as its
callback; a file with one has a run that returns and reports an issue, and all that it
has called back can be stored. -/
structure Contained (limits : CsvLimits) (bytes : Bytes) (run : ValidationRun) : Prop where
  shows : run.Shows isEscape
  header : limits.Accepted → ∀ text, (logicalRecords (decode bytes)).head? = some text →
    ¬ Free isEscape text → ∃ event, StorableIssues event ∧ run.callbacks = [event]
  records : ∀ (i : Nat) (event : StreamEvent) (text : Text), run.callbacks[i]? = some event →
    (logicalRecords (decode bytes)).tail[i]? = some text → ¬ Free isEscape text →
      StorableIssues event
  ends : limits.Accepted → ¬ Free isEscape (decode bytes) →
    (∃ summary, run.result = .ok summary) ∧ run.reported ≠ [] ∧ run.Storable

theorem header_escaped {limits : CsvLimits} (accepted : limits.Accepted) {bytes : Bytes}
    {text : Text} (first : (logicalRecords (decode bytes)).head? = some text)
    (escaped : ¬ Free isEscape text) :
    ∃ found, found ≠ [] ∧ (validateBytes limits bytes).callbacks = [.issues found] := by
  unfold validateBytes
  rw [if_pos accepted]
  obtain ⟨rest, shape⟩ := List.head?_eq_some_iff.mp first
  rw [shape, List.map_cons, List.map_cons, validateItems_kind]
  cases kind : recordKind limits (boundRecord limits.records text) with
  | oversized => exact ⟨_, List.cons_ne_nil _ _, rfl⟩
  | fieldTooLarge => exact ⟨_, List.cons_ne_nil _ _, rfl⟩
  | malformed => exact ⟨_, List.cons_ne_nil _ _, rfl⟩
  | row header =>
      simp only [row_escaped kind escaped, if_true]
      exact ⟨_, List.cons_ne_nil _ _, rfl⟩

theorem dataRecords_getElem? {limits : CsvLimits} {bytes : Bytes} {i : Nat} {text : Text}
    (position : (logicalRecords (decode bytes)).tail[i]? = some text) :
    (dataRecords limits bytes)[i]? = some (boundRecord limits.records text) := by
  rw [dataRecords, ← List.map_tail, List.getElem?_map, position]
  rfl

theorem record_escaped {limits : CsvLimits} {bytes : Bytes} {i : Nat} {event : StreamEvent}
    {text : Text} (called : (validateBytes limits bytes).callbacks[i]? = some event)
    (position : (logicalRecords (decode bytes)).tail[i]? = some text)
    (escaped : ¬ Free isEscape text) : ∃ found, found ≠ [] ∧ event = .issues found := by
  obtain ⟨perRecord, final, accounts⟩ := validateBytes_accounts limits bytes
  rw [accounts.callbacks] at called
  by_cases inRecords : i < perRecord.length
  · rw [List.getElem?_append_left inRecords] at called
    obtain ⟨_, record, continues, consumed, checked, _⟩ := accounts.consumed i event called
    rw [dataRecords_getElem? position] at consumed
    cases consumed
    exact checkRecord_escaped escaped checked
  · rw [List.getElem?_append_right (Nat.le_of_not_lt inRecords)] at called
    rcases accounts.final with rfl | ⟨_, found, nonempty, rfl⟩
    · cases called
    · exact ⟨found, nonempty, List.mem_singleton.mp (List.mem_of_getElem? called)⟩

theorem reported_of_callback {run : ValidationRun} {found : List ValidationIssue}
    (nonempty : found ≠ []) (member : .issues found ∈ run.callbacks) : run.reported ≠ [] := by
  rw [run.reported_callbacks]
  intro none
  exact nonempty (List.flatMap_eq_nil_iff.mp none _ member)

/-- A file with an escape has an issue, if the run returns. -/
theorem escaped_reported {limits : CsvLimits} (accepted : limits.Accepted) {bytes : Bytes}
    {summary : CsvValidationSummary}
    (returned : (validateBytes limits bytes).result = .ok summary)
    (escaped : ¬ Free isEscape (decode bytes)) : (validateBytes limits bytes).reported ≠ [] := by
  intro clean
  obtain ⟨text, inFile, inText⟩ := logicalRecords_escaped escaped
  obtain ⟨perRecord, final, accounts⟩ := validateBytes_accounts limits bytes
  cases shape : logicalRecords (decode bytes) with
  | nil =>
      rw [shape] at inFile
      cases inFile
  | cons first rest =>
      rw [shape] at inFile
      rcases List.mem_cons.mp inFile with rfl | later
      · obtain ⟨found, nonempty, callbacks⟩ := header_escaped accepted (by rw [shape]; rfl) inText
        refine reported_of_callback nonempty ?_ clean
        rw [callbacks]
        exact List.mem_singleton.mpr rfl
      · obtain ⟨i, bound, position⟩ := List.mem_iff_getElem.mp later
        have position : (logicalRecords (decode bytes)).tail[i]? = some text := by
          rw [shape, List.tail_cons, List.getElem?_eq_getElem bound, position]
        obtain ⟨count, whole, _⟩ := accounts.summary summary returned
        have complete := accounts.complete returned clean
        have consumed : i < perRecord.length := by
          rw [whole complete.1]
          exact (List.getElem?_eq_some_iff.mp (dataRecords_getElem? position)).1
        have called : (validateBytes limits bytes).callbacks[i]? = some perRecord[i] := by
          rw [accounts.callbacks, List.getElem?_append_left consumed,
            List.getElem?_eq_getElem consumed]
        obtain ⟨found, nonempty, isIssues⟩ := record_escaped called position inText
        exact reported_of_callback nonempty (isIssues ▸ List.mem_of_getElem? called) clean

theorem ValidationRun.Agrees.storable {run other : ValidationRun} (agrees : run.Agrees other) :
    run.Storable ↔ other.Storable := by
  rw [run.storable_iff, other.storable_iff, agrees.shows]

theorem Contained.agrees {limits : CsvLimits} {bytes : Bytes} {run other : ValidationRun}
    (agrees : run.Agrees other) : Contained limits bytes run ↔ Contained limits bytes other := by
  have forward : ∀ {run other : ValidationRun}, run.Agrees other → Contained limits bytes other →
      Contained limits bytes run := by
    intro run other agrees contained
    have reported : run.reported = other.reported := by
      rw [run.reported_callbacks, other.reported_callbacks, agrees.1]
    refine ⟨agrees.shows.mpr contained.shows, ?_, ?_, ?_⟩
    · rw [agrees.1]
      exact contained.header
    · rw [agrees.1]
      exact contained.records
    · rw [agrees.2, reported, agrees.storable]
      exact contained.ends
  exact ⟨forward ⟨agrees.1.symm, agrees.2.symm⟩, forward agrees⟩

theorem storableIssues {run : ValidationRun} (storable : run.Storable)
    {found : List ValidationIssue} (nonempty : found ≠ []) (called : .issues found ∈ run.callbacks) :
    StorableIssues (.issues found) := by
  refine ⟨found, nonempty, rfl, fun issue member => storable.2 issue ?_⟩
  rw [run.reported_callbacks]
  exact List.mem_flatMap.mpr ⟨_, called, member⟩

/-- A run can be stored where neither NUL nor an escape is shown. -/
theorem validateBytes_storable {limits : CsvLimits} (accepted : limits.Accepted) (bytes : Bytes) :
    (validateBytes limits bytes).Storable ↔
      ∀ text, FileShown limits (fileRecords limits bytes) text →
        Free isNul text ∧ Free isEscape text := by
  rw [ValidationRun.storable_iff, validateBytes_shows (by decide) accepted]
  constructor
  · intro storable text shown
    exact (fileShown_storable shown).mp (storable text shown)
  · intro free text shown
    exact (fileShown_storable shown).mpr (free text shown)

/-- Undecodable bytes are contained exactly where none is in the preview of a record
that is too large and, in a file that has one, `int` takes each quantity and no NUL is
shown. -/
theorem escapes_contained (limits : CsvLimits) (sizes : StreamSizes) (chunks : List Bytes) :
    Contained limits chunks.flatten (validateCsvStream limits sizes chunks) ↔
      (limits.Accepted →
        (∀ text, FilePreview limits (fileRecords limits chunks.flatten) text →
          Free isEscape text) ∧
        (¬ Free isEscape (decode chunks.flatten) →
          FileRead limits (fileRecords limits chunks.flatten) ∧
          ∀ text, FileShown limits (fileRecords limits chunks.flatten) text →
            Free isNul text)) := by
  rw [Contained.agrees (validateCsvStream_agrees limits sizes chunks)]
  constructor
  · intro contained accepted
    refine ⟨fileShown_escape.mp ((validateBytes_shows (by decide) accepted _).mp contained.shows),
      fun escaped => ?_⟩
    obtain ⟨returned, _, storable⟩ := contained.ends accepted escaped
    exact ⟨(validateBytes_returns accepted _).mp returned, fun text shown =>
      ((validateBytes_storable accepted _).mp storable text shown).1⟩
  · intro condition
    have storable : ¬ Free isEscape (decode chunks.flatten) →
        (validateBytes limits chunks.flatten).Storable := by
      intro escaped
      by_cases accepted : limits.Accepted
      · obtain ⟨previews, file⟩ := condition accepted
        exact (validateBytes_storable accepted _).mpr fun text shown =>
          ⟨(file escaped).2 text shown, fileShown_escape.mpr previews text shown⟩
      · exact (ValidationRun.storable_iff _).mpr (refused_shows accepted _)
    refine ⟨?_, ?_, ?_, ?_⟩
    · by_cases accepted : limits.Accepted
      · exact (validateBytes_shows (by decide) accepted _).mpr
          (fileShown_escape.mpr (condition accepted).1)
      · exact refused_shows accepted _
    · intro accepted text first escaped
      obtain ⟨found, nonempty, callbacks⟩ := header_escaped accepted first escaped
      refine ⟨_, storableIssues (storable ?_) nonempty ?_, callbacks⟩
      · exact record_in_file (List.mem_of_mem_head? first) escaped
      · rw [callbacks]
        exact List.mem_singleton.mpr rfl
    · intro i event text called position escaped
      obtain ⟨found, nonempty, rfl⟩ := record_escaped called position escaped
      have inFile := List.mem_of_mem_tail (List.mem_of_getElem? position)
      exact storableIssues (storable (record_in_file inFile escaped)) nonempty
        (List.mem_of_getElem? called)
    · intro accepted escaped
      obtain ⟨summary, returned⟩ :=
        (validateBytes_returns accepted _).mpr ((condition accepted).2 escaped).1
      exact ⟨⟨summary, returned⟩, escaped_reported accepted returned escaped, storable escaped⟩

/-! ## Where one gets through -/

/-- Records of at most 80 characters. -/
def smallLimits : CsvLimits := ⟨80, 80, 8, 64⟩

/-- A data record that is too large and begins with a byte that is no UTF-8. -/
def escapedFile : Bytes :=
  encode (ofString "warehouse_code,warehouse_name,sku,product_name,quantity\n") ++
    0xFF :: List.replicate 80 87 ++ [10]

theorem escape_gets_through :
    ¬ Contained smallLimits [escapedFile].flatten
      (validateCsvStream smallLimits blockSizes [escapedFile]) := by
  intro contained
  have shows := ((validateCsvStream_agrees smallLimits blockSizes [escapedFile]).shows).mp
    contained.shows
  revert shows
  decide +kernel

end StockImport.Csv
