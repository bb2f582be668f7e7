import StockImport.Csv.Shown

/-!
# What can be stored

The texts of a file that reach a callback: the four columns of an accepted row, and
of anything else the prefixes that the raw-data limits leave of it.  `FileShown`
says which these are in terms of the records of the file, and `validateBytes_shows`
that a run shows nothing else.  So a kind of character stays out of the database
exactly where it is not in what is shown.
-/

set_option autoImplicit false

namespace StockImport.Csv

open PyText CsvReader Utf8Escape

/-! ## One record -/

/-- What becomes of a record before its fields are looked at. -/
inductive RecordKind where
  | oversized
  | fieldTooLarge
  | malformed
  | row (fields : List Text)
  deriving DecidableEq, Repr

def recordKind (limits : CsvLimits) (record : LogicalCsvRecord) : RecordKind :=
  if record.truncated then .oversized
  else
    match next limits.maxFieldChars .fresh (splitLines record.text) with
    | .stop => .row []
    | .error .fieldLimit => .fieldTooLarge
    | .error _ => .malformed
    | .row fields lines =>
        match next limits.maxFieldChars .fresh lines with
        | .stop => .row fields
        | _ => .malformed

/-- `int` takes the quantity of a row, if it comes to that. -/
def QuantityRead (row header : List Text) : Prop :=
  row.length = header.length → isInteger (fieldText row header .quantity) = true →
    (splitSign (fieldText row header .quantity)).2.length ≤ maxIntDigits

/-- The loop goes on after a record. -/
def GoesOn (limits : CsvLimits) (header : List Text) (record : LogicalCsvRecord) : Prop :=
  match recordKind limits record with
  | .oversized => True
  | .fieldTooLarge => True
  | .malformed => False
  | .row row => containsSurrogate row = true ∨ QuantityRead row header

/-- The texts that are shown of a data record. -/
inductive Shown (limits : CsvLimits) (header : List Text) (record : LogicalCsvRecord) :
    Text → Prop
  | preview (text : Text)
      (large : recordKind limits record = .oversized ∨ recordKind limits record = .fieldTooLarge)
      (kept : text ∈ limits.shows [record.text]) : Shown limits header record text
  | count (row : List Text) (text : Text) (parsed : recordKind limits record = .row row)
      (decoded : containsSurrogate row = false) (different : row.length ≠ header.length)
      (kept : text ∈ limits.shows row) : Shown limits header record text
  | rejected (row : List Text) (text : Text) (parsed : recordKind limits record = .row row)
      (decoded : containsSurrogate row = false) (same : row.length = header.length)
      (read : QuantityRead row header) (rejected : ¬ RowAccepted row header)
      (kept : text ∈ limits.shows (requiredFields row header)) : Shown limits header record text
  | accepted (row : List Text) (column : Column) (parsed : recordKind limits record = .row row)
      (decoded : containsSurrogate row = false) (read : QuantityRead row header)
      (accepted : RowAccepted row header) (textual : column ∈ textColumns) :
      Shown limits header record (fieldText row header column)

theorem parseRecord_kind (limits : CsvLimits) (record : LogicalCsvRecord)
    (lineNumber : Option Nat) (whole : record.truncated = false) :
    parseRecord record lineNumber limits =
      match recordKind limits record with
      | .row row => .ok row
      | .fieldTooLarge => .error (fieldTooLargeIssue record lineNumber limits)
      | _ => .error (malformedCsvIssue (lineNumber.getD 1)) := by
  unfold parseRecord recordKind
  simp only [whole, Bool.false_eq_true, if_false]
  cases next limits.maxFieldChars .fresh (splitLines record.text) with
  | stop => rfl
  | error failure => cases failure <;> rfl
  | row fields lines =>
      dsimp only
      cases next limits.maxFieldChars .fresh lines <;> rfl

theorem recordKind_whole {limits : CsvLimits} {record : LogicalCsvRecord}
    (whole : record.truncated = false) : recordKind limits record ≠ .oversized := by
  unfold recordKind
  rw [whole, if_neg Bool.false_ne_true]
  split
  · simp
  · simp
  · simp
  · split <;> simp

/-! ## One row -/

/-- The issues about the fields of a row all show the same data. -/
theorem validateRow_data {row header : List Text} {lineNumber : Nat} {limits : CsvLimits}
    {issues : List ValidationIssue} {found : Option ValidatedRow}
    (same : row.length = header.length)
    (returned : validateRow row header (columnIndex header) lineNumber limits =
      .ok (issues, found)) :
    ∀ issue ∈ issues, issue.rawData = some (fieldData row header limits) := by
  have missing : ∀ issue ∈ missingIssues row header lineNumber limits,
      issue.rawData = some (fieldData row header limits) := by
    intro issue member
    obtain ⟨column, _, rfl⟩ := List.mem_map.mp member
    rfl
  rw [validateRow_same same] at returned
  split at returned
  · cases returned
  · cases returned
    intro issue member
    rcases List.mem_append.mp member with required | quantity
    · exact missing issue required
    · rw [List.mem_singleton.mp quantity]
      rfl
  · split at returned
    · cases returned
      exact missing
    · cases returned
      intro issue member
      cases member

theorem validateRow_read {row header : List Text} {lineNumber : Nat} {limits : CsvLimits}
    {answer : List ValidationIssue × Option ValidatedRow}
    (returned : validateRow row header (columnIndex header) lineNumber limits = .ok answer) :
    QuantityRead row header := by
  intro same integer
  by_contra long
  rw [validateRow_raises same integer (Nat.lt_of_not_le long)] at returned
  cases returned

theorem validateRow_unread {row header : List Text} {lineNumber : Nat} {limits : CsvLimits}
    {e : PyException}
    (raised : validateRow row header (columnIndex header) lineNumber limits = .error e) :
    ¬ QuantityRead row header := by
  intro read
  by_cases same : row.length = header.length
  · obtain ⟨answer, returned, _⟩ :=
      @validateRow_fields row header lineNumber limits same (read same)
    rw [raised] at returned
    cases returned
  · rw [validateRow, if_pos same] at raised
    cases raised

/-- The accepted row, or the issues and whether the number of fields is what they are
about. -/
theorem validateRow_shown {row header : List Text} {lineNumber : Nat} {limits : CsvLimits}
    {issues : List ValidationIssue} {found : Option ValidatedRow}
    (returned : validateRow row header (columnIndex header) lineNumber limits =
      .ok (issues, found)) :
    (row.length ≠ header.length ∧ found = none ∧
        issues = [columnCountIssue lineNumber row limits]) ∨
      (row.length = header.length ∧ ¬ RowAccepted row header ∧ found = none ∧ issues ≠ [] ∧
        ∀ issue ∈ issues, issue.rawData = some (fieldData row header limits)) ∨
      ∃ validated, RowAccepted row header ∧ found = some validated ∧
        validated.texts = textColumns.map (fieldText row header) := by
  by_cases same : row.length = header.length
  · have data := validateRow_data same returned
    have nonempty := validateRow_cases returned
    obtain ⟨answer, returned', answered⟩ :=
      @validateRow_fields row header lineNumber limits same (validateRow_read returned same)
    rw [returned] at returned'
    cases returned'
    cases answered with
    | accepted validated accepted carries =>
        refine Or.inr (Or.inr ⟨validated, accepted, rfl, ?_⟩)
        rw [ValidatedRow.texts, carries.warehouseCode, carries.warehouseName, carries.sku,
          carries.productName]
        rfl
    | count issue different line fault => exact absurd same different
    | fields issues quantity same rejected lines faults one =>
        rcases nonempty with ⟨_, nonempty, _⟩ | ⟨_, _, none, _⟩
        · exact Or.inr (Or.inl ⟨same, rejected, rfl, nonempty, data⟩)
        · cases none
  · rw [validateRow, if_pos same] at returned
    cases returned
    exact Or.inl ⟨same, rfl, rfl⟩

/-! ## One turn of the loop -/

theorem checkRecord_kind (limits : CsvLimits) (header : List Text) (lineNumber : Nat)
    (record : LogicalCsvRecord) :
    checkRecord limits header lineNumber record =
      match recordKind limits record with
      | .oversized => .ok (.issues [recordTooLargeIssue (some lineNumber) record limits], true)
      | .fieldTooLarge => .ok (.issues [fieldTooLargeIssue record (some lineNumber) limits], true)
      | .malformed => .ok (.issues [malformedCsvIssue lineNumber], false)
      | .row row =>
          if containsSurrogate row then .ok (.issues [invalidUtf8Issue (some lineNumber)], true)
          else
            match validateRow row header (columnIndex header) lineNumber limits with
            | .error e => .error e
            | .ok (_, some validatedRow) => .ok (.validRow validatedRow, true)
            | .ok (issues, none) => .ok (.issues issues, true) := by
  unfold checkRecord
  cases cut : record.truncated with
  | true => simp [recordKind, cut]
  | false =>
      simp only [Bool.false_eq_true, if_false, parseRecord_kind limits record _ cut]
      cases kind : recordKind limits record with
      | oversized => exact absurd kind (recordKind_whole cut)
      | fieldTooLarge => rfl
      | malformed => rfl
      | row row => rfl

section Turn

variable {bad : Nat → Bool} {limits : CsvLimits} {header : List Text} {lineNumber : Nat}
  {record : LogicalCsvRecord}

/-- Of a record that is too large its beginning is shown. -/
theorem shown_preview {text : Text}
    (large : recordKind limits record = .oversized ∨ recordKind limits record = .fieldTooLarge) :
    Shown limits header record text ↔ text ∈ limits.shows [record.text] := by
  constructor
  · intro shown
    cases shown with
    | preview _ _ kept => exact kept
    | count row _ parsed => simp [parsed] at large
    | rejected row _ parsed => simp [parsed] at large
    | accepted row _ parsed => simp [parsed] at large
  · exact .preview text large

/-- Of a row, what `validateRow_shown` says of it. -/
theorem shown_row {row : List Text} {text : Text} (parsed : recordKind limits record = .row row)
    (decoded : containsSurrogate row = false) (read : QuantityRead row header) :
    Shown limits header record text ↔
      (row.length ≠ header.length ∧ text ∈ limits.shows row) ∨
        (row.length = header.length ∧ ¬ RowAccepted row header ∧
          text ∈ limits.shows (requiredFields row header)) ∨
        (RowAccepted row header ∧ text ∈ textColumns.map (fieldText row header)) := by
  constructor
  · intro shown
    cases shown with
    | preview _ large => simp [parsed] at large
    | count other _ parsed' _ different kept =>
        rw [parsed] at parsed'
        cases parsed'
        exact Or.inl ⟨different, kept⟩
    | rejected other _ parsed' _ same _ rejected kept =>
        rw [parsed] at parsed'
        cases parsed'
        exact Or.inr (Or.inl ⟨same, rejected, kept⟩)
    | accepted other column parsed' _ _ accepted textual =>
        rw [parsed] at parsed'
        cases parsed'
        exact Or.inr (Or.inr ⟨accepted, List.mem_map_of_mem textual⟩)
  · rintro (⟨different, kept⟩ | ⟨same, rejected, kept⟩ | ⟨accepted, member⟩)
    · exact .count row text parsed decoded different kept
    · exact .rejected row text parsed decoded same read rejected kept
    · obtain ⟨column, textual, rfl⟩ := List.mem_map.mp member
      exact .accepted row column parsed decoded read accepted textual

theorem shown_nothing {text : Text} (kind : recordKind limits record = .malformed ∨
    ∃ row, recordKind limits record = .row row ∧
      (containsSurrogate row = true ∨ ¬ QuantityRead row header)) :
    ¬ Shown limits header record text := by
  intro shown
  rcases kind with kind | ⟨row, kind, hidden⟩
  · cases shown <;> simp_all
  · cases shown with
    | preview _ large => simp [kind] at large
    | count other _ parsed' decoded different =>
        rw [kind] at parsed'
        cases parsed'
        rcases hidden with escaped | unread
        · simp [escaped] at decoded
        · exact unread fun same => absurd same different
    | rejected other _ parsed' decoded _ read =>
        rw [kind] at parsed'
        cases parsed'
        rcases hidden with escaped | unread
        · simp [escaped] at decoded
        · exact unread read
    | accepted other _ parsed' decoded read =>
        rw [kind] at parsed'
        cases parsed'
        rcases hidden with escaped | unread
        · simp [escaped] at decoded
        · exact unread read

theorem singleton_texts (issue : ValidationIssue) :
    (StreamEvent.issues [issue]).texts = issue.texts := by
  simp [StreamEvent.texts]

/-- The callback about a record shows of it what `Shown` says, and the loop ends where
`GoesOn` says. -/
theorem checkRecord_shown (marker : Free bad truncationMarker) {event : StreamEvent}
    {continues : Bool}
    (checked : checkRecord limits header lineNumber record = .ok (event, continues)) :
    (continues = true ↔ GoesOn limits header record) ∧
      ((∀ text ∈ event.texts, Free bad text) ↔
        ∀ text, Shown limits header record text → Free bad text) := by
  rw [checkRecord_kind] at checked
  unfold GoesOn
  cases kind : recordKind limits record with
  | oversized =>
      simp only [kind, Except.ok.injEq, Prod.mk.injEq] at checked
      obtain ⟨rfl, rfl⟩ := checked
      simp only [singleton_texts, recordTooLargeIssue_free marker,
        shown_preview (Or.inl kind), true_and]
  | fieldTooLarge =>
      simp only [kind, Except.ok.injEq, Prod.mk.injEq] at checked
      obtain ⟨rfl, rfl⟩ := checked
      simp only [singleton_texts, fieldTooLargeIssue_free marker,
        shown_preview (Or.inr kind), true_and]
  | malformed =>
      simp only [kind, Except.ok.injEq, Prod.mk.injEq] at checked
      obtain ⟨rfl, rfl⟩ := checked
      refine ⟨by simp, fun _ text shown => (shown_nothing (Or.inl kind) shown).elim, ?_⟩
      intro _ text member
      cases member
  | row row =>
      simp only [kind] at checked
      by_cases escaped : containsSurrogate row = true
      · rw [if_pos escaped] at checked
        cases checked
        refine ⟨by simp [escaped], fun _ text shown =>
          (shown_nothing (Or.inr ⟨row, kind, Or.inl escaped⟩) shown).elim, ?_⟩
        intro _ text member
        cases member
      · rw [if_neg escaped] at checked
        have decoded := Bool.not_eq_true _ ▸ escaped
        cases returned : validateRow row header (columnIndex header) lineNumber limits with
        | error e =>
            rw [returned] at checked
            cases checked
        | ok answer =>
            obtain ⟨issues, found⟩ := answer
            have read := validateRow_read returned
            simp only [shown_row kind decoded read]
            rw [returned] at checked
            rcases validateRow_shown returned with ⟨different, rfl, rfl⟩ |
              ⟨same, rejected, rfl, nonempty, data⟩ | ⟨validated, accepted, rfl, texts⟩
            · simp only [Except.ok.injEq, Prod.mk.injEq] at checked
              obtain ⟨rfl, rfl⟩ := checked
              refine ⟨by simp [read], ?_⟩
              have unaccepted : ¬ RowAccepted row header := fun accepted => different accepted.count
              simp only [singleton_texts, columnCountIssue_free marker, different, unaccepted,
                ne_eq, not_false_eq_true, true_and, false_and, or_false]
            · simp only [Except.ok.injEq, Prod.mk.injEq] at checked
              obtain ⟨rfl, rfl⟩ := checked
              refine ⟨by simp [read], ?_⟩
              simp only [StreamEvent.texts, sameData_free nonempty data, fieldData_free marker, same,
                rejected, ne_eq, not_true_eq_false, not_false_eq_true, true_and, false_and,
                false_or, or_false]
            · simp only [Except.ok.injEq, Prod.mk.injEq] at checked
              obtain ⟨rfl, rfl⟩ := checked
              refine ⟨by simp [read], ?_⟩
              simp only [StreamEvent.texts, texts, accepted, accepted.count, ne_eq,
                not_true_eq_false, true_and, false_and, false_or]

theorem checkRecord_stops {e : PyException}
    (raised : checkRecord limits header lineNumber record = .error e) :
    ¬ GoesOn limits header record ∧ ∀ text, ¬ Shown limits header record text := by
  rw [checkRecord_kind] at raised
  unfold GoesOn
  cases kind : recordKind limits record with
  | oversized => simp only [kind] at raised; cases raised
  | fieldTooLarge => simp only [kind] at raised; cases raised
  | malformed => simp only [kind] at raised; cases raised
  | row row =>
      simp only [kind] at raised
      split at raised
      · cases raised
      · next decoded =>
          split at raised
          · next failed =>
              have unread := validateRow_unread failed
              exact ⟨by simp [decoded, unread],
                fun text => shown_nothing (Or.inr ⟨row, kind, Or.inr unread⟩)⟩
          · cases raised
          · cases raised

end Turn

/-! ## The loop and the file -/

/-- The loop comes to a record: it goes on after each one before it. -/
def Reached (limits : CsvLimits) (header : List Text) (records : List LogicalCsvRecord)
    (record : LogicalCsvRecord) : Prop :=
  ∃ before after, records = before ++ record :: after ∧
    ∀ earlier ∈ before, GoesOn limits header earlier

theorem not_reached_nil {limits : CsvLimits} {header : List Text} {record : LogicalCsvRecord} :
    ¬ Reached limits header [] record := by
  rintro ⟨before, after, shape, _⟩
  cases before <;> cases shape

theorem reached_cons {limits : CsvLimits} {header : List Text} {first record : LogicalCsvRecord}
    {rest : List LogicalCsvRecord} :
    Reached limits header (first :: rest) record ↔
      record = first ∨ GoesOn limits header first ∧ Reached limits header rest record := by
  constructor
  · rintro ⟨before, after, shape, goes⟩
    cases before with
    | nil =>
        cases shape
        exact Or.inl rfl
    | cons head before =>
        cases shape
        exact Or.inr ⟨goes _ List.mem_cons_self, before, after, rfl,
          fun earlier member => goes earlier (List.mem_cons_of_mem _ member)⟩
  · rintro (rfl | ⟨goesOn, before, after, rfl, goes⟩)
    · exact ⟨[], rest, rfl, by simp⟩
    · refine ⟨first :: before, after, rfl, ?_⟩
      intro earlier member
      rcases List.mem_cons.mp member with rfl | later
      · exact goesOn
      · exact goes earlier later

theorem validateRecords_shown {bad : Nat → Bool} (marker : Free bad truncationMarker)
    (limits : CsvLimits) (header : List Text) :
    ∀ (records : List LogicalCsvRecord) (lineNumber rowCount : Nat),
      (∀ event ∈ (validateRecords limits header (records.map .record) lineNumber rowCount).events,
          ∀ text ∈ event.texts, Free bad text) ↔
        ∀ record, Reached limits header records record →
          ∀ text, Shown limits header record text → Free bad text := by
  intro records
  induction records with
  | nil =>
      intro lineNumber rowCount
      refine ⟨fun _ record reached => (not_reached_nil reached).elim, fun _ event member => ?_⟩
      intro text inEvent
      simp only [List.map_nil, validateRecords] at member
      split at member
      · rw [List.mem_singleton.mp member] at inEvent
        cases inEvent
      · cases member
  | cons first rest ih =>
      intro lineNumber rowCount
      simp only [List.map_cons, validateRecords_record, reached_cons, forall_eq_or_imp]
      cases checked : checkRecord limits header (lineNumber + 1) first with
      | error e =>
          obtain ⟨stops, nothing⟩ := checkRecord_stops checked
          refine ⟨fun _ => ⟨fun text shown => (nothing text shown).elim,
            fun record goesOn => (stops goesOn.1).elim⟩, ?_⟩
          intro _ event member
          cases member
      | ok answer =>
          obtain ⟨event, continues⟩ := answer
          obtain ⟨goesOn, shown⟩ := checkRecord_shown marker checked
          cases continues with
          | true =>
              simp only [ValidationRun.after, List.forall_mem_cons, shown, ih, goesOn.mp rfl,
                true_and]
          | false =>
              have stops : ¬ GoesOn limits header first := by simp [← goesOn]
              simp only [ValidationRun.after, ValidationRun.returns, List.forall_mem_cons, shown,
                stops, false_and, false_imp_iff, implies_true, and_true, List.not_mem_nil]

/-- The first record is a header that can be read, under which the others are looked at. -/
structure Opened (limits : CsvLimits) (records : List LogicalCsvRecord) (header : List Text)
    (rest : List LogicalCsvRecord) : Prop where
  first : ∃ headerRecord, records = headerRecord :: rest ∧
    recordKind limits headerRecord = .row header
  decoded : containsSurrogate header = false

/-- Each required column is once in the header. -/
def HeaderAccepted (header : List Text) : Prop := ∀ column : Column, header.count column.name = 1

/-- The texts that are shown of the records of a file. -/
inductive FileShown (limits : CsvLimits) (records : List LogicalCsvRecord) : Text → Prop
  | preview (headerRecord : LogicalCsvRecord) (rest : List LogicalCsvRecord) (text : Text)
      (first : records = headerRecord :: rest)
      (large : recordKind limits headerRecord = .oversized ∨
        recordKind limits headerRecord = .fieldTooLarge)
      (kept : text ∈ limits.shows [headerRecord.text]) : FileShown limits records text
  | header (header : List Text) (rest : List LogicalCsvRecord) (text : Text)
      (opened : Opened limits records header rest) (rejected : ¬ HeaderAccepted header)
      (kept : text ∈ limits.shows header) : FileShown limits records text
  | data (header : List Text) (rest : List LogicalCsvRecord) (record : LogicalCsvRecord)
      (text : Text) (opened : Opened limits records header rest)
      (accepted : HeaderAccepted header) (reached : Reached limits header rest record)
      (shown : Shown limits header record text) : FileShown limits records text

/-- The records that a file is read as. -/
def fileRecords (limits : CsvLimits) (bytes : Bytes) : List LogicalCsvRecord :=
  (logicalRecords (decode bytes)).map (boundRecord limits.records)

theorem validateItems_kind (limits : CsvLimits) (headerRecord : LogicalCsvRecord)
    (rest : List StreamItem) :
    validateItems limits (.record headerRecord :: rest) =
      match recordKind limits headerRecord with
      | .oversized => .after (.issues [recordTooLargeIssue none headerRecord limits])
          (.returns 0 false)
      | .fieldTooLarge => .after (.issues [fieldTooLargeIssue headerRecord none limits])
          (.returns 0 false)
      | .malformed => .after (.issues [malformedCsvIssue 1]) (.returns 0 false)
      | .row header =>
          if containsSurrogate header then
            .after (.issues [invalidUtf8Issue none]) (.returns 0 false)
          else if validateHeader header limits ≠ [] then
            .after (.issues (validateHeader header limits)) (.returns 0 false)
          else validateRecords limits header rest 1 0 := by
  simp only [validateItems]
  cases cut : headerRecord.truncated with
  | true => simp [recordKind, cut]
  | false =>
      simp only [Bool.false_eq_true, if_false, parseRecord_kind limits headerRecord none cut]
      cases kind : recordKind limits headerRecord with
      | oversized => exact absurd kind (recordKind_whole cut)
      | fieldTooLarge => rfl
      | malformed => rfl
      | row row => rfl

/-- Where the first record is no header, only its own texts are shown. -/
theorem fileShown_first {limits : CsvLimits} {headerRecord : LogicalCsvRecord}
    {rest : List LogicalCsvRecord} {text : Text} :
    FileShown limits (headerRecord :: rest) text ↔
      match recordKind limits headerRecord with
      | .oversized => text ∈ limits.shows [headerRecord.text]
      | .fieldTooLarge => text ∈ limits.shows [headerRecord.text]
      | .malformed => False
      | .row header => containsSurrogate header = false ∧
          (¬ HeaderAccepted header ∧ text ∈ limits.shows header ∨
            HeaderAccepted header ∧ ∃ record, Reached limits header rest record ∧
              Shown limits header record text) := by
  constructor
  · intro shown
    cases shown with
    | preview _ _ _ first large kept =>
        cases first
        rcases large with kind | kind
        · rw [kind]
          exact kept
        · rw [kind]
          exact kept
    | header header _ _ opened rejected kept =>
        obtain ⟨⟨_, first, kind⟩, decoded⟩ := opened
        cases first
        rw [kind]
        exact ⟨decoded, Or.inl ⟨rejected, kept⟩⟩
    | data header _ record _ opened accepted reached shown =>
        obtain ⟨⟨_, first, kind⟩, decoded⟩ := opened
        cases first
        rw [kind]
        exact ⟨decoded, Or.inr ⟨accepted, record, reached, shown⟩⟩
  · intro shown
    cases kind : recordKind limits headerRecord with
    | oversized =>
        rw [kind] at shown
        exact .preview _ _ _ rfl (Or.inl kind) shown
    | fieldTooLarge =>
        rw [kind] at shown
        exact .preview _ _ _ rfl (Or.inr kind) shown
    | malformed =>
        rw [kind] at shown
        exact shown.elim
    | row header =>
        rw [kind] at shown
        obtain ⟨decoded, ⟨rejected, kept⟩ | ⟨accepted, record, reached, shown⟩⟩ := shown
        · exact .header header rest text ⟨⟨_, rfl, kind⟩, decoded⟩ rejected kept
        · exact .data header rest record text ⟨⟨_, rfl, kind⟩, decoded⟩ accepted reached shown

/-- A run over a file shows of its records what `FileShown` says. -/
theorem validateBytes_shows {bad : Nat → Bool} (marker : Free bad truncationMarker)
    {limits : CsvLimits} (accepted : limits.Accepted) (bytes : Bytes) :
    (validateBytes limits bytes).Shows bad ↔
      ∀ text, FileShown limits (fileRecords limits bytes) text → Free bad text := by
  rw [ValidationRun.shows_iff]
  unfold validateBytes
  rw [if_pos accepted]
  change (∀ event ∈ (validateItems limits ((fileRecords limits bytes).map .record)).events, _) ↔ _
  cases fileRecords limits bytes with
  | nil =>
      refine ⟨?_, ?_⟩
      · intro _ text shown
        cases shown with
        | preview _ _ _ first => cases first
        | header _ _ _ opened =>
            obtain ⟨_, first, _⟩ := opened.first
            cases first
        | data _ _ _ _ opened =>
            obtain ⟨_, first, _⟩ := opened.first
            cases first
      · intro _ event member text inEvent
        rw [List.map_nil, validateItems] at member
        rw [List.mem_singleton.mp member] at inEvent
        cases inEvent
  | cons headerRecord rest =>
      rw [List.map_cons, validateItems_kind]
      simp only [fileShown_first]
      cases kind : recordKind limits headerRecord with
      | oversized =>
          simp only [ValidationRun.after, ValidationRun.returns, List.forall_mem_cons,
            singleton_texts, recordTooLargeIssue_free marker]
          simp
      | fieldTooLarge =>
          simp only [ValidationRun.after, ValidationRun.returns, List.forall_mem_cons,
            singleton_texts, fieldTooLargeIssue_free marker]
          simp
      | malformed =>
          refine ⟨fun _ text none => none.elim, fun _ event member text inEvent => ?_⟩
          rw [List.mem_singleton.mp member, singleton_texts] at inEvent
          cases inEvent
      | row header =>
          dsimp only
          by_cases escaped : containsSurrogate header = true
          · rw [if_pos escaped]
            refine ⟨fun _ text shown => ?_, fun _ event member text inEvent => ?_⟩
            · rw [escaped] at shown
              cases shown.1
            · rw [List.mem_singleton.mp member, singleton_texts] at inEvent
              cases inEvent
          · rw [if_neg escaped]
            have decoded := Bool.not_eq_true _ ▸ escaped
            by_cases fits : HeaderAccepted header
            · rw [if_neg (not_not_intro (validateHeader_eq_nil_iff.mpr fits)),
                validateRecords_shown marker]
              simp only [decoded, fits, not_true_eq_false, true_and, false_and, false_or]
              constructor
              · rintro all text ⟨record, reached, shown⟩
                exact all record reached text shown
              · intro all record reached text shown
                exact all text ⟨record, reached, shown⟩
            · have rejected : validateHeader header limits ≠ [] :=
                fun none => fits (validateHeader_eq_nil_iff.mp none)
              rw [if_pos rejected]
              simp only [ValidationRun.after, ValidationRun.returns, List.forall_mem_cons,
                StreamEvent.texts, validateHeader_free marker rejected, decoded, fits,
                not_false_eq_true, true_and, false_and, or_false]
              simp

theorem ValidationRun.Agrees.shows {bad : Nat → Bool} {run other : ValidationRun}
    (agrees : run.Agrees other) : run.Shows bad ↔ other.Shows bad := by
  unfold ValidationRun.Shows
  rw [run.rows_callbacks, run.reported_callbacks, other.rows_callbacks, other.reported_callbacks,
    agrees.1]

/-- Nothing is shown under limits that are refused. -/
theorem refused_shows {bad : Nat → Bool} {limits : CsvLimits} (refused : ¬ limits.Accepted)
    (bytes : Bytes) : (validateBytes limits bytes).Shows bad := by
  rw [validateBytes, if_neg refused]
  constructor
  · intro row member
    cases member
  · intro issue member
    cases member

/-! ## NUL -/

def isNul (c : Nat) : Bool := c == 0

/-- No NUL reaches a callback exactly where none is in what is shown of the file. -/
theorem nul_kept_out (limits : CsvLimits) (sizes : StreamSizes) (chunks : List Bytes) :
    (validateCsvStream limits sizes chunks).Shows isNul ↔
      (limits.Accepted →
        ∀ text, FileShown limits (fileRecords limits chunks.flatten) text → Free isNul text) := by
  rw [(validateCsvStream_agrees limits sizes chunks).shows]
  by_cases accepted : limits.Accepted
  · rw [validateBytes_shows (by decide) accepted]
    exact ⟨fun free _ => free, fun free => free accepted⟩
  · exact ⟨fun _ valid => absurd valid accepted, fun _ => refused_shows accepted _⟩

def blockSizes : StreamSizes := ⟨fun _ => 8192, fun _ => Nat.succ_pos _, 65536, Nat.succ_pos _⟩

/-- A NUL in the code of the warehouse. -/
def nulFile : Bytes :=
  encode (ofString "warehouse_code,warehouse_name,sku,product_name,quantity\nW" ++ 0 ::
    ofString ",w,S,s,1\n")

theorem nul_gets_through :
    ¬ (validateCsvStream defaultLimits blockSizes [nulFile]).Shows isNul := by
  rw [(validateCsvStream_agrees defaultLimits blockSizes [nulFile]).shows]
  decide +kernel

end StockImport.Csv
