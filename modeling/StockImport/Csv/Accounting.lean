import StockImport.Csv.Streaming

/-!
# Record accounting

`checkRecord` is one turn of the loop over the data records: the callback it makes
and whether the loop goes on.  Every record consumed makes exactly one callback,
which carries the record's number, and a run that ends before the end of the
file or without a record has reported an issue.
-/

set_option autoImplicit false

namespace StockImport.Csv

open PyText CsvReader Utf8Escape

/-- The callback for one data record, and whether the loop continues. -/
def checkRecord (limits : CsvLimits) (header : List Text) (lineNumber : Nat)
    (record : LogicalCsvRecord) : Except PyException (StreamEvent × Bool) :=
  if record.truncated then .ok (.issues [recordTooLargeIssue (some lineNumber) record limits], true)
  else
    match parseRecord record (some lineNumber) limits with
    | .error issue => .ok (.issues [issue], issue.code = .csvFieldTooLarge)
    | .ok row =>
        if containsSurrogate row then .ok (.issues [invalidUtf8Issue (some lineNumber)], true)
        else
          match validateRow row header (columnIndex header) lineNumber limits with
          | .error e => .error e
          | .ok (_, some validatedRow) => .ok (.validRow validatedRow, true)
          | .ok (issues, none) => .ok (.issues issues, true)

/-- A callback about the record with a number. -/
def StreamEvent.AccountsFor (lineNumber : Nat) : StreamEvent → Prop
  | .fetch => False
  | .validRow row => row.lineNumber = lineNumber
  | .issues found => found ≠ [] ∧ ∀ issue ∈ found, issue.lineNumber = some lineNumber

theorem parseRecord_issue {record : LogicalCsvRecord} {lineNumber : Nat} {limits : CsvLimits}
    {issue : ValidationIssue} (failed : parseRecord record (some lineNumber) limits = .error issue) :
    issue.lineNumber = some lineNumber := by
  unfold parseRecord at failed
  dsimp only at failed
  repeat' split at failed
  all_goals first | cases failed; rfl | cases failed

/-- Either issues, all about the row, or the row itself. -/
theorem validateRow_cases {row header : List Text} {index : Column → Nat} {lineNumber : Nat}
    {limits : CsvLimits} {issues : List ValidationIssue} {validated : Option ValidatedRow}
    (checked : validateRow row header index lineNumber limits = .ok (issues, validated)) :
    (validated = none ∧ issues ≠ [] ∧ ∀ issue ∈ issues, issue.lineNumber = some lineNumber) ∨
      ∃ validatedRow, issues = [] ∧ validated = some validatedRow ∧
        validatedRow.lineNumber = lineNumber := by
  unfold validateRow at checked
  split at checked
  · cases checked
    exact Or.inl ⟨rfl, by simp, by simp [columnCountIssue]⟩
  · dsimp only at checked
    have missing : ∀ (columns : List Column) (rawData : RawData),
        ∀ issue ∈ columns.map (requiredIssue lineNumber rawData),
          issue.lineNumber = some lineNumber := by
      intro columns rawData issue member
      obtain ⟨column, _, rfl⟩ := List.mem_map.mp member
      rfl
    split at checked
    · cases checked
    · cases checked
      refine Or.inl ⟨rfl, by simp, ?_⟩
      intro issue member
      rcases List.mem_append.mp member with required | quantity
      · exact missing _ _ issue required
      · rw [List.mem_singleton.mp quantity]
        rfl
    · split at checked
      · next some =>
          cases checked
          exact Or.inl ⟨rfl, some, missing _ _⟩
      · cases checked
        exact Or.inr ⟨_, rfl, rfl, rfl⟩

theorem checkRecord_accounts {limits : CsvLimits} {header : List Text} {lineNumber : Nat}
    {record : LogicalCsvRecord} {event : StreamEvent} {continues : Bool}
    (checked : checkRecord limits header lineNumber record = .ok (event, continues)) :
    event.AccountsFor lineNumber ∧ (continues = false → ∃ found, event = .issues found) := by
  unfold checkRecord at checked
  split at checked
  · cases checked
    exact ⟨⟨by simp, by simp [recordTooLargeIssue]⟩, by simp⟩
  · split at checked
    · next issue failed =>
        cases checked
        refine ⟨⟨by simp, ?_⟩, fun _ => ⟨_, rfl⟩⟩
        intro other member
        rw [List.mem_singleton.mp member]
        exact parseRecord_issue failed
    · split at checked
      · cases checked
        exact ⟨⟨by simp, by simp [invalidUtf8Issue]⟩, by simp⟩
      · split at checked
        · cases checked
        · next validated =>
            cases checked
            rcases validateRow_cases validated with ⟨none, _⟩ | ⟨row, _, same, line⟩
            · cases none
            · cases same
              exact ⟨line, by simp⟩
        · next validated =>
            cases checked
            rcases validateRow_cases validated with ⟨_, nonempty, lines⟩ | ⟨row, _, same, _⟩
            · exact ⟨⟨nonempty, lines⟩, by simp⟩
            · cases same

/-- The loop is the turns one after the other. -/
theorem validateRecords_record (limits : CsvLimits) (header : List Text)
    (record : LogicalCsvRecord) (rest : List StreamItem) (lineNumber rowCount : Nat) :
    validateRecords limits header (.record record :: rest) lineNumber rowCount =
      match checkRecord limits header (lineNumber + 1) record with
      | .error e => .raises e
      | .ok (event, true) =>
          .after event (validateRecords limits header rest (lineNumber + 1) (rowCount + 1))
      | .ok (event, false) => .after event (.returns (rowCount + 1) false) := by
  unfold checkRecord
  simp only [validateRecords]
  split
  · rfl
  · cases parseRecord record (some (lineNumber + 1)) limits with
    | error issue =>
        dsimp only
        by_cases tooLarge : issue.code = .csvFieldTooLarge
        · simp only [tooLarge, if_true, decide_true]
        · simp only [tooLarge, if_false, decide_false]
    | ok row =>
        dsimp only
        split
        · rfl
        · cases checked : validateRow row header (columnIndex header) (lineNumber + 1) limits with
          | error e => rfl
          | ok answer =>
              obtain ⟨issues, validated⟩ := answer
              dsimp only
              rcases validateRow_cases checked with ⟨rfl, nonempty, _⟩ | ⟨validatedRow, rfl, rfl, _⟩
              · simp only [ne_eq, nonempty, not_false_eq_true, if_true]
              · simp

/-- What the loop leaves: the callbacks of the records consumed, and at the end the
complaint about a file without data. -/
structure RecordAccounts (limits : CsvLimits) (header : List Text)
    (records : List LogicalCsvRecord) (lineNumber rowCount : Nat) (run : ValidationRun)
    (perRecord final : List StreamEvent) : Prop where
  events : run.events = perRecord ++ final
  consumed : ∀ (i : Nat) (event : StreamEvent), perRecord[i]? = some event →
    ∃ record continues, records[i]? = some record ∧
      checkRecord limits header (lineNumber + 1 + i) record = .ok (event, continues) ∧
      (continues = false → i + 1 = perRecord.length)
  ends : final = [] ∨ rowCount + perRecord.length = 0 ∧ final = [.issues [noDataRowsIssue]]
  counted : ∀ summary, run.result = .ok summary → summary.rowCount = rowCount + perRecord.length
  whole : ∀ summary, run.result = .ok summary → summary.reachedEof = true →
    perRecord.length = records.length
  stopped : ∀ summary, run.result = .ok summary → summary.reachedEof = false →
    ∃ i record found, i + 1 = perRecord.length ∧ perRecord[i]? = some (.issues found) ∧
      records[i]? = some record ∧
      checkRecord limits header (lineNumber + 1 + i) record = .ok (.issues found, false)
  empty : ∀ summary, run.result = .ok summary → summary.rowCount = 0 →
    final = [.issues [noDataRowsIssue]]

section RecordAccounts

variable {limits : CsvLimits} {header : List Text} {records : List LogicalCsvRecord}
  {record : LogicalCsvRecord} {lineNumber rowCount : Nat} {run : ValidationRun}
  {event : StreamEvent} {perRecord final : List StreamEvent}

theorem RecordAccounts.atEnd (nonempty : rowCount ≠ 0) :
    RecordAccounts limits header [] lineNumber rowCount (.returns rowCount true) [] [] where
  events := rfl
  consumed i event member := by simp at member
  ends := Or.inl rfl
  counted summary returned := by cases returned; rfl
  whole summary returned _ := rfl
  stopped summary returned unfinished := by cases returned; cases unfinished
  empty summary returned none := by cases returned; exact absurd none nonempty

theorem RecordAccounts.noData :
    RecordAccounts limits header [] lineNumber 0
      (.after (.issues [noDataRowsIssue]) (.returns 0 true)) [] [.issues [noDataRowsIssue]] where
  events := rfl
  consumed i event member := by simp at member
  ends := Or.inr ⟨rfl, rfl⟩
  counted summary returned := by cases returned; rfl
  whole summary returned _ := rfl
  stopped summary returned unfinished := by cases returned; cases unfinished
  empty summary returned _ := rfl

theorem RecordAccounts.raises (e : PyException) :
    RecordAccounts limits header records lineNumber rowCount (.raises e) [] [] where
  events := rfl
  consumed i event member := by simp at member
  ends := Or.inl rfl
  counted summary returned := by cases returned
  whole summary returned := by cases returned
  stopped summary returned := by cases returned
  empty summary returned := by cases returned

/-- The check of a record that ends the loop. -/
theorem RecordAccounts.stops {found : List ValidationIssue}
    (checked : checkRecord limits header (lineNumber + 1) record = .ok (.issues found, false)) :
    RecordAccounts limits header (record :: records) lineNumber rowCount
      (.after (.issues found) (.returns (rowCount + 1) false)) [.issues found] [] where
  events := rfl
  consumed i event member := by
    cases i with
    | zero =>
        cases member
        exact ⟨record, false, rfl, checked, fun _ => rfl⟩
    | succ i => simp at member
  ends := Or.inl rfl
  counted summary returned := by cases returned; rfl
  whole summary returned reached := by cases returned; cases reached
  stopped summary returned _ := ⟨0, record, found, rfl, rfl, rfl, checked⟩
  empty summary returned none := by cases returned; cases none

/-- The check of a record after which the loop goes on. -/
theorem RecordAccounts.goesOn
    (checked : checkRecord limits header (lineNumber + 1) record = .ok (event, true))
    (later : RecordAccounts limits header records (lineNumber + 1) (rowCount + 1) run
      perRecord final) :
    RecordAccounts limits header (record :: records) lineNumber rowCount (.after event run)
      (event :: perRecord) final where
  events := by simp only [ValidationRun.after, later.events, List.cons_append]
  consumed i other member := by
    cases i with
    | zero =>
        cases member
        exact ⟨record, true, rfl, checked, by simp⟩
    | succ i =>
        obtain ⟨record', continues, position, checked', ends⟩ := later.consumed i other member
        have line : lineNumber + 1 + (i + 1) = lineNumber + 1 + 1 + i := by omega
        refine ⟨record', continues, position, line ▸ checked', fun stops => ?_⟩
        rw [List.length_cons, ends stops]
  ends := by
    rcases later.ends with none | ⟨empty, _⟩
    · exact Or.inl none
    · omega
  counted summary returned := by
    rw [later.counted summary returned, List.length_cons]
    omega
  whole summary returned reached := by
    rw [List.length_cons, List.length_cons, later.whole summary returned reached]
  stopped summary returned unfinished := by
    obtain ⟨i, last, found, length, member, position, checked'⟩ :=
      later.stopped summary returned unfinished
    have line : lineNumber + 1 + (i + 1) = lineNumber + 1 + 1 + i := by omega
    exact ⟨i + 1, last, found, by rw [List.length_cons, length], member, position,
      line ▸ checked'⟩
  empty := later.empty

end RecordAccounts

theorem validateRecords_accounts (limits : CsvLimits) (header : List Text) :
    ∀ (records : List LogicalCsvRecord) (lineNumber rowCount : Nat), ∃ perRecord final,
      RecordAccounts limits header records lineNumber rowCount
        (validateRecords limits header (records.map .record) lineNumber rowCount)
        perRecord final := by
  intro records
  induction records with
  | nil =>
      intro lineNumber rowCount
      simp only [List.map_nil, validateRecords]
      by_cases empty : rowCount = 0
      · subst empty
        exact ⟨_, _, .noData⟩
      · rw [if_neg empty]
        exact ⟨_, _, .atEnd empty⟩
  | cons record records ih =>
      intro lineNumber rowCount
      simp only [List.map_cons, validateRecords_record]
      cases checked : checkRecord limits header (lineNumber + 1) record with
      | error e => exact ⟨_, _, .raises e⟩
      | ok answer =>
          obtain ⟨event, continues⟩ := answer
          cases continues with
          | false =>
              obtain ⟨found, rfl⟩ := (checkRecord_accounts checked).2 rfl
              exact ⟨_, _, .stops checked⟩
          | true =>
              obtain ⟨perRecord, final, later⟩ := ih (lineNumber + 1) (rowCount + 1)
              exact ⟨_, _, .goesOn checked later⟩

/-! ## The whole file -/

/-- The records of a file after its header. -/
def dataRecords (limits : CsvLimits) (bytes : Bytes) : List LogicalCsvRecord :=
  ((logicalRecords (decode bytes)).map (boundRecord limits.records)).tail

/-- The fields of the first record of a file. -/
def fileHeader (limits : CsvLimits) (bytes : Bytes) : List Text :=
  match ((logicalRecords (decode bytes)).map (boundRecord limits.records)).head? with
  | none => []
  | some headerRecord =>
      match parseRecord headerRecord none limits with
      | .ok header => header
      | .error _ => []

/-- The accounts of a run over a file: one callback for each data record consumed,
and at most one about the file as a whole, where there is none.  The loop ends at
the first record whose check says so. -/
structure Accounts (limits : CsvLimits) (bytes : Bytes) (run : ValidationRun)
    (perRecord final : List StreamEvent) : Prop where
  callbacks : run.callbacks = perRecord ++ final
  consumed : ∀ (i : Nat) (event : StreamEvent), perRecord[i]? = some event →
    event.AccountsFor (i + 2) ∧ ∃ record continues,
      (dataRecords limits bytes)[i]? = some record ∧
        checkRecord limits (fileHeader limits bytes) (i + 2) record = .ok (event, continues) ∧
        (continues = false → i + 1 = perRecord.length)
  final : final = [] ∨ perRecord = [] ∧ ∃ found, found ≠ [] ∧ final = [.issues found]
  summary : ∀ summary, run.result = .ok summary →
    summary.rowCount = perRecord.length ∧
    (summary.reachedEof = true → perRecord.length = (dataRecords limits bytes).length) ∧
    (summary.reachedEof = false → perRecord = [] ∨ ∃ i record event, i + 1 = perRecord.length ∧
      (dataRecords limits bytes)[i]? = some record ∧
      checkRecord limits (fileHeader limits bytes) (i + 2) record = .ok (event, false)) ∧
    (summary.reachedEof = false ∨ summary.rowCount = 0 →
      ∃ found, found ≠ [] ∧ .issues found ∈ run.callbacks)

/-- The callbacks of a run over records alone are all its events. -/
theorem callbacks_eq_events {perRecord final : List StreamEvent}
    (consumed : ∀ (i : Nat) (event : StreamEvent), perRecord[i]? = some event →
      event.AccountsFor (i + 2))
    (ends : final = [] ∨ ∃ found, final = [.issues found]) :
    (perRecord ++ final).filter StreamEvent.isCallback = perRecord ++ final := by
  rw [List.filter_eq_self]
  intro event member
  rcases List.mem_append.mp member with inRecords | inFinal
  · obtain ⟨i, bound, same⟩ := List.mem_iff_getElem.mp inRecords
    have accounts := consumed i event (by rw [List.getElem?_eq_getElem bound, same])
    cases event with
    | fetch => exact accounts.elim
    | validRow row => rfl
    | issues found => rfl
  · rcases ends with rfl | ⟨found, rfl⟩
    · cases inFinal
    · rw [List.mem_singleton.mp inFinal]
      rfl

/-- A run that ends at the header. -/
theorem accounts_header {limits : CsvLimits} {bytes : Bytes} (found : List ValidationIssue)
    (nonempty : found ≠ []) (reachedEof : Bool)
    (empty : reachedEof = true → dataRecords limits bytes = []) :
    Accounts limits bytes (.after (.issues found) (.returns 0 reachedEof)) [] [.issues found] where
  callbacks := rfl
  consumed i event member := by simp at member
  final := Or.inr ⟨rfl, found, nonempty, rfl⟩
  summary summary returned := by
    cases returned
    refine ⟨rfl, ?_, fun _ => Or.inl rfl, ?_⟩
    · intro reached
      rw [empty reached]
      rfl
    · intro _
      exact ⟨found, nonempty, by simp [ValidationRun.callbacks, ValidationRun.after,
        ValidationRun.returns, StreamEvent.isCallback]⟩

/-- The accounts of the loop are those of the file. -/
theorem RecordAccounts.accounts {limits : CsvLimits} {bytes : Bytes} {header : List Text}
    {records : List LogicalCsvRecord} {run : ValidationRun} {perRecord final : List StreamEvent}
    (accounts : RecordAccounts limits header records 1 0 run perRecord final)
    (tail : dataRecords limits bytes = records) (fields : fileHeader limits bytes = header) :
    Accounts limits bytes run perRecord final := by
  subst tail
  subst fields
  have numbered : ∀ (i : Nat) (event : StreamEvent), perRecord[i]? = some event →
      event.AccountsFor (i + 2) ∧ ∃ record continues,
        (dataRecords limits bytes)[i]? = some record ∧
          checkRecord limits (fileHeader limits bytes) (i + 2) record = .ok (event, continues) ∧
          (continues = false → i + 1 = perRecord.length) := by
    intro i event member
    obtain ⟨record, continues, position, checked, ends⟩ := accounts.consumed i event member
    have line : 1 + 1 + i = i + 2 := by omega
    rw [line] at checked
    exact ⟨(checkRecord_accounts checked).1, record, continues, position, checked, ends⟩
  have callbacks : run.callbacks = perRecord ++ final := by
    rw [ValidationRun.callbacks, accounts.events]
    refine callbacks_eq_events (fun i event member => (numbered i event member).1) ?_
    rcases accounts.ends with none | ⟨_, some⟩
    · exact Or.inl none
    · exact Or.inr ⟨_, some⟩
  refine ⟨callbacks, numbered, ?_, ?_⟩
  · rcases accounts.ends with none | ⟨empty, some⟩
    · exact Or.inl none
    · refine Or.inr ⟨List.eq_nil_of_length_eq_zero (by omega), _, ?_, some⟩
      simp
  · intro summary returned
    have count := accounts.counted summary returned
    refine ⟨by omega, accounts.whole summary returned, ?_, ?_⟩
    · intro unfinished
      obtain ⟨i, record, found, length, _, position, checked⟩ :=
        accounts.stopped summary returned unfinished
      have line : 1 + 1 + i = i + 2 := by omega
      exact Or.inr ⟨i, record, .issues found, length, position, line ▸ checked⟩
    · rw [callbacks]
      rintro (unfinished | empty)
      · obtain ⟨i, _, found, _, position, _⟩ := accounts.stopped summary returned unfinished
        have member : .issues found ∈ perRecord := List.mem_of_getElem? position
        exact ⟨found, (numbered i (.issues found) position).1.1, List.mem_append_left _ member⟩
      · rw [accounts.empty summary returned empty]
        exact ⟨[noDataRowsIssue], by simp, by simp⟩

theorem validateBytes_accounts (limits : CsvLimits) (bytes : Bytes) :
    ∃ perRecord final, Accounts limits bytes (validateBytes limits bytes) perRecord final := by
  unfold validateBytes
  split
  · cases shape : (logicalRecords (decode bytes)).map (boundRecord limits.records) with
    | nil =>
        have empty : dataRecords limits bytes = [] := by simp [dataRecords, shape]
        exact ⟨_, _, accounts_header _ (by simp) true (fun _ => empty)⟩
    | cons headerRecord records =>
        have tail : dataRecords limits bytes = records := by simp [dataRecords, shape]
        simp only [List.map_cons, validateItems]
        split
        · exact ⟨_, _, accounts_header _ (by simp) false (by simp)⟩
        · split
          · exact ⟨_, _, accounts_header _ (by simp) false (by simp)⟩
          · next header parsed =>
              split
              · exact ⟨_, _, accounts_header _ (by simp) false (by simp)⟩
              · split
                · next found => exact ⟨_, _, accounts_header _ found false (by simp)⟩
                · have fields : fileHeader limits bytes = header := by
                    simp [fileHeader, shape, parsed]
                  obtain ⟨perRecord, final, accounts⟩ :=
                    validateRecords_accounts limits header records 1 0
                  exact ⟨perRecord, final, accounts.accounts tail fields⟩
  · refine ⟨[], [], rfl, by simp, Or.inl rfl, ?_⟩
    intro summary returned
    cases returned

theorem Accounts.agrees {limits : CsvLimits} {bytes : Bytes} {run other : ValidationRun}
    {perRecord final : List StreamEvent} (accounts : Accounts limits bytes other perRecord final)
    (agrees : run.Agrees other) : Accounts limits bytes run perRecord final where
  callbacks := agrees.1.trans accounts.callbacks
  consumed := accounts.consumed
  final := accounts.final
  summary summary returned := by
    rw [agrees.1]
    exact accounts.summary summary (agrees.2 ▸ returned)

/-- The accounts of a run over the chunks of a file. -/
theorem validateCsvStream_accounts (limits : CsvLimits) (sizes : StreamSizes)
    (chunks : List Bytes) :
    ∃ perRecord final,
      Accounts limits chunks.flatten (validateCsvStream limits sizes chunks) perRecord final := by
  obtain ⟨perRecord, final, accounts⟩ := validateBytes_accounts limits chunks.flatten
  exact ⟨perRecord, final, accounts.agrees (validateCsvStream_agrees limits sizes chunks)⟩

/-! ## Rows and issues -/

theorem flatMap_callbacks {β : Type} (f : StreamEvent → List β) (fetches : f .fetch = []) :
    ∀ events : List StreamEvent,
      (events.filter StreamEvent.isCallback).flatMap f = events.flatMap f := by
  intro events
  induction events with
  | nil => rfl
  | cons event rest ih =>
      cases called : event.isCallback with
      | true => rw [List.filter_cons_of_pos called, List.flatMap_cons, List.flatMap_cons, ih]
      | false =>
          have isFetch : event = .fetch := by
            cases event with
            | fetch => rfl
            | validRow row => cases called
            | issues found => cases called
          rw [List.filter_cons_of_neg (by simp [called]), List.flatMap_cons, isFetch, fetches,
            List.nil_append, ih]

theorem ValidationRun.rows_callbacks (run : ValidationRun) :
    run.rows = run.callbacks.flatMap StreamEvent.rows :=
  (flatMap_callbacks StreamEvent.rows rfl run.events).symm

theorem ValidationRun.reported_callbacks (run : ValidationRun) :
    run.reported = run.callbacks.flatMap StreamEvent.reported :=
  (flatMap_callbacks StreamEvent.reported rfl run.events).symm

theorem numbered_lines : ∀ (events : List StreamEvent) (first : Nat),
    (∀ (i : Nat) (event : StreamEvent), events[i]? = some event →
      event.AccountsFor (first + i)) →
      ((events.flatMap StreamEvent.rows).map ValidatedRow.lineNumber).Sublist
        (List.range' first events.length) ∧
      (events.flatMap StreamEvent.reported = [] →
        (events.flatMap StreamEvent.rows).map ValidatedRow.lineNumber =
          List.range' first events.length) := by
  intro events
  induction events with
  | nil => intro first _; simp
  | cons event events ih =>
      intro first numbered
      have head : event.AccountsFor first := numbered 0 event rfl
      obtain ⟨sub, all⟩ := ih (first + 1) (by
        intro i other member
        have line : first + 1 + i = first + (i + 1) := by omega
        rw [line]
        exact numbered (i + 1) other member)
      rw [List.length_cons, List.range'_succ]
      cases event with
      | fetch => exact head.elim
      | validRow row =>
          have line : row.lineNumber = first := head
          refine ⟨?_, ?_⟩
          · simp only [List.flatMap_cons, StreamEvent.rows, List.cons_append, List.nil_append,
              List.map_cons, line]
            exact sub.cons_cons first
          · intro none
            simp only [List.flatMap_cons, StreamEvent.rows, List.cons_append, List.nil_append,
              List.map_cons, line]
            rw [all (by simpa [StreamEvent.reported] using none)]
      | issues found =>
          refine ⟨?_, ?_⟩
          · simp only [List.flatMap_cons, StreamEvent.rows, List.nil_append]
            exact sub.cons first
          · intro none
            simp only [List.flatMap_cons, StreamEvent.reported, List.append_eq_nil_iff] at none
            exact absurd none.1 head.1

theorem Accounts.rows {limits : CsvLimits} {bytes : Bytes} {run : ValidationRun}
    {perRecord final : List StreamEvent} (accounts : Accounts limits bytes run perRecord final) :
    run.rows = perRecord.flatMap StreamEvent.rows := by
  rw [run.rows_callbacks, accounts.callbacks, List.flatMap_append]
  rcases accounts.final with rfl | ⟨_, found, _, rfl⟩
  · simp
  · simp [StreamEvent.rows]

/-- A row is the result of the data record with its number. -/
theorem Accounts.row_record {limits : CsvLimits} {bytes : Bytes} {run : ValidationRun}
    {perRecord final : List StreamEvent} (accounts : Accounts limits bytes run perRecord final)
    {row : ValidatedRow} (member : row ∈ run.rows) :
    ∃ i record continues, row.lineNumber = i + 2 ∧
      (dataRecords limits bytes)[i]? = some record ∧
      checkRecord limits (fileHeader limits bytes) row.lineNumber record =
        .ok (.validRow row, continues) := by
  rw [accounts.rows, List.mem_flatMap] at member
  obtain ⟨event, inRecords, isRow⟩ := member
  obtain ⟨i, bound, same⟩ := List.mem_iff_getElem.mp inRecords
  obtain ⟨line, record, continues, position, checked, _⟩ :=
    accounts.consumed i event (by rw [List.getElem?_eq_getElem bound, same])
  cases event with
  | fetch => cases isRow
  | issues found => cases isRow
  | validRow other =>
      rw [List.mem_singleton.mp isRow]
      have line : other.lineNumber = i + 2 := line
      exact ⟨i, record, continues, line, position, line ▸ checked⟩

/-- The lines of the rows are among those of the records consumed, in order. -/
theorem Accounts.lines {limits : CsvLimits} {bytes : Bytes} {run : ValidationRun}
    {perRecord final : List StreamEvent} (accounts : Accounts limits bytes run perRecord final) :
    (run.rows.map ValidatedRow.lineNumber).Sublist (List.range' 2 perRecord.length) := by
  rw [accounts.rows]
  exact (numbered_lines perRecord 2 (fun i event member => by
    rw [Nat.add_comm]
    exact (accounts.consumed i event member).1)).1

theorem Accounts.lines_nodup {limits : CsvLimits} {bytes : Bytes} {run : ValidationRun}
    {perRecord final : List StreamEvent} (accounts : Accounts limits bytes run perRecord final) :
    (run.rows.map ValidatedRow.lineNumber).Nodup :=
  List.Nodup.sublist accounts.lines List.nodup_range'

/-- Without an issue the whole file was read, and every data record gave a row. -/
theorem Accounts.complete {limits : CsvLimits} {bytes : Bytes} {run : ValidationRun}
    {perRecord final : List StreamEvent} (accounts : Accounts limits bytes run perRecord final)
    {summary : CsvValidationSummary} (returned : run.result = .ok summary)
    (clean : run.reported = []) :
    summary.reachedEof = true ∧ 0 < summary.rowCount ∧
      summary.rowCount = (dataRecords limits bytes).length ∧
      run.rows.map ValidatedRow.lineNumber = List.range' 2 summary.rowCount := by
  obtain ⟨count, whole, _, stopped⟩ := accounts.summary summary returned
  have fine : ¬(summary.reachedEof = false ∨ summary.rowCount = 0) := by
    intro short
    obtain ⟨found, nonempty, member⟩ := stopped short
    rw [run.reported_callbacks, List.flatMap_eq_nil_iff] at clean
    exact nonempty (clean _ member)
  rw [not_or, Bool.not_eq_false] at fine
  refine ⟨fine.1, Nat.pos_of_ne_zero fine.2, count.trans (whole fine.1), ?_⟩
  have noneReported : perRecord.flatMap StreamEvent.reported = [] := by
    rw [run.reported_callbacks, accounts.callbacks, List.flatMap_append,
      List.append_eq_nil_iff] at clean
    exact clean.1
  rw [accounts.rows, count]
  exact (numbered_lines perRecord 2 (fun i event member => by
    rw [Nat.add_comm]
    exact (accounts.consumed i event member).1)).2 noneReported

/-! ## Exceptions -/

theorem checkRecord_raises {limits : CsvLimits} {header : List Text} {lineNumber : Nat}
    {record : LogicalCsvRecord} {e : PyException}
    (raised : checkRecord limits header lineNumber record = .error e) : e = .valueError := by
  have quantity : ∀ text e, checkQuantity text = .error e → e = .valueError := by
    intro text e raised
    unfold checkQuantity at raised
    repeat' split at raised
    all_goals first | cases raised; rfl | cases raised
  have whole : ∀ row e, validateRow row header (columnIndex header) lineNumber limits = .error e →
      e = .valueError := by
    intro row e raised
    unfold validateRow at raised
    split at raised
    · cases raised
    · dsimp only at raised
      split at raised
      · next failed =>
          cases raised
          exact quantity _ _ failed
      · cases raised
      · split at raised <;> cases raised
  unfold checkRecord at raised
  split at raised
  · cases raised
  · split at raised
    · cases raised
    · split at raised
      · cases raised
      · split at raised
        · next failed =>
            cases raised
            exact whole _ _ failed
        · cases raised
        · cases raised

theorem validateRecords_raises (limits : CsvLimits) (header : List Text) {e : PyException} :
    ∀ (records : List LogicalCsvRecord) (lineNumber rowCount : Nat),
      (validateRecords limits header (records.map .record) lineNumber rowCount).result = .error e →
        e = .valueError := by
  intro records
  induction records with
  | nil =>
      intro lineNumber rowCount raised
      simp only [List.map_nil, validateRecords] at raised
      split at raised <;> cases raised
  | cons record records ih =>
      intro lineNumber rowCount raised
      simp only [List.map_cons, validateRecords_record] at raised
      split at raised
      · next failed =>
          cases raised
          exact checkRecord_raises failed
      · exact ih _ _ raised
      · cases raised

/-- `validate_csv_stream` itself raises nothing but `ValueError`. -/
theorem validateBytes_raises {limits : CsvLimits} {bytes : Bytes} {e : PyException}
    (raised : (validateBytes limits bytes).result = .error e) : e = .valueError := by
  unfold validateBytes at raised
  split at raised
  · cases shape : (logicalRecords (decode bytes)).map (boundRecord limits.records) with
    | nil =>
        simp only [shape, List.map_nil, validateItems] at raised
        cases raised
    | cons headerRecord records =>
        simp only [shape, List.map_cons, validateItems] at raised
        split at raised
        · cases raised
        · split at raised
          · cases raised
          · split at raised
            · cases raised
            · split at raised
              · cases raised
              · exact validateRecords_raises limits _ records 1 0 raised
  · cases raised
    rfl

end StockImport.Csv
