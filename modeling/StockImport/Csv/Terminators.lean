import StockImport.Csv.Assembly
import StockImport.Csv.RoundTrip
import StockImport.Csv.Storable

/-!
# Line terminators

A file of records that are ended by LF, by CR or by CRLF, the last of them perhaps by
nothing.  What becomes of a record is its `recordKind`, and this depends on the
terminator only where it makes the record one character too long.
-/

set_option autoImplicit false

namespace StockImport.Csv

open PyText CsvReader Utf8Escape

/-! ## Records and files -/

/-- A quoted field, once opened, has been closed. -/
def Flags.Closed (flags : Flags) : Prop := flags.inQuotes = true → flags.quotePending = true

/-- A record without its terminator: CR and LF stand in quoted fields alone, and every
quoted field is closed. -/
structure RecordText where
  text : Text
  nonempty : text ≠ []
  closed : ∃ flags, Flags.start.run text = some flags ∧ flags.Closed

/-- The text of records with one terminator throughout, which the last may lack. -/
def writtenText (terminator : Terminator) (terminated : Bool) (first : List RecordText)
    (last : RecordText) : Text :=
  first.flatMap (fun record => record.text ++ terminator.text) ++
    (last.text ++ if terminated then terminator.text else [])

/-- A file whose last record has no terminator. -/
structure RecordFile where
  first : List RecordText
  last : RecordText
  bytes : Bytes
  decoded : decode bytes = writtenText .lf false first last

/-- The records of a file written with some terminator, in some chunks. -/
structure Writing (file : RecordFile) where
  terminator : Terminator
  terminated : Bool
  chunks : List Bytes
  decoded : decode chunks.flatten = writtenText terminator terminated file.first file.last

theorem Flags.Closed.step {flags : Flags} (closed : flags.Closed) {c : Nat}
    (newline : isNewline c = true) : flags.step c = none := by
  have notQuote := (newline_not_quote newline).1
  obtain ⟨inQuotes, pending, fieldStart⟩ := flags
  cases inQuotes with
  | false => simp [Flags.step, Flags.outside, newline]
  | true =>
      have waits : pending = true := closed rfl
      simp [Flags.step, Flags.outside, newline, notQuote, waits]

theorem takeRecord_run {flags after : Flags} {text : Text} (rest : Text)
    (ran : flags.run text = some after) :
    takeRecord flags (text ++ rest) =
      (text ++ (takeRecord after rest).1, (takeRecord after rest).2) := by
  induction text generalizing flags with
  | nil =>
      cases ran
      rfl
  | cons c text ih =>
      obtain ⟨next, step, later⟩ := Option.bind_eq_some_iff.mp ran
      rw [List.cons_append, takeRecord_inner _ step, ih later]
      rfl

/-- A newline does not begin a record. -/
theorem RecordText.head (record : RecordText) (rest : Text) :
    (record.text ++ rest).head? ≠ some LF := by
  obtain ⟨text, nonempty, flags, ran, closed⟩ := record
  cases text with
  | nil => exact absurd rfl nonempty
  | cons c text =>
      obtain ⟨next, step, _⟩ := Option.bind_eq_some_iff.mp ran
      intro isLf
      cases isLf
      exact nomatch step

theorem logicalRecords_terminated (record : RecordText) (terminator : Terminator) (rest : Text)
    (head : rest.head? ≠ some LF) :
    logicalRecords (record.text ++ terminator.text ++ rest) =
      (record.text ++ [terminator.first]) :: logicalRecords rest := by
  obtain ⟨flags, ran, closed⟩ := record.closed
  obtain ⟨paired, shape, dropped⟩ := dropPairedLf_terminator terminator rest head
  rw [List.append_assoc, shape, List.cons_append, logicalRecords_eq, takeRecord_run _ ran,
    takeRecord_boundary _ (closed.step terminator.first_newline), dropped]

/-- The record that a terminator ends, and the one that the text ends. -/
def endedText (terminator : Terminator) (terminated : Bool) (record : RecordText) : Text :=
  record.text ++ if terminated then [terminator.first] else []

theorem logicalRecords_last (record : RecordText) (terminator : Terminator) (terminated : Bool) :
    logicalRecords (record.text ++ if terminated then terminator.text else []) =
      [endedText terminator terminated record] := by
  cases terminated with
  | true =>
      have ended := logicalRecords_terminated record terminator [] (by simp)
      rw [List.append_nil] at ended
      exact ended
  | false =>
      obtain ⟨flags, ran, _⟩ := record.closed
      have taken : takeRecord .start record.text = (record.text, none) := by
        simpa [takeRecord] using takeRecord_run [] ran
      rw [endedText, if_neg Bool.false_ne_true, if_neg Bool.false_ne_true, List.append_nil,
        logicalRecords_eq, taken]
      exact if_neg record.nonempty

theorem logicalRecords_written (terminator : Terminator) (terminated : Bool) (last : RecordText) :
    ∀ first : List RecordText,
      logicalRecords (writtenText terminator terminated first last) =
        first.map (endedText terminator true) ++ [endedText terminator terminated last] := by
  intro first
  induction first with
  | nil => exact logicalRecords_last last terminator terminated
  | cons record first ih =>
      have head : (writtenText terminator terminated first last).head? ≠ some LF := by
        cases first with
        | nil => exact last.head _
        | cons next first =>
            simp only [writtenText, List.flatMap_cons, List.append_assoc]
            exact next.head _
      have text : writtenText terminator terminated (record :: first) last =
          record.text ++ terminator.text ++ writtenText terminator terminated first last := by
        simp [writtenText]
      rw [text, logicalRecords_terminated record terminator _ head, ih]
      rfl

/-! ## The reader at a terminator -/

/-- From any point of a record, a terminator adds nothing to its row. -/
theorem resume_terminated (limit : Nat) {c : Nat} (newline : isNewline c = true) :
    ∀ (text : Text) (p : Parser) (after : Flags), p.state ≠ .eatCrNl →
      (syncFlags p.state).run text = some after → after.Closed →
        resume limit p (text ++ [c]) = resume limit p text := by
  have notQuote := (newline_not_quote newline).1
  have notComma := (newline_not_quote newline).2
  intro text
  induction text with
  | nil =>
      intro p after active ran closed
      cases ran
      have none : splitLines (dropPairedLf c []) = [] := by simp [dropPairedLf, splitLines]
      have ends : ∀ p', p.feedChar limit c = .ok p' → p'.state = .eatCrNl →
          resume limit p ([] ++ [c]) = .row p'.fields [] := by
        intro p' fed eaten
        rw [List.nil_append, resume_newline limit p p' c [] newline fed eaten, none]
      cases state : p.state with
      | eatCrNl => exact absurd state active
      | inQuotedField =>
          rw [state] at closed
          cases closed rfl
      | startRecord =>
          have fed : p.feedChar limit c = .ok { p with state := .eatCrNl } := by
            simp [Parser.feedChar, state, newline]
          rw [ends _ fed rfl]
          simp [resume, splitLines, afterLine, Parser.endLine, state]
      | startField | inField | quoteInQuotedField =>
          have fed : p.feedChar limit c = .ok (p.saveField .eatCrNl) := by
            simp [Parser.feedChar, Parser.startField, state, newline, notQuote, notComma]
          rw [ends _ fed rfl]
          simp [resume, splitLines, afterLine, Parser.endLine, state, Parser.saveField]
  | cons d text ih =>
      intro p after active ran closed
      obtain ⟨next, step, later⟩ := Option.bind_eq_some_iff.mp ran
      cases fed : p.feedChar limit d with
      | error e =>
          rw [List.cons_append, resume_error limit p d _ e fed, resume_error limit p d _ e fed]
      | ok p' =>
          have inStep := feedChar_sync active fed
          rw [InStep, step] at inStep
          obtain ⟨sync, active', inside⟩ := inStep
          rw [List.cons_append, resume_step limit p p' d _ fed inside,
            resume_step limit p p' d _ fed inside]
          exact ih p' after active' (sync ▸ later) closed

theorem next_ended (limit : Nat) (record : RecordText) (terminator : Terminator)
    (terminated : Bool) :
    next limit .fresh (splitLines (endedText terminator terminated record)) =
      next limit .fresh (splitLines record.text) := by
  cases terminated with
  | false => rw [endedText, if_neg Bool.false_ne_true, List.append_nil]
  | true =>
      obtain ⟨text, nonempty, flags, ran, closed⟩ := record
      cases text with
      | nil => exact absurd rfl nonempty
      | cons c text =>
          have same := resume_terminated limit terminator.first_newline (c :: text) .fresh flags
            (by decide) ran closed
          rw [List.cons_append] at same
          simp only [endedText, if_true, List.cons_append]
          rw [next_splitLines, next_splitLines]
          exact same

/-! ## What becomes of a record -/

/-- A record as the splitter yields it. -/
def yielded (limits : CsvLimits) (terminator : Terminator) (terminated : Bool)
    (record : RecordText) : LogicalCsvRecord :=
  boundRecord limits.records (endedText terminator terminated record)

theorem yielded_truncated {limits : CsvLimits} {terminator : Terminator} {terminated : Bool}
    {record : RecordText} :
    (yielded limits terminator terminated record).truncated = true ↔
      limits.maxRecordChars < record.text.length + (if terminated then 1 else 0) := by
  simp only [yielded, boundRecord, CsvLimits.records, decide_eq_true_iff, endedText,
    List.length_append]
  cases terminated <;> rfl

/-- What becomes of a record with a terminator. -/
def endedKind (limits : CsvLimits) (record : RecordText) : RecordKind :=
  recordKind limits (yielded limits .lf true record)

/-- Of two records with the same characters, both cut or both whole, becomes the same. -/
theorem recordKind_yielded {limits : CsvLimits} {record : RecordText}
    {terminator other : Terminator} {terminated terminated' : Bool}
    (same : (yielded limits terminator terminated record).truncated =
      (yielded limits other terminated' record).truncated) :
    recordKind limits (yielded limits terminator terminated record) =
      recordKind limits (yielded limits other terminated' record) := by
  unfold recordKind
  rw [← same]
  cases cut : (yielded limits terminator terminated record).truncated with
  | true => rfl
  | false =>
      have whole : ∀ (terminator : Terminator) (terminated : Bool),
          (yielded limits terminator terminated record).truncated = false →
            (yielded limits terminator terminated record).text =
              endedText terminator terminated record :=
        fun _ _ whole => (boundRecord_yields limits.records _).whole whole
      rw [whole _ _ cut, whole _ _ (same ▸ cut), next_ended, next_ended]

theorem recordKind_ended (limits : CsvLimits) (terminator : Terminator) (record : RecordText) :
    recordKind limits (yielded limits terminator true record) = endedKind limits record :=
  recordKind_yielded (Bool.eq_iff_iff.mpr (yielded_truncated.trans yielded_truncated.symm))

/-- Without its terminator a record fares the same unless it has as many characters of its
own as a record may have. -/
theorem recordKind_unended {limits : CsvLimits} (terminator : Terminator) {record : RecordText}
    (different : record.text.length ≠ limits.maxRecordChars) :
    recordKind limits (yielded limits terminator false record) = endedKind limits record := by
  refine recordKind_yielded (Bool.eq_iff_iff.mpr (yielded_truncated.trans (Iff.trans ?_
    yielded_truncated.symm)))
  simp only [Bool.false_eq_true, if_false, if_true]
  omega

theorem recordKind_atLimit {limits : CsvLimits} {record : RecordText}
    (atLimit : record.text.length = limits.maxRecordChars) (terminator : Terminator) :
    endedKind limits record = .oversized ∧
      recordKind limits (yielded limits terminator false record) ≠ .oversized := by
  have cut : (yielded limits .lf true record).truncated = true := by
    rw [yielded_truncated, if_pos rfl]
    omega
  have whole : (yielded limits terminator false record).truncated = false := by
    rw [← Bool.not_eq_true, yielded_truncated, if_neg Bool.false_ne_true]
    omega
  exact ⟨by rw [endedKind, recordKind, if_pos cut], recordKind_whole whole⟩

/-! ## Runs that find the same -/

/-- The code, the field and the line of an issue. -/
def ValidationIssue.site (issue : ValidationIssue) : IssueCode × Option FieldName × Option Nat :=
  (issue.code, issue.fieldName, issue.lineNumber)

def StreamEvent.sites (event : StreamEvent) : List (IssueCode × Option FieldName × Option Nat) :=
  event.reported.map ValidationIssue.site

/-- Two runs with the same rows, the same issues up to messages and data, and the same
summary. -/
structure ValidationRun.SameFindings (run other : ValidationRun) : Prop where
  rows : run.rows = other.rows
  sites : run.reported.map ValidationIssue.site = other.reported.map ValidationIssue.site
  result : run.result = other.result

theorem ValidationRun.SameFindings.refl (run : ValidationRun) : run.SameFindings run :=
  ⟨rfl, rfl, rfl⟩

/-- Two callbacks with the same rows and the same issues. -/
def StreamEvent.SameFindings (event other : StreamEvent) : Prop :=
  event.rows = other.rows ∧ event.sites = other.sites

theorem sameFindings_after {run run' : ValidationRun} {event event' : StreamEvent}
    (same : event.SameFindings event') :
    (run.after event).SameFindings (run'.after event') ↔ run.SameFindings run' := by
  have rows : ∀ (event : StreamEvent) (run : ValidationRun),
      (run.after event).rows = event.rows ++ run.rows := fun _ _ => rfl
  have sites : ∀ (event : StreamEvent) (run : ValidationRun),
      (run.after event).reported.map ValidationIssue.site =
        event.sites ++ run.reported.map ValidationIssue.site := fun _ _ => List.map_append
  constructor
  · rintro ⟨sameRows, sameSites, result⟩
    rw [rows, rows, same.1] at sameRows
    rw [sites, sites, same.2] at sameSites
    exact ⟨List.append_cancel_left sameRows, List.append_cancel_left sameSites, result⟩
  · rintro ⟨sameRows, sameSites, result⟩
    refine ⟨?_, ?_, result⟩
    · rw [rows, rows, same.1, sameRows]
    · rw [sites, sites, same.2, sameSites]

/-- Two turns of the loop with the same outcome. -/
inductive SameTurn : Except PyException (StreamEvent × Bool) →
    Except PyException (StreamEvent × Bool) → Prop
  | raises (e : PyException) : SameTurn (.error e) (.error e)
  | returns {event other : StreamEvent} (continues : Bool) (same : event.SameFindings other) :
      SameTurn (.ok (event, continues)) (.ok (other, continues))

theorem SameTurn.refl (turn : Except PyException (StreamEvent × Bool)) : SameTurn turn turn := by
  cases turn with
  | error e => exact .raises e
  | ok answer => exact .returns answer.2 ⟨rfl, rfl⟩

section Turn

variable {limits : CsvLimits} {header : List Text} {record other : LogicalCsvRecord}

/-- Of records of one kind the same is found. -/
theorem checkRecord_sameKind (same : recordKind limits record = recordKind limits other)
    (lineNumber : Nat) :
    SameTurn (checkRecord limits header lineNumber record)
      (checkRecord limits header lineNumber other) := by
  rw [checkRecord_kind, checkRecord_kind, ← same]
  cases recordKind limits record with
  | oversized => exact .returns true ⟨rfl, rfl⟩
  | fieldTooLarge => exact .returns true ⟨rfl, rfl⟩
  | malformed => exact .refl _
  | row row => exact .refl _

theorem checkRecord_goesOn {lineNumber : Nat} {event : StreamEvent} {continues : Bool}
    (checked : checkRecord limits header lineNumber record = .ok (event, continues)) :
    continues = true ↔ GoesOn limits header record :=
  (@checkRecord_shown (fun _ => false) _ _ _ _ (fun _ _ => rfl) _ _ checked).1

/-- Issues of which none is about the size of a record. -/
def NoneTooLarge (issues : List ValidationIssue) : Prop :=
  ∀ issue ∈ issues, issue.code ≠ .csvRecordTooLarge

theorem noneTooLarge_single {issue : ValidationIssue} (other : issue.code ≠ .csvRecordTooLarge) :
    NoneTooLarge [issue] := by
  intro found member
  rw [List.mem_singleton.mp member]
  exact other

theorem noneTooLarge_nil : NoneTooLarge [] := fun _ member => absurd member List.not_mem_nil

theorem checkQuantity_noneTooLarge {text : Text} {code : IssueCode} {message : String}
    (checked : checkQuantity text = .ok (.issue code message)) : code ≠ .csvRecordTooLarge := by
  rintro rfl
  rcases checkQuantity_cases text with
    ⟨_, _, raised⟩ | ⟨_, ⟨_, valued, _⟩ | ⟨code, _, found, fault⟩⟩
  · cases checked.symm.trans raised
  · cases checked.symm.trans valued
  · cases checked.symm.trans found
    exact fault

theorem validateRow_noneTooLarge {row : List Text} {index : Column → Nat} {lineNumber : Nat}
    {issues : List ValidationIssue} {validated : Option ValidatedRow}
    (checked : validateRow row header index lineNumber limits = .ok (issues, validated)) :
    NoneTooLarge issues := by
  have missing : ∀ (columns : List Column) (rawData : RawData),
      NoneTooLarge (columns.map (requiredIssue lineNumber rawData)) := by
    intro columns rawData issue member
    obtain ⟨column, _, rfl⟩ := List.mem_map.mp member
    exact IssueCode.noConfusion
  unfold validateRow at checked
  split at checked
  · cases checked
    exact noneTooLarge_single IssueCode.noConfusion
  · dsimp only at checked
    split at checked
    · cases checked
    · next code message quantity =>
        cases checked
        intro issue member
        rcases List.mem_append.mp member with required | last
        · exact missing _ _ issue required
        · exact noneTooLarge_single (checkQuantity_noneTooLarge quantity) issue last
    · split at checked
      · cases checked
        exact missing _ _
      · cases checked
        exact noneTooLarge_nil

/-- A record that is not too large is not reported as such. -/
theorem checkRecord_noneTooLarge {lineNumber : Nat} {event : StreamEvent} {continues : Bool}
    (whole : recordKind limits record ≠ .oversized)
    (checked : checkRecord limits header lineNumber record = .ok (event, continues)) :
    NoneTooLarge event.reported := by
  rw [checkRecord_kind] at checked
  cases kind : recordKind limits record with
  | oversized => exact absurd kind whole
  | fieldTooLarge | malformed =>
      rw [kind] at checked
      cases checked
      exact noneTooLarge_single IssueCode.noConfusion
  | row row =>
      simp only [kind] at checked
      split at checked
      · cases checked
        exact noneTooLarge_single IssueCode.noConfusion
      · split at checked
        · cases checked
        · cases checked
          exact noneTooLarge_nil
        · next validated =>
            cases checked
            exact validateRow_noneTooLarge validated

/-- A run that reports a record as too large, and one that does not. -/
theorem not_sameFindings {run other : ValidationRun} {issue : ValidationIssue}
    (reports : issue ∈ run.reported) (tooLarge : issue.code = .csvRecordTooLarge)
    (none : NoneTooLarge other.reported) : ¬ run.SameFindings other := by
  intro same
  have sites : issue.site ∈ other.reported.map ValidationIssue.site :=
    same.sites ▸ List.mem_map_of_mem reports
  obtain ⟨found, member, site⟩ := List.mem_map.mp sites
  exact none found member ((congrArg Prod.fst site).trans tooLarge)

end Turn

/-! ## The loop -/

section Loop

variable {limits : CsvLimits} {header : List Text}

theorem validateRecords_sameKinds : ∀ (records others : List LogicalCsvRecord)
    (lineNumber rowCount : Nat),
    records.map (recordKind limits) = others.map (recordKind limits) →
      (validateRecords limits header (records.map .record) lineNumber rowCount).SameFindings
        (validateRecords limits header (others.map .record) lineNumber rowCount) := by
  intro records
  induction records with
  | nil =>
      intro others lineNumber rowCount kinds
      cases List.map_eq_nil_iff.mp kinds.symm
      exact .refl _
  | cons record records ih =>
      intro others lineNumber rowCount kinds
      cases others with
      | nil => cases kinds
      | cons other others =>
          rw [List.map_cons, List.map_cons, List.cons.injEq] at kinds
          simp only [List.map_cons, validateRecords_record]
          have turn : SameTurn (checkRecord limits header (lineNumber + 1) record)
              (checkRecord limits header (lineNumber + 1) other) := checkRecord_sameKind kinds.1 _
          generalize checkRecord limits header (lineNumber + 1) record = first at turn ⊢
          generalize checkRecord limits header (lineNumber + 1) other = second at turn ⊢
          cases turn with
          | raises e => exact .refl _
          | returns continues same =>
              cases continues with
              | true => exact (sameFindings_after same).mpr (ih others _ _ kinds.2)
              | false => exact (sameFindings_after same).mpr (.refl _)

/-- Two runs that differ in the last record alone, which is too large in the one. -/
theorem validateRecords_last {last last' : LogicalCsvRecord}
    (tooLarge : recordKind limits last = .oversized)
    (whole : recordKind limits last' ≠ .oversized) : ∀ (records others : List LogicalCsvRecord)
    (lineNumber rowCount : Nat),
    records.map (recordKind limits) = others.map (recordKind limits) →
      ((validateRecords limits header ((records ++ [last]).map .record) lineNumber
          rowCount).SameFindings
        (validateRecords limits header ((others ++ [last']).map .record) lineNumber rowCount) ↔
        ¬ ∀ record ∈ records, GoesOn limits header record) := by
  intro records
  induction records with
  | nil =>
      intro others lineNumber rowCount kinds
      cases List.map_eq_nil_iff.mp kinds.symm
      refine iff_of_false ?_ (not_not_intro fun _ none => nomatch none)
      have turn : checkRecord limits header (lineNumber + 1) last =
          .ok (.issues [recordTooLargeIssue (some (lineNumber + 1)) last limits], true) := by
        rw [checkRecord_kind, tooLarge]
      have ends : ∀ (event : StreamEvent), (ValidationRun.after event
          (validateRecords limits header [] (lineNumber + 1) (rowCount + 1))).reported =
            event.reported := by
        intro event
        simp [validateRecords, ValidationRun.after, ValidationRun.returns, ValidationRun.reported]
      simp only [List.nil_append, List.map_cons, List.map_nil, validateRecords_record, turn]
      cases checked : checkRecord limits header (lineNumber + 1) last' with
      | error e =>
          intro same
          cases same.result
      | ok answer =>
          obtain ⟨event, continues⟩ := answer
          have none := checkRecord_noneTooLarge whole checked
          have reports : recordTooLargeIssue (some (lineNumber + 1)) last limits ∈
              (ValidationRun.after
                (.issues [recordTooLargeIssue (some (lineNumber + 1)) last limits])
                (validateRecords limits header [] (lineNumber + 1) (rowCount + 1))).reported := by
            rw [ends]
            exact List.mem_singleton_self _
          cases continues with
          | true => exact not_sameFindings reports rfl (by rw [ends]; exact none)
          | false =>
              refine not_sameFindings reports rfl ?_
              simpa [ValidationRun.after, ValidationRun.returns, ValidationRun.reported] using none
  | cons record records ih =>
      intro others lineNumber rowCount kinds
      cases others with
      | nil => cases kinds
      | cons other others =>
          rw [List.map_cons, List.map_cons, List.cons.injEq] at kinds
          simp only [List.cons_append, List.map_cons, validateRecords_record,
            List.forall_mem_cons]
          have turn : SameTurn (checkRecord limits header (lineNumber + 1) record)
              (checkRecord limits header (lineNumber + 1) other) := checkRecord_sameKind kinds.1 _
          generalize checked : checkRecord limits header (lineNumber + 1) record = first at turn ⊢
          generalize checkRecord limits header (lineNumber + 1) other = second at turn ⊢
          cases turn with
          | raises e =>
              exact iff_of_true (.refl _) fun all => (checkRecord_stops checked).1 all.1
          | returns continues same =>
              have goesOn := checkRecord_goesOn checked
              cases continues with
              | true =>
                  dsimp only
                  rw [sameFindings_after same, ih others _ _ kinds.2, and_iff_right (goesOn.mp rfl)]
              | false =>
                  refine iff_of_true ((sameFindings_after same).mpr (.refl _)) fun all => ?_
                  exact Bool.false_ne_true (goesOn.mpr all.1)

end Loop

/-! ## The whole file -/

section File

variable {limits : CsvLimits}

theorem validateItems_sameKinds {records others : List LogicalCsvRecord}
    (kinds : records.map (recordKind limits) = others.map (recordKind limits)) :
    (validateItems limits (records.map .record)).SameFindings
      (validateItems limits (others.map .record)) := by
  cases records with
  | nil =>
      cases List.map_eq_nil_iff.mp kinds.symm
      exact .refl _
  | cons record records =>
      cases others with
      | nil => cases kinds
      | cons other others =>
          rw [List.map_cons, List.map_cons, List.cons.injEq] at kinds
          simp only [List.map_cons, validateItems_kind, ← kinds.1]
          cases recordKind limits record with
          | oversized => exact ⟨rfl, rfl, rfl⟩
          | fieldTooLarge => exact ⟨rfl, rfl, rfl⟩
          | malformed => exact .refl _
          | row header =>
              dsimp only
              split
              · exact .refl _
              · split
                · exact .refl _
                · exact validateRecords_sameKinds records others 1 0 kinds.2

/-- None of these first records of a file ends the run. -/
def ReadsPast (limits : CsvLimits) (records : List LogicalCsvRecord) : Prop :=
  match records with
  | [] => True
  | headerRecord :: rest => ∃ header, recordKind limits headerRecord = .row header ∧
      containsSurrogate header = false ∧ HeaderAccepted header ∧
      ∀ record ∈ rest, GoesOn limits header record

theorem validateHeader_noneTooLarge (header : List Text) :
    NoneTooLarge (validateHeader header limits) := by
  intro issue member
  obtain ⟨column, code, message, rfl | rfl, rfl⟩ := mem_validateHeader member
  · exact IssueCode.noConfusion
  · exact IssueCode.noConfusion

/-- A header that is not too large is not reported as such. -/
theorem validateItems_noneTooLarge {record : LogicalCsvRecord}
    (whole : recordKind limits record ≠ .oversized) :
    NoneTooLarge (validateItems limits [.record record]).reported := by
  have single : ∀ (issues : List ValidationIssue) (run : ValidationRun), NoneTooLarge issues →
      run.reported = [] → NoneTooLarge (run.after (.issues issues)).reported := by
    intro issues run none quiet
    have all : (run.after (.issues issues)).reported = issues ++ run.reported := rfl
    rw [all, quiet, List.append_nil]
    exact none
  rw [validateItems_kind]
  cases kind : recordKind limits record with
  | oversized => exact absurd kind whole
  | fieldTooLarge | malformed => exact single _ _ (noneTooLarge_single IssueCode.noConfusion) rfl
  | row header =>
      dsimp only
      split
      · exact single _ _ (noneTooLarge_single IssueCode.noConfusion) rfl
      · split
        · exact single _ _ (validateHeader_noneTooLarge header) rfl
        · exact single _ _ (noneTooLarge_single IssueCode.noConfusion) rfl

/-- Two runs that differ in the last record alone, which is too large in the one. -/
theorem validateItems_last {headers others : List LogicalCsvRecord}
    {last last' : LogicalCsvRecord} (tooLarge : recordKind limits last = .oversized)
    (whole : recordKind limits last' ≠ .oversized)
    (kinds : headers.map (recordKind limits) = others.map (recordKind limits)) :
    (validateItems limits ((headers ++ [last]).map .record)).SameFindings
        (validateItems limits ((others ++ [last']).map .record)) ↔
      ¬ ReadsPast limits headers := by
  cases headers with
  | nil =>
      cases List.map_eq_nil_iff.mp kinds.symm
      refine iff_of_false ?_ (not_not_intro trivial)
      have reports : recordTooLargeIssue none last limits ∈
          (validateItems limits [.record last]).reported := by
        rw [validateItems_kind, tooLarge]
        exact List.mem_singleton_self _
      exact not_sameFindings reports rfl (validateItems_noneTooLarge whole)
  | cons record records =>
      cases others with
      | nil => cases kinds
      | cons other others =>
          rw [List.map_cons, List.map_cons, List.cons.injEq] at kinds
          simp only [List.cons_append, List.map_cons, validateItems_kind, ← kinds.1, ReadsPast]
          cases recordKind limits record with
          | oversized => exact iff_of_true ⟨rfl, rfl, rfl⟩ (by simp)
          | fieldTooLarge => exact iff_of_true ⟨rfl, rfl, rfl⟩ (by simp)
          | malformed => exact iff_of_true (.refl _) (by simp)
          | row header =>
              simp only [RecordKind.row.injEq, exists_eq_left']
              split
              · next escaped => exact iff_of_true (.refl _) (by simp [escaped])
              · next decoded =>
                  split
                  · next rejected =>
                      rw [ne_eq, validateHeader_eq_nil_iff] at rejected
                      exact iff_of_true (.refl _) fun all => rejected all.2.1
                  · next accepted =>
                      have fits : HeaderAccepted header :=
                        validateHeader_eq_nil_iff.mp (not_not.mp accepted)
                      rw [validateRecords_last tooLarge whole records others 1 0 kinds.2,
                        and_iff_right (Bool.not_eq_true _ ▸ decoded), and_iff_right fits]

/-- The records of a file with one terminator throughout. -/
def RecordFile.yields (file : RecordFile) (limits : CsvLimits) (terminator : Terminator)
    (terminated : Bool) : List LogicalCsvRecord :=
  file.first.map (yielded limits terminator true) ++ [yielded limits terminator terminated file.last]

theorem Writing.validateBytes {file : RecordFile} (writing : Writing file)
    (accepted : limits.Accepted) :
    validateBytes limits writing.chunks.flatten =
      validateItems limits
        ((file.yields limits writing.terminator writing.terminated).map .record) := by
  unfold Csv.validateBytes
  rw [if_pos accepted, writing.decoded, logicalRecords_written, RecordFile.yields, List.map_append,
    List.map_map]
  rfl

/-- The last record has as many characters as a record may have, and is looked at. -/
structure RecordFile.AtLimit (file : RecordFile) (limits : CsvLimits) : Prop where
  accepted : limits.Accepted
  last : file.last.text.length = limits.maxRecordChars
  reached : ReadsPast limits (file.first.map (yielded limits .lf true))

theorem firstKinds (file : RecordFile) (limits : CsvLimits) (terminator : Terminator) :
    (file.first.map (yielded limits .lf true)).map (recordKind limits) =
      (file.first.map (yielded limits terminator true)).map (recordKind limits) := by
  rw [List.map_map, List.map_map]
  exact List.map_congr_left fun record _ => (recordKind_ended limits terminator record).symm

/-- Every writing of a file fares like the one with LF throughout, unless the last record
is at the limit. -/
theorem Writing.sameFindings {file : RecordFile} (writing : Writing file)
    (accepted : limits.Accepted) (notAtLimit : ¬ file.AtLimit limits) :
    (validateItems limits ((file.yields limits .lf true).map .record)).SameFindings
      (Csv.validateBytes limits writing.chunks.flatten) := by
  rw [writing.validateBytes accepted]
  have first := firstKinds file limits writing.terminator
  by_cases same : endedKind limits file.last =
      recordKind limits (yielded limits writing.terminator writing.terminated file.last)
  · refine validateItems_sameKinds ?_
    rw [RecordFile.yields, RecordFile.yields, List.map_append, List.map_append, first]
    exact congrArg (_ ++ [·]) same
  · cases ended : writing.terminated with
    | true =>
        rw [ended] at same
        exact absurd (recordKind_ended limits _ file.last).symm same
    | false =>
        rw [ended] at same
        have last : file.last.text.length = limits.maxRecordChars := by
          by_contra different
          exact same (recordKind_unended _ different).symm
        obtain ⟨tooLarge, whole⟩ := recordKind_atLimit last writing.terminator
        exact (validateItems_last tooLarge whole first).mpr
          fun reached => notAtLimit ⟨accepted, last, reached⟩

/-- Neither the terminator nor its absence at the end of the file changes what is found. -/
def TerminatorsIrrelevant (limits : CsvLimits) (file : RecordFile) : Prop :=
  ∀ (writing other : Writing file) (sizes otherSizes : StreamSizes),
    (validateCsvStream limits sizes writing.chunks).SameFindings
      (validateCsvStream limits otherSizes other.chunks)

theorem ValidationRun.SameFindings.symm {run other : ValidationRun}
    (same : run.SameFindings other) : other.SameFindings run :=
  ⟨same.rows.symm, same.sites.symm, same.result.symm⟩

theorem ValidationRun.SameFindings.trans {run middle other : ValidationRun}
    (same : run.SameFindings middle) (same' : middle.SameFindings other) :
    run.SameFindings other :=
  ⟨same.rows.trans same'.rows, same.sites.trans same'.sites, same.result.trans same'.result⟩

/-- What the callbacks of a stream show depends on its bytes alone. -/
theorem validateCsvStream_findings (limits : CsvLimits) (sizes : StreamSizes)
    (chunks : List Bytes) :
    (validateCsvStream limits sizes chunks).SameFindings (validateBytes limits chunks.flatten) := by
  obtain ⟨callbacks, result⟩ := validateCsvStream_agrees limits sizes chunks
  refine ⟨?_, ?_, result⟩
  · rw [ValidationRun.rows_callbacks, callbacks, ← ValidationRun.rows_callbacks]
  · rw [ValidationRun.reported_callbacks, callbacks, ← ValidationRun.reported_callbacks]

/-- The file as it is. -/
def RecordFile.unended (file : RecordFile) : Writing file where
  terminator := .lf
  terminated := false
  chunks := [file.bytes]
  decoded := by
    rw [List.flatten_cons, List.flatten_nil, List.append_nil]
    exact file.decoded

/-- The file with an LF behind it. -/
def RecordFile.ended (file : RecordFile) : Writing file where
  terminator := .lf
  terminated := true
  chunks := [file.bytes, [10]]
  decoded := by
    have some : decode file.bytes ≠ [] := by
      rw [file.decoded, writtenText]
      simp [file.last.nonempty]
    have ascii : (10 : UInt8).toNat < 0x80 := by decide
    simp only [List.flatten_cons, List.flatten_nil, List.append_nil]
    rw [decode_append_ascii ascii some, file.decoded]
    simp [writtenText, Terminator.text, LF]

/-- A last record of exactly as many characters as a record may have is too large with its
terminator, and is not without. -/
theorem RecordFile.AtLimit.relevant {file : RecordFile} (atLimit : file.AtLimit limits) :
    ¬ TerminatorsIrrelevant limits file := by
  obtain ⟨accepted, last, reached⟩ := atLimit
  intro irrelevant
  have sizes : StreamSizes := ⟨fun _ => 1, fun _ => Nat.one_pos, 1, Nat.one_pos⟩
  have same := irrelevant file.ended file.unended sizes sizes
  have found := ((validateCsvStream_findings limits sizes _).symm.trans same).trans
    (validateCsvStream_findings limits sizes _)
  rw [Writing.validateBytes _ accepted, Writing.validateBytes _ accepted] at found
  obtain ⟨tooLarge, whole⟩ := recordKind_atLimit last .lf
  exact (validateItems_last tooLarge whole rfl).mp found reached

end File

/-- Terminators are irrelevant but for a last record at the limit. -/
theorem terminators_irrelevant (limits : CsvLimits) (file : RecordFile) :
    TerminatorsIrrelevant limits file ↔ ¬ file.AtLimit limits := by
  refine ⟨fun irrelevant atLimit => atLimit.relevant irrelevant, fun notAtLimit => ?_⟩
  intro writing other sizes otherSizes
  refine (validateCsvStream_findings limits sizes _).trans (.trans ?_
    (validateCsvStream_findings limits otherSizes _).symm)
  by_cases accepted : limits.Accepted
  · exact (writing.sameFindings accepted notAtLimit).symm.trans
      (other.sameFindings accepted notAtLimit)
  · simp only [validateBytes, if_neg accepted]
    exact .refl _

/-- Records of at most 64 characters. -/
def narrowLimits : CsvLimits := ⟨64, 64, 8, 64⟩

def plainHeaderText : RecordText where
  text := ofString "warehouse_code,warehouse_name,sku,product_name,quantity"
  nonempty := by decide
  closed := ⟨⟨false, false, false⟩, by decide +kernel, Bool.noConfusion⟩

/-- A row of 64 characters. -/
def wideRow : RecordText where
  text := ofString "WH,W,SKU," ++ List.replicate 53 120 ++ ofString ",1"
  nonempty := by decide
  closed := ⟨⟨false, false, false⟩, by decide +kernel, Bool.noConfusion⟩

def wideFile : RecordFile where
  first := [plainHeaderText]
  last := wideRow
  bytes := encode (plainHeaderText.text ++ [LF] ++ wideRow.text)
  decoded := by decide +kernel

theorem wideFile_needs_no_terminator : ¬ TerminatorsIrrelevant narrowLimits wideFile := by
  have header : endedKind narrowLimits plainHeaderText = .row (requiredColumns.map Column.name) := by
    decide +kernel
  have fits : HeaderAccepted (requiredColumns.map Column.name) := by
    intro column
    cases column <;> decide +kernel
  refine RecordFile.AtLimit.relevant ⟨by decide, by decide +kernel, ?_⟩
  exact ⟨_, header, by decide +kernel, fits, fun _ none => nomatch none⟩

end StockImport.Csv
