import StockImport.Csv.Streaming

/-!
# The splitter agrees with the CSV reader

The splitter's three flags follow the state of the `_csv` reader: `syncFlags`
gives the flags for a state, and `feedChar_sync` shows that one character keeps
the two in step until the reader raises.  So the reader, set on a record alone,
does what it does when it runs over the whole text (`takeRecord_resume`).
-/

set_option autoImplicit false

namespace StockImport.Csv

open PyText CsvReader

/-! ## One record at a time -/

/-- The rest of the current record, and the text after it where a terminator was
found. -/
def takeRecord : Flags → Text → Text × Option Text
  | _, [] => ([], none)
  | flags, c :: rest =>
      match flags.step c with
      | none => ([c], some (dropPairedLf c rest))
      | some next => (c :: (takeRecord next rest).1, (takeRecord next rest).2)

theorem recordsFrom_dropPairedLf (c : Nat) (rest : Text) :
    recordsFrom (c == CR) .start [] rest = logicalRecords (dropPairedLf c rest) := by
  unfold logicalRecords dropPairedLf
  by_cases isCr : c = CR
  · cases rest with
    | nil => simp [recordsFrom]
    | cons d rest =>
        by_cases isLf : d = LF
        · simp [recordsFrom, isCr, isLf]
        · simp [recordsFrom, isCr, isLf]
  · have plain : (c == CR) = false := by simp [isCr]
    rw [plain, if_neg (fun paired => isCr paired.1)]

theorem recordsFrom_eq : ∀ (text : Text) (flags : Flags) (sofar : Text),
    recordsFrom false flags sofar text =
      match (takeRecord flags text).2 with
      | none =>
          if sofar ++ (takeRecord flags text).1 = [] then []
          else [sofar ++ (takeRecord flags text).1]
      | some rest => (sofar ++ (takeRecord flags text).1) :: logicalRecords rest := by
  intro text
  induction text with
  | nil => intro flags sofar; simp [recordsFrom, takeRecord]
  | cons c rest ih =>
      intro flags sofar
      cases step : flags.step c with
      | none =>
          simp only [recordsFrom, takeRecord, Bool.false_eq_true, false_and, if_false, step]
          rw [recordsFrom_dropPairedLf]
      | some next =>
          simp only [recordsFrom, takeRecord, Bool.false_eq_true, false_and, if_false, step]
          rw [ih next (sofar ++ [c])]
          simp only [List.append_assoc, List.singleton_append]

theorem logicalRecords_eq (text : Text) :
    logicalRecords text =
      match (takeRecord .start text).2 with
      | none => if (takeRecord .start text).1 = [] then [] else [(takeRecord .start text).1]
      | some rest => (takeRecord .start text).1 :: logicalRecords rest := by
  have whole := recordsFrom_eq text .start []
  simp only [List.nil_append] at whole
  exact whole

theorem takeRecord_ne_nil (flags : Flags) (c : Nat) (rest : Text) :
    (takeRecord flags (c :: rest)).1 ≠ [] := by
  unfold takeRecord
  split <;> simp

theorem dropPairedLf_length (c : Nat) (rest : Text) :
    (dropPairedLf c rest).length ≤ rest.length := by
  unfold dropPairedLf
  split
  · simp
  · exact Nat.le_refl _

theorem takeRecord_shorter : ∀ (text : Text) (flags : Flags) (rest : Text),
    (takeRecord flags text).2 = some rest → rest.length < text.length := by
  intro text
  induction text with
  | nil => intro flags rest found; simp [takeRecord] at found
  | cons c tail ih =>
      intro flags rest found
      unfold takeRecord at found
      cases step : flags.step c with
      | none =>
          simp only [step, Option.some.injEq] at found
          subst found
          have := dropPairedLf_length c tail
          simp only [List.length_cons]; omega
      | some next =>
          simp only [step] at found
          have := ih next rest found
          simp only [List.length_cons]; omega

/-! ## The two machines in step -/

def syncFlags : State → Flags
  | .startRecord => ⟨false, false, true⟩
  | .startField => ⟨false, false, true⟩
  | .inField => ⟨false, false, false⟩
  | .inQuotedField => ⟨true, false, false⟩
  | .quoteInQuotedField => ⟨true, true, false⟩
  | .eatCrNl => ⟨false, false, false⟩

/-- What the reader's acceptance of a character says about the splitter. -/
def InStep (flags : Flags) (c : Nat) (p' : Parser) : Prop :=
  match flags.step c with
  | none => p'.state = .eatCrNl ∧ isNewline c = true
  | some next => next = syncFlags p'.state ∧ p'.state ≠ .eatCrNl ∧
      (isNewline c = false ∨ p'.state = .inQuotedField)

theorem addChar_ok {limit : Nat} {p p' : Parser} {c : Nat} {state : State}
    (fed : p.addChar limit c state = .ok p') : p'.state = state := by
  unfold Parser.addChar at fed
  split at fed
  · cases fed
  · cases fed; rfl

theorem newline_not_quote {c : Nat} (newline : isNewline c = true) : c ≠ quote ∧ c ≠ comma := by
  simp only [isNewline, Bool.or_eq_true, beq_iff_eq, CR, LF] at newline
  unfold quote comma
  omega

/-- The states in front of a field. -/
theorem startField_sync {limit : Nat} {p p' : Parser} {c : Nat}
    (fed : p.startField limit c = .ok p') : InStep ⟨false, false, true⟩ c p' := by
  unfold Parser.startField at fed
  by_cases newline : isNewline c = true
  · rw [if_pos newline] at fed
    cases fed
    simp [InStep, Flags.step, Flags.outside, newline, Parser.saveField]
  · rw [if_neg newline] at fed
    have inner : isNewline c = false := by simpa using newline
    by_cases isQuote : c = quote
    · rw [if_pos isQuote] at fed
      cases fed
      have notComma : quote ≠ comma := by decide
      rw [isQuote] at inner
      simp [InStep, Flags.step, Flags.outside, isQuote, inner, notComma, syncFlags]
    · rw [if_neg isQuote] at fed
      by_cases isComma : c = comma
      · rw [if_pos isComma] at fed
        cases fed
        rw [isComma] at inner
        simp [InStep, Flags.step, Flags.outside, isComma, inner, syncFlags, Parser.saveField]
      · rw [if_neg isComma] at fed
        have state := addChar_ok fed
        simp [InStep, Flags.step, Flags.outside, inner, isQuote, isComma, state, syncFlags]

theorem feedChar_sync {limit : Nat} {p p' : Parser} {c : Nat} (active : p.state ≠ .eatCrNl)
    (fed : p.feedChar limit c = .ok p') : InStep (syncFlags p.state) c p' := by
  have commaInner : isNewline comma = false := by decide
  have quoteInner : isNewline quote = false := by decide
  have notComma : quote ≠ comma := by decide
  cases state : p.state with
  | startRecord =>
      simp only [Parser.feedChar, state] at fed
      by_cases newline : isNewline c = true
      · rw [if_pos newline] at fed
        cases fed
        simp [InStep, syncFlags, Flags.step, Flags.outside, newline]
      · rw [if_neg newline] at fed
        exact startField_sync fed
  | startField =>
      simp only [Parser.feedChar, state] at fed
      exact startField_sync fed
  | inField =>
      simp only [Parser.feedChar, state] at fed
      by_cases newline : isNewline c = true
      · rw [if_pos newline] at fed
        cases fed
        simp [InStep, syncFlags, Flags.step, Flags.outside, newline, Parser.saveField]
      · rw [if_neg newline] at fed
        have inner : isNewline c = false := by simpa using newline
        by_cases isComma : c = comma
        · rw [if_pos isComma] at fed
          cases fed
          simp [InStep, syncFlags, Flags.step, Flags.outside, isComma, commaInner,
            Parser.saveField]
        · rw [if_neg isComma] at fed
          have after := addChar_ok fed
          simp [InStep, syncFlags, Flags.step, Flags.outside, inner, isComma, after]
  | inQuotedField =>
      simp only [Parser.feedChar, state] at fed
      by_cases isQuote : c = quote
      · rw [if_pos isQuote] at fed
        cases fed
        simp [InStep, syncFlags, Flags.step, isQuote, quoteInner]
      · rw [if_neg isQuote] at fed
        have after := addChar_ok fed
        simp [InStep, syncFlags, Flags.step, isQuote, after]
  | quoteInQuotedField =>
      simp only [Parser.feedChar, state] at fed
      by_cases isQuote : c = quote
      · rw [if_pos isQuote] at fed
        have after := addChar_ok fed
        simp [InStep, syncFlags, Flags.step, isQuote, after]
      · rw [if_neg isQuote] at fed
        by_cases isComma : c = comma
        · rw [if_pos isComma] at fed
          cases fed
          simp [InStep, syncFlags, Flags.step, Flags.outside, isComma, commaInner,
            Parser.saveField, Ne.symm notComma]
        · rw [if_neg isComma] at fed
          by_cases newline : isNewline c = true
          · rw [if_pos newline] at fed
            cases fed
            simp [InStep, syncFlags, Flags.step, Flags.outside, newline, isQuote,
              Parser.saveField]
          · rw [if_neg newline] at fed
            cases fed
  | eatCrNl => exact absurd state active

/-- The end of the text, in quotes or not. -/
theorem resume_nil (limit : Nat) (p : Parser) (active : p.state ≠ .eatCrNl) :
    (∃ e, resume limit p [] = .error e) ∨ ∃ fields, resume limit p [] = .row fields [] := by
  cases state : p.state with
  | inQuotedField =>
      left
      exact ⟨.unexpectedEnd, by simp [resume, splitLines, afterLine, Parser.endLine, state, next]⟩
  | eatCrNl => exact absurd state active
  | startRecord =>
      right
      exact ⟨p.fields, by simp [resume, splitLines, afterLine, Parser.endLine, state]⟩
  | startField =>
      right
      exact ⟨p.fields ++ [p.field],
        by simp [resume, splitLines, afterLine, Parser.endLine, state, Parser.saveField]⟩
  | inField =>
      right
      exact ⟨p.fields ++ [p.field],
        by simp [resume, splitLines, afterLine, Parser.endLine, state, Parser.saveField]⟩
  | quoteInQuotedField =>
      right
      exact ⟨p.fields ++ [p.field],
        by simp [resume, splitLines, afterLine, Parser.endLine, state, Parser.saveField]⟩

/-- From any point of a record the reader does with the rest of the record what it
does with the rest of the text, and stops where the splitter ends the record. -/
theorem takeRecord_resume (limit : Nat) : ∀ (text : Text) (p : Parser), p.state ≠ .eatCrNl →
    (∃ e, resume limit p text = .error e ∧
      resume limit p (takeRecord (syncFlags p.state) text).1 = .error e) ∨
    (∃ fields, resume limit p (takeRecord (syncFlags p.state) text).1 = .row fields [] ∧
      resume limit p text =
        .row fields (splitLines ((takeRecord (syncFlags p.state) text).2.getD []))) := by
  intro text
  induction text with
  | nil =>
      intro p active
      rcases resume_nil limit p active with ⟨e, raised⟩ | ⟨fields, row⟩
      · exact Or.inl ⟨e, raised, raised⟩
      · exact Or.inr ⟨fields, row, row⟩
  | cons c rest ih =>
      intro p active
      cases fed : p.feedChar limit c with
      | error e =>
          left
          refine ⟨e, resume_error limit p c rest e fed, ?_⟩
          unfold takeRecord
          split
          · exact resume_error limit p c _ e fed
          · exact resume_error limit p c _ e fed
      | ok p' =>
          have inStep := feedChar_sync active fed
          unfold InStep at inStep
          unfold takeRecord
          cases step : (syncFlags p.state).step c with
          | none =>
              rw [step] at inStep
              obtain ⟨eaten, newline⟩ := inStep
              right
              refine ⟨p'.fields, ?_, ?_⟩
              · have alone := resume_newline limit p p' c [] newline fed eaten
                simpa [dropPairedLf, splitLines] using alone
              · exact resume_newline limit p p' c rest newline fed eaten
          | some next =>
              rw [step] at inStep
              obtain ⟨sync, active', inside⟩ := inStep
              dsimp only
              rw [resume_step limit p p' c rest fed inside,
                resume_step limit p p' c _ fed inside, sync]
              exact ih p' active'

/-! ## All records -/

/-- The line number that goes with the record at an index; the header has none. -/
def recordLine (index : Nat) : Option Nat := if index = 0 then none else some (index + 1)

def parseResults (limits : CsvLimits) : (index : Nat) → List LogicalCsvRecord →
    List (Except ValidationIssue (List Text))
  | _, [] => []
  | index, record :: rest =>
      parseRecord record (recordLine index) limits :: parseResults limits (index + 1) rest

def upToMalformed : List (Except ValidationIssue (List Text)) →
    List (Except ValidationIssue (List Text))
  | [] => []
  | .ok row :: rest => .ok row :: upToMalformed rest
  | .error issue :: rest =>
      if issue.code = .malformedCsv then [.error issue] else .error issue :: upToMalformed rest

/-- The rows of the reader, and at their end the error it stops with. -/
def readerResults (firstIndex : Nat) (output : List (List Text) × Option Failure) :
    List (Except ValidationIssue (List Text)) :=
  output.1.map .ok ++
    (output.2.map fun _ => .error (malformedCsvIssue (firstIndex + output.1.length + 1))).toList

theorem recordLine_getD (index : Nat) : (recordLine index).getD 1 = index + 1 := by
  unfold recordLine
  split
  · next zero => simp [zero]
  · rfl

theorem parseRecord_ok {limits : CsvLimits} {record : LogicalCsvRecord} {row : List Text}
    (lineNumber : Option Nat)
    (read : next limits.maxFieldChars .fresh (splitLines record.text) = .row row []) :
    parseRecord record lineNumber limits = .ok row := by
  have stop : next limits.maxFieldChars .fresh [] = .stop := by simp [next, Parser.fresh]
  simp only [parseRecord, read, stop]

theorem parseRecord_malformed {limits : CsvLimits} {record : LogicalCsvRecord} {e : Failure}
    (lineNumber : Option Nat)
    (read : next limits.maxFieldChars .fresh (splitLines record.text) = .error e)
    (notLimit : e ≠ .fieldLimit) :
    parseRecord record lineNumber limits = .error (malformedCsvIssue (lineNumber.getD 1)) := by
  cases e with
  | fieldLimit => exact absurd rfl notLimit
  | delimiterExpected => simp [parseRecord, read]
  | newlineInUnquoted => simp [parseRecord, read]
  | unexpectedEnd => simp [parseRecord, read]

/-- The reader at the start of a record. -/
theorem next_takeRecord (limit : Nat) (c : Nat) (rest : Text) :
    (∃ e, next limit .fresh (splitLines (c :: rest)) = .error e ∧
      next limit .fresh (splitLines (takeRecord .start (c :: rest)).1) = .error e) ∨
    (∃ fields, next limit .fresh (splitLines (takeRecord .start (c :: rest)).1) = .row fields [] ∧
      next limit .fresh (splitLines (c :: rest)) =
        .row fields (splitLines ((takeRecord .start (c :: rest)).2.getD []))) := by
  have record := takeRecord_resume limit (c :: rest) .fresh (by decide)
  have start : syncFlags Parser.fresh.state = .start := rfl
  rw [start] at record
  cases shape : (takeRecord .start (c :: rest)).1 with
  | nil => exact absurd shape (takeRecord_ne_nil .start c rest)
  | cons d tail =>
      rw [shape] at record
      rw [next_splitLines, next_splitLines]
      exact record

theorem parseResults_logicalRecords (limits : CsvLimits) (size : Nat) :
    ∀ (text : Text) (index : Nat), text.length ≤ size →
      (∀ record ∈ logicalRecords text, record.length ≤ limits.maxRecordChars) →
      (readRows limits.maxFieldChars .fresh (splitLines text)).2 ≠ some .fieldLimit →
        upToMalformed (parseResults limits index
            ((logicalRecords text).map (boundRecord limits.records))) =
          readerResults index (readRows limits.maxFieldChars .fresh (splitLines text)) := by
  induction size with
  | zero =>
      intro text index bound fits fields
      have empty : text = [] := List.eq_nil_of_length_eq_zero (Nat.le_zero.mp bound)
      subst empty
      rfl
  | succ size ih =>
      intro text index bound fits fields
      cases text with
      | nil => rfl
      | cons c tail =>
          have records := logicalRecords_eq (c :: tail)
          have nonempty := takeRecord_ne_nil .start c tail
          have first : ∃ later, logicalRecords (c :: tail) =
              (takeRecord .start (c :: tail)).1 :: later ∧
              later = logicalRecords ((takeRecord .start (c :: tail)).2.getD []) := by
            rw [records]
            cases (takeRecord .start (c :: tail)).2 with
            | none => exact ⟨[], by simp [nonempty], rfl⟩
            | some rest => exact ⟨logicalRecords rest, rfl, rfl⟩
          obtain ⟨later, shape, laterEq⟩ := first
          rw [shape] at fits ⊢
          have fitsFirst : (takeRecord .start (c :: tail)).1.length ≤ limits.records.maxRecordChars :=
            fits _ (by simp)
          have text' := boundRecord_text fitsFirst
          rw [readRows_eq] at fields ⊢
          rcases next_takeRecord limits.maxFieldChars c tail with
            ⟨e, raised, raisedAlone⟩ | ⟨row, rowAlone, rowRest⟩
          · rw [raised] at fields ⊢
            rw [← text'] at raisedAlone
            have notLimit : e ≠ .fieldLimit := by
              intro same
              exact fields (by rw [same])
            have malformed := parseRecord_malformed (recordLine index) raisedAlone notLimit
            rw [recordLine_getD] at malformed
            simp [parseResults, malformed, upToMalformed, malformedCsvIssue, readerResults]
          · rw [rowRest] at fields ⊢
            rw [← text'] at rowAlone
            have parsed := parseRecord_ok (recordLine index) rowAlone
            have shorter : ((takeRecord .start (c :: tail)).2.getD []).length ≤ size := by
              cases rest : (takeRecord .start (c :: tail)).2 with
              | none => simp
              | some text =>
                  have := takeRecord_shorter (c :: tail) .start text rest
                  simp only [Option.getD_some]; omega
            have recursive := ih _ (index + 1) shorter
              (fun record member => fits record (by rw [laterEq]; simp [member])) fields
            rw [List.map_cons, parseResults, parsed, upToMalformed, laterEq, recursive]
            simp only [readerResults, List.map_cons, List.cons_append, List.length_cons]
            have position : index + 1 + (readRows limits.maxFieldChars Parser.fresh (splitLines
                ((takeRecord Flags.start (c :: tail)).2.getD []))).1.length + 1 =
                index + ((readRows limits.maxFieldChars Parser.fresh (splitLines
                ((takeRecord Flags.start (c :: tail)).2.getD []))).1.length + 1) + 1 := by omega
            rw [position]

/-- No record of the splitter holds a second row. -/
theorem next_logicalRecords (limit : Nat) (size : Nat) : ∀ (text : Text), text.length ≤ size →
    ∀ record ∈ logicalRecords text, ∀ row lines,
      next limit .fresh (splitLines record) = .row row lines → lines = [] := by
  induction size with
  | zero =>
      intro text bound record member
      have empty : text = [] := List.eq_nil_of_length_eq_zero (Nat.le_zero.mp bound)
      subst empty
      simp [logicalRecords, recordsFrom] at member
  | succ size ih =>
      intro text bound record member row lines read
      cases text with
      | nil => simp [logicalRecords, recordsFrom] at member
      | cons c tail =>
          have first : ∀ row lines, next limit .fresh
              (splitLines (takeRecord .start (c :: tail)).1) = .row row lines → lines = [] := by
            intro row lines read
            rcases next_takeRecord limit c tail with ⟨e, _, raised⟩ | ⟨fields, row', _⟩
            · rw [raised] at read; cases read
            · rw [row'] at read; cases read; rfl
          rw [logicalRecords_eq] at member
          cases rest : (takeRecord .start (c :: tail)).2 with
          | none =>
              rw [rest] at member
              simp only [takeRecord_ne_nil, if_false, List.mem_singleton] at member
              exact first row lines (member ▸ read)
          | some text =>
              rw [rest] at member
              rcases List.mem_cons.mp member with same | later
              · exact first row lines (same ▸ read)
              · have := takeRecord_shorter (c :: tail) .start text rest
                exact ih text (by omega) record later row lines read

/-! ## The agreement -/

/-- No field of the text exceeds the limit: the reader that runs over the whole
text does not stop at it. -/
def FieldsFit (limits : CsvLimits) (text : Text) : Prop :=
  (readRows limits.maxFieldChars .fresh (splitLines text)).2 ≠ some .fieldLimit

instance (limits : CsvLimits) (text : Text) : Decidable (FieldsFit limits text) := by
  unfold FieldsFit
  infer_instance

/-- No record of the text exceeds the limit. -/
def RecordsFit (limits : CsvLimits) (blocks : List Text) : Prop :=
  ∀ record ∈ iterLogicalRecords limits.records blocks, record.charCount ≤ limits.maxRecordChars

instance (limits : CsvLimits) (blocks : List Text) : Decidable (RecordsFit limits blocks) := by
  unfold RecordsFit
  infer_instance

/-- The records of the splitter, parsed one by one up to the first malformed one,
are the rows of the reader over the whole text; and asked for a second row, the
reader of `_parse_record` has none. -/
theorem splitter_agrees_with_reader (limits : CsvLimits) (blocks : List Text)
    (nonempty : ∀ block ∈ blocks, block ≠ []) (records : RecordsFit limits blocks)
    (fields : FieldsFit limits blocks.flatten) :
    upToMalformed (parseResults limits 0 (iterLogicalRecords limits.records blocks)) =
        readerResults 0 (readRows limits.maxFieldChars .fresh (splitLines blocks.flatten)) ∧
      ∀ record ∈ iterLogicalRecords limits.records blocks, ∀ row lines,
        next limits.maxFieldChars .fresh (splitLines record.text) = .row row lines →
          next limits.maxFieldChars .fresh lines = .stop := by
  unfold RecordsFit at records
  rw [iterLogicalRecords_eq limits.records blocks nonempty] at records ⊢
  have fits : ∀ record ∈ logicalRecords blocks.flatten,
      record.length ≤ limits.maxRecordChars :=
    fun record member => records _ (List.mem_map_of_mem member)
  refine ⟨parseResults_logicalRecords limits _ _ 0 (Nat.le_refl _) fits fields, ?_⟩
  intro bounded member row lines read
  obtain ⟨record, inText, rfl⟩ := List.mem_map.mp member
  rw [boundRecord_text (fits record inText)] at read
  have none := next_logicalRecords limits.maxFieldChars _ _ (Nat.le_refl _) record inText
    row lines read
  subst none
  simp [next, Parser.fresh]

/-- A CRLF cut in two, a quoted LF, and text after a closing quote. -/
def agreementBlocks : List Text :=
  [ofString "a,\"b\n\"\"\"\r", ofString "\nc,d\"e\n\"f\"g,h\n"]

theorem splitter_agrees_with_reader_on_blocks :
    upToMalformed (parseResults ⟨8, 16, 4, 4⟩ 0
        (iterLogicalRecords (CsvLimits.records ⟨8, 16, 4, 4⟩) agreementBlocks)) =
      [.ok [ofString "a", ofString "b\n\""], .ok [ofString "c", ofString "d\"e"],
        .error (malformedCsvIssue 3)] :=
  (splitter_agrees_with_reader ⟨8, 16, 4, 4⟩ agreementBlocks (by decide +kernel)
    (by decide +kernel) (by decide +kernel)).1.trans (by decide +kernel)

end StockImport.Csv
