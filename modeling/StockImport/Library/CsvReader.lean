import StockImport.Library.PyText

/-!
# The `_csv` reader

The state machine of Python's `csv.reader` with delimiter `,`, quote character
`"`, doubled quotes and `strict=True`, under a field size limit, and the lines it
is fed: a line ends at LF, at CR or at CRLF and keeps its terminator.

The reader sees a line character by character and then an end-of-line mark.  Two
views of it follow: `resume` takes the lines away again and reads a text from the
middle of a line, and `next_plain` says that a row has the characters of its lines.
-/

set_option autoImplicit false

namespace CsvReader

open PyText

def LF : Nat := 10
def CR : Nat := 13
def quote : Nat := 34
def comma : Nat := 44

def isNewline (c : Nat) : Bool := c == CR || c == LF

inductive State where
  | startRecord
  | startField
  | inField
  | inQuotedField
  | quoteInQuotedField
  | eatCrNl
  deriving DecidableEq, Repr

inductive Failure where
  | fieldLimit
  | delimiterExpected
  | newlineInUnquoted
  | unexpectedEnd
  deriving DecidableEq, Repr

structure Parser where
  state : State
  field : Text
  fields : List Text
  deriving DecidableEq, Repr

/-- The reader as `parse_reset` leaves it. -/
def Parser.fresh : Parser := ⟨.startRecord, [], []⟩

def Parser.saveField (p : Parser) (next : State) : Parser :=
  ⟨next, [], p.fields ++ [p.field]⟩

def Parser.addChar (limit : Nat) (p : Parser) (c : Nat) (next : State) : Except Failure Parser :=
  if limit ≤ p.field.length then .error .fieldLimit
  else .ok { p with state := next, field := p.field ++ [c] }

def Parser.startField (limit : Nat) (p : Parser) (c : Nat) : Except Failure Parser :=
  if isNewline c then .ok (p.saveField .eatCrNl)
  else if c = quote then .ok { p with state := .inQuotedField }
  else if c = comma then .ok (p.saveField .startField)
  else p.addChar limit c .inField

def Parser.feedChar (limit : Nat) (p : Parser) (c : Nat) : Except Failure Parser :=
  match p.state with
  | .startRecord =>
      if isNewline c then .ok { p with state := .eatCrNl } else p.startField limit c
  | .startField => p.startField limit c
  | .inField =>
      if isNewline c then .ok (p.saveField .eatCrNl)
      else if c = comma then .ok (p.saveField .startField)
      else p.addChar limit c .inField
  | .inQuotedField =>
      if c = quote then .ok { p with state := .quoteInQuotedField }
      else p.addChar limit c .inQuotedField
  | .quoteInQuotedField =>
      if c = quote then p.addChar limit c .inQuotedField
      else if c = comma then .ok (p.saveField .startField)
      else if isNewline c then .ok (p.saveField .eatCrNl)
      else .error .delimiterExpected
  | .eatCrNl => if isNewline c then .ok p else .error .newlineInUnquoted

/-- The end-of-line mark that follows the characters of a line. -/
def Parser.endLine (p : Parser) : Parser :=
  match p.state with
  | .startRecord => p
  | .startField => p.saveField .startRecord
  | .inField => p.saveField .startRecord
  | .inQuotedField => p
  | .quoteInQuotedField => p.saveField .startRecord
  | .eatCrNl => { p with state := .startRecord }

def Parser.feedChars (limit : Nat) : Parser → Text → Except Failure Parser
  | p, [] => .ok p
  | p, c :: rest =>
      match p.feedChar limit c with
      | .error e => .error e
      | .ok p' => p'.feedChars limit rest

inductive Step where
  | stop
  | row (fields : List Text) (rest : List Text)
  | error (e : Failure)
  deriving DecidableEq, Repr

/-- `Reader_iternext` once `parse_reset` has been called. -/
def next (limit : Nat) : Parser → List Text → Step
  | p, [] => if p.field ≠ [] ∨ p.state = .inQuotedField then .error .unexpectedEnd else .stop
  | p, line :: lines =>
      match p.feedChars limit line with
      | .error e => .error e
      | .ok p' =>
          if p'.endLine.state = .startRecord then .row p'.endLine.fields lines
          else next limit p'.endLine lines

/-- Every row up to the first error, and that error. -/
def readRows (limit : Nat) : Parser → List Text → List (List Text) × Option Failure
  | p, [] =>
      ([], if p.field ≠ [] ∨ p.state = .inQuotedField then some .unexpectedEnd else none)
  | p, line :: lines =>
      match p.feedChars limit line with
      | .error e => ([], some e)
      | .ok p' =>
          if p'.endLine.state = .startRecord then
            let later := readRows limit .fresh lines
            (p'.endLine.fields :: later.1, later.2)
          else readRows limit p'.endLine lines

/-- Calling `next` until it stops or raises gives `readRows`. -/
theorem readRows_eq (limit : Nat) : ∀ (lines : List Text) (p : Parser),
    readRows limit p lines =
      match next limit p lines with
      | .stop => ([], none)
      | .error e => ([], some e)
      | .row fields rest =>
          (fields :: (readRows limit .fresh rest).1, (readRows limit .fresh rest).2) := by
  intro lines
  induction lines with
  | nil =>
      intro p
      simp only [readRows, next]
      split <;> rfl
  | cons line lines ih =>
      intro p
      simp only [readRows, next]
      cases p.feedChars limit line with
      | error e => rfl
      | ok p' =>
          dsimp only
          split
          · rfl
          · exact ih p'.endLine

/-! ## Lines -/

/-- A line ends at LF and at a CR that no LF follows. -/
def endsLine (c : Nat) (rest : Text) : Bool :=
  c == LF || (c == CR && rest.head? != some LF)

def splitLines : Text → List Text
  | [] => []
  | c :: rest =>
      if endsLine c rest then [c] :: splitLines rest
      else
        match splitLines rest with
        | [] => [[c]]
        | line :: lines => (c :: line) :: lines

/-- The text after a record that ends with `c`: an LF right after a CR belongs
to the terminator. -/
def dropPairedLf (c : Nat) (text : Text) : Text :=
  if c = CR ∧ text.head? = some LF then text.tail else text

theorem splitLines_ne_nil (c : Nat) (rest : Text) : splitLines (c :: rest) ≠ [] := by
  unfold splitLines
  split
  · simp
  · split <;> simp

/-- What follows the end-of-line mark. -/
def afterLine (limit : Nat) (p : Parser) (lines : List Text) : Step :=
  if p.state = .startRecord then .row p.fields lines else next limit p lines

/-- Reading on from the middle of a line. -/
def resume (limit : Nat) (p : Parser) (text : Text) : Step :=
  match splitLines text with
  | [] => afterLine limit p.endLine []
  | line :: lines =>
      match p.feedChars limit line with
      | .error e => .error e
      | .ok p' => afterLine limit p'.endLine lines

theorem next_splitLines (limit : Nat) (p : Parser) (c : Nat) (rest : Text) :
    next limit p (splitLines (c :: rest)) = resume limit p (c :: rest) := by
  unfold resume
  cases lines : splitLines (c :: rest) with
  | nil => exact absurd lines (splitLines_ne_nil c rest)
  | cons line lines => rfl

/-- A character that does not end its line. -/
theorem resume_inner (limit : Nat) (p : Parser) (c : Nat) (rest : Text)
    (inner : endsLine c rest = false) :
    resume limit p (c :: rest) =
      match p.feedChar limit c with
      | .error e => .error e
      | .ok p' => resume limit p' rest := by
  have split : splitLines (c :: rest) =
      match splitLines rest with
      | [] => [[c]]
      | line :: lines => (c :: line) :: lines := by
    rw [splitLines]
    simp [inner]
  unfold resume
  rw [split]
  cases splitLines rest with
  | nil =>
      simp only [Parser.feedChars]
      cases p.feedChar limit c <;> rfl
  | cons line lines =>
      simp only [Parser.feedChars]
      cases p.feedChar limit c <;> rfl

/-- A character that ends its line. -/
theorem resume_last (limit : Nat) (p : Parser) (c : Nat) (rest : Text)
    (ends : endsLine c rest = true) :
    resume limit p (c :: rest) =
      match p.feedChar limit c with
      | .error e => .error e
      | .ok p' => afterLine limit p'.endLine (splitLines rest) := by
  have split : splitLines (c :: rest) = [c] :: splitLines rest := by
    rw [splitLines]
    simp [ends]
  unfold resume
  rw [split]
  simp only [Parser.feedChars]
  cases p.feedChar limit c <;> rfl

theorem endsLine_of_not_newline {c : Nat} (rest : Text) (inner : isNewline c = false) :
    endsLine c rest = false := by
  simp only [isNewline, Bool.or_eq_false_iff] at inner
  simp [endsLine, inner.1, inner.2]

/-- Inside quotes a line may end anywhere: the reader just asks for the next one. -/
theorem resume_quoted_line (limit : Nat) (p : Parser) (rest : Text)
    (quoted : p.state = .inQuotedField) :
    afterLine limit p.endLine (splitLines rest) = resume limit p rest := by
  have still : p.endLine = p := by simp [Parser.endLine, quoted]
  have notDone : p.state ≠ .startRecord := by simp [quoted]
  cases rest with
  | nil => simp [resume, splitLines]
  | cons c rest =>
      rw [← next_splitLines, afterLine, still, if_neg notDone]

/-- One character outside of a line end, or any character that stays in quotes. -/
theorem resume_step (limit : Nat) (p p' : Parser) (c : Nat) (rest : Text)
    (fed : p.feedChar limit c = .ok p')
    (inside : isNewline c = false ∨ p'.state = .inQuotedField) :
    resume limit p (c :: rest) = resume limit p' rest := by
  cases ends : endsLine c rest with
  | false => rw [resume_inner limit p c rest ends, fed]
  | true =>
      have quoted : p'.state = .inQuotedField := by
        rcases inside with inner | quoted
        · rw [endsLine_of_not_newline rest inner] at ends
          cases ends
        · exact quoted
      rw [resume_last limit p c rest ends, fed]
      exact resume_quoted_line limit p' rest quoted

theorem resume_error (limit : Nat) (p : Parser) (c : Nat) (rest : Text) (e : Failure)
    (fed : p.feedChar limit c = .error e) : resume limit p (c :: rest) = .error e := by
  cases ends : endsLine c rest with
  | false => rw [resume_inner limit p c rest ends, fed]
  | true => rw [resume_last limit p c rest ends, fed]

/-- A newline outside of quotes ends the row, together with an LF paired with it. -/
theorem resume_newline (limit : Nat) (p p' : Parser) (c : Nat) (rest : Text)
    (newline : isNewline c = true) (fed : p.feedChar limit c = .ok p')
    (eaten : p'.state = .eatCrNl) :
    resume limit p (c :: rest) = .row p'.fields (splitLines (dropPairedLf c rest)) := by
  have done : ∀ lines, afterLine limit p'.endLine lines = .row p'.fields lines := by
    intro lines
    simp [afterLine, Parser.endLine, eaten]
  cases ends : endsLine c rest with
  | true =>
      have unpaired : dropPairedLf c rest = rest := by
        unfold dropPairedLf
        apply if_neg
        rintro ⟨isCr, isLf⟩
        simp [endsLine, isCr, isLf, CR, LF] at ends
      rw [resume_last limit p c rest ends, fed, unpaired]
      exact done _
  | false =>
      have paired : c = CR ∧ rest.head? = some LF := by
        simp only [isNewline, Bool.or_eq_true, beq_iff_eq] at newline
        simp only [endsLine, Bool.or_eq_false_iff, Bool.and_eq_false_iff, beq_eq_false_iff_ne,
          bne_eq_false_iff_eq] at ends
        rcases newline with isCr | isLf
        · exact ⟨isCr, ends.2.resolve_left (fun notCr => notCr isCr)⟩
        · exact absurd isLf ends.1
      cases rest with
      | nil => simp at paired
      | cons d rest =>
          have isLf : d = LF := by simpa using paired.2
          have lineEnds : endsLine d rest = true := by simp [endsLine, isLf]
          have again : p'.feedChar limit d = .ok p' := by
            simp [Parser.feedChar, eaten, isNewline, isLf]
          have dropped : dropPairedLf c (d :: rest) = rest := by
            simp [dropPairedLf, paired.1, isLf]
          rw [resume_inner limit p c _ ends, fed]
          dsimp only
          rw [resume_last limit p' d rest lineEnds, again, dropped]
          exact done _

/-! ## No character is lost

What is neither a separator nor a quote goes into a field, whatever the state.
-/

def isPlain (c : Nat) : Bool := !isNewline c && c != quote && c != comma

/-- The characters that the reader holds. -/
def Parser.text (p : Parser) : Text := p.fields.flatten ++ p.field

/-- In between two records there is no open field. -/
def Parser.Settled (p : Parser) : Prop :=
  p.state = .startRecord ∨ p.state = .eatCrNl → p.field = []

theorem Parser.fresh_settled : Parser.fresh.Settled := fun _ => rfl

theorem Parser.saveField_text (p : Parser) (next : State) : (p.saveField next).text = p.text := by
  simp [Parser.text, Parser.saveField]

theorem Parser.saveField_settled (p : Parser) (next : State) : (p.saveField next).Settled :=
  fun _ => rfl

/-- The reader after a character that it keeps, or that is no plain one. -/
structure Fed (p : Parser) (c : Nat) (p' : Parser) : Prop where
  settled : p'.Settled
  text : p'.text = p.text ++ [c] ∨ p'.text = p.text ∧ isPlain c = false

theorem addChar_fed {limit : Nat} {p p' : Parser} {c : Nat} {state : State}
    (inside : state ≠ .startRecord ∧ state ≠ .eatCrNl) (fed : p.addChar limit c state = .ok p') :
    Fed p c p' := by
  unfold Parser.addChar at fed
  split at fed
  · cases fed
  · cases fed
    refine ⟨?_, Or.inl ?_⟩
    · rintro (start | eaten)
      · exact absurd start inside.1
      · exact absurd eaten inside.2
    · simp [Parser.text]

theorem saveField_fed (p : Parser) {c : Nat} (next : State) (special : isPlain c = false) :
    Fed p c (p.saveField next) :=
  ⟨p.saveField_settled next, Or.inr ⟨p.saveField_text next, special⟩⟩

theorem not_plain_newline {c : Nat} (newline : isNewline c = true) : isPlain c = false := by
  simp [isPlain, newline]

theorem not_plain_quote {c : Nat} (isQuote : c = quote) : isPlain c = false := by
  simp [isPlain, isQuote]

theorem not_plain_comma {c : Nat} (isComma : c = comma) : isPlain c = false := by
  simp [isPlain, isComma]

/-- Another state, not one between two records. -/
theorem moved_fed (p : Parser) {c : Nat} {state : State}
    (inside : state ≠ .startRecord ∧ state ≠ .eatCrNl) (special : isPlain c = false) :
    Fed p c { p with state := state } := by
  refine ⟨?_, Or.inr ⟨rfl, special⟩⟩
  rintro (start | eaten)
  · exact absurd start inside.1
  · exact absurd eaten inside.2

theorem startField_fed {limit : Nat} {p p' : Parser} {c : Nat}
    (fed : p.startField limit c = .ok p') : Fed p c p' := by
  unfold Parser.startField at fed
  split at fed
  · next newline =>
      cases fed
      exact saveField_fed p _ (not_plain_newline newline)
  · split at fed
    · next isQuote =>
        cases fed
        exact moved_fed p (by decide) (not_plain_quote isQuote)
    · split at fed
      · next isComma =>
          cases fed
          exact saveField_fed p _ (not_plain_comma isComma)
      · exact addChar_fed (by decide) fed

theorem feedChar_fed {limit : Nat} {p p' : Parser} {c : Nat} (settled : p.Settled)
    (fed : p.feedChar limit c = .ok p') : Fed p c p' := by
  cases state : p.state with
  | startRecord =>
      simp only [Parser.feedChar, state] at fed
      split at fed
      · next newline =>
          cases fed
          exact ⟨fun _ => settled (Or.inl state), Or.inr ⟨rfl, not_plain_newline newline⟩⟩
      · exact startField_fed fed
  | startField =>
      simp only [Parser.feedChar, state] at fed
      exact startField_fed fed
  | inField =>
      simp only [Parser.feedChar, state] at fed
      split at fed
      · next newline =>
          cases fed
          exact saveField_fed p _ (not_plain_newline newline)
      · split at fed
        · next isComma =>
            cases fed
            exact saveField_fed p _ (not_plain_comma isComma)
        · exact addChar_fed (by decide) fed
  | inQuotedField =>
      simp only [Parser.feedChar, state] at fed
      split at fed
      · next isQuote =>
          cases fed
          exact moved_fed p (by decide) (not_plain_quote isQuote)
      · exact addChar_fed (by decide) fed
  | quoteInQuotedField =>
      simp only [Parser.feedChar, state] at fed
      split at fed
      · exact addChar_fed (by decide) fed
      · split at fed
        · next isComma =>
            cases fed
            exact saveField_fed p _ (not_plain_comma isComma)
        · split at fed
          · next newline =>
              cases fed
              exact saveField_fed p _ (not_plain_newline newline)
          · cases fed
  | eatCrNl =>
      simp only [Parser.feedChar, state] at fed
      split at fed
      · next newline =>
          cases fed
          exact ⟨settled, Or.inr ⟨rfl, not_plain_newline newline⟩⟩
      · cases fed

theorem feedChars_plain {limit : Nat} : ∀ (line : Text) (p p' : Parser), p.Settled →
    p.feedChars limit line = .ok p' →
      p'.Settled ∧ p'.text.filter isPlain = (p.text ++ line).filter isPlain := by
  intro line
  induction line with
  | nil =>
      intro p p' settled fed
      cases fed
      exact ⟨settled, by rw [List.append_nil]⟩
  | cons c rest ih =>
      intro p p' settled fed
      simp only [Parser.feedChars] at fed
      cases first : p.feedChar limit c with
      | error e =>
          rw [first] at fed
          cases fed
      | ok q =>
          rw [first] at fed
          have step := feedChar_fed settled first
          obtain ⟨settled', later⟩ := ih q p' step.settled fed
          refine ⟨settled', ?_⟩
          rcases step.text with kept | ⟨same, special⟩
          · rw [later, kept, List.append_assoc, List.singleton_append]
          · rw [later, same]
            simp [List.filter_append, special]

theorem Parser.endLine_text (p : Parser) : p.endLine.text = p.text := by
  cases state : p.state <;> simp [Parser.endLine, state, Parser.text, Parser.saveField]

theorem Parser.endLine_settled {p : Parser} (settled : p.Settled) : p.endLine.Settled := by
  cases state : p.state with
  | eatCrNl =>
      simp only [Parser.endLine, state]
      exact fun _ => settled (Or.inr state)
  | startRecord =>
      simp only [Parser.endLine, state]
      exact settled
  | inQuotedField =>
      simp only [Parser.endLine, state]
      exact settled
  | _ =>
      simp only [Parser.endLine, state]
      exact p.saveField_settled _

/-- A line leaves the reader in quotes, or its record is over. -/
theorem Parser.endLine_state (p : Parser) :
    p.endLine.state = .startRecord ∨ p.endLine.state = .inQuotedField := by
  cases state : p.state <;> simp [Parser.endLine, state, Parser.saveField]

/-- The plain characters of a row are those of the lines that it took. -/
theorem next_plain {limit : Nat} : ∀ (lines : List Text) (p : Parser) (fields rest : List Text),
    p.Settled → next limit p lines = .row fields rest →
      ∃ taken, lines = taken ++ rest ∧
        fields.flatten.filter isPlain = (p.text ++ taken.flatten).filter isPlain := by
  intro lines
  induction lines with
  | nil =>
      intro p fields rest _ row
      simp only [next] at row
      split at row <;> cases row
  | cons line lines ih =>
      intro p fields rest settled row
      simp only [next] at row
      cases fed : p.feedChars limit line with
      | error e =>
          rw [fed] at row
          cases row
      | ok p' =>
          rw [fed] at row
          obtain ⟨settled', plain⟩ := feedChars_plain line p p' settled fed
          dsimp only at row
          split at row
          · next ended =>
              cases row
              refine ⟨[line], rfl, ?_⟩
              have closed := Parser.endLine_settled settled' (Or.inl ended)
              have held := p'.endLine_text
              rw [Parser.text, closed, List.append_nil] at held
              rw [held, plain, List.flatten_singleton]
          · obtain ⟨taken, shape, later⟩ :=
              ih p'.endLine fields rest (Parser.endLine_settled settled') row
            refine ⟨line :: taken, by rw [shape, List.cons_append], ?_⟩
            rw [later, List.filter_append, p'.endLine_text, plain, ← List.filter_append,
              List.append_assoc, List.flatten_cons]

/-- The reader stops only where there is no line left. -/
theorem next_stop {limit : Nat} : ∀ (lines : List Text) (p : Parser), next limit p lines = .stop →
    lines = [] ∧ p.state ≠ .inQuotedField := by
  intro lines
  induction lines with
  | nil =>
      intro p stop
      simp only [next] at stop
      split at stop
      · cases stop
      · next closed => exact ⟨rfl, fun quoted => closed (Or.inr quoted)⟩
  | cons line lines ih =>
      intro p stop
      simp only [next] at stop
      cases fed : p.feedChars limit line with
      | error e =>
          rw [fed] at stop
          cases stop
      | ok p' =>
          rw [fed] at stop
          dsimp only at stop
          split at stop
          · cases stop
          · next more =>
              rcases p'.endLine_state with ended | quoted
              · exact absurd ended more
              · exact absurd quoted (ih p'.endLine stop).2

theorem splitLines_flatten : ∀ text : Text, (splitLines text).flatten = text := by
  intro text
  induction text with
  | nil => rfl
  | cons c rest ih =>
      unfold splitLines
      split
      · rw [List.flatten_cons, ih, List.singleton_append]
      · split
        · next none =>
            rw [none] at ih
            rw [← ih]
            rfl
        · next line lines shape =>
            rw [shape] at ih
            rw [← ih]
            rfl

end CsvReader
