import StockImport.Library.CsvReader

/-!
# Logical CSV records

`_iter_logical_records` reads blocks of text, looks only at the characters
`"`, `,`, CR and LF of a block, and keeps pieces of the current record up to a
limit.  `logicalRecords` is the same splitter one character at a time over the
whole text, without blocks and without limits.

`iterLogicalRecords_eq` connects the two: the records the source yields are the
logical records of the joined blocks, each cut to the limits on its own.
-/

set_option autoImplicit false

namespace StockImport.Csv

open PyText CsvReader

structure LogicalCsvRecord where
  text : Text
  charCount : Nat
  truncated : Bool
  deriving DecidableEq, Repr

/-- The limits of the record assembly. -/
structure RecordLimits where
  maxRecordChars : Nat
  previewChars : Nat

/-! ## The source -/

/-- The local variables of `_iter_logical_records` that outlive a block. -/
structure SplitState where
  parts : List Text
  storedChars : Nat
  recordChars : Nat
  truncated : Bool
  inQuotes : Bool
  quotePending : Bool
  atFieldStart : Bool
  skipLfAfterCr : Bool

def SplitState.start : SplitState where
  parts := []
  storedChars := 0
  recordChars := 0
  truncated := false
  inQuotes := false
  quotePending := false
  atFieldStart := true
  skipLfAfterCr := false

def appendPiece (limits : RecordLimits) (st : SplitState) (piece : Text) : SplitState :=
  if piece = [] ∨ st.truncated = true then st
  else
    let remaining := limits.maxRecordChars - st.storedChars
    if piece.length ≤ remaining then
      { st with parts := st.parts ++ [piece], storedChars := st.storedChars + piece.length }
    else
      let parts := if 0 < remaining then st.parts ++ [piece.take remaining] else st.parts
      let preview := parts.flatten.take limits.previewChars
      { st with parts := [preview], storedChars := preview.length, truncated := true }

def isSpecial (c : Nat) : Bool := c == quote || c == comma || c == CR || c == LF

/-- The characters between two special ones, of which only the number counts. -/
def countNormal (st : SplitState) (normalChars : Nat) : SplitState :=
  if normalChars = 0 then st
  else
    let st := { st with recordChars := st.recordChars + normalChars }
    let st := if st.inQuotes && st.quotePending then
        { st with inQuotes := false, quotePending := false } else st
    if st.inQuotes then st else { st with atFieldStart := false }

/-- What happens to the state before a special character is looked at: the
characters since the last one are counted, then the character itself. -/
def countUpTo (st : SplitState) (normalChars : Nat) : SplitState :=
  let st := countNormal { st with skipLfAfterCr := false } normalChars
  { st with recordChars := st.recordChars + 1 }

/-- The branches of the `reprocess` loop outside of quotes; the flag is
`is_boundary`. -/
def processUnquoted (st : SplitState) (c : Nat) : SplitState × Bool :=
  if isNewline c then (st, true)
  else if c = comma then ({ st with atFieldStart := true }, false)
  else if c = quote ∧ st.atFieldStart = true then
    ({ st with inQuotes := true, atFieldStart := false }, false)
  else ({ st with atFieldStart := false }, false)

def processSpecial (st : SplitState) (c : Nat) : SplitState × Bool :=
  if st.inQuotes then
    if st.quotePending then
      if c = quote then ({ st with quotePending := false }, false)
      -- reprocess: the quote before `c` has closed the field
      else processUnquoted { st with inQuotes := false, quotePending := false } c
    else if c = quote then ({ st with quotePending := true }, false)
    else (st, false)
  else processUnquoted st c

def SplitState.record (st : SplitState) : LogicalCsvRecord :=
  ⟨st.parts.flatten, st.recordChars, st.truncated⟩

/-- The `finditer` loop over one block and the code after it.  `rest` is what
follows position `index` of `chunk`. -/
def scanBlock (limits : RecordLimits) (chunk : Text) :
    (index : Nat) → (rest : Text) → (segmentStart countedStart : Nat) → SplitState →
      SplitState × List LogicalCsvRecord
  | _, [], segmentStart, countedStart, st =>
      let trailingChars := chunk.length - countedStart
      let st := if trailingChars = 0 then st
        else countNormal { st with skipLfAfterCr := false } trailingChars
      (appendPiece limits st (chunk.drop segmentStart), [])
  | index, c :: rest, segmentStart, countedStart, st =>
      if isSpecial c = false then scanBlock limits chunk (index + 1) rest segmentStart countedStart st
      else if st.skipLfAfterCr = true ∧ index = segmentStart ∧ c = LF then
        scanBlock limits chunk (index + 1) rest (index + 1) (index + 1)
          { st with skipLfAfterCr := false }
      else
        let processed := processSpecial (countUpTo st (index - countedStart)) c
        if processed.2 then
          let st := appendPiece limits processed.1
            ((chunk.take (index + 1)).drop segmentStart)
          let later := scanBlock limits chunk (index + 1) rest (index + 1) (index + 1)
            { SplitState.start with skipLfAfterCr := c == CR }
          (later.1, st.record :: later.2)
        else scanBlock limits chunk (index + 1) rest segmentStart (index + 1) processed.1

/-- The records of one block and the state it leaves. -/
def splitBlock (limits : RecordLimits) (st : SplitState) (chunk : Text) :
    SplitState × List LogicalCsvRecord :=
  scanBlock limits chunk 0 chunk 0 0 st

/-- What is yielded after the last block. -/
def lastRecord (st : SplitState) : List LogicalCsvRecord :=
  if st.recordChars = 0 then [] else [st.record]

def iterFrom (limits : RecordLimits) : SplitState → List Text → List LogicalCsvRecord
  | st, [] => lastRecord st
  | st, chunk :: rest =>
      if chunk = [] then lastRecord st
      else (splitBlock limits st chunk).2 ++ iterFrom limits (splitBlock limits st chunk).1 rest

/-- `_iter_logical_records` over the results of the successive `read` calls. -/
def iterLogicalRecords (limits : RecordLimits) (blocks : List Text) : List LogicalCsvRecord :=
  iterFrom limits .start blocks

/-! ## The splitter without blocks -/

structure Flags where
  inQuotes : Bool
  quotePending : Bool
  atFieldStart : Bool
  deriving DecidableEq, Repr

def Flags.start : Flags := ⟨false, false, true⟩

/-- Outside of quotes; nothing where the character ends the record. -/
def Flags.outside (flags : Flags) (c : Nat) : Option Flags :=
  if isNewline c then none
  else if c = comma then some ⟨false, false, true⟩
  else if c = quote ∧ flags.atFieldStart = true then some ⟨true, false, false⟩
  else some ⟨false, false, false⟩

def Flags.step (flags : Flags) (c : Nat) : Option Flags :=
  if flags.inQuotes then
    if flags.quotePending then
      if c = quote then some { flags with quotePending := false } else flags.outside c
    else if c = quote then some { flags with quotePending := true }
    else some flags
  else flags.outside c

/-- The records of a text from the middle of a record whose characters so far
are `sofar`; `skipLf` right after a record that a CR has ended. -/
def recordsFrom : (skipLf : Bool) → Flags → (sofar : Text) → Text → List Text
  | _, _, sofar, [] => if sofar = [] then [] else [sofar]
  | skipLf, flags, sofar, c :: rest =>
      if skipLf = true ∧ c = LF then recordsFrom false flags sofar rest
      else
        match flags.step c with
        | none => (sofar ++ [c]) :: recordsFrom (c == CR) .start [] rest
        | some next => recordsFrom false next (sofar ++ [c]) rest

def logicalRecords (text : Text) : List Text := recordsFrom false .start [] text

/-- A record cut to the limits: complete, or the first characters of it. -/
def boundRecord (limits : RecordLimits) (record : Text) : LogicalCsvRecord where
  text :=
    if record.length ≤ limits.maxRecordChars then record
    else record.take (min limits.previewChars limits.maxRecordChars)
  charCount := record.length
  truncated := decide (limits.maxRecordChars < record.length)

theorem boundRecord_text {limits : RecordLimits} {record : Text}
    (fits : record.length ≤ limits.maxRecordChars) : (boundRecord limits record).text = record := by
  simp [boundRecord, fits]

/-! ## What a block does to the state -/

def SplitState.flags (st : SplitState) : Flags := ⟨st.inQuotes, st.quotePending, st.atFieldStart⟩

/-- The pieces held for a record whose characters so far are `text`. -/
def Held (limits : RecordLimits) (st : SplitState) (text : Text) : Prop :=
  st.truncated = (boundRecord limits text).truncated ∧
    st.parts.flatten = (boundRecord limits text).text ∧
      (st.truncated = false → st.storedChars = text.length)

theorem held_start (limits : RecordLimits) (skipLf : Bool) :
    Held limits { SplitState.start with skipLfAfterCr := skipLf } [] := by
  simp [Held, boundRecord, SplitState.start]

theorem appendPiece_held (limits : RecordLimits) (st : SplitState) (text piece : Text)
    (held : Held limits st text) : Held limits (appendPiece limits st piece) (text ++ piece) := by
  obtain ⟨cut, parts, stored⟩ := held
  unfold appendPiece
  by_cases idle : piece = [] ∨ st.truncated = true
  · rw [if_pos idle]
    rcases idle with empty | truncated
    · subst empty
      simpa [Held] using ⟨cut, parts, stored⟩
    · have long : limits.maxRecordChars < text.length := by
        rw [truncated] at cut
        simpa [boundRecord] using cut.symm
      have longer : limits.maxRecordChars < (text ++ piece).length := by
        simp only [List.length_append]; omega
      refine ⟨?_, ?_, ?_⟩
      · simp only [truncated, boundRecord, decide_eq_true longer]
      · rw [parts]
        simp only [boundRecord]
        rw [if_neg (by omega), if_neg (by omega), List.take_append_of_le_length (by omega)]
      · simp [truncated]
  · rw [if_neg idle]
    rw [not_or, Bool.not_eq_true] at idle
    obtain ⟨_, whole⟩ := idle
    have short : text.length ≤ limits.maxRecordChars := by
      rw [whole] at cut
      simpa [boundRecord] using cut.symm
    have storedExact := stored whole
    have partsExact : st.parts.flatten = text := by
      rw [parts]
      simp [boundRecord, short]
    rw [storedExact]
    dsimp only
    split
    · next fits =>
        have total : (text ++ piece).length ≤ limits.maxRecordChars := by
          simp only [List.length_append]; omega
        refine ⟨?_, ?_, ?_⟩
        · simp only [whole, boundRecord]
          simp only [List.length_append] at total
          simp [total]
        · simp only [List.flatten_append, List.flatten_cons, List.flatten_nil, List.append_nil,
            partsExact, boundRecord]
          rw [if_pos total]
        · simp
    · next overflows =>
        have total : limits.maxRecordChars < (text ++ piece).length := by
          simp only [List.length_append]; omega
        have kept : (if 0 < limits.maxRecordChars - text.length then
            st.parts ++ [piece.take (limits.maxRecordChars - text.length)]
            else st.parts).flatten = (text ++ piece).take limits.maxRecordChars := by
          rw [List.take_append, List.take_of_length_le short]
          split
          · simp [partsExact]
          · next none => simp [partsExact, Nat.eq_zero_of_not_pos none]
        refine ⟨?_, ?_, ?_⟩
        · simp only [boundRecord, decide_eq_true total]
        · simp only [kept, boundRecord]
          rw [if_neg (by omega)]
          simp [List.take_take]
        · simp

theorem appendPiece_frame (limits : RecordLimits) (st : SplitState) (piece : Text) :
    (appendPiece limits st piece).flags = st.flags ∧
      (appendPiece limits st piece).recordChars = st.recordChars ∧
        (appendPiece limits st piece).skipLfAfterCr = st.skipLfAfterCr := by
  unfold appendPiece
  split
  · exact ⟨rfl, rfl, rfl⟩
  · dsimp only
    split <;> exact ⟨rfl, rfl, rfl⟩

/-- A quote is pending only inside of quotes. -/
def Flags.Sound (flags : Flags) : Prop := flags.inQuotes = false → flags.quotePending = false

/-- The flags after one or more characters that are not special. -/
def Flags.normal (flags : Flags) : Flags :=
  if flags.inQuotes && !flags.quotePending then flags else ⟨false, false, false⟩

theorem Flags.normal_normal (flags : Flags) : flags.normal.normal = flags.normal := by
  unfold Flags.normal
  split
  · simp
  · rfl

theorem Flags.normal_sound (flags : Flags) : flags.normal.Sound := by
  unfold Flags.normal Flags.Sound
  split
  · next inside =>
      intro outside
      rw [outside] at inside
      cases inside
  · intro _; rfl

theorem Flags.step_normal (flags : Flags) (c : Nat) (plain : isSpecial c = false) :
    flags.step c = some flags.normal := by
  simp only [isSpecial, Bool.or_eq_false_iff, beq_eq_false_iff_ne] at plain
  obtain ⟨⟨⟨notQuote, notComma⟩, notCr⟩, notLf⟩ := plain
  have outside : flags.outside c = some ⟨false, false, false⟩ := by
    simp [Flags.outside, isNewline, notQuote, notComma, notCr, notLf]
  obtain ⟨inQuotes, quotePending, atFieldStart⟩ := flags
  cases inQuotes <;> cases quotePending <;> simp [Flags.step, Flags.normal, outside, notQuote]

theorem countNormal_spec (st : SplitState) (n : Nat) (sound : st.flags.Sound) :
    (countNormal st n).flags = (if n = 0 then st.flags else st.flags.normal) ∧
      (countNormal st n).recordChars = st.recordChars + n ∧
      (countNormal st n).skipLfAfterCr = st.skipLfAfterCr ∧
      (countNormal st n).parts = st.parts ∧ (countNormal st n).storedChars = st.storedChars ∧
      (countNormal st n).truncated = st.truncated := by
  obtain ⟨parts, stored, chars, cut, inQuotes, pending, fieldStart, skip⟩ := st
  unfold countNormal
  by_cases none : n = 0
  · simp [none]
  · cases inQuotes with
    | true => cases pending <;> simp [none, SplitState.flags, Flags.normal]
    | false =>
        have calm : pending = false := sound rfl
        subst calm
        simp [none, SplitState.flags, Flags.normal]

theorem processSpecial_spec (st : SplitState) (c : Nat) (sound : st.flags.Sound) :
    (match st.flags.step c with
      | none => (processSpecial st c).2 = true
      | some next => (processSpecial st c).2 = false ∧ (processSpecial st c).1.flags = next ∧
          next.Sound) ∧
      (processSpecial st c).1.recordChars = st.recordChars ∧
      (processSpecial st c).1.skipLfAfterCr = st.skipLfAfterCr ∧
      (processSpecial st c).1.parts = st.parts ∧
      (processSpecial st c).1.storedChars = st.storedChars ∧
      (processSpecial st c).1.truncated = st.truncated := by
  obtain ⟨parts, stored, chars, cut, inQuotes, pending, fieldStart, skip⟩ := st
  have calm : inQuotes = false → pending = false := sound
  by_cases newline : isNewline c = true
  · have notQuote : c ≠ quote := by
      intro isQuote
      simp [isQuote, isNewline, quote, CR, LF] at newline
    cases inQuotes <;> cases pending <;>
      simp_all [processSpecial, processUnquoted, SplitState.flags, Flags.step, Flags.outside,
        Flags.Sound]
  · by_cases isComma : c = comma
    · have notQuote : comma ≠ quote := by decide
      subst isComma
      cases inQuotes <;> cases pending <;>
        simp_all [processSpecial, processUnquoted, SplitState.flags, Flags.step, Flags.outside,
          Flags.Sound]
    · by_cases isQuote : c = quote
      · cases inQuotes <;> cases pending <;> cases fieldStart <;>
          simp_all [processSpecial, processUnquoted, SplitState.flags, Flags.step,
            Flags.outside, Flags.Sound]
      · cases inQuotes <;> cases pending <;>
          simp_all [processSpecial, processUnquoted, SplitState.flags, Flags.step,
            Flags.outside, Flags.Sound]

/-- What holds between two blocks, and inside a block up to the last special
character: `sofar` is the current record up to here. -/
structure Tracks (limits : RecordLimits) (st : SplitState) (sofar : Text) : Prop where
  held : Held limits st sofar
  counted : st.recordChars = sofar.length
  sound : st.flags.Sound
  skipping : st.skipLfAfterCr = true → sofar = [] ∧ st.flags = .start

theorem tracks_start (limits : RecordLimits) (skipLf : Bool) :
    Tracks limits { SplitState.start with skipLfAfterCr := skipLf } [] where
  held := held_start limits skipLf
  counted := rfl
  sound := fun _ => rfl
  skipping := fun _ => ⟨rfl, rfl⟩

/-- The same inside a block.  The pieces hold `stored`; the characters of the
block from `segmentStart` on are still in the block only, those from
`countedStart` on have not been counted. -/
structure Scanning (limits : RecordLimits) (st : SplitState) (stored seen : Text)
    (segmentStart countedStart : Nat) : Prop where
  held : Held limits st stored
  segment : segmentStart ≤ countedStart
  within : countedStart ≤ seen.length
  counted : st.recordChars + (seen.length - countedStart) =
    (stored ++ seen.drop segmentStart).length
  sound : st.flags.Sound
  skipping : st.skipLfAfterCr = true →
    segmentStart = countedStart ∧ stored = [] ∧ st.flags = .start

/-- The flags of the character by character splitter: the source looks at the
characters since `countedStart` only when the next special one comes. -/
def flagsAt (st : SplitState) (seen : Text) (countedStart : Nat) : Flags :=
  if seen.length - countedStart = 0 then st.flags else st.flags.normal

def skipAt (st : SplitState) (seen : Text) (countedStart : Nat) : Bool :=
  st.skipLfAfterCr && (seen.length - countedStart == 0)

/-- `out` continues the current record where the character splitter stands after
`rest`, and has yielded the records that end in between. -/
def Continues (limits : RecordLimits) (skipLf : Bool) (flags : Flags) (sofar rest : Text)
    (out : SplitState × List LogicalCsvRecord) : Prop :=
  ∃ texts sofar', out.2 = texts.map (boundRecord limits) ∧ Tracks limits out.1 sofar' ∧
    ∀ after, recordsFrom skipLf flags sofar (rest ++ after) =
      texts ++ recordsFrom out.1.skipLfAfterCr out.1.flags sofar' after

theorem Continues.skip {limits : RecordLimits} {flags : Flags} {sofar rest : Text}
    {out : SplitState × List LogicalCsvRecord}
    (later : Continues limits false flags sofar rest out) :
    Continues limits true flags sofar (LF :: rest) out := by
  obtain ⟨texts, sofar', records, tracks, agree⟩ := later
  refine ⟨texts, sofar', records, tracks, ?_⟩
  intro after
  rw [List.cons_append, recordsFrom]
  simp [agree after]

theorem Continues.inner {limits : RecordLimits} {skipLf : Bool} {flags next : Flags} {c : Nat}
    {sofar rest : Text} {out : SplitState × List LogicalCsvRecord}
    (unpaired : ¬ (skipLf = true ∧ c = LF)) (step : flags.step c = some next)
    (later : Continues limits false next (sofar ++ [c]) rest out) :
    Continues limits skipLf flags sofar (c :: rest) out := by
  obtain ⟨texts, sofar', records, tracks, agree⟩ := later
  refine ⟨texts, sofar', records, tracks, ?_⟩
  intro after
  rw [List.cons_append, recordsFrom, if_neg unpaired, step]
  exact agree after

theorem Continues.boundary {limits : RecordLimits} {skipLf : Bool} {flags : Flags} {c : Nat}
    {sofar rest : Text} {out : SplitState × List LogicalCsvRecord}
    (unpaired : ¬ (skipLf = true ∧ c = LF)) (step : flags.step c = none)
    (later : Continues limits (c == CR) .start [] rest out) :
    Continues limits skipLf flags sofar (c :: rest)
      (out.1, boundRecord limits (sofar ++ [c]) :: out.2) := by
  obtain ⟨texts, sofar', records, tracks, agree⟩ := later
  refine ⟨(sofar ++ [c]) :: texts, sofar', by simp [records], tracks, ?_⟩
  intro after
  rw [List.cons_append, recordsFrom, if_neg unpaired, step]
  simp [agree after]

theorem drop_snoc (seen : Text) (c : Nat) {n : Nat} (within : n ≤ seen.length) :
    (seen ++ [c]).drop n = seen.drop n ++ [c] := by
  rw [List.drop_append_of_le_length within]

/-- A character that is not special moves nothing but the position. -/
theorem Scanning.normal {limits : RecordLimits} {st : SplitState} {stored seen : Text}
    {segmentStart countedStart : Nat} (scanning : Scanning limits st stored seen segmentStart
      countedStart) (c : Nat) :
    Scanning limits st stored (seen ++ [c]) segmentStart countedStart where
  held := scanning.held
  segment := scanning.segment
  within := by
    have := scanning.within
    simp only [List.length_append, List.length_singleton]; omega
  counted := by
    have within := scanning.within
    have counted := scanning.counted
    have segment := scanning.segment
    simp only [List.length_append, List.length_drop, List.length_singleton] at counted ⊢
    omega
  sound := scanning.sound
  skipping := scanning.skipping

/-- The end of the block: the rest of it is appended. -/
theorem Scanning.finish {limits : RecordLimits} {st : SplitState} {stored seen : Text}
    {segmentStart countedStart : Nat} (scanning : Scanning limits st stored seen segmentStart
      countedStart) :
    let st' := if seen.length - countedStart = 0 then st
      else countNormal { st with skipLfAfterCr := false } (seen.length - countedStart)
    let out := appendPiece limits st' (seen.drop segmentStart)
    Tracks limits out (stored ++ seen.drop segmentStart) ∧
      out.skipLfAfterCr = skipAt st seen countedStart ∧ out.flags = flagsAt st seen countedStart := by
  obtain ⟨held, segment, within, counted, sound, skipping⟩ := scanning
  dsimp only
  split
  · next none =>
      obtain ⟨flags, chars, skip⟩ := appendPiece_frame limits st (seen.drop segmentStart)
      refine ⟨⟨appendPiece_held limits st stored _ held, ?_, ?_, ?_⟩, ?_, ?_⟩
      · rw [chars]; omega
      · rw [flags]; exact sound
      · rw [flags, skip]
        intro isSkipping
        obtain ⟨same, empty, start⟩ := skipping isSkipping
        refine ⟨?_, start⟩
        rw [empty, List.nil_append, List.drop_eq_nil_iff]
        omega
      · simp [skip, skipAt, none]
      · simp [flags, flagsAt, none]
  · next some =>
      obtain ⟨flags', chars', skip', parts, storedChars, cut⟩ :=
        countNormal_spec { st with skipLfAfterCr := false } (seen.length - countedStart) sound
      have held' : Held limits
          (countNormal { st with skipLfAfterCr := false } (seen.length - countedStart)) stored := by
        unfold Held
        rw [parts, storedChars, cut]
        exact held
      obtain ⟨flags, chars, skip⟩ := appendPiece_frame limits
        (countNormal { st with skipLfAfterCr := false } (seen.length - countedStart))
        (seen.drop segmentStart)
      rw [if_neg some] at flags'
      have flagsEq : ({ st with skipLfAfterCr := false } : SplitState).flags = st.flags := rfl
      refine ⟨⟨appendPiece_held limits _ stored _ held', ?_, ?_, ?_⟩, ?_, ?_⟩
      · rw [chars, chars']; omega
      · rw [flags, flags']; exact Flags.normal_sound _
      · rw [skip, skip']; intro impossible; cases impossible
      · simp [skip, skip', skipAt, some]
      · rw [flags, flags', flagsEq, flagsAt, if_neg some]

theorem Scanning.countUpTo {limits : RecordLimits} {st : SplitState} {stored seen : Text}
    {segmentStart countedStart : Nat} (scanning : Scanning limits st stored seen segmentStart
      countedStart) :
    let out := countUpTo st (seen.length - countedStart)
    out.flags = flagsAt st seen countedStart ∧ out.flags.Sound ∧ Held limits out stored ∧
      out.recordChars = (stored ++ seen.drop segmentStart).length + 1 ∧
      out.skipLfAfterCr = false := by
  obtain ⟨held, segment, within, counted, sound, skipping⟩ := scanning
  obtain ⟨flags, chars, skip, parts, storedChars, cut⟩ :=
    countNormal_spec { st with skipLfAfterCr := false } (seen.length - countedStart) sound
  have flagsEq : ({ st with skipLfAfterCr := false } : SplitState).flags = st.flags := rfl
  have flagsOut : (countNormal { st with skipLfAfterCr := false }
      (seen.length - countedStart)).flags = flagsAt st seen countedStart := by
    rw [flags, flagsEq, flagsAt]
  refine ⟨flagsOut, ?_, ?_, ?_, skip⟩
  · show (countNormal _ _).flags.Sound
    rw [flagsOut, flagsAt]
    split
    · exact sound
    · exact Flags.normal_sound _
  · show Held limits (countNormal _ _) stored
    unfold Held
    rw [parts, storedChars, cut]
    exact held
  · show (countNormal _ _).recordChars + 1 = _
    rw [chars, ← counted]

/-! ## One character of a block -/

theorem skipAt_length (st : SplitState) (seen : Text) :
    skipAt st seen seen.length = st.skipLfAfterCr := by simp [skipAt]

theorem flagsAt_length (st : SplitState) (seen : Text) : flagsAt st seen seen.length = st.flags := by
  simp [flagsAt]

/-- A character that has been seen and not counted: no LF is skipped behind it. -/
theorem skipAt_snoc (st : SplitState) {seen : Text} {countedStart : Nat} (c : Nat)
    (within : countedStart ≤ seen.length) : skipAt st (seen ++ [c]) countedStart = false := by
  simp only [skipAt, List.length_append, List.length_singleton, Bool.and_eq_false_iff,
    beq_eq_false_iff_ne]
  right
  omega

theorem flagsAt_snoc (st : SplitState) {seen : Text} {countedStart : Nat} (c : Nat)
    (within : countedStart ≤ seen.length) :
    flagsAt st (seen ++ [c]) countedStart = (flagsAt st seen countedStart).normal := by
  have advanced : (seen ++ [c]).length - countedStart ≠ 0 := by
    simp only [List.length_append, List.length_singleton]
    omega
  unfold flagsAt
  rw [if_neg advanced]
  split
  · rfl
  · rw [Flags.normal_normal]

/-- A new segment at the end of what has been seen. -/
theorem Scanning.fresh {limits : RecordLimits} {st : SplitState} (seen : Text)
    (held : Held limits st []) (none : st.recordChars = 0) (sound : st.flags.Sound)
    (skipping : st.skipLfAfterCr = true → st.flags = .start) :
    Scanning limits st [] seen seen.length seen.length where
  held := held
  segment := Nat.le_refl _
  within := Nat.le_refl _
  counted := by simp [none]
  sound := sound
  skipping skip := ⟨rfl, rfl, skipping skip⟩

/-- The record that is yielded when its last piece has been appended. -/
theorem appendPiece_record {limits : RecordLimits} {st : SplitState} {stored piece : Text}
    (held : Held limits st stored) (chars : st.recordChars = (stored ++ piece).length) :
    (appendPiece limits st piece).record = boundRecord limits (stored ++ piece) := by
  obtain ⟨cut, parts, _⟩ := appendPiece_held limits st stored piece held
  obtain ⟨_, counted, _⟩ := appendPiece_frame limits st piece
  unfold SplitState.record
  rw [parts, cut, counted, chars]
  rfl

/-- The scan from here to the end of the block continues the current record. -/
def ScansOn (limits : RecordLimits) (chunk rest : Text) : Prop :=
  ∀ (seen : Text) (segmentStart countedStart : Nat) (st : SplitState) (stored : Text),
    chunk = seen ++ rest → Scanning limits st stored seen segmentStart countedStart →
      Continues limits (skipAt st seen countedStart) (flagsAt st seen countedStart)
        (stored ++ seen.drop segmentStart) rest
        (scanBlock limits chunk seen.length rest segmentStart countedStart st)

section Character

variable {limits : RecordLimits} {chunk rest seen stored : Text} {c : Nat} {st : SplitState}
  {segmentStart countedStart : Nat}

theorem ScansOn.nil : ScansOn limits chunk [] := by
  intro seen segmentStart countedStart st stored whole scanning
  rw [List.append_nil] at whole
  subst whole
  obtain ⟨tracks, skip, flags⟩ := scanning.finish
  refine ⟨[], stored ++ chunk.drop segmentStart, rfl, ?_, ?_⟩
  · simp only [scanBlock]
    exact tracks
  · intro after
    simp only [scanBlock, List.nil_append]
    rw [skip, flags]

/-- From the end of what has been seen with nothing stored. -/
theorem ScansOn.fresh (later : ScansOn limits chunk rest) (whole : chunk = seen ++ rest)
    (scanning : Scanning limits st [] seen seen.length seen.length) :
    Continues limits st.skipLfAfterCr st.flags [] rest
      (scanBlock limits chunk seen.length rest seen.length seen.length st) := by
  have goesOn := later seen seen.length seen.length st [] whole scanning
  rw [skipAt_length, flagsAt_length, List.drop_length, List.nil_append] at goesOn
  exact goesOn

theorem ScansOn.plain (later : ScansOn limits chunk rest) (whole : chunk = (seen ++ [c]) ++ rest)
    (scanning : Scanning limits st stored seen segmentStart countedStart)
    (plain : isSpecial c = false) :
    Continues limits (skipAt st seen countedStart) (flagsAt st seen countedStart)
      (stored ++ seen.drop segmentStart) (c :: rest)
      (scanBlock limits chunk (seen ++ [c]).length rest segmentStart countedStart st) := by
  have segment := Nat.le_trans scanning.segment scanning.within
  have goesOn := later _ _ _ st stored whole (scanning.normal c)
  rw [drop_snoc seen c segment, ← List.append_assoc, skipAt_snoc st c scanning.within,
    flagsAt_snoc st c scanning.within] at goesOn
  refine Continues.inner ?_ (Flags.step_normal _ c plain) goesOn
  rintro ⟨_, isLf⟩
  rw [isLf] at plain
  exact absurd plain (by decide)

/-- The LF behind a CR that has ended a record. -/
theorem ScansOn.paired (later : ScansOn limits chunk rest) (whole : chunk = (seen ++ [LF]) ++ rest)
    (scanning : Scanning limits st stored seen seen.length countedStart)
    (skipping : st.skipLfAfterCr = true) :
    Continues limits (skipAt st seen countedStart) (flagsAt st seen countedStart)
      (stored ++ seen.drop seen.length) (LF :: rest)
      (scanBlock limits chunk (seen ++ [LF]).length rest (seen ++ [LF]).length
        (seen ++ [LF]).length { st with skipLfAfterCr := false }) := by
  obtain ⟨same, empty, _⟩ := scanning.skipping skipping
  subst same
  subst empty
  have none : st.recordChars = 0 := by
    have counted := scanning.counted
    rw [List.drop_length, Nat.sub_self] at counted
    exact counted
  have fresh : Scanning limits { st with skipLfAfterCr := false } [] (seen ++ [LF])
      (seen ++ [LF]).length (seen ++ [LF]).length := by
    apply Scanning.fresh
    · exact scanning.held
    · exact none
    · exact scanning.sound
    · exact Bool.noConfusion
  have goesOn := later.fresh whole fresh
  rw [skipAt_length, flagsAt_length, skipping, List.drop_length, List.append_nil]
  exact goesOn.skip

/-- A special character that is no LF to be skipped: it ends the record or stands in it. -/
theorem ScansOn.special (later : ScansOn limits chunk rest) (whole : chunk = (seen ++ [c]) ++ rest)
    (scanning : Scanning limits st stored seen segmentStart countedStart)
    (unpaired : ¬ (skipAt st seen countedStart = true ∧ c = LF)) :
    Continues limits (skipAt st seen countedStart) (flagsAt st seen countedStart)
      (stored ++ seen.drop segmentStart) (c :: rest)
      (let processed := processSpecial (countUpTo st (seen.length - countedStart)) c
      if processed.2 then
        let ended := appendPiece limits processed.1
          ((chunk.take (seen ++ [c]).length).drop segmentStart)
        let goesOn := scanBlock limits chunk (seen ++ [c]).length rest (seen ++ [c]).length
          (seen ++ [c]).length { SplitState.start with skipLfAfterCr := c == CR }
        (goesOn.1, ended.record :: goesOn.2)
      else
        scanBlock limits chunk (seen ++ [c]).length rest segmentStart (seen ++ [c]).length
          processed.1) := by
  have segment := Nat.le_trans scanning.segment scanning.within
  have counts : (seen ++ [c]).length = seen.length + 1 := List.length_append
  obtain ⟨flags, sound, held, chars, skip⟩ := scanning.countUpTo
  obtain ⟨step, chars', skip', parts', stored', cut'⟩ := processSpecial_spec _ c sound
  rw [flags] at step
  dsimp only
  generalize processSpecial _ c = out at step chars' skip' parts' stored' cut' ⊢
  have heldOut : Held limits out.1 stored := by
    unfold Held
    rw [parts', stored', cut']
    exact held
  have charsOut : out.1.recordChars = (stored ++ (seen ++ [c]).drop segmentStart).length := by
    rw [chars', chars, drop_snoc seen c segment, ← List.append_assoc, ← List.concat_eq_append,
      List.length_concat]
  cases stepEq : (flagsAt st seen countedStart).step c with
  | none =>
      rw [stepEq] at step
      have sliced : (chunk.take (seen ++ [c]).length).drop segmentStart =
          (seen ++ [c]).drop segmentStart := by
        rw [whole, List.take_left]
      rw [if_pos step, sliced, appendPiece_record heldOut charsOut, drop_snoc seen c segment,
        ← List.append_assoc]
      refine Continues.boundary unpaired stepEq ?_
      exact later.fresh whole (Scanning.fresh _ (held_start limits _) rfl (fun _ => rfl) fun _ => rfl)
  | some next =>
      rw [stepEq] at step
      obtain ⟨inner, flagsOut, soundOut⟩ := step
      rw [if_neg (by simp [inner])]
      refine Continues.inner unpaired stepEq ?_
      have goesOn := later (seen ++ [c]) segmentStart (seen ++ [c]).length out.1 stored whole
        { held := heldOut
          segment := by omega
          within := Nat.le_refl _
          counted := by rw [Nat.sub_self, Nat.add_zero, charsOut]
          sound := flagsOut ▸ soundOut
          skipping := by rw [skip', skip]; exact Bool.noConfusion }
      rw [skipAt_length, flagsAt_length, skip', skip, flagsOut, drop_snoc seen c segment,
        ← List.append_assoc] at goesOn
      exact goesOn

end Character

theorem scanBlock_continues (limits : RecordLimits) (chunk : Text) :
    ∀ rest : Text, ScansOn limits chunk rest := by
  intro rest
  induction rest with
  | nil => exact .nil
  | cons c rest ih =>
      intro seen segmentStart countedStart st stored whole scanning
      have whole' : chunk = (seen ++ [c]) ++ rest := by simp [whole]
      have counts : (seen ++ [c]).length = seen.length + 1 := List.length_append
      rw [scanBlock]
      by_cases plain : isSpecial c = false
      · rw [if_pos plain, ← counts]
        exact ih.plain whole' scanning plain
      · rw [if_neg plain]
        by_cases paired : st.skipLfAfterCr = true ∧ seen.length = segmentStart ∧ c = LF
        · rw [if_pos paired, ← counts]
          obtain ⟨skipping, rfl, rfl⟩ := paired
          exact ih.paired whole' scanning skipping
        · rw [if_neg paired, ← counts]
          refine ih.special whole' scanning ?_
          rintro ⟨skip, isLf⟩
          simp only [skipAt, Bool.and_eq_true, beq_iff_eq] at skip
          have same := (scanning.skipping skip.1).1
          have within := scanning.within
          exact paired ⟨skip.1, by omega, isLf⟩

/-- One block continues the record of the blocks before it. -/
theorem splitBlock_continues (limits : RecordLimits) (st : SplitState) (sofar chunk : Text)
    (tracks : Tracks limits st sofar) :
    Continues limits st.skipLfAfterCr st.flags sofar chunk (splitBlock limits st chunk) := by
  have scanning : Scanning limits st sofar [] 0 0 :=
    { held := tracks.held
      segment := Nat.le_refl 0
      within := Nat.zero_le _
      counted := by simpa using tracks.counted
      sound := tracks.sound
      skipping := fun skip => ⟨rfl, tracks.skipping skip⟩ }
  have whole := scanBlock_continues limits chunk chunk [] 0 0 st sofar rfl scanning
  simpa [skipAt, flagsAt, splitBlock] using whole

theorem iterFrom_eq (limits : RecordLimits) : ∀ (blocks : List Text) (st : SplitState)
    (sofar : Text), Tracks limits st sofar → (∀ block ∈ blocks, block ≠ []) →
      iterFrom limits st blocks =
        (recordsFrom st.skipLfAfterCr st.flags sofar blocks.flatten).map (boundRecord limits) := by
  intro blocks
  induction blocks with
  | nil =>
      intro st sofar tracks _
      obtain ⟨held, counted, _, _⟩ := tracks
      simp only [iterFrom, lastRecord, List.flatten_nil, recordsFrom, counted,
        List.length_eq_zero_iff]
      split
      · rfl
      · unfold SplitState.record
        rw [held.2.1, held.1, counted]
        rfl
  | cons block rest ih =>
      intro st sofar tracks nonempty
      obtain ⟨texts, sofar', records, tracks', agree⟩ :=
        splitBlock_continues limits st sofar block tracks
      rw [iterFrom, if_neg (nonempty block (by simp)), records, List.flatten_cons, agree,
        List.map_append, ih _ sofar' tracks' (fun b member => nonempty b (by simp [member]))]

/-- The records do not depend on the blocks, and each is cut on its own. -/
theorem iterLogicalRecords_eq (limits : RecordLimits) (blocks : List Text)
    (nonempty : ∀ block ∈ blocks, block ≠ []) :
    iterLogicalRecords limits blocks =
      (logicalRecords blocks.flatten).map (boundRecord limits) :=
  iterFrom_eq limits blocks .start [] (tracks_start limits false) nonempty

end StockImport.Csv
