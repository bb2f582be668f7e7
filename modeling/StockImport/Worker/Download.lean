import StockImport.Worker.ErrorRecords

/-!
# The download of an attempt

The generator that `download_stream` returns and the response body behind it, while
`validate_csv_stream` fetches from it and when it is left.  A generator that has been
started closes the body when it ends and when it is closed; one that has not been
started does nothing.
-/

set_option autoImplicit false

namespace StockImport.Worker

open PyText Csv

/-! ## The generator -/

inductive GeneratorState where
  | notStarted
  | suspended
  | finished
  deriving DecidableEq, Repr

/-- The chunks that a response body gives; a read without a byte is its end. -/
structure ResponseBody where
  chunks : List Bytes
  nonempty : [] ∉ chunks

/-- The generator `chunks()`, what its body has still to give, and whether the body has
been closed. -/
structure Download where
  state : GeneratorState
  unread : List Bytes
  bodyClosed : Bool
  deriving DecidableEq, Repr

/-- The generator ends: `finally: body.close()`. -/
def Download.finish (download : Download) : Download :=
  { download with state := .finished, bodyClosed := true }

/-- `next(chunks)`, where the read raises or not; `none` is `StopIteration`. -/
def Download.next (download : Download) (readFails : Bool) :
    Except PyException (Option Bytes) × Download :=
  if download.state = .finished then (.ok none, download)
  else if readFails then (.error .storageUnavailable, download.finish)
  else
    match download.unread with
    | [] => (.ok none, download.finish)
    | chunk :: rest =>
        (.ok (some chunk), { download with state := .suspended, unread := rest })

/-- `chunks.close()`: `GeneratorExit` where the generator is suspended. -/
def Download.close (download : Download) : Download :=
  match download.state with
  | .notStarted => { download with state := .finished }
  | .suspended => download.finish
  | .finished => download

/-- `text_stream.close()` closes the buffered reader, this the `ChunkIteratorIO`, and this
the generator. -/
def textStreamClose (download : Download) : Download := download.close

/-! ## A validation attempt -/

/-- What goes wrong in an attempt, by the number of the event. -/
structure Course where
  hookRaises : Nat → Bool
  readFails : Nat → Bool
  callbackRaises : Nat → Bool

/-- The events of a run up to the first that raises, from event `n` on. -/
def Download.during (course : Course) : (n : Nat) → List StreamEvent → Download → Download
  | _, [], download => download
  | n, .fetch :: rest, download =>
      if course.hookRaises n then download
      else
        match download.next (course.readFails n) with
        | (.error _, download) => download
        | (.ok _, download) => Download.during course (n + 1) rest download
  | n, .validRow _ :: rest, download =>
      if course.callbackRaises n then download else Download.during course (n + 1) rest download
  | n, .issues _ :: rest, download =>
      if course.callbackRaises n then download else Download.during course (n + 1) rest download

def Download.opened (body : ResponseBody) : Download := ⟨.notStarted, body.chunks, false⟩

/-- The download when `validate_csv_stream` returns or raises. -/
def Download.left (limits : CsvLimits) (sizes : StreamSizes) (body : ResponseBody)
    (course : Course) : Download :=
  if limits.Accepted then
    textStreamClose (.during course 0 (validateCsvStream limits sizes body.chunks).events
      (.opened body))
  else .opened body

/-- The body is closed once the generator has ended, and not before. -/
structure Download.Started (download : Download) : Prop where
  started : download.state ≠ .notStarted
  closed : download.state = .finished → download.bodyClosed = true

theorem next_started {download : Download} (readFails : Bool)
    (sound : download.state = .finished → download.bodyClosed = true) :
    (download.next readFails).2.Started := by
  unfold Download.next
  split
  · next ended => exact ⟨by simp [ended], sound⟩
  · split
    · exact ⟨GeneratorState.noConfusion, fun _ => rfl⟩
    · split
      · exact ⟨GeneratorState.noConfusion, fun _ => rfl⟩
      · exact ⟨GeneratorState.noConfusion, GeneratorState.noConfusion⟩

theorem during_started (course : Course) : ∀ (events : List StreamEvent) (n : Nat)
    (download : Download), download.Started → (download.during course n events).Started := by
  intro events
  induction events with
  | nil => exact fun _ _ started => started
  | cons event rest ih =>
      intro n download started
      cases event with
      | fetch =>
          unfold Download.during
          split
          · exact started
          · have began := next_started (course.readFails n) started.closed
            split
            · next after =>
                rw [after] at began
                exact began
            · next after =>
                rw [after] at began
                exact ih _ _ began
      | validRow row | issues found =>
          unfold Download.during
          split
          · exact started
          · exact ih _ _ started

theorem close_started {download : Download} (started : download.Started) :
    download.close.bodyClosed = true := by
  obtain ⟨started, closed⟩ := started
  unfold Download.close
  cases state : download.state with
  | notStarted => exact absurd state started
  | suspended => rfl
  | finished => exact closed state

/-! ## The first event -/

theorem readinto_fetches (chunks : List Bytes) {size : Nat} (some : 0 < size) :
    0 < (( ChunkIteratorIO.start chunks).readinto size).fetches := by
  have needed : size ≠ 0 := Nat.ne_of_gt some
  cases chunks with
  | nil => simp [ ChunkIteratorIO.readinto, readintoLoop, ChunkIteratorIO.start, needed]
  | cons chunk rest => simp [ ChunkIteratorIO.readinto, readintoLoop, ChunkIteratorIO.start, needed]

/-- The first block comes with all fetches that have been made for it. -/
theorem textReads_fetches (size : Nat) : ∀ (pieces : List (Nat × Text)) (held : Text)
    (fetched : Nat), ∃ count block later,
      textReads size held fetched pieces = (count, block) :: later ∧ fetched ≤ count := by
  intro pieces
  induction pieces with
  | nil =>
      intro held fetched
      unfold textReads
      split
      · exact ⟨_, _, _, rfl, Nat.le_max_left _ _⟩
      · exact ⟨_, _, _, rfl, Nat.le_refl _⟩
  | cons piece pieces ih =>
      intro held fetched
      obtain ⟨fetches, chars⟩ := piece
      unfold textReads
      split
      · obtain ⟨count, block, later, reads, enough⟩ :=
          ih (cutBlocks size held chars).2 (fetched + fetches)
        exact ⟨count, block, later, reads, Nat.le_trans (Nat.le_add_right _ _) enough⟩
      · exact ⟨_, _, _, rfl, Nat.le_add_right _ _⟩

/-- Nothing happens in a run before the first chunk is asked for. -/
theorem validateCsvStream_fetches {limits : CsvLimits} (accepted : limits.Accepted)
    (sizes : StreamSizes) (chunks : List Bytes) :
    ∃ rest, (validateCsvStream limits sizes chunks).events = .fetch :: rest := by
  have pieces : ∃ fetches chars later, 0 < fetches ∧
      decodeReads .start (rawReads sizes (( ChunkIteratorIO.start chunks).pending.length + 1) 0
        (.start chunks)) = (fetches, chars) :: later := by
    have first := readinto_fetches chunks (sizes.byteRequest_pos 0)
    rw [rawReads, decodeReads]
    split
    · exact ⟨_, _, _, first, rfl⟩
    · exact ⟨_, _, _, first, rfl⟩
  have blocks : ∃ count block later, textBlocks sizes chunks = (count, block) :: later ∧
      0 < count := by
    obtain ⟨fetches, chars, later, some, reads⟩ := pieces
    unfold textBlocks
    dsimp only
    rw [reads, textReads]
    split
    · obtain ⟨count, block, rest, reads, enough⟩ := textReads_fetches sizes.textReadChars later
        (cutBlocks sizes.textReadChars [] chars).2 (0 + fetches)
      exact ⟨count, block, rest, reads, by omega⟩
    · exact ⟨_, _, _, rfl, by omega⟩
  obtain ⟨count, block, later, blocks, some⟩ := blocks
  obtain ⟨more, rfl⟩ := Nat.exists_eq_succ_of_ne_zero (Nat.ne_of_gt some)
  rw [validateCsvStream, if_pos accepted, streamItems, blocks, recordItems, List.replicate_succ,
    List.cons_append, validateItems]
  exact ⟨_, rfl⟩

theorem Settings.accepted (settings : Settings) : settings.limits.Accepted :=
  ⟨Nat.lt_of_lt_of_le (by decide) settings.maxFieldChars_range.1, settings.field_le_record,
    Nat.lt_of_lt_of_le (by decide) settings.rawValueChars_range.1,
    Nat.lt_of_lt_of_le (by decide) settings.rawTotalChars_range.1⟩

/-- A run whose first liveness check raises leaves the generator as it was. -/
theorem left_of_raises {limits : CsvLimits} (accepted : limits.Accepted) (sizes : StreamSizes)
    (body : ResponseBody) {course : Course} (raises : course.hookRaises 0 = true) :
    (Download.left limits sizes body course).bodyClosed = false := by
  obtain ⟨rest, events⟩ := validateCsvStream_fetches accepted sizes body.chunks
  rw [Download.left, if_pos accepted, events, Download.during, if_pos raises]
  rfl

/-- The download is released unless the very first liveness check raises. -/
theorem download_released (settings : Settings) (sizes : StreamSizes) (body : ResponseBody)
    (course : Course) :
    (Download.left settings.limits sizes body course).bodyClosed = true ↔
      course.hookRaises 0 = false := by
  cases raises : course.hookRaises 0 with
  | true => simp [left_of_raises settings.accepted sizes body raises]
  | false =>
      refine iff_of_true ?_ rfl
      obtain ⟨rest, events⟩ := validateCsvStream_fetches settings.accepted sizes body.chunks
      have began := next_started (course.readFails 0)
        (GeneratorState.noConfusion : (Download.opened body).state = .finished → _)
      rw [Download.left, if_pos settings.accepted, events, Download.during, raises,
        if_neg Bool.false_ne_true]
      refine close_started ?_
      split
      · next after =>
          rw [after] at began
          exact began
      · next after =>
          rw [after] at began
          exact during_started course rest 1 _ began

def defaultSettings : Settings where
  validationBatchSize := 500
  csvMaxFieldChars := 1048576
  csvMaxRecordChars := 4194304
  csvErrorRawValueChars := 1024
  csvErrorRawTotalChars := 4096
  batchSize_range := by decide
  maxFieldChars_range := by decide
  maxRecordChars_range := by decide
  rawValueChars_range := by decide
  rawTotalChars_range := by decide
  field_le_record := by decide
  values_le_total := by decide

/-- A lock connection that is lost before the first chunk. -/
def lostAtOnce : Course := ⟨fun _ => true, fun _ => false, fun _ => false⟩

theorem lostAtOnce_not_released :
    ¬ ∀ (settings : Settings) (sizes : StreamSizes) (body : ResponseBody) (course : Course),
      (Download.left settings.limits sizes body course).bodyClosed = true := by
  intro released
  have sizes : StreamSizes := ⟨fun _ => 1, fun _ => Nat.one_pos, 1, Nat.one_pos⟩
  have body : ResponseBody := ⟨[[105, 100, 10]], by decide⟩
  have kept := left_of_raises defaultSettings.accepted sizes body
    (rfl : lostAtOnce.hookRaises 0 = true)
  exact Bool.noConfusion (kept.symm.trans (released defaultSettings sizes body lostAtOnce))

end StockImport.Worker
