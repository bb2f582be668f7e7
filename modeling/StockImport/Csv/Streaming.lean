import StockImport.Csv.Validation

/-!
# Streaming independence

The callbacks and the result of `validate_csv_stream` are a function of the
logical records alone, and those are a function of the bytes.
-/

set_option autoImplicit false

namespace StockImport.Csv

open PyText CsvReader Utf8Escape

/-- Two runs that an observer of the callbacks and the result cannot tell apart. -/
def ValidationRun.Agrees (run other : ValidationRun) : Prop :=
  run.callbacks = other.callbacks ∧ run.result = other.result

theorem ValidationRun.Agrees.refl (run : ValidationRun) : run.Agrees run := ⟨rfl, rfl⟩

theorem ValidationRun.Agrees.after {run other : ValidationRun} (event : StreamEvent)
    (agrees : run.Agrees other) : (run.after event).Agrees (other.after event) := by
  refine ⟨?_, agrees.2⟩
  have callbacks := agrees.1
  unfold ValidationRun.callbacks at callbacks ⊢
  simp only [ValidationRun.after, List.filter_cons, callbacks]

theorem ValidationRun.Agrees.fetch {run other : ValidationRun} (agrees : run.Agrees other) :
    (run.after .fetch).Agrees other := by
  refine ⟨?_, agrees.2⟩
  have callbacks := agrees.1
  unfold ValidationRun.callbacks at callbacks ⊢
  simp only [ValidationRun.after, List.filter_cons, StreamEvent.isCallback, callbacks]
  rfl

/-- The stream with its fetches taken out. -/
def recordsOnly (items : List StreamItem) : List StreamItem := (itemRecords items).map .record

theorem recordsOnly_fetch (rest : List StreamItem) :
    recordsOnly (.fetch :: rest) = recordsOnly rest := rfl

theorem recordsOnly_record (record : LogicalCsvRecord) (rest : List StreamItem) :
    recordsOnly (.record record :: rest) = .record record :: recordsOnly rest := rfl

theorem validateRecords_recordsOnly (limits : CsvLimits) (header : List Text) :
    ∀ (items : List StreamItem) (lineNumber rowCount : Nat),
      (validateRecords limits header items lineNumber rowCount).Agrees
        (validateRecords limits header (recordsOnly items) lineNumber rowCount) := by
  intro items
  induction items with
  | nil => intro lineNumber rowCount; exact .refl _
  | cons item rest ih =>
      intro lineNumber rowCount
      cases item with
      | fetch =>
          rw [recordsOnly_fetch, validateRecords]
          exact (ih lineNumber rowCount).fetch
      | record record =>
          have continues := ih (lineNumber + 1) (rowCount + 1)
          rw [recordsOnly_record]
          simp only [validateRecords]
          split
          · exact continues.after _
          · split
            · apply ValidationRun.Agrees.after
              split
              · exact continues
              · exact .refl _
            · split
              · exact continues.after _
              · split
                · exact .refl _
                · split
                  · exact continues.after _
                  · split
                    · exact continues.after _
                    · exact continues

theorem validateItems_recordsOnly (limits : CsvLimits) : ∀ items : List StreamItem,
    (validateItems limits items).Agrees (validateItems limits (recordsOnly items)) := by
  intro items
  induction items with
  | nil => exact .refl _
  | cons item rest ih =>
      cases item with
      | fetch => exact ih.fetch
      | record record =>
          rw [recordsOnly_record]
          simp only [validateItems]
          split
          · exact .refl _
          · split
            · exact .refl _
            · split
              · exact .refl _
              · split
                · exact .refl _
                · exact validateRecords_recordsOnly limits _ rest 1 0

/-- What `validate_csv_stream` does with the bytes of a file, without the stream. -/
def validateBytes (limits : CsvLimits) (bytes : Bytes) : ValidationRun :=
  if limits.Accepted then
    validateItems limits
      (((logicalRecords (decode bytes)).map (boundRecord limits.records)).map .record)
  else .raises .valueError

theorem validateCsvStream_agrees (limits : CsvLimits) (sizes : StreamSizes)
    (chunks : List Bytes) :
    (validateCsvStream limits sizes chunks).Agrees (validateBytes limits chunks.flatten) := by
  unfold validateCsvStream validateBytes
  split
  · rw [← itemRecords_streamItems limits.records sizes chunks]
    exact validateItems_recordsOnly limits _
  · exact .refl _

/-- Neither the cuts between chunks nor the sizes of the reads reach a callback. -/
theorem streaming_independence (limits : CsvLimits) (bytes : Bytes)
    (first second : Chunking bytes) (firstSizes secondSizes : StreamSizes) :
    (validateCsvStream limits firstSizes first.chunks).callbacks =
        (validateCsvStream limits secondSizes second.chunks).callbacks ∧
      (validateCsvStream limits firstSizes first.chunks).result =
        (validateCsvStream limits secondSizes second.chunks).result := by
  obtain ⟨callbacks, result⟩ := validateCsvStream_agrees limits firstSizes first.chunks
  obtain ⟨callbacks', result'⟩ := validateCsvStream_agrees limits secondSizes second.chunks
  rw [first.joined] at callbacks result
  rw [second.joined] at callbacks' result'
  exact ⟨callbacks.trans callbacks'.symm, result.trans result'.symm⟩

end StockImport.Csv
