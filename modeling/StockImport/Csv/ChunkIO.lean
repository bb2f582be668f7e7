import StockImport.Library.Utf8Escape
import StockImport.Csv.Records

/-!
# From chunks to records

`ChunkIteratorIO` shows an iterator of byte chunks as a raw stream.  Above it
stand the standard library's buffered reader and text wrapper, which ask for
bytes and give back text blocks, and on top `_iter_logical_records`.

A generator runs only as far as its consumer asks, so the stream of records is a
list of items in the order they happen: attempts to fetch a chunk, and records.  At the
end of the input and around a CR that waits for its LF the text wrapper may ask a moment
earlier or later than here; no result depends on these moments.
-/

set_option autoImplicit false

namespace StockImport.Csv

open PyText Utf8Escape

abbrev Bytes := List UInt8

/-! ## The chunk adapter -/

structure ChunkIteratorIO where
  /-- What the iterator has not given yet. -/
  chunks : List Bytes
  current : Bytes
  offset : Nat

def ChunkIteratorIO.start (chunks : List Bytes) : ChunkIteratorIO := ⟨chunks, [], 0⟩

structure ReadResult where
  written : Bytes
  io : ChunkIteratorIO
  /-- How often `before_next_chunk` and `next` ran. -/
  fetches : Nat

/-- The loop of `readinto` from the copy of what is left of the current chunk on:
a call copies, and either the buffer is full or the next chunk is fetched. -/
def readintoLoop : (chunks : List Bytes) → (current : Bytes) → (offset needed : Nat) → ReadResult
  | chunks, current, offset, needed =>
      let available := min needed (current.length - offset)
      let piece := (current.drop offset).take available
      if needed - available = 0 then ⟨piece, ⟨chunks, current, offset + available⟩, 0⟩
      else
        match chunks with
        | [] => ⟨piece, ⟨[], current, offset + available⟩, 1⟩
        | chunk :: rest =>
            let later :=
              if chunk = [] then
                readintoLoop rest current (offset + available) (needed - available)
              else readintoLoop rest chunk 0 (needed - available)
            ⟨piece ++ later.written, later.io, later.fetches + 1⟩

def ChunkIteratorIO.readinto (io : ChunkIteratorIO) (bufferSize : Nat) : ReadResult :=
  readintoLoop io.chunks io.current io.offset bufferSize

/-- The bytes the adapter has still to deliver. -/
def ChunkIteratorIO.pending (io : ChunkIteratorIO) : Bytes :=
  io.current.drop io.offset ++ io.chunks.flatten

theorem readintoLoop_spec : ∀ (chunks : List Bytes) (current : Bytes) (offset needed : Nat),
    (readintoLoop chunks current offset needed).written ++
        (readintoLoop chunks current offset needed).io.pending =
      current.drop offset ++ chunks.flatten ∧
    ((readintoLoop chunks current offset needed).written.length < needed →
      (readintoLoop chunks current offset needed).io.pending = []) := by
  intro chunks
  induction chunks with
  | nil =>
      intro current offset needed
      by_cases full : needed - min needed (current.length - offset) = 0
      · simp only [readintoLoop, if_pos full, ChunkIteratorIO.pending, ← List.drop_drop,
          List.flatten_nil, List.append_nil, List.take_append_drop, true_and]
        intro short
        simp only [List.length_take, List.length_drop] at short
        omega
      · have exhausted : current.drop (offset + min needed (current.length - offset)) = [] := by
          rw [List.drop_eq_nil_iff]; omega
        simp only [readintoLoop, if_neg full, ChunkIteratorIO.pending, exhausted,
          List.flatten_nil, List.append_nil, implies_true, and_true]
        rw [← List.append_nil (List.take _ _), ← exhausted, ← List.drop_drop,
          List.take_append_drop]
  | cons chunk rest ih =>
      intro current offset needed
      by_cases full : needed - min needed (current.length - offset) = 0
      · simp only [readintoLoop, if_pos full, ChunkIteratorIO.pending, ← List.drop_drop]
        refine ⟨by rw [← List.append_assoc, List.take_append_drop], ?_⟩
        intro short
        simp only [List.length_take, List.length_drop] at short
        omega
      · have exhausted : current.drop (offset + min needed (current.length - offset)) = [] := by
          rw [List.drop_eq_nil_iff]; omega
        have whole : (current.drop offset).take (min needed (current.length - offset)) =
            current.drop offset := by
          apply List.take_of_length_le
          simp only [List.length_drop]; omega
        simp only [readintoLoop, if_neg full, whole]
        by_cases empty : chunk = []
        · obtain ⟨joined, short⟩ := ih current (offset + min needed (current.length - offset))
            (needed - min needed (current.length - offset))
          rw [if_pos empty]
          refine ⟨?_, ?_⟩
          · rw [List.append_assoc, joined, exhausted, empty]
            simp
          · intro notFull
            apply short
            simp only [List.length_append, List.length_drop] at notFull
            omega
        · obtain ⟨joined, short⟩ := ih chunk 0 (needed - min needed (current.length - offset))
          rw [if_neg empty]
          refine ⟨?_, ?_⟩
          · rw [List.append_assoc, joined]
            simp
          · intro notFull
            apply short
            simp only [List.length_append, List.length_drop] at notFull
            omega

/-- Reading neither loses nor repeats a byte. -/
theorem readinto_append (io : ChunkIteratorIO) (bufferSize : Nat) :
    (io.readinto bufferSize).written ++ (io.readinto bufferSize).io.pending = io.pending :=
  (readintoLoop_spec io.chunks io.current io.offset bufferSize).1

/-- A buffer stays partly empty only at the end of the stream. -/
theorem readinto_short (io : ChunkIteratorIO) (bufferSize : Nat)
    (short : (io.readinto bufferSize).written.length < bufferSize) :
    (io.readinto bufferSize).io.pending = [] :=
  (readintoLoop_spec io.chunks io.current io.offset bufferSize).2 short

/-- One way of cutting a byte string into chunks, empty chunks included. -/
structure Chunking (bytes : Bytes) where
  chunks : List Bytes
  joined : chunks.flatten = bytes

/-! ## The text wrapper -/

/-- How much the layers above ask for.  The size of a raw read depends on how the
text wrapper judges the ratio of bytes to characters, so any positive sizes are
admitted. -/
structure StreamSizes where
  byteRequest : Nat → Nat
  byteRequest_pos : ∀ k, 0 < byteRequest k
  textReadChars : Nat
  textReadChars_pos : 0 < textReadChars

/-- The raw reads up to and including the one that gives no byte, each with its
number of fetches.  Every other read takes a byte at least, so the number of
pending bytes is fuel enough (`rawReads_flatten`). -/
def rawReads (sizes : StreamSizes) : (fuel k : Nat) → ChunkIteratorIO → List (Nat × Bytes)
  | 0, _, _ => []
  | fuel + 1, k, io =>
      let result := io.readinto (sizes.byteRequest k)
      (result.fetches, result.written) ::
        (if result.written = [] then [] else rawReads sizes fuel (k + 1) result.io)

theorem rawReads_flatten (sizes : StreamSizes) (fuel : Nat) : ∀ (k : Nat) (io : ChunkIteratorIO),
    io.pending.length < fuel → ((rawReads sizes fuel k io).map Prod.snd).flatten = io.pending := by
  induction fuel with
  | zero => intro k io enough; omega
  | succ fuel ih =>
      intro k io enough
      have joined := readinto_append io (sizes.byteRequest k)
      simp only [rawReads, List.map_cons, List.flatten_cons]
      split
      · next empty =>
          have short : (io.readinto (sizes.byteRequest k)).written.length < sizes.byteRequest k := by
            rw [empty]; exact sizes.byteRequest_pos k
          rw [readinto_short io _ short, List.append_nil] at joined
          simp [joined]
      · next some =>
          have shorter : (io.readinto (sizes.byteRequest k)).io.pending.length < fuel := by
            have lengths := congrArg List.length joined
            rw [List.length_append] at lengths
            have := List.length_pos_of_ne_nil some
            omega
          rw [ih (k + 1) _ shorter, joined]

/-- What the decoder makes of each raw read; the read at the end of the stream
flushes it. -/
def decodeReads : Decoder → List (Nat × Bytes) → List (Nat × Text)
  | _, [] => []
  | decoder, (fetches, bytes) :: rest =>
      if bytes = [] then [(fetches, decoder.finish)]
      else (fetches, (decoder.feed bytes).1) :: decodeReads (decoder.feed bytes).2 rest

/-- Full blocks of `size` characters out of `held` and the new characters, and
what is left over. -/
def cutBlocks (size : Nat) : (held : Text) → Text → List Text × Text
  | held, [] => ([], held)
  | held, c :: rest =>
      if held.length + 1 = size then
        ((held ++ [c]) :: (cutBlocks size [] rest).1, (cutBlocks size [] rest).2)
      else cutBlocks size (held ++ [c]) rest

/-- The results of `read(size)` one after the other, the empty one last, each with
the fetches made for it. -/
def textReads (size : Nat) : (held : Text) → (fetched : Nat) → List (Nat × Text) →
    List (Nat × Text)
  | held, fetched, [] =>
      if held = [] then [(max fetched 1, [])] else [(fetched, held), (1, [])]
  | held, fetched, (fetches, chars) :: rest =>
      match (cutBlocks size held chars).1 with
      | [] => textReads size (cutBlocks size held chars).2 (fetched + fetches) rest
      | block :: blocks =>
          (fetched + fetches, block) :: blocks.map (fun b => (0, b)) ++
            textReads size (cutBlocks size held chars).2 0 rest

def textBlocks (sizes : StreamSizes) (chunks : List Bytes) : List (Nat × Text) :=
  let io := ChunkIteratorIO.start chunks
  textReads sizes.textReadChars [] 0
    (decodeReads .start (rawReads sizes (io.pending.length + 1) 0 io))

/-! ## Items -/

inductive StreamItem where
  /-- `before_next_chunk` and one attempt to get the next chunk. -/
  | fetch
  | record (record : LogicalCsvRecord)
  deriving DecidableEq, Repr

/-- The generator `_iter_logical_records` over the text stream. -/
def recordItems (limits : RecordLimits) : SplitState → List (Nat × Text) → List StreamItem
  | st, [] => (lastRecord st).map StreamItem.record
  | st, (fetches, chunk) :: rest =>
      List.replicate fetches .fetch ++
        (if chunk = [] then (lastRecord st).map StreamItem.record
        else (splitBlock limits st chunk).2.map StreamItem.record ++
          recordItems limits (splitBlock limits st chunk).1 rest)

def streamItems (limits : RecordLimits) (sizes : StreamSizes) (chunks : List Bytes) :
    List StreamItem :=
  recordItems limits .start (textBlocks sizes chunks)

def itemRecord : StreamItem → Option LogicalCsvRecord
  | .fetch => none
  | .record record => some record

def itemRecords (items : List StreamItem) : List LogicalCsvRecord := items.filterMap itemRecord

/-! ## The text and the records do not depend on the cuts -/

theorem rawReads_nil_read (sizes : StreamSizes) (fuel : Nat) : ∀ (k : Nat) (io : ChunkIteratorIO),
    io.pending.length < fuel → ∃ reads fetches, rawReads sizes fuel k io = reads ++ [(fetches, [])] ∧
      ∀ read ∈ reads, read.2 ≠ [] := by
  induction fuel with
  | zero => intro k io enough; omega
  | succ fuel ih =>
      intro k io enough
      have joined := readinto_append io (sizes.byteRequest k)
      unfold rawReads
      dsimp only
      split
      · next empty => exact ⟨[], _, by rw [empty]; rfl, by simp⟩
      · next some =>
          have shorter : (io.readinto (sizes.byteRequest k)).io.pending.length < fuel := by
            have lengths := congrArg List.length joined
            rw [List.length_append] at lengths
            have := List.length_pos_of_ne_nil some
            omega
          obtain ⟨reads, fetches, shape, nonempty⟩ := ih (k + 1) _ shorter
          refine ⟨(_, _) :: reads, fetches, by rw [shape]; rfl, ?_⟩
          intro read member
          rcases List.mem_cons.mp member with rfl | member
          · exact some
          · exact nonempty read member

theorem decodeReads_flatten : ∀ (reads : List (Nat × Bytes)) (fetches : Nat) (decoder : Decoder),
    (∀ read ∈ reads, read.2 ≠ []) →
      ((decodeReads decoder (reads ++ [(fetches, [])])).map Prod.snd).flatten =
        (decoder.feed (reads.map Prod.snd).flatten).1 ++
          (decoder.feed (reads.map Prod.snd).flatten).2.finish := by
  intro reads
  induction reads with
  | nil => intro fetches decoder _; simp [decodeReads, Decoder.feed]
  | cons read rest ih =>
      intro fetches decoder nonempty
      obtain ⟨n, bytes⟩ := read
      have some : bytes ≠ [] := nonempty (n, bytes) (by simp)
      have later := ih fetches (decoder.feed bytes).2
        (fun read member => nonempty read (List.mem_cons_of_mem _ member))
      simp only [List.cons_append, decodeReads, if_neg some, List.map_cons, List.flatten_cons,
        later, Decoder.feed_append, List.append_assoc]

theorem cutBlocks_spec (size : Nat) : ∀ (chars held : Text),
    (cutBlocks size held chars).1.flatten ++ (cutBlocks size held chars).2 = held ++ chars ∧
      ∀ block ∈ (cutBlocks size held chars).1, block ≠ [] := by
  intro chars
  induction chars with
  | nil => intro held; simp [cutBlocks]
  | cons c rest ih =>
      intro held
      unfold cutBlocks
      split
      · obtain ⟨joined, nonempty⟩ := ih []
        refine ⟨?_, ?_⟩
        · simp only [List.flatten_cons, List.append_assoc, joined]
          simp
        · intro block member
          rcases List.mem_cons.mp member with rfl | member
          · simp
          · exact nonempty block member
      · obtain ⟨joined, nonempty⟩ := ih (held ++ [c])
        exact ⟨by rw [joined]; simp, nonempty⟩

theorem textReads_spec (size : Nat) : ∀ (pieces : List (Nat × Text)) (held : Text) (fetched : Nat),
    ∃ blocks fetches, textReads size held fetched pieces = blocks ++ [(fetches, [])] ∧
      (∀ block ∈ blocks, block.2 ≠ []) ∧
        (blocks.map Prod.snd).flatten = held ++ (pieces.map Prod.snd).flatten := by
  intro pieces
  induction pieces with
  | nil =>
      intro held fetched
      unfold textReads
      split
      · next empty => exact ⟨[], _, rfl, by simp, by simp [empty]⟩
      · next some => exact ⟨[(fetched, held)], 1, rfl, by simpa using some, by simp⟩
  | cons piece rest ih =>
      intro held fetched
      obtain ⟨fetches, chars⟩ := piece
      obtain ⟨joined, nonempty⟩ := cutBlocks_spec size chars held
      unfold textReads
      split
      · next none =>
          rw [none] at joined
          obtain ⟨blocks, last, shape, filled, text⟩ :=
            ih (cutBlocks size held chars).2 (fetched + fetches)
          refine ⟨blocks, last, shape, filled, ?_⟩
          rw [text, List.map_cons, List.flatten_cons, ← List.append_assoc, ← joined]
          rfl
      · next block more cut =>
          rw [cut] at joined nonempty
          obtain ⟨blocks, last, shape, filled, text⟩ := ih (cutBlocks size held chars).2 0
          refine ⟨(fetched + fetches, block) :: more.map (fun b => (0, b)) ++ blocks, last,
            by rw [shape, List.append_assoc], ?_, ?_⟩
          · intro read member
            rcases List.mem_append.mp member with front | back
            · rcases List.mem_cons.mp front with rfl | front
              · exact nonempty block (by simp)
              · obtain ⟨b, inside, rfl⟩ := List.mem_map.mp front
                exact nonempty b (by simp [inside])
            · exact filled read back
          · have texts : (more.map (fun b => ((0 : Nat), b))).map Prod.snd = more := by
              simp [List.map_map, Function.comp_def]
            have joined' : block ++ more.flatten ++ (cutBlocks size held chars).2 = held ++ chars :=
              joined
            rw [List.map_append, List.flatten_append, text, List.map_cons, texts, List.map_cons,
              List.flatten_cons, List.flatten_cons, ← List.append_assoc, ← List.append_assoc]
            exact congrArg (fun front => front ++ (rest.map Prod.snd).flatten) joined'

/-- The blocks of text put together are the decoded bytes, for every chunking and
every size of reads. -/
theorem textBlocks_spec (sizes : StreamSizes) (chunks : List Bytes) :
    ∃ blocks fetches, textBlocks sizes chunks = blocks ++ [(fetches, [])] ∧
      (∀ block ∈ blocks, block.2 ≠ []) ∧
        (blocks.map Prod.snd).flatten = decode chunks.flatten := by
  have enough := Nat.lt_succ_self ( ChunkIteratorIO.start chunks).pending.length
  obtain ⟨reads, last, shape, nonempty⟩ := rawReads_nil_read sizes _ 0 _ enough
  have bytes := rawReads_flatten sizes _ 0 _ enough
  rw [shape] at bytes
  obtain ⟨blocks, fetches, blocksShape, filled, text⟩ := textReads_spec sizes.textReadChars
    (decodeReads .start (reads ++ [(last, [])])) [] 0
  refine ⟨blocks, fetches, ?_, filled, ?_⟩
  · rw [textBlocks, shape, blocksShape]
  · have pending : ( ChunkIteratorIO.start chunks).pending = chunks.flatten := by
      simp [ ChunkIteratorIO.start, ChunkIteratorIO.pending]
    have joined : (reads.map Prod.snd).flatten = chunks.flatten := by
      rw [← pending, ← bytes]
      simp
    rw [text, decodeReads_flatten reads last .start nonempty, joined]
    rfl

theorem itemRecords_replicate (n : Nat) : itemRecords (List.replicate n .fetch) = [] := by
  induction n with
  | zero => rfl
  | succ n ih =>
      rw [List.replicate_succ, itemRecords, List.filterMap_cons_none rfl]
      exact ih

theorem itemRecords_append (first second : List StreamItem) :
    itemRecords (first ++ second) = itemRecords first ++ itemRecords second :=
  List.filterMap_append ..

theorem itemRecords_map (records : List LogicalCsvRecord) :
    itemRecords (records.map .record) = records := by
  induction records with
  | nil => rfl
  | cons record rest ih => simpa [itemRecords, itemRecord] using ih

theorem itemRecords_recordItems (limits : RecordLimits) : ∀ (blocks : List (Nat × Text))
    (st : SplitState), itemRecords (recordItems limits st blocks) =
      iterFrom limits st (blocks.map Prod.snd) := by
  intro blocks
  induction blocks with
  | nil => intro st; simp [recordItems, iterFrom, itemRecords_map]
  | cons block rest ih =>
      intro st
      obtain ⟨fetches, chunk⟩ := block
      simp only [recordItems, iterFrom, List.map_cons, itemRecords_append, itemRecords_replicate,
        List.nil_append]
      split
      · rw [itemRecords_map]
      · rw [itemRecords_append, itemRecords_map, ih]

theorem iterFrom_end (limits : RecordLimits) : ∀ (blocks : List Text) (st : SplitState),
    iterFrom limits st (blocks ++ [[]]) = iterFrom limits st blocks := by
  intro blocks
  induction blocks with
  | nil => intro st; simp [iterFrom]
  | cons block rest ih => intro st; simp only [List.cons_append, iterFrom, ih]

/-- The records a stream of chunks gives: the logical records of the decoded text. -/
theorem itemRecords_streamItems (limits : RecordLimits) (sizes : StreamSizes)
    (chunks : List Bytes) :
    itemRecords (streamItems limits sizes chunks) =
      (logicalRecords (decode chunks.flatten)).map (boundRecord limits) := by
  obtain ⟨blocks, fetches, shape, filled, text⟩ := textBlocks_spec sizes chunks
  rw [streamItems, itemRecords_recordItems, shape, List.map_append]
  show iterFrom limits .start (blocks.map Prod.snd ++ [[]]) = _
  rw [iterFrom_end, ← text]
  apply iterLogicalRecords_eq
  intro block member
  obtain ⟨read, inside, rfl⟩ := List.mem_map.mp member
  exact filled read inside

end StockImport.Csv
