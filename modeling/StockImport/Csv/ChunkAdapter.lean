import StockImport.Csv.ChunkIO

/-!
# The chunk adapter

`ChunkIteratorIO.readinto` turn by turn, with all it does in order: the runs of
`before_next_chunk`, the attempts to fetch a chunk, and the bytes written to the
buffer.  A run of the hook may raise, and the caller may read again after that.
-/

set_option autoImplicit false

namespace StockImport.Csv

variable {ε : Type}

/-! ## The loop of `readinto` -/

/-- What the adapter does, in order. -/
inductive AdapterEvent (ε : Type) where
  | beforeNextChunk (raised : Option ε)
  /-- `next(self._chunks)`; `none` is `StopIteration`. -/
  | next (answer : Option Bytes)
  | write (piece : Bytes)
  deriving DecidableEq, Repr

/-- `before_next_chunk`, if there is one: what it raises, by the number of its run. -/
abbrev BeforeNextChunk (ε : Type) := Option (Nat → Option ε)

/-- A call of `readinto` between two turns of its loop. -/
structure Filling (ε : Type) where
  io : ChunkIteratorIO
  hookRuns : Nat
  written : Nat
  events : List (AdapterEvent ε)

def Filling.beforeNextChunk (hook : BeforeNextChunk ε) (filling : Filling ε) :
    Option ε × Filling ε :=
  match hook with
  | none => (none, filling)
  | some raises =>
      (raises filling.hookRuns,
        { filling with
          hookRuns := filling.hookRuns + 1
          events := filling.events ++ [.beforeNextChunk (raises filling.hookRuns)] })

def Filling.next (filling : Filling ε) : Option Bytes × Filling ε :=
  match filling.io.chunks with
  | [] => (none, { filling with events := filling.events ++ [.next none] })
  | chunk :: rest =>
      (some chunk,
        { filling with
          io := { filling.io with chunks := rest }
          events := filling.events ++ [.next (some chunk)] })

/-- The copy of what is left of the current chunk, as far as the buffer has room. -/
def Filling.copy (size : Nat) (filling : Filling ε) : Filling ε :=
  let available :=
    min (size - filling.written) (filling.io.current.length - filling.io.offset)
  { filling with
    io := { filling.io with offset := filling.io.offset + available }
    written := filling.written + available
    events :=
      filling.events ++ [.write ((filling.io.current.drop filling.io.offset).take available)] }

inductive Turn (ε : Type) where
  | goesOn (filling : Filling ε)
  | returns (filling : Filling ε)
  | raises (e : ε) (filling : Filling ε)

/-- One turn of the loop over a buffer that is not full. -/
def Filling.turn (hook : BeforeNextChunk ε) (size : Nat) (filling : Filling ε) : Turn ε :=
  if filling.io.current.length ≤ filling.io.offset then
    match filling.beforeNextChunk hook with
    | (some e, asked) => .raises e asked
    | (none, asked) =>
        match asked.next with
        | (none, ended) => .returns ended
        | (some chunk, fetched) =>
            if chunk = [] then .goesOn fetched
            else .goesOn (Filling.copy size { fetched with io := ⟨fetched.io.chunks, chunk, 0⟩ })
  else .goesOn (filling.copy size)

/-- What a turn leaves to do: chunks to fetch and bytes to write. -/
def Filling.remaining (size : Nat) (filling : Filling ε) : Nat :=
  filling.io.chunks.length + (size - filling.written)

/-- Without a hook nothing happens, and a hook runs once. -/
theorem beforeNextChunk_cases {hook : BeforeNextChunk ε} {filling asked : Filling ε}
    {raised : Option ε} (ran : filling.beforeNextChunk hook = (raised, asked)) :
    (hook.isSome = false ∧ raised = none ∧ asked = filling) ∨
    (hook.isSome = true ∧
      asked =
        { filling with
          hookRuns := filling.hookRuns + 1
          events := filling.events ++ [.beforeNextChunk raised] }) := by
  cases hook with
  | none =>
      cases ran
      exact Or.inl ⟨rfl, rfl, rfl⟩
  | some raises =>
      cases ran
      exact Or.inr ⟨rfl, rfl⟩

/-- The hook touches neither the chunks nor the buffer. -/
theorem beforeNextChunk_frame {hook : BeforeNextChunk ε} {filling asked : Filling ε}
    {raised : Option ε} (ran : filling.beforeNextChunk hook = (raised, asked)) :
    asked.io = filling.io ∧ asked.written = filling.written := by
  rcases beforeNextChunk_cases ran with ⟨_, _, rfl⟩ | ⟨_, rfl⟩
  · exact ⟨rfl, rfl⟩
  · exact ⟨rfl, rfl⟩

/-- An attempt to fetch with its answer, and the adapter after it. -/
def Filling.fetch (answer : Option Bytes) (io : ChunkIteratorIO) (asked : Filling ε) : Filling ε :=
  { asked with io := io, events := asked.events ++ [.next answer] }

/-- What a turn can do. -/
inductive Filling.Turns (hook : BeforeNextChunk ε) (size : Nat) (filling : Filling ε) :
    Turn ε → Prop
  | refused (e : ε) (asked : Filling ε) : filling.beforeNextChunk hook = (some e, asked) →
      Turns hook size filling (.raises e asked)
  | stops (asked : Filling ε) : filling.io.current.length ≤ filling.io.offset →
      filling.beforeNextChunk hook = (none, asked) → filling.io.chunks = [] →
      Turns hook size filling (.returns (asked.fetch none filling.io))
  | empty (asked : Filling ε) (rest : List Bytes) :
      filling.io.current.length ≤ filling.io.offset →
      filling.beforeNextChunk hook = (none, asked) → filling.io.chunks = [] :: rest →
      Turns hook size filling
        (.goesOn (asked.fetch (some []) { filling.io with chunks := rest }))
  | filled (asked : Filling ε) (chunk : Bytes) (rest : List Bytes) :
      filling.io.current.length ≤ filling.io.offset →
      filling.beforeNextChunk hook = (none, asked) → filling.io.chunks = chunk :: rest →
      chunk ≠ [] →
      Turns hook size filling
        (.goesOn ((asked.fetch (some chunk) ⟨rest, chunk, 0⟩).copy size))
  | copies : filling.io.offset < filling.io.current.length →
      Turns hook size filling (.goesOn (filling.copy size))

theorem Filling.turn_turns (hook : BeforeNextChunk ε) (size : Nat) (filling : Filling ε) :
    filling.Turns hook size (filling.turn hook size) := by
  unfold Filling.turn
  split
  · next exhausted =>
      split
      · next ran => exact .refused _ _ ran
      · next asked ran =>
          have same := (beforeNextChunk_frame ran).1
          obtain ⟨io, hookRuns, written, events⟩ := asked
          dsimp only at same
          subst same
          unfold Filling.next
          cases chunks : filling.io.chunks with
          | nil => exact .stops _ exhausted ran chunks
          | cons chunk rest =>
              by_cases empty : chunk = []
              · subst empty
                exact .empty _ rest exhausted ran chunks
              · dsimp only
                rw [if_neg empty]
                exact .filled _ chunk rest exhausted ran chunks empty
  · next inside => exact .copies (Nat.lt_of_not_le inside)

/-- A turn after which the loop goes on has fetched a chunk or written a byte. -/
theorem turn_decreases {hook : BeforeNextChunk ε} {size : Nat} {filling later : Filling ε}
    (room : filling.written < size) (turned : filling.turn hook size = .goesOn later) :
    later.remaining size < filling.remaining size := by
  have turns := filling.turn_turns hook size
  rw [turned] at turns
  cases turns with
  | empty asked rest exhausted ran chunks =>
      have written := (beforeNextChunk_frame ran).2
      simp only [Filling.remaining, Filling.fetch, chunks, written, List.length_cons]
      omega
  | filled asked chunk rest exhausted ran chunks filled =>
      have written := (beforeNextChunk_frame ran).2
      simp only [Filling.remaining, Filling.copy, Filling.fetch, chunks, written, List.length_cons]
      omega
  | copies inside =>
      simp only [Filling.remaining, Filling.copy]
      omega

/-- `while written < len(target)`. -/
def Filling.loop (hook : BeforeNextChunk ε) (size : Nat) (filling : Filling ε) :
    Except ε Nat × Filling ε :=
  if filling.written < size then
    match _ : filling.turn hook size with
    | .goesOn later => later.loop hook size
    | .returns ended => (.ok ended.written, ended)
    | .raises e failed => (.error e, failed)
  else (.ok filling.written, filling)
termination_by filling.remaining size
decreasing_by exact turn_decreases ‹_› ‹_›

/-- A call of `readinto`: the size of its buffer, what it returns or raises, and what it does. -/
structure ReadCall (ε : Type) where
  size : Nat
  outcome : Except ε Nat
  events : List (AdapterEvent ε)

/-- Calls with buffers of these sizes one after the other, the hook having run so often. -/
def ChunkIteratorIO.reads (hook : BeforeNextChunk ε) :
    (sizes : List Nat) → (hookRuns : Nat) → ChunkIteratorIO → List (ReadCall ε)
  | [], _, _ => []
  | size :: sizes, hookRuns, io =>
      let call := Filling.loop hook size ⟨io, hookRuns, 0, []⟩
      ⟨size, call.1, call.2.events⟩ :: call.2.io.reads hook sizes call.2.hookRuns

/-! ## What the events say -/

def AdapterEvent.chunk : AdapterEvent ε → Option Bytes
  | .beforeNextChunk _ => none
  | .next answer => answer
  | .write _ => none

def AdapterEvent.bytes : AdapterEvent ε → Bytes
  | .beforeNextChunk _ => []
  | .next _ => []
  | .write piece => piece

/-- The chunks that have been fetched. -/
def fetchedChunks (events : List (AdapterEvent ε)) : List Bytes :=
  events.filterMap AdapterEvent.chunk

/-- The bytes that have been written to the buffers. -/
def delivered (events : List (AdapterEvent ε)) : Bytes := events.flatMap AdapterEvent.bytes

theorem fetchedChunks_snoc (events : List (AdapterEvent ε)) (event : AdapterEvent ε) :
    fetchedChunks (events ++ [event]) = fetchedChunks events ++ event.chunk.toList := by
  cases event with
  | next answer => cases answer <;> simp [fetchedChunks, AdapterEvent.chunk]
  | beforeNextChunk _ | write _ => simp [fetchedChunks, AdapterEvent.chunk]

theorem delivered_snoc (events : List (AdapterEvent ε)) (event : AdapterEvent ε) :
    delivered (events ++ [event]) = delivered events ++ event.bytes := by
  simp [delivered]

/-- The chunks with a byte that is not among the first `count`. -/
def undelivered : (count : Nat) → List Bytes → List Bytes
  | _, [] => []
  | count, chunk :: rest =>
      if chunk.length ≤ count then undelivered (count - chunk.length) rest
      else chunk :: undelivered 0 rest

/-- The chunks that the adapter holds: they have been fetched, and not all of their bytes
have been written to a buffer. -/
def held (events : List (AdapterEvent ε)) : List Bytes :=
  undelivered (delivered events).length (fetchedChunks events)

/-- Each attempt to fetch a chunk has a run of the hook of its own right before it, if there
is a hook; a run that raises is followed by no attempt. -/
inductive AsksBeforeFetches (hooked : Bool) : List (AdapterEvent ε) → Prop
  | nil : AsksBeforeFetches hooked []
  | write (piece : Bytes) {later : List (AdapterEvent ε)} :
      AsksBeforeFetches hooked later → AsksBeforeFetches hooked (.write piece :: later)
  | asked (answer : Option Bytes) {later : List (AdapterEvent ε)} : hooked = true →
      AsksBeforeFetches hooked later →
      AsksBeforeFetches hooked (.beforeNextChunk none :: .next answer :: later)
  | unasked (answer : Option Bytes) {later : List (AdapterEvent ε)} : hooked = false →
      AsksBeforeFetches hooked later → AsksBeforeFetches hooked (.next answer :: later)
  | raised (e : ε) {later : List (AdapterEvent ε)} : hooked = true →
      AsksBeforeFetches hooked later →
      AsksBeforeFetches hooked (.beforeNextChunk (some e) :: later)

theorem AsksBeforeFetches.append {hooked : Bool} {events more : List (AdapterEvent ε)}
    (first : AsksBeforeFetches hooked events) (second : AsksBeforeFetches hooked more) :
    AsksBeforeFetches hooked (events ++ more) := by
  induction first with
  | nil => exact second
  | write piece _ ih => exact .write piece ih
  | asked answer given _ ih => exact .asked answer given ih
  | unasked answer none _ ih => exact .unasked answer none ih
  | raised e given _ ih => exact .raised e given ih

theorem undelivered_append : ∀ (chunks more : List Bytes) (count : Nat),
    chunks.flatten.length ≤ count →
      undelivered count (chunks ++ more) = undelivered (count - chunks.flatten.length) more := by
  intro chunks
  induction chunks with
  | nil => intro more count _; rfl
  | cons chunk rest ih =>
      intro more count enough
      rw [List.flatten_cons, List.length_append] at enough ⊢
      rw [List.cons_append, undelivered, if_pos (by omega), ih more _ (by omega), Nat.sub_sub]

/-! ## The invariant -/

/-- The adapter over some chunks after these events. -/
structure Adapts (chunks : List Bytes) (io : ChunkIteratorIO) (events : List (AdapterEvent ε)) :
    Prop where
  fetched : fetchedChunks events ++ io.chunks = chunks
  joined : delivered events ++ io.current.drop io.offset = (fetchedChunks events).flatten
  last : io.current.drop io.offset ≠ [] → ∃ earlier, fetchedChunks events = earlier ++ [io.current]
  atMostOne : ∀ moment, (held (events.take moment)).length ≤ 1

section Adapts

variable {chunks : List Bytes} {io later : ChunkIteratorIO} {events : List (AdapterEvent ε)}
  {event : AdapterEvent ε}

theorem Adapts.start (chunks : List Bytes) :
    Adapts chunks (.start chunks) ([] : List (AdapterEvent ε)) where
  fetched := rfl
  joined := rfl
  last some := absurd rfl some
  atMostOne moment := by simp [held, fetchedChunks, undelivered]

/-- The adapter holds the chunk in its field, as long as a byte of it is left. -/
theorem held_eq (joined : delivered events ++ io.current.drop io.offset =
      (fetchedChunks events).flatten)
    (last : io.current.drop io.offset ≠ [] →
      ∃ earlier, fetchedChunks events = earlier ++ [io.current]) :
    held events = if io.current.drop io.offset = [] then [] else [io.current] := by
  have counts := congrArg List.length joined
  rw [List.length_append] at counts
  unfold held
  split
  · next exhausted =>
      rw [exhausted, List.length_nil, Nat.add_zero] at counts
      rw [← List.append_nil (fetchedChunks events),
        undelivered_append _ _ _ (Nat.le_of_eq counts.symm)]
      rfl
  · next some =>
      obtain ⟨earlier, fetched⟩ := last some
      have left := List.length_pos_of_ne_nil some
      rw [List.length_drop] at counts left
      rw [fetched, List.flatten_append, List.length_append, List.flatten_singleton] at counts
      rw [fetched, undelivered_append _ _ _ (by omega), undelivered, if_neg (by omega)]
      rfl

theorem Adapts.snoc (adapts : Adapts chunks io events)
    (fetched : fetchedChunks (events ++ [event]) ++ later.chunks = chunks)
    (joined : delivered (events ++ [event]) ++ later.current.drop later.offset =
      (fetchedChunks (events ++ [event])).flatten)
    (last : later.current.drop later.offset ≠ [] →
      ∃ earlier, fetchedChunks (events ++ [event]) = earlier ++ [later.current]) :
    Adapts chunks later (events ++ [event]) where
  fetched := fetched
  joined := joined
  last := last
  atMostOne moment := by
    by_cases before : moment ≤ events.length
    · rw [List.take_append_of_le_length before]
      exact adapts.atMostOne moment
    · rw [List.take_of_length_le (by rw [List.length_append, List.length_singleton]; omega),
        held_eq joined last]
      split
      · exact Nat.zero_le 1
      · exact Nat.le_refl 1

/-- An event that fetches and writes nothing. -/
theorem Adapts.silent (adapts : Adapts chunks io events) (noChunk : event.chunk = none)
    (noBytes : event.bytes = []) : Adapts chunks io (events ++ [event]) := by
  have fetched : fetchedChunks (events ++ [event]) = fetchedChunks events := by
    rw [fetchedChunks_snoc, noChunk, Option.toList_none, List.append_nil]
  have written : delivered (events ++ [event]) = delivered events := by
    rw [delivered_snoc, noBytes, List.append_nil]
  refine adapts.snoc ?_ ?_ ?_
  · rw [fetched]
    exact adapts.fetched
  · rw [fetched, written]
    exact adapts.joined
  · rw [fetched]
    exact adapts.last

/-- A chunk comes when nothing is left of those before it. -/
theorem Adapts.next {chunk : Bytes} {rest : List Bytes} (adapts : Adapts chunks io events)
    (exhausted : io.current.drop io.offset = []) (some : io.chunks = chunk :: rest) :
    Adapts chunks (if chunk = [] then { io with chunks := rest } else ⟨rest, chunk, 0⟩)
      (events ++ [.next (.some chunk)]) := by
  have fetched : fetchedChunks (events ++ [.next (.some chunk)]) =
      fetchedChunks events ++ [chunk] := fetchedChunks_snoc _ _
  have written : delivered (events ++ [.next (.some chunk)]) = delivered events := by
    rw [delivered_snoc, AdapterEvent.bytes, List.append_nil]
  have whole := adapts.joined
  rw [exhausted, List.append_nil] at whole
  refine adapts.snoc ?_ ?_ ?_
  · have all := adapts.fetched
    rw [some] at all
    rw [fetched, List.append_assoc]
    split
    · exact all
    · exact all
  · rw [fetched, written, List.flatten_append, List.flatten_singleton, whole]
    split
    · next empty => rw [exhausted, empty]
    · rfl
  · rw [fetched]
    split
    · exact fun left => absurd exhausted left
    · exact fun _ => ⟨_, rfl⟩

/-- What is written is what comes next in the chunk. -/
theorem Adapts.write (adapts : Adapts chunks io events) (available : Nat) :
    Adapts chunks { io with offset := io.offset + available }
      (events ++ [.write ((io.current.drop io.offset).take available)]) := by
  have fetched : fetchedChunks (events ++ [.write ((io.current.drop io.offset).take available)]) =
      fetchedChunks events := by
    rw [fetchedChunks_snoc, AdapterEvent.chunk, Option.toList_none, List.append_nil]
  refine adapts.snoc ?_ ?_ ?_
  · rw [fetched]
    exact adapts.fetched
  · rw [fetched, delivered_snoc, AdapterEvent.bytes, List.append_assoc, ← List.drop_drop,
      List.take_append_drop]
    exact adapts.joined
  · rw [fetched, ← List.drop_drop]
    intro left
    refine adapts.last fun none => left ?_
    rw [none, List.drop_nil]

/-- Every chunk has been fetched, and every byte of them written. -/
structure Exhausted (chunks : List Bytes) (events : List (AdapterEvent ε)) : Prop where
  fetched : fetchedChunks events = chunks
  written : delivered events = chunks.flatten

theorem Adapts.exhausted (adapts : Adapts chunks io events) (none : io.chunks = [])
    (nothing : io.current.drop io.offset = []) : Exhausted chunks events := by
  have fetched := adapts.fetched
  have joined := adapts.joined
  rw [none, List.append_nil] at fetched
  rw [nothing, List.append_nil] at joined
  exact ⟨fetched, fetched ▸ joined⟩

end Adapts

/-! ## One call -/

/-- The invariant of the loop, after the events of earlier calls. -/
structure Filling.Sound (hook : BeforeNextChunk ε) (chunks : List Bytes)
    (before : List (AdapterEvent ε)) (size : Nat) (filling : Filling ε) : Prop where
  adapts : Adapts chunks filling.io (before ++ filling.events)
  counted : filling.written = (delivered filling.events).length
  fits : filling.written ≤ size
  asks : AsksBeforeFetches hook.isSome filling.events

/-- What a turn leads to. -/
def Turn.Sound (hook : BeforeNextChunk ε) (chunks : List Bytes) (before : List (AdapterEvent ε))
    (size : Nat) : Turn ε → Prop
  | .goesOn later => later.Sound hook chunks before size
  | .returns ended =>
      ended.Sound hook chunks before size ∧ Exhausted chunks (before ++ ended.events)
  | .raises e failed =>
      failed.Sound hook chunks before size ∧ .beforeNextChunk (some e) ∈ failed.events

section Call

variable {hook : BeforeNextChunk ε} {chunks : List Bytes} {before : List (AdapterEvent ε)}
  {size : Nat} {filling asked : Filling ε}

theorem Filling.Sound.copy (sound : filling.Sound hook chunks before size) :
    (filling.copy size).Sound hook chunks before size where
  adapts := by
    have written := sound.adapts.write
      (min (size - filling.written) (filling.io.current.length - filling.io.offset))
    rw [List.append_assoc] at written
    exact written
  counted := by
    have counted := sound.counted
    simp only [Filling.copy, delivered_snoc, AdapterEvent.bytes, List.length_append,
      List.length_take, List.length_drop]
    omega
  fits := by
    have fits := sound.fits
    simp only [Filling.copy]
    omega
  asks := sound.asks.append (.write _ .nil)

/-- A run of the hook that raises nothing, and the attempt to fetch after it. -/
theorem Filling.Sound.fetch (sound : filling.Sound hook chunks before size)
    (ran : filling.beforeNextChunk hook = (none, asked)) {answer : Option Bytes}
    {io : ChunkIteratorIO}
    (fetches : Adapts chunks filling.io (before ++ asked.events) →
      Adapts chunks io (before ++ asked.events ++ [.next answer])) :
    (asked.fetch answer io).Sound hook chunks before size := by
  rcases beforeNextChunk_cases ran with ⟨without, _, rfl⟩ | ⟨given, rfl⟩
  · refine ⟨?_, ?_, sound.fits, sound.asks.append (.unasked answer without .nil)⟩
    · rw [Filling.fetch, ← List.append_assoc]
      exact fetches sound.adapts
    · rw [Filling.fetch, delivered_snoc, AdapterEvent.bytes, List.append_nil]
      exact sound.counted
  · refine ⟨?_, ?_, sound.fits, ?_⟩
    · have asked := sound.adapts.silent (.refl (AdapterEvent.chunk (.beforeNextChunk none))) rfl
      rw [List.append_assoc] at asked
      rw [Filling.fetch, ← List.append_assoc]
      exact fetches asked
    · simp only [Filling.fetch, delivered_snoc, AdapterEvent.bytes, List.append_nil]
      exact sound.counted
    · rw [Filling.fetch, List.append_assoc]
      exact sound.asks.append (.asked answer given .nil)

/-- A run of the hook that raises. -/
theorem Filling.Sound.refused {e : ε} (sound : filling.Sound hook chunks before size)
    (ran : filling.beforeNextChunk hook = (some e, asked)) :
    asked.Sound hook chunks before size ∧ .beforeNextChunk (some e) ∈ asked.events := by
  rcases beforeNextChunk_cases ran with ⟨_, raises, _⟩ | ⟨given, rfl⟩
  · cases raises
  · refine ⟨⟨?_, ?_, sound.fits, sound.asks.append (.raised e given .nil)⟩, by simp⟩
    · rw [← List.append_assoc]
      exact sound.adapts.silent rfl rfl
    · rw [delivered_snoc, AdapterEvent.bytes, List.append_nil]
      exact sound.counted

theorem Filling.Sound.turn (sound : filling.Sound hook chunks before size) :
    (filling.turn hook size).Sound hook chunks before size := by
  have turns := filling.turn_turns hook size
  generalize filling.turn hook size = turn at turns
  cases turns with
  | refused e asked ran => exact sound.refused ran
  | stops asked exhausted ran noChunks =>
      have stopped := sound.fetch ran fun adapts => adapts.silent rfl rfl
      exact ⟨stopped, stopped.adapts.exhausted noChunks (List.drop_eq_nil_of_le exhausted)⟩
  | empty asked rest exhausted ran some =>
      exact sound.fetch ran fun adapts => adapts.next (List.drop_eq_nil_of_le exhausted) some
  | filled asked chunk rest exhausted ran some filled =>
      refine (sound.fetch ran fun adapts => ?_).copy
      have fetched := adapts.next (List.drop_eq_nil_of_le exhausted) some
      rw [if_neg filled] at fetched
      exact fetched
  | copies inside => exact sound.copy

theorem Filling.Sound.loop (sound : filling.Sound hook chunks before size) :
    (filling.loop hook size).2.Sound hook chunks before size ∧
      (∀ n, (filling.loop hook size).1 = .ok n → n = (filling.loop hook size).2.written ∧
        (n = size ∨ Exhausted chunks (before ++ (filling.loop hook size).2.events))) ∧
      ∀ e, (filling.loop hook size).1 = .error e →
        .beforeNextChunk (some e) ∈ (filling.loop hook size).2.events := by
  fun_induction Filling.loop hook size filling with
  | case1 filling room later turned ih =>
      have goesOn := sound.turn
      rw [turned] at goesOn
      exact ih goesOn
  | case2 filling room ended turned =>
      have returns := sound.turn
      rw [turned] at returns
      refine ⟨returns.1, ?_, fun e raised => by cases raised⟩
      intro n returned
      cases returned
      exact ⟨rfl, Or.inr returns.2⟩
  | case3 filling room e failed turned =>
      have raises := sound.turn
      rw [turned] at raises
      refine ⟨raises.1, fun n returned => (by cases returned), ?_⟩
      intro e raised
      cases raised
      exact raises.2
  | case4 filling full =>
      refine ⟨sound, ?_, fun e raised => by cases raised⟩
      intro n returned
      cases returned
      exact ⟨rfl, Or.inl (Nat.le_antisymm sound.fits (Nat.le_of_not_lt full))⟩

end Call

/-! ## Any calls -/

/-- What one call does, after the events of the calls before it. -/
structure ReadCall.Fills (chunks : List Bytes) (before : List (AdapterEvent ε))
    (call : ReadCall ε) : Prop where
  fits : (delivered call.events).length ≤ call.size
  returned : ∀ n, call.outcome = .ok n → n = (delivered call.events).length
  full : ∀ n, call.outcome = .ok n → n = call.size ∨ Exhausted chunks (before ++ call.events)
  raised : ∀ e, call.outcome = .error e → .beforeNextChunk (some e) ∈ call.events

/-- The calls as a stream of the bytes of some chunks. -/
structure FaithfulByteStream (chunks : List Bytes) (hooked : Bool) (calls : List (ReadCall ε)) :
    Prop where
  delivers : delivered (calls.flatMap ReadCall.events) <+: chunks.flatten
  fills : ∀ earlier call later, calls = earlier ++ call :: later →
    call.Fills chunks (earlier.flatMap ReadCall.events)
  ends : ∀ earlier call later, calls = earlier ++ call :: later → call.outcome = .ok 0 →
    0 < call.size → Exhausted chunks ((earlier ++ [call]).flatMap ReadCall.events)
  asks : AsksBeforeFetches hooked (calls.flatMap ReadCall.events)
  holds : ∀ moment, (held ((calls.flatMap ReadCall.events).take moment)).length ≤ 1

section Calls

variable {chunks : List Bytes}

/-- The calls from one after these events on. -/
structure Session (hook : BeforeNextChunk ε) (chunks : List Bytes)
    (before : List (AdapterEvent ε)) (calls : List (ReadCall ε)) : Prop where
  adapts : ∃ io, Adapts chunks io (before ++ calls.flatMap ReadCall.events)
  fills : ∀ earlier call later, calls = earlier ++ call :: later →
    call.Fills chunks (before ++ earlier.flatMap ReadCall.events)
  asks : AsksBeforeFetches hook.isSome (calls.flatMap ReadCall.events)

theorem reads_session (hook : BeforeNextChunk ε) : ∀ (sizes : List Nat) (hookRuns : Nat)
    (io : ChunkIteratorIO) (before : List (AdapterEvent ε)), Adapts chunks io before →
      Session hook chunks before (io.reads hook sizes hookRuns) := by
  intro sizes
  induction sizes with
  | nil =>
      intro hookRuns io before adapts
      refine ⟨⟨io, ?_⟩, ?_, .nil⟩
      · rw [ ChunkIteratorIO.reads, List.flatMap_nil, List.append_nil]
        exact adapts
      · intro earlier call later calls
        simp [ ChunkIteratorIO.reads] at calls
  | cons size sizes ih =>
      intro hookRuns io before adapts
      have start : Filling.Sound hook chunks before size ⟨io, hookRuns, 0, []⟩ :=
        ⟨(List.append_nil before).symm ▸ adapts, rfl, Nat.zero_le size, .nil⟩
      obtain ⟨sound, returned, raised⟩ := start.loop
      rw [ ChunkIteratorIO.reads]
      generalize Filling.loop hook size ⟨io, hookRuns, 0, []⟩ = call at sound returned raised ⊢
      obtain ⟨later, fills, asks⟩ := ih call.2.hookRuns call.2.io _ sound.adapts
      refine ⟨?_, ?_, ?_⟩
      · obtain ⟨last, adapts⟩ := later
        refine ⟨last, ?_⟩
        rw [List.flatMap_cons, ← List.append_assoc]
        exact adapts
      · intro earlier other rest calls
        cases earlier with
        | nil =>
            cases calls
            rw [List.flatMap_nil, List.append_nil]
            exact ⟨sound.counted ▸ sound.fits, fun n ok => sound.counted ▸ (returned n ok).1,
              fun n ok => (returned n ok).2, raised⟩
        | cons first earlier =>
            obtain ⟨rfl, others⟩ := List.cons.inj calls
            rw [List.flatMap_cons, ← List.append_assoc]
            exact fills earlier other rest others
      · rw [List.flatMap_cons]
        exact sound.asks.append asks

/-- The calls of `readinto`, with any buffers and whatever the hook does, are a byte stream. -/
theorem readinto_faithful (chunks : List Bytes) (hook : BeforeNextChunk ε) (sizes : List Nat) :
    FaithfulByteStream chunks hook.isSome
      (( ChunkIteratorIO.start chunks).reads hook sizes 0) := by
  obtain ⟨⟨io, adapts⟩, fills, asks⟩ := reads_session hook sizes 0 _ [] (.start chunks)
  rw [List.nil_append] at adapts
  have fills : ∀ earlier call later,
      ( ChunkIteratorIO.start chunks).reads hook sizes 0 = earlier ++ call :: later →
        call.Fills chunks (earlier.flatMap ReadCall.events) := fills
  refine ⟨?_, fills, ?_, asks, adapts.atMostOne⟩
  · have whole := congrArg List.flatten adapts.fetched
    rw [List.flatten_append, ← adapts.joined, List.append_assoc] at whole
    exact ⟨_, whole⟩
  · intro earlier call later calls nothing room
    rw [List.flatMap_append, List.flatMap_singleton]
    rcases (fills earlier call later calls).full 0 nothing with full | exhausted
    · exact absurd full (Nat.ne_of_lt room)
    · exact exhausted

end Calls

/-! ## Without a hook that raises -/

/-- The attempts to fetch a chunk. -/
def AdapterEvent.isFetch : AdapterEvent ε → Bool
  | .beforeNextChunk _ => false
  | .next _ => true
  | .write _ => false

def fetchCount (events : List (AdapterEvent ε)) : Nat := events.countP AdapterEvent.isFetch

/-- What the merged loop makes of the rest of a call. -/
def Filling.rest (size : Nat) (filling : Filling ε) : ReadResult :=
  readintoLoop filling.io.chunks filling.io.current filling.io.offset (size - filling.written)

/-- The merged loop starts with a copy. -/
theorem readintoLoop_copy (chunks : List Bytes) (current : Bytes) (offset needed : Nat) :
    readintoLoop chunks current offset needed =
      let available := min needed (current.length - offset)
      let later := readintoLoop chunks current (offset + available) (needed - available)
      ⟨(current.drop offset).take available ++ later.written, later.io, later.fetches⟩ := by
  dsimp only
  have nothing : min (needed - min needed (current.length - offset))
      (current.length - (offset + min needed (current.length - offset))) = 0 := by omega
  cases chunks with
  | nil =>
      simp only [readintoLoop, nothing, Nat.sub_zero, Nat.add_zero, List.take_zero]
      split
      · rw [List.append_nil]
      · rw [List.append_nil]
  | cons chunk rest =>
      simp only [readintoLoop, nothing, Nat.sub_zero, Nat.add_zero, List.take_zero]
      split
      · rw [List.append_nil]
      · rw [List.nil_append]

/-- Where the current chunk is used up, the merged loop fetches the next one. -/
theorem readintoLoop_fetch {current : Bytes} {offset needed : Nat} (chunk : Bytes)
    (rest : List Bytes) (exhausted : current.length ≤ offset) (room : 0 < needed) :
    readintoLoop (chunk :: rest) current offset needed =
      let later := if chunk = [] then readintoLoop rest current offset needed
        else readintoLoop rest chunk 0 needed
      ⟨later.written, later.io, later.fetches + 1⟩ := by
  have nothing : min needed (current.length - offset) = 0 := by omega
  rw [readintoLoop]
  dsimp only
  rw [nothing, Nat.sub_zero, Nat.add_zero, if_neg (by omega), List.take_zero, List.nil_append]

theorem readintoLoop_stop {current : Bytes} {offset needed : Nat}
    (exhausted : current.length ≤ offset) (room : 0 < needed) :
    readintoLoop [] current offset needed = ⟨[], ⟨[], current, offset⟩, 1⟩ := by
  have nothing : min needed (current.length - offset) = 0 := by omega
  rw [readintoLoop]
  rw [nothing, Nat.sub_zero, Nat.add_zero, if_neg (by omega), List.take_zero]

/-- What a call does from one point of it to a later one. -/
structure Filling.Does (filling later : Filling ε) (piece : Bytes) (fetches : Nat) : Prop where
  counted : later.written = filling.written + piece.length
  written : delivered later.events = delivered filling.events ++ piece
  fetched : fetchCount later.events = fetchCount filling.events + fetches

section Unhindered

variable {hook : BeforeNextChunk ε} {size : Nat} {filling asked later last : Filling ε}
  {piece more : Bytes} {fetches others : Nat}

theorem Filling.Does.trans (first : filling.Does later piece fetches)
    (second : later.Does last more others) :
    filling.Does last (piece ++ more) (fetches + others) where
  counted := by rw [second.counted, first.counted, List.length_append, Nat.add_assoc]
  written := by rw [second.written, first.written, List.append_assoc]
  fetched := by rw [second.fetched, first.fetched, Nat.add_assoc]

theorem Filling.does_copy (size : Nat) (filling : Filling ε) :
    filling.Does (filling.copy size) ((filling.io.current.drop filling.io.offset).take
      (min (size - filling.written) (filling.io.current.length - filling.io.offset))) 0 where
  counted := by
    simp only [Filling.copy, List.length_take, List.length_drop]
    omega
  written := delivered_snoc _ _
  fetched := by simp [Filling.copy, fetchCount, AdapterEvent.isFetch]

theorem Filling.rest_copy (size : Nat) (filling : Filling ε) :
    filling.rest size =
      ⟨(filling.io.current.drop filling.io.offset).take
          (min (size - filling.written) (filling.io.current.length - filling.io.offset)) ++
            ((filling.copy size).rest size).written,
        ((filling.copy size).rest size).io, ((filling.copy size).rest size).fetches⟩ := by
  rw [Filling.rest, readintoLoop_copy]
  simp only [Filling.rest, Filling.copy, Nat.sub_sub]

/-- A run of the hook that raises nothing, and the attempt to fetch after it. -/
theorem Filling.does_fetch (ran : filling.beforeNextChunk hook = (none, asked))
    (answer : Option Bytes) (io : ChunkIteratorIO) :
    filling.Does (asked.fetch answer io) [] 1 := by
  rcases beforeNextChunk_cases ran with ⟨_, _, rfl⟩ | ⟨_, rfl⟩
  · refine ⟨rfl, delivered_snoc _ _, ?_⟩
    simp [Filling.fetch, fetchCount, AdapterEvent.isFetch]
  · refine ⟨rfl, ?_, ?_⟩
    · simp only [Filling.fetch, delivered_snoc, AdapterEvent.bytes, List.append_nil]
    · simp [Filling.fetch, fetchCount, AdapterEvent.isFetch]

/-- A turn does the first of what the merged loop does. -/
def Turn.Follows (size : Nat) (filling : Filling ε) : Turn ε → Prop
  | .goesOn later => ∃ piece fetches, filling.Does later piece fetches ∧
      filling.rest size = ⟨piece ++ (later.rest size).written, (later.rest size).io,
        fetches + (later.rest size).fetches⟩
  | .returns ended => filling.Does ended [] 1 ∧ filling.rest size = ⟨[], ended.io, 1⟩
  | .raises _ _ => False

theorem Filling.turn_follows (quiet : ∀ raises, hook = some raises → ∀ n, raises n = none)
    (room : filling.written < size) : (filling.turn hook size).Follows size filling := by
  have left : 0 < size - filling.written := Nat.sub_pos_of_lt room
  have turns := filling.turn_turns hook size
  generalize filling.turn hook size = turn at turns
  cases turns with
  | refused e asked ran =>
      cases hook with
      | none => cases ran
      | some raises =>
          have raised := congrArg Prod.fst ran
          cases (quiet raises rfl filling.hookRuns).symm.trans raised
  | stops asked exhausted ran noChunks =>
      refine ⟨does_fetch ran none _, ?_⟩
      rw [Filling.rest, noChunks, readintoLoop_stop exhausted left, ← noChunks]
      rfl
  | empty asked rest exhausted ran some =>
      refine ⟨[], 1, does_fetch ran (.some []) _, ?_⟩
      rw [Filling.rest, some, readintoLoop_fetch _ _ exhausted left, if_pos rfl, Nat.add_comm,
        ← (beforeNextChunk_frame ran).2]
      rfl
  | filled asked chunk rest exhausted ran some filled =>
      have fetches := does_fetch ran (.some chunk) ⟨rest, chunk, 0⟩
      refine ⟨_, _, fetches.trans (does_copy size _), ?_⟩
      have copied := rest_copy size (asked.fetch (.some chunk) ⟨rest, chunk, 0⟩)
      rw [Filling.rest] at copied
      rw [Filling.rest, some, readintoLoop_fetch _ _ exhausted left, if_neg filled,
        ← (beforeNextChunk_frame ran).2]
      dsimp only [Filling.fetch] at copied ⊢
      rw [copied, Nat.add_zero, Nat.add_comm, List.nil_append]
  | copies inside =>
      refine ⟨_, _, does_copy size filling, ?_⟩
      rw [Nat.zero_add]
      exact rest_copy size filling

theorem Filling.loop_follows (quiet : ∀ raises, hook = some raises → ∀ n, raises n = none)
    (size : Nat) (filling : Filling ε) :
    (filling.loop hook size).1 = .ok (filling.loop hook size).2.written ∧
      filling.Does (filling.loop hook size).2 (filling.rest size).written
        (filling.rest size).fetches ∧
      (filling.loop hook size).2.io = (filling.rest size).io := by
  fun_induction Filling.loop hook size filling with
  | case1 filling room later turned ih =>
      have follows := turn_follows quiet room
      rw [turned] at follows
      obtain ⟨piece, fetches, does, rest⟩ := follows
      obtain ⟨returned, others, io⟩ := ih
      rw [rest]
      exact ⟨returned, does.trans others, io⟩
  | case2 filling room ended turned =>
      have follows := turn_follows quiet room
      rw [turned] at follows
      obtain ⟨does, rest⟩ := follows
      rw [rest]
      exact ⟨rfl, does, rfl⟩
  | case3 filling room e failed turned =>
      have follows := turn_follows quiet room
      rw [turned] at follows
      exact follows.elim
  | case4 filling full =>
      have needed : size - filling.written = 0 := by omega
      have rest : filling.rest size = ⟨[], filling.io, 0⟩ := by
        rw [Filling.rest, needed]
        cases chunks : filling.io.chunks with
        | nil => simp [readintoLoop, ← chunks]
        | cons chunk rest => simp [readintoLoop, ← chunks]
      rw [rest]
      exact ⟨rfl, ⟨rfl, (List.append_nil _).symm, rfl⟩, rfl⟩

/-- A call that the hook does not stop is the merged `readinto`. -/
theorem loop_readinto (quiet : ∀ raises, hook = some raises → ∀ n, raises n = none)
    (io : ChunkIteratorIO) (size hookRuns : Nat) :
    (Filling.loop hook size ⟨io, hookRuns, 0, []⟩).1 = .ok (io.readinto size).written.length ∧
      (Filling.loop hook size ⟨io, hookRuns, 0, []⟩).2.io = (io.readinto size).io ∧
      delivered (Filling.loop hook size ⟨io, hookRuns, 0, []⟩).2.events =
        (io.readinto size).written ∧
      fetchCount (Filling.loop hook size ⟨io, hookRuns, 0, []⟩).2.events =
        (io.readinto size).fetches := by
  obtain ⟨returned, does, left⟩ :=
    Filling.loop_follows quiet size ⟨io, hookRuns, 0, []⟩
  have counted := does.counted
  have fetched := does.fetched
  rw [Nat.zero_add] at counted
  refine ⟨returned.trans (congrArg _ counted), left, does.written, fetched.trans ?_⟩
  exact Nat.zero_add _

end Unhindered

end StockImport.Csv
