import Mathlib.Data.List.Nodup
import Mathlib.Data.List.Dedup
import Mathlib.Data.List.MinMax

/-!
# Tables with a unique key

Rows in insertion order, no two with one key.  The statements are those of SQL:
an `INSERT` of several rows fails as a whole on a conflict, `INSERT … ON CONFLICT
DO UPDATE` goes row by row and must not meet a row it has written itself, and the
two selections by partition, `DISTINCT ON` and `row_number()`.
-/

set_option autoImplicit false

namespace Tables

structure Table (Row : Type) {Key : Type} (key : Row → Key) where
  rows : List Row
  unique : (rows.map key).Nodup

section Statements

variable {Row Key : Type} {key : Row → Key}

def Table.empty : Table Row key := ⟨[], List.nodup_nil⟩

def Table.deleteWhere (table : Table Row key) (selected : Row → Bool) : Table Row key where
  rows := table.rows.filter fun row => !selected row
  unique := table.unique.sublist ((List.filter_sublist).map key)

/-- `UPDATE … SET … WHERE …`, the key left as it is. -/
def Table.updateWhere (table : Table Row key) (selected : Row → Bool) (set : Row → Row)
    (keeps : ∀ row, key (set row) = key row) : Table Row key where
  rows := table.rows.map fun row => if selected row then set row else row
  unique := by
    have keys : (table.rows.map fun row => if selected row then set row else row).map key =
        table.rows.map key := by
      rw [List.map_map]
      apply List.map_congr_left
      intro row _
      simp only [Function.comp_apply]
      split
      · exact keeps row
      · rfl
    rw [keys]
    exact table.unique

variable [DecidableEq Key]

def Table.find (table : Table Row key) (k : Key) : Option Row :=
  table.rows.find? fun row => key row = k

/-- `INSERT` of several rows; nothing on a conflict. -/
def Table.insertAll (table : Table Row key) (batch : List Row) : Option (Table Row key) :=
  if distinct : ((table.rows ++ batch).map key).Nodup then some ⟨table.rows ++ batch, distinct⟩
  else none

theorem find?_key_eq_some {rows : List Row} (unique : (rows.map key).Nodup) {k : Key} {row : Row} :
    (rows.find? fun row => key row = k) = some row ↔ row ∈ rows ∧ key row = k := by
  constructor
  · intro found
    exact ⟨List.mem_of_find?_eq_some found, by simpa using List.find?_some found⟩
  · rintro ⟨member, same⟩
    induction rows with
    | nil => cases member
    | cons first rest ih =>
        simp only [List.map_cons, List.nodup_cons] at unique
        rcases List.mem_cons.mp member with rfl | later
        · simp [same]
        · have different : key first ≠ k := by
            intro equal
            exact unique.1 (List.mem_map.mpr ⟨row, later, same.trans equal.symm⟩)
          simp only [List.find?_cons, different, decide_false]
          exact ih unique.2 later

theorem Table.find_eq_some (table : Table Row key) {k : Key} {row : Row} :
    table.find k = some row ↔ row ∈ table.rows ∧ key row = k :=
  find?_key_eq_some table.unique

theorem Table.find_eq_none (table : Table Row key) {k : Key} :
    table.find k = none ↔ ∀ row ∈ table.rows, key row ≠ k := by
  simp [Table.find, List.find?_eq_none]

theorem Table.insertAll_rows {table table' : Table Row key} {batch : List Row}
    (inserted : table.insertAll batch = some table') : table'.rows = table.rows ++ batch := by
  unfold Table.insertAll at inserted
  split at inserted
  · cases inserted
    rfl
  · cases inserted

theorem Table.insertAll_some {table : Table Row key} {batch : List Row}
    (distinct : (batch.map key).Nodup)
    (fresh : ∀ row ∈ table.rows, ∀ new ∈ batch, key row ≠ key new) :
    ∃ table', table.insertAll batch = some table' := by
  have all : ((table.rows ++ batch).map key).Nodup := by
    rw [List.map_append, List.nodup_append]
    refine ⟨table.unique, distinct, ?_⟩
    intro k inTable k' inBatch
    obtain ⟨row, member, rfl⟩ := List.mem_map.mp inTable
    obtain ⟨new, newMember, rfl⟩ := List.mem_map.mp inBatch
    exact fresh row member new newMember
  exact ⟨⟨table.rows ++ batch, all⟩, by simp only [Table.insertAll, dif_pos all]⟩

theorem Table.find_updateWhere (table : Table Row key) (selected : Row → Bool) (set : Row → Row)
    (keeps : ∀ row, key (set row) = key row) (k : Key) :
    (table.updateWhere selected set keeps).find k =
      (table.find k).map fun row => if selected row then set row else row := by
  unfold Table.find Table.updateWhere
  simp only [List.find?_map]
  congr 1
  congr 1
  funext row
  simp only [Function.comp_apply]
  split
  · rw [keeps]
  · rfl

/-! ## ON CONFLICT DO UPDATE -/

/-- The source rows in turn.  `update old new` is the row after `DO UPDATE … WHERE`,
nothing where the condition is false; a key in `touched` has been written by this
statement and must not come again. -/
def upsertRows (key : Row → Key) (update : Row → Row → Option Row) :
    (touched : List Key) → (source rows : List Row) → Option (List Row)
  | _, [], rows => some rows
  | touched, new :: rest, rows =>
      if key new ∈ touched then none
      else
        match rows.find? fun row => key row = key new with
        | none => upsertRows key update (key new :: touched) rest (rows ++ [new])
        | some old =>
            match update old new with
            | none => upsertRows key update touched rest rows
            | some row =>
                upsertRows key update (key new :: touched) rest
                  (rows.map fun other => if key other = key new then row else other)

/-- The update keeps what `g` says of a row. -/
def Keeps {β : Type} (update : Row → Row → Option Row) (g : Row → β) : Prop :=
  ∀ old new row, update old new = some row → g row = g old

theorem map_replace {β : Type} {update : Row → Row → Option Row} {g : Row → β}
    (keeps : Keeps update g) {rows : List Row} (unique : (rows.map key).Nodup) {old new row : Row}
    (found : (rows.find? fun row => key row = key new) = some old)
    (updated : update old new = some row) :
    (rows.map fun other => if key other = key new then row else other).map g = rows.map g := by
  rw [List.map_map]
  apply List.map_congr_left
  intro other member
  simp only [Function.comp_apply]
  split
  · next same =>
      have again := (find?_key_eq_some unique).mpr ⟨member, same⟩
      rw [found] at again
      cases again
      exact keeps _ _ _ updated
  · rfl

/-- A replaced row is found under its key, and any other row as before. -/
theorem find?_replace {update : Row → Row → Option Row} (keyKept : Keeps update key)
    {rows : List Row} (unique : (rows.map key).Nodup) {old new row : Row}
    (found : (rows.find? fun row => key row = key new) = some old)
    (updated : update old new = some row) (k : Key) :
    ((rows.map fun other => if key other = key new then row else other).find? fun row =>
        key row = k) = if key new = k then some row else rows.find? fun row => key row = k := by
  have oldKey : key old = key new := by simpa using List.find?_some found
  have keys := map_replace keyKept unique found updated
  have rowKey : key row = key new := (keyKept _ _ _ updated).trans oldKey
  by_cases same : key new = k
  · subst same
    rw [if_pos rfl, find?_key_eq_some (keys ▸ unique)]
    refine ⟨List.mem_map.mpr ⟨old, List.mem_of_find?_eq_some found, ?_⟩, rowKey⟩
    rw [if_pos oldKey]
  · rw [if_neg same]
    rw [List.find?_map]
    have other : ((fun row => decide (key row = k)) ∘ fun other =>
        if key other = key new then row else other) = fun row => decide (key row = k) := by
      funext other
      simp only [Function.comp_apply]
      split
      · next equal => rw [rowKey, equal]
      · rfl
    rw [other]
    cases hit : rows.find? fun row => key row = k with
    | none => rfl
    | some found =>
        have foundKey : key found = k := by simpa using List.find?_some hit
        rw [Option.map_some, if_neg (by rw [foundKey]; exact Ne.symm same)]

theorem unique_append {rows : List Row} (unique : (rows.map key).Nodup) {new : Row}
    (absent : (rows.find? fun row => key row = key new) = none) :
    ((rows ++ [new]).map key).Nodup := by
  rw [List.map_append, List.nodup_append]
  refine ⟨unique, by simp, ?_⟩
  rintro k member k' inNew rfl
  simp only [List.map_cons, List.map_nil, List.mem_singleton] at inNew
  obtain ⟨row, inRows, same⟩ := List.mem_map.mp member
  rw [List.find?_eq_none] at absent
  exact absent row inRows (by simp [same, inNew])

/-- A column that the update keeps: the old rows, then those of the source that
were inserted. -/
theorem upsertRows_column {update : Row → Row → Option Row} (keyKept : Keeps update key) :
    ∀ (source : List Row) (touched : List Key) (rows result : List Row), (rows.map key).Nodup →
      upsertRows key update touched source rows = some result →
        (result.map key).Nodup ∧ ∃ inserted : List Row, inserted.Sublist source ∧
          ∀ {β : Type} (g : Row → β), Keeps update g →
            result.map g = rows.map g ++ inserted.map g := by
  intro source
  induction source with
  | nil =>
      intro touched rows result unique done
      cases done
      exact ⟨unique, [], List.Sublist.refl _, fun g _ => by simp⟩
  | cons new rest ih =>
      intro touched rows result unique done
      simp only [upsertRows] at done
      split at done
      · cases done
      · cases found : rows.find? fun row => key row = key new with
        | none =>
            simp only [found] at done
            obtain ⟨nodup, inserted, sub, columns⟩ := ih _ _ _ (unique_append unique found) done
            refine ⟨nodup, new :: inserted, sub.cons_cons new, ?_⟩
            intro β g kept
            rw [columns g kept]
            simp
        | some old =>
            simp only [found] at done
            cases updated : update old new with
            | none =>
                simp only [updated] at done
                obtain ⟨nodup, inserted, sub, columns⟩ := ih _ _ _ unique done
                exact ⟨nodup, inserted, sub.cons new, columns⟩
            | some row =>
                simp only [updated] at done
                have keys := map_replace keyKept unique found updated
                obtain ⟨nodup, inserted, sub, columns⟩ := ih _ _ _ (keys ▸ unique) done
                refine ⟨nodup, inserted, sub.cons new, ?_⟩
                intro β g kept
                rw [columns g kept, map_replace kept unique found updated]

/-- The row of a key after the statement. -/
def upserted (update : Row → Row → Option Row) (old new : Option Row) : Option Row :=
  match new, old with
  | none, old => old
  | some new, none => some new
  | some new, some old => some ((update old new).getD old)

theorem upsertRows_find {update : Row → Row → Option Row} (keyKept : Keeps update key) :
    ∀ (source : List Row) (touched : List Key) (rows result : List Row), (rows.map key).Nodup →
      (source.map key).Nodup → upsertRows key update touched source rows = some result →
        ∀ k, (result.find? fun row => key row = k) =
          upserted update (rows.find? fun row => key row = k)
            (source.find? fun row => key row = k) := by
  intro source
  induction source with
  | nil =>
      intro touched rows result _ _ done k
      cases done
      simp [upserted]
  | cons new rest ih =>
      intro touched rows result unique distinct done k
      simp only [List.map_cons, List.nodup_cons] at distinct
      have once : ∀ k, key new = k → (rest.find? fun row => key row = k) = none := by
        intro k same
        rw [List.find?_eq_none]
        intro row member
        simp only [decide_eq_true_eq]
        intro equal
        exact distinct.1 (List.mem_map.mpr ⟨row, member, equal.trans same.symm⟩)
      simp only [upsertRows] at done
      split at done
      · cases done
      · cases found : rows.find? fun row => key row = key new with
        | none =>
            simp only [found] at done
            rw [ih _ _ _ (unique_append unique found) distinct.2 done k]
            by_cases same : key new = k
            · subst same
              simp [List.find?_append, found, once _ rfl, upserted]
            · simp [List.find?_append, same]
        | some old =>
            simp only [found] at done
            cases updated : update old new with
            | none =>
                simp only [updated] at done
                rw [ih _ _ _ unique distinct.2 done k]
                by_cases same : key new = k
                · subst same
                  simp [found, once _ rfl, upserted, updated]
                · simp [same]
            | some row =>
                simp only [updated] at done
                have keys := map_replace keyKept unique found updated
                rw [ih _ _ _ (keys ▸ unique) distinct.2 done k,
                  find?_replace keyKept unique found updated k]
                by_cases same : key new = k
                · subst same
                  simp [found, once _ rfl, upserted, updated]
                · simp [same]

/-- The keys of the rows that a statement writes. -/
structure Writes (Key : Type) where
  inserted : List Key
  updated : List Key

/-- The writes of `upsertRows`, in its order. -/
def upsertWrites (key : Row → Key) (update : Row → Row → Option Row) :
    (source rows : List Row) → Writes Key
  | [], _ => ⟨[], []⟩
  | new :: rest, rows =>
      match rows.find? fun row => key row = key new with
      | none =>
          let later := upsertWrites key update rest (rows ++ [new])
          ⟨key new :: later.inserted, later.updated⟩
      | some old =>
          match update old new with
          | none => upsertWrites key update rest rows
          | some row =>
              let later := upsertWrites key update rest
                (rows.map fun other => if key other = key new then row else other)
              ⟨later.inserted, key new :: later.updated⟩

/-- The writes with each source row compared with the row that its key has in `rows`. -/
def writesOf (key : Row → Key) (update : Row → Row → Option Row) (source rows : List Row) :
    Writes Key where
  inserted := (source.filter fun new => (rows.find? fun row => key row = key new).isNone).map key
  updated := (source.filter fun new => (rows.find? fun row => key row = key new).any fun old =>
    (update old new).isSome).map key

theorem writesOf_congr {update : Row → Row → Option Row} {source rows rows' : List Row}
    (same : ∀ new ∈ source, (rows'.find? fun row => key row = key new) =
      rows.find? fun row => key row = key new) :
    writesOf key update source rows' = writesOf key update source rows := by
  have inserted : (source.filter fun new => (rows'.find? fun row => key row = key new).isNone) =
      source.filter fun new => (rows.find? fun row => key row = key new).isNone :=
    List.filter_congr fun new member => by rw [same new member]
  have updated : (source.filter fun new => (rows'.find? fun row => key row = key new).any
        fun old => (update old new).isSome) =
      source.filter fun new => (rows.find? fun row => key row = key new).any fun old =>
        (update old new).isSome :=
    List.filter_congr fun new member => by rw [same new member]
  simp only [writesOf, inserted, updated]

/-- Without a repeated key each source row is compared with the row that its key had
before the statement. -/
theorem upsertWrites_eq {update : Row → Row → Option Row} (keyKept : Keeps update key) :
    ∀ (source rows : List Row), (rows.map key).Nodup → (source.map key).Nodup →
      upsertWrites key update source rows = writesOf key update source rows := by
  intro source
  induction source with
  | nil => intro rows _ _; rfl
  | cons new rest ih =>
      intro rows unique distinct
      simp only [List.map_cons, List.nodup_cons] at distinct
      have apart : ∀ other ∈ rest, key new ≠ key other :=
        fun other member same => distinct.1 (same ▸ List.mem_map_of_mem member)
      unfold upsertWrites
      cases found : rows.find? fun row => key row = key new with
      | none =>
          have unique' := unique_append unique found
          have kept : ∀ other ∈ rest, ((rows ++ [new]).find? fun row => key row = key other) =
              rows.find? fun row => key row = key other := by
            intro other member
            simp [List.find?_append, apart other member]
          dsimp only
          rw [ih _ unique' distinct.2, writesOf_congr kept]
          simp [writesOf, found]
      | some old =>
          dsimp only
          cases updated : update old new with
          | none =>
              dsimp only
              rw [ih rows unique distinct.2]
              simp [writesOf, found, updated]
          | some row =>
              have keys := map_replace keyKept unique found updated
              have kept : ∀ other ∈ rest, ((rows.map fun other =>
                  if key other = key new then row else other).find? fun row =>
                    key row = key other) = rows.find? fun row => key row = key other := by
                intro other member
                rw [find?_replace keyKept unique found updated, if_neg (apart other member)]
              dsimp only
              rw [ih _ (keys ▸ unique) distinct.2, writesOf_congr kept]
              simp [writesOf, found, updated]

/-- Without a repeated key the statement does not fail. -/
theorem upsertRows_some (update : Row → Row → Option Row) :
    ∀ (source : List Row) (touched : List Key) (rows : List Row), (source.map key).Nodup →
      (∀ new ∈ source, key new ∉ touched) →
        ∃ result, upsertRows key update touched source rows = some result := by
  intro source
  induction source with
  | nil => intro touched rows _ _; exact ⟨rows, rfl⟩
  | cons new rest ih =>
      intro touched rows distinct untouched
      simp only [List.map_cons, List.nodup_cons] at distinct
      have later : ∀ other ∈ rest, key other ∉ touched :=
        fun other member => untouched other (List.mem_cons_of_mem new member)
      have later' : ∀ other ∈ rest, key other ∉ key new :: touched := by
        intro other member inTouched
        rcases List.mem_cons.mp inTouched with same | before
        · exact distinct.1 (List.mem_map.mpr ⟨other, member, same⟩)
        · exact later other member before
      simp only [upsertRows, if_neg (untouched new (by simp))]
      split
      · exact ih _ _ distinct.2 later'
      · split
        · exact ih _ _ distinct.2 later
        · exact ih _ _ distinct.2 later'

/-- A statement that succeeds meets no key again that it has written. -/
theorem upsertRows_untouched {update : Row → Row → Option Row} :
    ∀ (source : List Row) (touched : List Key) (rows result : List Row),
      upsertRows key update touched source rows = some result →
        ∀ new ∈ source, key new ∉ touched := by
  intro source
  induction source with
  | nil => intro _ _ _ _ new member; cases member
  | cons first rest ih =>
      intro touched rows result done
      simp only [upsertRows] at done
      split at done
      · cases done
      · next free =>
          have later : ∀ new ∈ rest, key new ∉ touched := by
            cases found : rows.find? fun row => key row = key first with
            | none =>
                simp only [found] at done
                exact fun new member inTouched =>
                  ih _ _ _ done new member (List.mem_cons_of_mem _ inTouched)
            | some old =>
                simp only [found] at done
                cases updated : update old first with
                | none =>
                    simp only [updated] at done
                    exact ih _ _ _ done
                | some row =>
                    simp only [updated] at done
                    exact fun new member inTouched =>
                      ih _ _ _ done new member (List.mem_cons_of_mem _ inTouched)
          intro new member
          rcases List.mem_cons.mp member with rfl | after
          · exact free
          · exact later new after

/-- The row of a key after a statement that may meet a key more than once: the old
one, or what one of the source rows of that key makes of it. -/
theorem upsertRows_find_some {update : Row → Row → Option Row} (keyKept : Keeps update key) :
    ∀ (source : List Row) (touched : List Key) (rows result : List Row), (rows.map key).Nodup →
      upsertRows key update touched source rows = some result → ∀ k,
        ((∀ new ∈ source, key new ≠ k) ∧
          (result.find? fun row => key row = k) = rows.find? fun row => key row = k) ∨
        ∃ new ∈ source, key new = k ∧ (result.find? fun row => key row = k) =
          upserted update (rows.find? fun row => key row = k) (some new) := by
  intro source
  induction source with
  | nil =>
      intro touched rows result _ done k
      cases done
      exact Or.inl ⟨fun _ member => absurd member List.not_mem_nil, rfl⟩
  | cons first rest ih =>
      intro touched rows result unique done k
      simp only [upsertRows] at done
      split at done
      · cases done
      · cases found : rows.find? fun row => key row = key first with
        | none =>
            simp only [found] at done
            have once := upsertRows_untouched _ _ _ _ done
            have later := ih _ _ _ (unique_append unique found) done k
            by_cases same : key first = k
            · subst same
              rcases later with ⟨_, kept⟩ | ⟨new, member, again, _⟩
              · refine Or.inr ⟨first, by simp, rfl, ?_⟩
                rw [kept, List.find?_append, found]
                simp [upserted]
              · exact absurd (List.mem_cons.mpr (Or.inl again)) (once new member)
            · have others : ((rows ++ [first]).find? fun row => key row = k) =
                  rows.find? fun row => key row = k := by simp [List.find?_append, same]
              rw [others] at later
              rcases later with ⟨none, kept⟩ | ⟨new, member, again, written⟩
              · exact Or.inl ⟨by simpa [same] using none, kept⟩
              · exact Or.inr ⟨new, List.mem_cons_of_mem _ member, again, written⟩
        | some old =>
            simp only [found] at done
            cases updated : update old first with
            | none =>
                simp only [updated] at done
                rcases ih _ _ _ unique done k with ⟨none, kept⟩ | ⟨new, member, again, written⟩
                · by_cases same : key first = k
                  · subst same
                    refine Or.inr ⟨first, by simp, rfl, ?_⟩
                    rw [kept, found]
                    simp [upserted, updated]
                  · exact Or.inl ⟨by simpa [same] using none, kept⟩
                · exact Or.inr ⟨new, List.mem_cons_of_mem _ member, again, written⟩
            | some row =>
                simp only [updated] at done
                have once := upsertRows_untouched _ _ _ _ done
                have keys := map_replace keyKept unique found updated
                have later := ih _ _ _ (keys ▸ unique) done k
                rw [find?_replace keyKept unique found updated k] at later
                by_cases same : key first = k
                · subst same
                  rcases later with ⟨_, kept⟩ | ⟨new, member, again, _⟩
                  · refine Or.inr ⟨first, by simp, rfl, ?_⟩
                    rw [kept, if_pos rfl, found]
                    simp [upserted, updated]
                  · exact absurd (List.mem_cons.mpr (Or.inl again)) (once new member)
                · rw [if_neg same] at later
                  rcases later with ⟨none, kept⟩ | ⟨new, member, again, written⟩
                  · exact Or.inl ⟨by simpa [same] using none, kept⟩
                  · exact Or.inr ⟨new, List.mem_cons_of_mem _ member, again, written⟩

/-- The rows that a statement adds are the source rows of new keys. -/
theorem upsertRows_length {update : Row → Row → Option Row} (keyKept : Keeps update key) :
    ∀ (source : List Row) (touched : List Key) (rows result : List Row), (rows.map key).Nodup →
      upsertRows key update touched source rows = some result →
        result.length = rows.length +
          source.countP fun new => (rows.find? fun row => key row = key new).isNone := by
  intro source
  induction source with
  | nil =>
      intro touched rows result _ done
      cases done
      simp
  | cons first rest ih =>
      intro touched rows result unique done
      simp only [upsertRows] at done
      split at done
      · cases done
      · cases found : rows.find? fun row => key row = key first with
        | none =>
            simp only [found] at done
            have once := upsertRows_untouched _ _ _ _ done
            have same : (rest.countP fun new =>
                  ((rows ++ [first]).find? fun row => key row = key new).isNone) =
                rest.countP fun new => (rows.find? fun row => key row = key new).isNone := by
              refine List.countP_congr fun new member => ?_
              have apart : key first ≠ key new :=
                fun equal => once new member (List.mem_cons.mpr (Or.inl equal.symm))
              simp [List.find?_append, apart]
            rw [ih _ _ _ (unique_append unique found) done, same, List.countP_cons, found]
            simp only [List.length_append, List.length_cons, List.length_nil, Option.isNone_none,
              if_true]
            omega
        | some old =>
            simp only [found] at done
            rw [List.countP_cons, found]
            cases updated : update old first with
            | none =>
                simp only [updated] at done
                simpa using ih _ _ _ unique done
            | some row =>
                simp only [updated] at done
                have keys := map_replace keyKept unique found updated
                have same : ∀ new, ((rows.map fun other =>
                    if key other = key first then row else other).find? fun row =>
                      key row = key new).isNone =
                    (rows.find? fun row => key row = key new).isNone := by
                  intro new
                  rw [find?_replace keyKept unique found updated]
                  split
                  · next equal => rw [← equal, found]; rfl
                  · rfl
                rw [ih _ _ _ (keys ▸ unique) done, List.length_map]
                simp only [same, Option.isNone_some, Bool.false_eq_true, if_false, Nat.add_zero]

/-- `INSERT … ON CONFLICT (key) DO UPDATE`; nothing where the statement meets a row
that it has written. -/
def Table.upsert (table : Table Row key) (update : Row → Row → Option Row)
    (keyKept : Keeps update key) (source : List Row) : Option (Table Row key) :=
  match done : upsertRows key update [] source table.rows with
  | none => none
  | some rows => some ⟨rows, (upsertRows_column keyKept source [] _ _ table.unique done).1⟩

theorem Table.upsert_rows {table table' : Table Row key} {update : Row → Row → Option Row}
    {keyKept : Keeps update key} {source : List Row}
    (done : table.upsert update keyKept source = some table') :
    upsertRows key update [] source table.rows = some table'.rows := by
  unfold Table.upsert at done
  split at done
  · cases done
  · next rows shape =>
      cases done
      exact shape

theorem Table.upsert_some (table : Table Row key) {update : Row → Row → Option Row}
    (keyKept : Keeps update key) (source : List Row) (distinct : (source.map key).Nodup) :
    ∃ table', table.upsert update keyKept source = some table' := by
  obtain ⟨rows, done⟩ := upsertRows_some update source [] table.rows distinct (by simp)
  unfold Table.upsert
  split
  · next failed => rw [done] at failed; cases failed
  · exact ⟨_, rfl⟩

theorem Table.find_upsert {table table' : Table Row key} {update : Row → Row → Option Row}
    {keyKept : Keeps update key} {source : List Row} (distinct : (source.map key).Nodup)
    (done : table.upsert update keyKept source = some table') (k : Key) :
    table'.find k = upserted update (table.find k) (source.find? fun row => key row = k) :=
  upsertRows_find keyKept source [] _ _ table.unique distinct (Table.upsert_rows done) k

theorem Table.find_upsert_some {table table' : Table Row key} {update : Row → Row → Option Row}
    {keyKept : Keeps update key} {source : List Row}
    (done : table.upsert update keyKept source = some table') (k : Key) :
    ((∀ new ∈ source, key new ≠ k) ∧ table'.find k = table.find k) ∨
      ∃ new ∈ source, key new = k ∧ table'.find k = upserted update (table.find k) (some new) :=
  upsertRows_find_some keyKept source [] _ _ table.unique (Table.upsert_rows done) k

/-- Rows that are there already, with nothing to update, are not written. -/
theorem upsertRows_idle {update : Row → Row → Option Row} {rows : List Row} :
    ∀ source : List Row,
      (∀ new ∈ source, ∃ old, (rows.find? fun row => key row = key new) = some old ∧
        update old new = none) →
        upsertRows key update [] source rows = some rows := by
  intro source
  induction source with
  | nil => exact fun _ => rfl
  | cons new rest ih =>
      intro idle
      obtain ⟨old, found, unchanged⟩ := idle new List.mem_cons_self
      simp only [upsertRows, List.not_mem_nil, if_false, found, unchanged]
      exact ih fun row member => idle row (List.mem_cons_of_mem _ member)

theorem Table.upsert_idle {table table' : Table Row key} {update : Row → Row → Option Row}
    {keyKept : Keeps update key} {source : List Row}
    (idle : ∀ new ∈ source, ∃ old, table.find (key new) = some old ∧ update old new = none)
    (done : table.upsert update keyKept source = some table') : table' = table := by
  have rows := (Table.upsert_rows done).symm.trans (upsertRows_idle source idle)
  obtain ⟨rows', unique'⟩ := table'
  cases rows
  rfl

/-! ## Selections by partition -/

/-- The row of a partition that comes last in `order`. -/
def lastOf (partition : Row → Key) (order : Row → Nat) (rows : List Row) (k : Key) : Option Row :=
  (rows.filter fun row => partition row = k).argmax order

/-- `DISTINCT ON (partition) … ORDER BY partition, order DESC`. -/
def distinctOn (partition : Row → Key) (order : Row → Nat) (rows : List Row) : List Row :=
  (rows.map partition).dedup.filterMap (lastOf partition order rows)

/-- `row_number() OVER (PARTITION BY partition ORDER BY order)`. -/
def rowNumber (partition : Row → Key) (order : Row → Nat) (rows : List Row) (row : Row) : Nat :=
  (rows.filter fun other => partition other = partition row ∧ order other < order row).length + 1

theorem lastOf_eq_some {partition : Row → Key} {order : Row → Nat} {rows : List Row} {k : Key}
    {row : Row} (last : lastOf partition order rows k = some row) :
    row ∈ rows ∧ partition row = k ∧
      ∀ other ∈ rows, partition other = k → order other ≤ order row := by
  have member := List.argmax_mem last
  simp only [List.mem_filter, decide_eq_true_eq] at member
  refine ⟨member.1, member.2, ?_⟩
  intro other inRows same
  exact List.le_of_mem_argmax (List.mem_filter.mpr ⟨inRows, by simp [same]⟩) last

theorem lastOf_eq_none {partition : Row → Key} {order : Row → Nat} {rows : List Row} {k : Key} :
    lastOf partition order rows k = none ↔ ∀ row ∈ rows, partition row ≠ k := by
  simp [lastOf, List.argmax_eq_none, List.filter_eq_nil_iff]

/-- The last row of a partition does not depend on the order of the rows. -/
theorem lastOf_congr {partition : Row → Key} {order : Row → Nat}
    {rows other : List Row} (same : ∀ row, row ∈ rows ↔ row ∈ other)
    (apart : ∀ row ∈ rows, ∀ row' ∈ rows, order row = order row' → row = row') (k : Key) :
    lastOf partition order rows k = lastOf partition order other k := by
  cases first : lastOf partition order rows k with
  | none =>
      rw [lastOf_eq_none] at first
      exact (lastOf_eq_none.mpr fun row member => first row ((same row).mpr member)).symm
  | some row =>
      obtain ⟨member, mine, highest⟩ := lastOf_eq_some first
      cases second : lastOf partition order other k with
      | none =>
          rw [lastOf_eq_none] at second
          exact absurd mine (second row ((same row).mp member))
      | some row' =>
          obtain ⟨member', mine', highest'⟩ := lastOf_eq_some second
          have inRows := (same row').mpr member'
          have equal := Nat.le_antisymm (highest' row ((same row).mp member) mine)
            (highest row' inRows mine')
          rw [apart row member row' inRows equal]

theorem find?_filterMap_lastOf (partition : Row → Key) (order : Row → Nat) (rows : List Row)
    (k : Key) : ∀ keys : List Key,
      ((keys.filterMap (lastOf partition order rows)).find? fun row => partition row = k) =
        if k ∈ keys then lastOf partition order rows k else none := by
  intro keys
  induction keys with
  | nil => rfl
  | cons first rest ih =>
      rw [List.filterMap_cons]
      cases last : lastOf partition order rows first with
      | none =>
          dsimp only
          rw [ih]
          by_cases same : k = first
          · subst same
            simp [last]
          · simp [same]
      | some row =>
          have rowKey := (lastOf_eq_some last).2.1
          dsimp only
          rw [List.find?_cons]
          by_cases same : k = first
          · subst same
            simp [rowKey, last]
          · have different : partition row ≠ k := by
              rw [rowKey]
              exact Ne.symm same
            simp only [different, decide_false, ih, List.mem_cons, same, false_or]

theorem find?_distinctOn (partition : Row → Key) (order : Row → Nat) (rows : List Row) (k : Key) :
    ((distinctOn partition order rows).find? fun row => partition row = k) =
      lastOf partition order rows k := by
  unfold distinctOn
  rw [find?_filterMap_lastOf]
  split
  · rfl
  · next absent =>
      symm
      rw [lastOf_eq_none]
      intro row member same
      exact absent (List.mem_dedup.mpr (List.mem_map.mpr ⟨row, member, same⟩))

theorem distinctOn_nodup (partition : Row → Key) (order : Row → Nat) (rows : List Row) :
    ((distinctOn partition order rows).map partition).Nodup := by
  unfold distinctOn
  have keys : ∀ keys : List Key, keys.Nodup →
      ((keys.filterMap (lastOf partition order rows)).map partition).Nodup := by
    intro keys
    induction keys with
    | nil => intro _; simp
    | cons first rest ih =>
        intro distinct
        simp only [List.nodup_cons] at distinct
        rw [List.filterMap_cons]
        cases last : lastOf partition order rows first with
        | none => exact ih distinct.2
        | some row =>
            have rowKey := (lastOf_eq_some last).2.1
            simp only [List.map_cons, List.nodup_cons]
            refine ⟨?_, ih distinct.2⟩
            intro again
            obtain ⟨other, member, same⟩ := List.mem_map.mp again
            obtain ⟨k, inRest, shape⟩ := List.mem_filterMap.mp member
            have otherKey := (lastOf_eq_some shape).2.1
            rw [rowKey] at same
            rw [same] at otherKey
            exact distinct.1 (otherKey ▸ inRest)
  exact keys _ (List.nodup_dedup _)

/-- A row has a number above 1 exactly where another one of its partition comes
before it. -/
theorem one_lt_rowNumber {partition : Row → Key} {order : Row → Nat} {rows : List Row}
    {row : Row} :
    1 < rowNumber partition order rows row ↔
      ∃ other ∈ rows, partition other = partition row ∧ order other < order row := by
  unfold rowNumber
  constructor
  · intro ranked
    have positive : 0 < (rows.filter fun other =>
        partition other = partition row ∧ order other < order row).length := by omega
    obtain ⟨other, member⟩ := List.exists_mem_of_length_pos positive
    simp only [List.mem_filter, decide_eq_true_eq] at member
    exact ⟨other, member⟩
  · rintro ⟨other, member, earlier⟩
    have positive : 0 < (rows.filter fun other =>
        partition other = partition row ∧ order other < order row).length :=
      List.length_pos_of_mem (List.mem_filter.mpr ⟨member, by simpa using earlier⟩)
    omega

end Statements

end Tables
