import Mathlib.Data.List.Basic
import Mathlib.Data.List.Nodup
import Mathlib.Data.List.Sort

/-!
# Queries

`SELECT … WHERE …` with inner joins, as lists of rows, and `ORDER BY … LIMIT … OFFSET …`
on top.  `ORDER BY` gives some permutation of the rows in which none comes after a
greater one; rows that compare equal may stand in any order, and in another order the
next time.  Where the order separates the rows, all listings are one, and pages side by
side give it back.
-/

set_option autoImplicit false

namespace Queries

/-! ## Rows -/

/-- The rows of `FROM`, and the conditions of `WHERE`. -/
structure Select (Row : Type) where
  source : List Row
  conditions : List (Row → Bool)

section Rows

variable {Row Left Right : Type}

def Select.restrict (select : Select Row) (condition : Row → Bool) : Select Row :=
  { select with conditions := select.conditions ++ [condition] }

def Select.rows (select : Select Row) : List Row :=
  select.source.filter fun row => select.conditions.all fun condition => condition row

theorem Select.mem_rows {select : Select Row} {row : Row} :
    row ∈ select.rows ↔ row ∈ select.source ∧ ∀ condition ∈ select.conditions, condition row = true := by
  simp only [Select.rows, List.mem_filter, List.all_eq_true]

theorem Select.mem_restrict {select : Select Row} {condition : Row → Bool} {row : Row} :
    row ∈ (select.restrict condition).rows ↔ row ∈ select.rows ∧ condition row = true := by
  simp only [Select.mem_rows, Select.restrict, List.mem_append, List.mem_singleton]
  constructor
  · rintro ⟨inSource, all⟩
    exact ⟨⟨inSource, fun c member => all c (.inl member)⟩, all condition (.inr rfl)⟩
  · rintro ⟨⟨inSource, all⟩, last⟩
    refine ⟨inSource, ?_⟩
    rintro c (member | rfl)
    · exact all c member
    · exact last

theorem Select.rows_nodup {select : Select Row} (distinct : select.source.Nodup) :
    select.rows.Nodup := distinct.filter _

theorem Select.keys_nodup {Key : Type} {key : Row → Key} {select : Select Row}
    (distinct : (select.source.map key).Nodup) : (select.rows.map key).Nodup :=
  distinct.sublist (List.filter_sublist.map key)

/-- Selections with the same keys have equally many rows. -/
theorem length_eq_of_keys {Key : Type} {key : Row → Key} {rows rows' : List Row}
    (distinct : (rows.map key).Nodup) (distinct' : (rows'.map key).Nodup)
    (same : ∀ k, k ∈ rows.map key ↔ k ∈ rows'.map key) : rows.length = rows'.length := by
  have keys := ((List.perm_ext_iff_of_nodup distinct distinct').mpr same).length_eq
  rw [List.length_map, List.length_map] at keys
  exact keys

def innerJoin (left : List Left) (right : List Right) (on : Left → Right → Bool) :
    List (Left × Right) :=
  left.flatMap fun l => (right.filter (on l)).map (Prod.mk l)

theorem mem_innerJoin {left : List Left} {right : List Right} {on : Left → Right → Bool}
    {pair : Left × Right} :
    pair ∈ innerJoin left right on ↔
      pair.1 ∈ left ∧ pair.2 ∈ right ∧ on pair.1 pair.2 = true := by
  simp only [innerJoin, List.mem_flatMap, List.mem_map, List.mem_filter]
  constructor
  · rintro ⟨l, inLeft, r, ⟨inRight, matched⟩, rfl⟩
    exact ⟨inLeft, inRight, matched⟩
  · rintro ⟨inLeft, inRight, matched⟩
    exact ⟨pair.1, inLeft, pair.2, ⟨inRight, matched⟩, rfl⟩

theorem innerJoin_nodup {left : List Left} {right : List Right} {on : Left → Right → Bool}
    (leftDistinct : left.Nodup) (rightDistinct : right.Nodup) : (innerJoin left right on).Nodup := by
  refine List.nodup_flatMap.mpr ⟨?_, ?_⟩
  · intro l _
    exact (rightDistinct.filter _).map fun _ _ same => (Prod.mk.inj same).2
  · refine leftDistinct.imp ?_
    intro l l' different pair inFirst inSecond
    obtain ⟨_, _, rfl⟩ := List.mem_map.mp inFirst
    obtain ⟨_, _, same⟩ := List.mem_map.mp inSecond
    exact different (congrArg Prod.fst same).symm

end Rows

/-! ## Orders -/

section Orders

variable {Row Key : Type}

/-- One term of `ORDER BY`; later terms follow by `compareLex`. -/
def orderBy (compareKeys : Key → Key → Ordering) (key : Row → Key) (first second : Row) : Ordering :=
  compareKeys (key first) (key second)

/-- A term with `DESC`. -/
def descending (order : Row → Row → Ordering) (first second : Row) : Ordering := order second first

instance {compareKeys : Key → Key → Ordering} [Std.TransCmp compareKeys] {key : Row → Key} :
    Std.TransCmp (orderBy compareKeys key) where
  eq_swap := by
    intro first second
    exact (Std.OrientedCmp.eq_swap : compareKeys (key first) (key second) = _)
  isLE_trans := by
    intro first second third
    exact (Std.TransCmp.isLE_trans : (compareKeys (key first) (key second)).isLE = true → _)

instance {order : Row → Row → Ordering} [Std.TransCmp order] : Std.TransCmp (descending order) :=
  (Std.TransCmp.opposite : Std.TransCmp fun first second => order second first)

@[simp] theorem orderBy_compare_eq_eq {key : Row → Nat} {first second : Row} :
    orderBy compare key first second = .eq ↔ key first = key second := by
  rw [orderBy, Std.LawfulEqCmp.compare_eq_iff_eq]

@[simp] theorem descending_eq_eq {order : Row → Row → Ordering} {first second : Row} :
    descending order first second = .eq ↔ order second first = .eq := Iff.rfl

end Orders

/-! ## Listings -/

section Listings

variable {Row : Type} (order : Row → Row → Ordering)

/-- A result of `ORDER BY`. -/
structure IsListing (rows listing : List Row) : Prop where
  perm : listing.Perm rows
  sorted : listing.Pairwise fun first second => (order first second).isLE = true

/-- `LIMIT … OFFSET …`. -/
def window (limit offset : Nat) (listing : List Row) : List Row :=
  (listing.drop offset).take limit

/-- A result of `ORDER BY … LIMIT … OFFSET …`. -/
def IsPage (rows : List Row) (limit offset : Nat) (page : List Row) : Prop :=
  ∃ listing, IsListing order rows listing ∧ page = window limit offset listing

/-- No two rows compare equal. -/
def Separates (rows : List Row) : Prop :=
  ∀ first ∈ rows, ∀ second ∈ rows, order first second = .eq → first = second

theorem exists_isListing [Std.TransCmp order] (rows : List Row) :
    ∃ listing, IsListing order rows listing := by
  refine ⟨rows.mergeSort fun first second => (order first second).isLE, List.mergeSort_perm _ _, ?_⟩
  refine List.pairwise_mergeSort ?_ ?_ rows
  · intro first second third
    exact Std.TransCmp.isLE_trans
  · intro first second
    have swapped : order second first = (order first second).swap := Std.OrientedCmp.eq_swap
    rw [swapped]
    cases order first second <;> rfl

variable {order}

theorem Separates.of_perm {rows other : List Row} (separates : Separates order rows)
    (perm : other.Perm rows) : Separates order other := by
  intro first firstMember second secondMember
  exact separates first (perm.mem_iff.mp firstMember) second (perm.mem_iff.mp secondMember)

/-- An order that separates the rows leaves one listing of them. -/
theorem IsListing.unique [Std.OrientedCmp order] {rows listing other : List Row}
    (separates : Separates order rows) (first : IsListing order rows listing)
    (second : IsListing order rows other) : listing = other := by
  refine List.Perm.eq_of_pairwise ?_ first.sorted second.sorted (first.perm.trans second.perm.symm)
  intro a b inListing inOther before after
  refine separates a (first.perm.mem_iff.mp inListing) b (second.perm.mem_iff.mp inOther) ?_
  have swapped : order b a = (order a b).swap := Std.OrientedCmp.eq_swap
  rw [swapped] at after
  revert before after
  cases order a b <;> decide

/-- In a listing of different rows that the order separates, every row is strictly before
the later ones. -/
theorem IsListing.strict {rows listing : List Row} (separates : Separates order rows)
    (distinct : rows.Nodup) (isListing : IsListing order rows listing) :
    listing.Pairwise fun first second => order first second = .lt := by
  have different : listing.Nodup := isListing.perm.nodup_iff.mpr distinct
  have both := isListing.sorted.and different
  refine List.Pairwise.imp_of_mem ?_ both
  rintro first second firstMember secondMember ⟨before, unequal⟩
  have apart : order first second ≠ .eq := by
    intro equal
    exact unequal (separates.of_perm isListing.perm first firstMember second secondMember equal)
  revert before apart
  cases order first second <;> decide

end Listings

/-! ## Rows that are numbered as they come -/

section Numbered

variable {Row Key : Type} (compareKeys : Key → Key → Ordering) (key : Row → Key)

/-- By the key, and rows of one key as they come. -/
def sortedBy (rows : List Row) : List Row :=
  rows.insertionSort fun first second => (compareKeys (key first) (key second)).isLE = true

variable {compareKeys key} [Std.TransCmp compareKeys] {number : Row → Nat}

omit [Std.TransCmp compareKeys] in
theorem isLE_byNumber {first second : Row}
    (keys : (compareKeys (key first) (key second)).isLE = true)
    (numbers : number first < number second) :
    (compareLex (orderBy compareKeys key) (orderBy compare number) first second).isLE = true := by
  have smaller : compare (number first) (number second) = .lt := Nat.compare_eq_lt.mpr numbers
  unfold compareLex orderBy
  rw [smaller]
  cases order : compareKeys (key first) (key second) with
  | lt | eq => rfl
  | gt =>
      rw [order] at keys
      cases keys

omit [Std.TransCmp compareKeys] in
theorem isLE_byKey {first second : Row}
    (lex : (compareLex (orderBy compareKeys key) (orderBy compare number) first second).isLE = true) :
    (compareKeys (key first) (key second)).isLE = true := by
  unfold compareLex orderBy at lex
  cases order : compareKeys (key first) (key second) with
  | lt | eq => rfl
  | gt =>
      rw [order] at lex
      cases lex

/-- A row in front of all others goes before those of its own key. -/
theorem orderedInsert_sorted {row : Row} {rows : List Row}
    (sorted : rows.Pairwise fun first second =>
      (compareLex (orderBy compareKeys key) (orderBy compare number) first second).isLE = true)
    (first : ∀ other ∈ rows, number row < number other) :
    (rows.orderedInsert (fun first second => (compareKeys (key first) (key second)).isLE = true)
      row).Pairwise fun first second =>
        (compareLex (orderBy compareKeys key) (orderBy compare number) first second).isLE = true := by
  induction rows with
  | nil => exact List.pairwise_singleton _ _
  | cons other rows ih =>
      obtain ⟨before, later⟩ := List.pairwise_cons.mp sorted
      rw [List.orderedInsert_cons]
      split
      · next keys =>
          refine List.pairwise_cons.mpr ⟨?_, sorted⟩
          intro third member
          refine isLE_byNumber ?_ (first third member)
          rcases List.mem_cons.mp member with rfl | inRows
          · exact keys
          · exact Std.TransCmp.isLE_trans keys (isLE_byKey (before third inRows))
      · next keys =>
          refine List.pairwise_cons.mpr ⟨?_, ih later fun third member =>
            first third (List.mem_cons_of_mem _ member)⟩
          intro third member
          rcases (List.mem_orderedInsert _).mp member with rfl | inRows
          · have swapped : compareKeys (key third) (key other) =
                (compareKeys (key other) (key third)).swap := Std.OrientedCmp.eq_swap
            unfold compareLex orderBy
            rw [swapped] at keys
            cases order : compareKeys (key other) (key third) with
            | lt => rfl
            | eq | gt => simp [order] at keys
          · exact before third inRows

/-- Where the numbers rise, `ORDER BY key, number` keeps rows of one key as they came. -/
theorem sortedBy_isListing {rows : List Row}
    (numbered : rows.Pairwise fun first second => number first < number second) :
    IsListing (compareLex (orderBy compareKeys key) (orderBy compare number)) rows
      (sortedBy compareKeys key rows) where
  perm := List.perm_insertionSort _ rows
  sorted := by
    induction rows with
    | nil => exact List.Pairwise.nil
    | cons row rows ih =>
        obtain ⟨first, later⟩ := List.pairwise_cons.mp numbered
        refine orderedInsert_sorted (ih later) ?_
        intro other member
        exact first other ((List.perm_insertionSort _ rows).mem_iff.mp member)

omit [Std.TransCmp compareKeys] in
theorem map_sortedBy {Item : Type} {present : Row → Item} {itemKey : Item → Key}
    (keys : ∀ row, itemKey (present row) = key row) (rows : List Row) :
    (sortedBy compareKeys key rows).map present =
      sortedBy compareKeys itemKey (rows.map present) := by
  refine List.map_insertionSort _ _ present rows ?_
  intro first _ second _
  rw [keys, keys]

end Numbered

/-! ## Windows -/

section Windows

variable {Row : Type}

/-- The first `n` windows are what they cover of the listing. -/
theorem flatMap_windows (limit : Nat) (listing : List Row) (n : Nat) :
    (List.range n).flatMap (fun k => window limit (k * limit) listing) =
      listing.take (n * limit) := by
  induction n with
  | zero => rw [List.range_zero, List.flatMap_nil, Nat.zero_mul, List.take_zero]
  | succ n inductionHypothesis =>
      rw [List.range_succ, List.flatMap_append, inductionHypothesis, List.flatMap_singleton,
        window, ← List.take_add, Nat.succ_mul]

theorem flatMap_windows_all {limit : Nat} {listing : List Row} {n : Nat}
    (covered : listing.length ≤ n * limit) :
    (List.range n).flatMap (fun k => window limit (k * limit) listing) = listing := by
  rw [flatMap_windows, List.take_of_length_le covered]

end Windows

/-! ## Tilings -/

section Tilings

variable {Row Item : Type}

end Tilings

end Queries
