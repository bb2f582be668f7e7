import StockImport.Csv.Shown

/-!
# The limits of raw data

One remainder is threaded through the values of a mapping and the items of its lists.
What it leaves of a mapping keeps to both limits, and is marked where it is not all.
-/

set_option autoImplicit false

namespace StockImport.Csv

open PyText

/-- How many characters some texts have together. -/
def totalChars (texts : List Text) : Nat := (texts.map List.length).sum

@[simp] theorem totalChars_nil : totalChars [] = 0 := rfl

@[simp] theorem totalChars_cons (text : Text) (texts : List Text) :
    totalChars (text :: texts) = text.length + totalChars texts := rfl

@[simp] theorem totalChars_append (texts others : List Text) :
    totalChars (texts ++ others) = totalChars texts + totalChars others := by
  simp [totalChars]

/-! ## One text -/

section Bounds

variable {valueLimit : Nat}

/-- A bounded text, the characters it takes, and whether it is another text. -/
theorem boundedRawText_bounds (value : Text) (valueLimit remaining : Nat) :
    (boundedRawText value valueLimit remaining).bounded.length =
        (boundedRawText value valueLimit remaining).used ∧
      (boundedRawText value valueLimit remaining).used ≤ min valueLimit remaining ∧
      ((boundedRawText value valueLimit remaining).wasTruncated = false ↔
        (boundedRawText value valueLimit remaining).bounded = value) := by
  unfold boundedRawText
  dsimp only
  by_cases fits : value.length ≤ min valueLimit remaining
  · rw [if_pos fits]
    exact ⟨rfl, fits, iff_of_true rfl rfl⟩
  · rw [if_neg fits]
    have nonempty : value ≠ [] := by
      rintro rfl
      exact fits (Nat.zero_le _)
    by_cases none : min valueLimit remaining = 0
    · rw [if_pos none]
      refine ⟨rfl, Nat.zero_le _, iff_of_false ?_ nonempty.symm⟩
      simpa using nonempty
    · rw [if_neg none]
      have length : (if truncationMarker.length < min valueLimit remaining then
          value.take (min valueLimit remaining - truncationMarker.length) ++ truncationMarker
          else value.take (min valueLimit remaining)).length = min valueLimit remaining := by
        split
        · rw [List.length_append, List.length_take]
          omega
        · rw [List.length_take]
          omega
      refine ⟨rfl, Nat.le_of_eq length, iff_of_false Bool.noConfusion fun same => fits ?_⟩
      exact Nat.le_of_eq ((congrArg List.length same).symm.trans length)

/-! ## The items of a list -/

/-- What one list leaves: its texts in the limits, the remainder, and whether items were cut. -/
structure BoundsItems (valueLimit remaining : Nat) (items : List Text) (left : BoundedItems) :
    Prop where
  values : ∀ text ∈ left.items, text.length ≤ valueLimit
  total : totalChars left.items + left.remaining = remaining
  same : (left.truncated || left.items.length != items.length) = false ↔ left.items = items

theorem boundedItems_bounds (valueLimit : Nat) : ∀ (items : List Text) (remaining : Nat),
    BoundsItems valueLimit remaining items (boundedItems valueLimit remaining items) := by
  intro items
  induction items with
  | nil =>
      intro remaining
      exact ⟨(fun _ member => absurd member List.not_mem_nil), Nat.zero_add _, iff_of_true rfl rfl⟩
  | cons item items ih =>
      intro remaining
      unfold boundedItems
      by_cases none : remaining = 0
      · rw [if_pos none]
        exact ⟨(fun _ member => absurd member List.not_mem_nil), Nat.zero_add _,
          iff_of_false Bool.noConfusion (List.cons_ne_nil _ _).symm⟩
      · rw [if_neg none]
        dsimp only
        obtain ⟨length, bound, whole⟩ := boundedRawText_bounds item valueLimit remaining
        obtain ⟨values, total, same⟩ :=
          ih (remaining - (boundedRawText item valueLimit remaining).used)
        have value : (boundedRawText item valueLimit remaining).bounded.length ≤ valueLimit := by
          omega
        refine ⟨List.forall_mem_cons.mpr ⟨value, values⟩, ?_, ?_⟩
        · dsimp only
          rw [totalChars_cons]
          omega
        · rw [List.cons.injEq, ← whole, ← same]
          simp only [List.length_cons, Bool.or_eq_false_iff, bne_eq_false_iff_eq,
            Nat.add_right_cancel_iff, and_assoc]

/-! ## The mapping -/

/-- What the values of a mapping leave: their texts in the limits under the same names, and
whether one was cut. -/
structure BoundsEntries (valueLimit remaining : Nat) (rawData : RawData)
    (left : BoundedEntries) : Prop where
  names : left.entries.map Prod.fst = rawData.map Prod.fst
  values : ∀ text ∈ RawData.texts left.entries, text.length ≤ valueLimit
  total : totalChars (RawData.texts left.entries) ≤ remaining
  same : left.truncated = false ↔ left.entries = rawData

theorem boundedEntries_bounds (valueLimit : Nat) : ∀ (rawData : RawData) (remaining : Nat),
    BoundsEntries valueLimit remaining rawData (boundedEntries valueLimit remaining rawData) := by
  intro rawData
  induction rawData with
  | nil =>
      intro remaining
      exact ⟨rfl, (fun _ member => absurd member List.not_mem_nil), Nat.zero_le _, iff_of_true rfl rfl⟩
  | cons entry rawData ih =>
      intro remaining
      obtain ⟨key, value⟩ := entry
      have texts : ∀ (value : RawValue) (rest : RawData),
          RawData.texts ((key, value) :: rest) = value.texts ++ RawData.texts rest :=
        fun _ _ => rfl
      cases value with
      | text value =>
          obtain ⟨length, bound, whole⟩ := boundedRawText_bounds value valueLimit remaining
          obtain ⟨names, values, total, same⟩ :=
            ih (remaining - (boundedRawText value valueLimit remaining).used)
          unfold boundedEntries
          refine ⟨congrArg (key :: ·) names, ?_, ?_, ?_⟩
          · rw [texts]
            refine List.forall_mem_cons.mpr ⟨?_, values⟩
            omega
          · rw [texts, totalChars_append]
            simp only [RawValue.texts, totalChars_cons, totalChars_nil]
            omega
          · simp only [Bool.or_eq_false_iff, whole, same, List.cons.injEq, Prod.mk.injEq,
              RawValue.text.injEq, true_and]
      | list items =>
          obtain ⟨within, spent, all⟩ := boundedItems_bounds valueLimit items remaining
          obtain ⟨names, values, total, same⟩ :=
            ih (boundedItems valueLimit remaining items).remaining
          unfold boundedEntries
          refine ⟨congrArg (key :: ·) names, ?_, ?_, ?_⟩
          · rw [texts]
            intro text member
            exact (List.mem_append.mp member).elim (within text) (values text)
          · rw [texts, totalChars_append]
            simp only [RawValue.texts]
            omega
          · rw [Bool.or_eq_false_iff, all, same]
            simp only [List.cons.injEq, Prod.mk.injEq, RawValue.list.injEq, true_and]
      | number value | flag value =>
          obtain ⟨names, values, total, same⟩ := ih remaining
          unfold boundedEntries
          refine ⟨congrArg (key :: ·) names, ?_, ?_, ?_⟩
          · rw [texts]
            exact values
          · rw [texts]
            exact total
          · rw [same]
            simp only [List.cons.injEq, true_and]

end Bounds

/-- What stored raw data shows of a mapping: the two limits are kept, and a mark tells whether
a value was cut. -/
structure RespectsLimits (valueLimit totalLimit : Nat) (rawData shown : RawData) : Prop where
  values : ∀ text ∈ RawData.texts shown, text.length ≤ valueLimit
  total : totalChars (RawData.texts shown) ≤ totalLimit
  marked : ∃ entries, entries.map Prod.fst = rawData.map Prod.fst ∧
    (entries = rawData ∧ shown = rawData ∨
      entries ≠ rawData ∧ shown = entries ++ [("_truncated", .flag true)])

theorem RawData.set_new {data : RawData} {key : String} (value : RawValue)
    (absent : key ∉ data.map Prod.fst) : data.set key value = data ++ [(key, value)] := by
  refine if_neg fun present => absent ?_
  obtain ⟨entry, member, same⟩ := List.any_eq_true.mp present
  exact beq_iff_eq.mp same ▸ List.mem_map_of_mem member

theorem boundedRawData_respects {rawData : RawData} (limits : CsvLimits)
    (unmarked : "_truncated" ∉ rawData.map Prod.fst) :
    RespectsLimits limits.errorRawValueChars limits.errorRawTotalChars rawData
      (boundedRawData rawData limits) := by
  obtain ⟨names, values, total, same⟩ :=
    boundedEntries_bounds limits.errorRawValueChars rawData limits.errorRawTotalChars
  unfold boundedRawData
  dsimp only
  generalize boundedEntries limits.errorRawValueChars limits.errorRawTotalChars rawData = left
    at names values total same
  split
  · next cut =>
      have marked : left.entries.set "_truncated" (.flag true) =
          left.entries ++ [("_truncated", .flag true)] :=
        RawData.set_new _ (names ▸ unmarked)
      have texts : RawData.texts (left.entries ++ [("_truncated", .flag true)]) =
          RawData.texts left.entries := by
        simp [RawData.texts, RawValue.texts]
      have differs : left.entries ≠ rawData := by
        rw [ne_eq, ← same, cut]
        exact Bool.noConfusion
      rw [marked]
      exact ⟨texts ▸ values, texts ▸ total, _, names, Or.inr ⟨differs, rfl⟩⟩
  · next whole =>
      have equal : left.entries = rawData := same.mp (Bool.not_eq_true _ ▸ whole)
      exact ⟨values, total, _, names, Or.inl ⟨equal, equal⟩⟩

end StockImport.Csv
