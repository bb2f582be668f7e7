import Mathlib.Data.List.DropRight
import Mathlib.Tactic.Ring

/-!
# Strings as lists of code points

The few operations of Python strings that a text parser needs: `strip`, the
decimal integers that `int` reads and `str` writes, and the lines a stream gives
with `newline=""`.
-/

set_option autoImplicit false

namespace PyText

abbrev Text := List Nat

def ofString (s : String) : Text := s.toList.map Char.toNat

def isSpace (c : Nat) : Bool :=
  (9 ≤ c && c ≤ 13) || (28 ≤ c && c ≤ 32) || c == 0x85 || c == 0xA0 || c == 0x1680 ||
    (0x2000 ≤ c && c ≤ 0x200A) || c == 0x2028 || c == 0x2029 || c == 0x202F ||
    c == 0x205F || c == 0x3000

def strip (text : Text) : Text := (text.dropWhile isSpace).rdropWhile isSpace

/-- No blank character at either end. -/
def Trimmed (text : Text) : Prop :=
  (∀ c, text.head? = some c → isSpace c = false) ∧
    (∀ c, text.getLast? = some c → isSpace c = false)

instance (text : Text) : Decidable (Trimmed text) :=
  decidable_of_iff (text.head?.all (fun c => isSpace c == false) = true ∧
      text.getLast?.all (fun c => isSpace c == false) = true) (by
    simp [Trimmed, Option.all_eq_true])

theorem strip_of_trimmed (text : Text) (trimmed : Trimmed text) : strip text = text := by
  obtain ⟨first, last⟩ := trimmed
  have front : text.dropWhile isSpace = text := by
    cases text with
    | nil => rfl
    | cons c rest =>
        have notSpace : isSpace c = false := first c rfl
        simp [notSpace]
  unfold strip
  rw [front, List.rdropWhile_eq_self_iff]
  intro nonempty
  have notSpace := last (text.getLast nonempty) (List.getLast?_eq_some_getLast nonempty)
  simp [notSpace]

/-! ## Integers -/

def isDigit (c : Nat) : Bool := 48 ≤ c && c ≤ 57

/-- Whether the text starts with a minus sign, and what follows an optional sign. -/
def splitSign : Text → Bool × Text
  | [] => (false, [])
  | c :: rest => if c = 45 then (true, rest) else if c = 43 then (false, rest) else (false, c :: rest)

/-- Full match of `[+-]?[0-9]+`. -/
def isInteger (text : Text) : Bool :=
  (splitSign text).2 != [] && (splitSign text).2.all isDigit

def pushDigit (value digit : Nat) : Nat := value * 10 + (digit - 48)

def digitsValue (digits : Text) : Nat := digits.foldl pushDigit 0

/-- The most digit characters that `int` converts. -/
def maxIntDigits : Nat := 4300

/-- `int(text)` of a text that matches `isInteger`; nothing where it raises
`ValueError` for the number of digits. -/
def parseInt (text : Text) : Option Int :=
  if maxIntDigits < (splitSign text).2.length then none
  else if (splitSign text).1 then some (-(digitsValue (splitSign text).2 : Int))
  else some (digitsValue (splitSign text).2 : Int)

/-- An optional sign and one or more digits, with the integer they stand for. -/
inductive Denotes : Text → Int → Prop
  | unsigned (digits : Text) (nonempty : digits ≠ []) (all : ∀ c ∈ digits, isDigit c = true) :
      Denotes digits (digitsValue digits)
  | plus (digits : Text) (nonempty : digits ≠ []) (all : ∀ c ∈ digits, isDigit c = true) :
      Denotes (43 :: digits) (digitsValue digits)
  | minus (digits : Text) (nonempty : digits ≠ []) (all : ∀ c ∈ digits, isDigit c = true) :
      Denotes (45 :: digits) (-(digitsValue digits : Int))

/-- Decimal digits in front of `tail`, one step of fuel a digit. -/
def decimalOnto : Nat → Nat → Text → Text
  | 0, _, tail => tail
  | fuel + 1, n, tail =>
      if n < 10 then (48 + n) :: tail else decimalOnto fuel (n / 10) ((48 + n % 10) :: tail)

def decimal (n : Nat) : Text := decimalOnto (n + 1) n []

theorem foldl_decimalOnto (fuel : Nat) : ∀ (n : Nat) (tail : Text), n < fuel →
    (decimalOnto fuel n tail).foldl pushDigit 0 = tail.foldl pushDigit n := by
  induction fuel with
  | zero => intro n tail enough; omega
  | succ fuel ih =>
      intro n tail enough
      unfold decimalOnto
      split
      · simp [pushDigit]
      · rw [ih (n / 10) _ (by omega), List.foldl_cons]
        congr 1
        unfold pushDigit
        omega

theorem digitsValue_decimal (n : Nat) : digitsValue (decimal n) = n :=
  foldl_decimalOnto (n + 1) n [] (by omega)

theorem decimalOnto_digits (fuel : Nat) : ∀ (n : Nat) (tail : Text),
    (∀ c ∈ tail, isDigit c = true) → ∀ c ∈ decimalOnto fuel n tail, isDigit c = true := by
  induction fuel with
  | zero => intro n tail digits; exact digits
  | succ fuel ih =>
      intro n tail digits
      unfold decimalOnto
      split
      · intro c member
        rcases List.mem_cons.mp member with rfl | member
        · simp only [isDigit, Bool.and_eq_true, decide_eq_true_eq]; omega
        · exact digits c member
      · apply ih
        intro c member
        rcases List.mem_cons.mp member with rfl | member
        · simp only [isDigit, Bool.and_eq_true, decide_eq_true_eq]; omega
        · exact digits c member

theorem decimal_digits (n : Nat) : ∀ c ∈ decimal n, isDigit c = true :=
  decimalOnto_digits (n + 1) n [] (by simp)

theorem decimalOnto_ne_nil (fuel : Nat) : ∀ (n : Nat) (tail : Text), tail ≠ [] ∨ 0 < fuel →
    decimalOnto fuel n tail ≠ [] := by
  induction fuel with
  | zero => intro n tail some; simpa [decimalOnto] using some
  | succ fuel ih =>
      intro n tail _
      unfold decimalOnto
      split
      · simp
      · exact ih _ _ (Or.inl (by simp))

theorem decimal_ne_nil (n : Nat) : decimal n ≠ [] :=
  decimalOnto_ne_nil (n + 1) n [] (Or.inr (by omega))

theorem decimalOnto_length (fuel : Nat) : ∀ (n k : Nat) (tail : Text), n < 10 ^ (k + 1) →
    (decimalOnto fuel n tail).length ≤ k + 1 + tail.length := by
  induction fuel with
  | zero => intro n k tail small; simp [decimalOnto]
  | succ fuel ih =>
      intro n k tail small
      unfold decimalOnto
      split
      · simp only [List.length_cons]; omega
      · cases k with
        | zero => simp at small; omega
        | succ k =>
            have smaller : n / 10 < 10 ^ (k + 1) := by
              rw [pow_succ] at small
              omega
            have bound := ih (n / 10) k ((48 + n % 10) :: tail) smaller
            simp only [List.length_cons] at bound
            omega

theorem decimal_length (n k : Nat) (small : n < 10 ^ (k + 1)) : (decimal n).length ≤ k + 1 := by
  simpa [decimal] using decimalOnto_length (n + 1) n k [] small

theorem digit_not_space {c : Nat} (digit : isDigit c = true) : isSpace c = false := by
  simp only [isDigit, Bool.and_eq_true, decide_eq_true_eq] at digit
  simp only [isSpace, Bool.or_eq_false_iff, Bool.and_eq_false_iff, decide_eq_false_iff_not,
    beq_eq_false_iff_ne]
  omega

theorem decimal_trimmed (n : Nat) : Trimmed (decimal n) := by
  refine ⟨?_, ?_⟩
  · intro c first
    exact digit_not_space (decimal_digits n c (List.mem_of_mem_head? first))
  · intro c last
    exact digit_not_space (decimal_digits n c (List.mem_of_mem_getLast? last))

/-- A text of digits carries no sign. -/
theorem splitSign_digits (text : Text) (digits : ∀ c ∈ text, isDigit c = true) :
    splitSign text = (false, text) := by
  cases text with
  | nil => rfl
  | cons c rest =>
      have digit := digits c (by simp)
      simp only [isDigit, Bool.and_eq_true, decide_eq_true_eq] at digit
      have notMinus : c ≠ 45 := by omega
      have notPlus : c ≠ 43 := by omega
      simp [splitSign, notMinus, notPlus]

/-- How a text with a value splits at its sign. -/
theorem Denotes.split {text : Text} {value : Int} (denotes : Denotes text value) :
    ∃ negative digits, splitSign text = (negative, digits) ∧ digits ≠ [] ∧
      (∀ c ∈ digits, isDigit c = true) ∧
      value = if negative then -(digitsValue digits : Int) else (digitsValue digits : Int) := by
  cases denotes with
  | unsigned digits nonempty all =>
      exact ⟨false, text, splitSign_digits text all, nonempty, all, rfl⟩
  | plus digits nonempty all => exact ⟨false, digits, rfl, nonempty, all, rfl⟩
  | minus digits nonempty all => exact ⟨true, digits, rfl, nonempty, all, rfl⟩

theorem isInteger_iff (text : Text) : isInteger text = true ↔ ∃ value, Denotes text value := by
  constructor
  · intro matched
    simp only [isInteger, Bool.and_eq_true, bne_iff_ne, List.all_eq_true] at matched
    obtain ⟨nonempty, digits⟩ := matched
    cases text with
    | nil => exact absurd rfl nonempty
    | cons c rest =>
        by_cases minus : c = 45
        · subst minus
          exact ⟨_, .minus rest nonempty digits⟩
        · by_cases plus : c = 43
          · subst plus
            exact ⟨_, .plus rest nonempty digits⟩
          · simp only [splitSign, minus, plus, if_false] at nonempty digits
            exact ⟨_, .unsigned _ nonempty digits⟩
  · rintro ⟨value, denotes⟩
    obtain ⟨negative, digits, split, nonempty, all, _⟩ := denotes.split
    simp only [isInteger, split, Bool.and_eq_true, bne_iff_ne, List.all_eq_true]
    exact ⟨nonempty, all⟩

/-- `int` of a text with a value, up to the number of digits. -/
theorem Denotes.parseInt {text : Text} {value : Int} (denotes : Denotes text value) :
    parseInt text =
      if maxIntDigits < (splitSign text).2.length then none else some value := by
  obtain ⟨negative, digits, split, _, _, same⟩ := denotes.split
  unfold PyText.parseInt
  rw [split, same]
  cases negative <;> rfl

theorem Denotes.unique {text : Text} {value other : Int} (first : Denotes text value)
    (second : Denotes text other) : value = other := by
  obtain ⟨negative, digits, split, _, _, same⟩ := first.split
  obtain ⟨negative', digits', split', _, _, same'⟩ := second.split
  rw [split] at split'
  cases split'
  exact same.trans same'.symm

theorem isInteger_decimal (n : Nat) : isInteger (decimal n) = true := by
  have digits := decimal_digits n
  have nonempty := decimal_ne_nil n
  simp only [isInteger, splitSign_digits _ digits, Bool.and_eq_true, bne_iff_ne, List.all_eq_true]
  exact ⟨nonempty, digits⟩

theorem parseInt_decimal (n : Nat) (short : (decimal n).length ≤ maxIntDigits) :
    parseInt (decimal n) = some (n : Int) := by
  have notLong : ¬ maxIntDigits < (decimal n).length := by omega
  simp [parseInt, splitSign_digits _ (decimal_digits n), notLong, digitsValue_decimal]

end PyText
