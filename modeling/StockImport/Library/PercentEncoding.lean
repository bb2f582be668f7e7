/-!
# Percent encoding

Bytes as characters of a header or an URL: an unreserved byte stands for itself, any
other is a percent sign and two hexadecimal digits.  What is written so can be read
again, and is an extended value in the sense of header parameters.
-/

set_option autoImplicit false

namespace PercentEncoding

/-- Letters, digits, and four marks. -/
def isUnreserved (c : Char) : Bool := c.isAlphanum || "_.-~".toList.contains c

def hexDigit (n : Nat) : Char := "0123456789ABCDEF".toList.getD n '0'

def byteChar (byte : UInt8) : Char := Char.ofNat byte.toNat

def quoteByte (byte : UInt8) : List Char :=
  if isUnreserved (byteChar byte) then [byteChar byte]
  else ['%', hexDigit (byte.toNat / 16), hexDigit (byte.toNat % 16)]

def quoteBytes (bytes : List UInt8) : List Char := bytes.flatMap quoteByte

def hexValue (c : Char) : Option Nat :=
  if '0' ≤ c ∧ c ≤ '9' then some (c.toNat - 48)
  else if 'A' ≤ c ∧ c ≤ 'F' then some (c.toNat - 55)
  else if 'a' ≤ c ∧ c ≤ 'f' then some (c.toNat - 87)
  else none

/-- Reading percent-encoded text; nothing where it is not well formed. -/
def unquoteBytes : List Char → Option (List UInt8)
  | [] => some []
  | c :: rest =>
      if c = '%' then
        match rest with
        | high :: low :: later =>
            match hexValue high, hexValue low with
            | some h, some l => (unquoteBytes later).map (UInt8.ofNat (16 * h + l) :: ·)
            | _, _ => none
        | _ => none
      else if c.toNat < 128 then (unquoteBytes rest).map (UInt8.ofNat c.toNat :: ·)
      else none

/-- The characters that stand for themselves in an extended value. -/
def isAttrChar (c : Char) : Bool := c.isAlphanum || "!#$&+-.^_`|~".toList.contains c

/-- Attribute characters and percent triplets. -/
inductive ExtValue : List Char → Prop
  | nil : ExtValue []
  | attr {c : Char} {rest : List Char} : isAttrChar c = true → ExtValue rest → ExtValue (c :: rest)
  | triplet {high low : Char} {rest : List Char} : (hexValue high).isSome → (hexValue low).isSome →
      ExtValue rest → ExtValue ('%' :: high :: low :: rest)

/-! ## Characters -/

/-- Printable ASCII. -/
def Printable (c : Char) : Prop := 32 ≤ c.toNat ∧ c.toNat ≤ 126

instance (c : Char) : Decidable (Printable c) := inferInstanceAs (Decidable (_ ∧ _))

/-- What is checked of a list of characters holds of its members. -/
theorem forall_of_all {characters : List Char} {property : Char → Prop} [DecidablePred property]
    (checked : (characters.all fun c => decide (property c)) = true) :
    ∀ c ∈ characters, property c := by
  intro c member
  exact of_decide_eq_true (List.all_eq_true.mp checked c member)

theorem isAlphanum_bounds {c : Char} (alphanumeric : c.isAlphanum = true) :
    48 ≤ c.toNat ∧ c.toNat ≤ 57 ∨ 65 ≤ c.toNat ∧ c.toNat ≤ 90 ∨ 97 ≤ c.toNat ∧ c.toNat ≤ 122 := by
  have either : ((c.isUpper || c.isLower) || c.isDigit) = true := alphanumeric
  rw [Bool.or_eq_true, Bool.or_eq_true] at either
  obtain (upper | lower) | digit := either
  · have bounds : 'A'.val ≤ c.val ∧ c.val ≤ 'Z'.val := of_decide_eq_true upper
    exact .inr (.inl ⟨UInt32.le_iff_toNat_le.mp bounds.1, UInt32.le_iff_toNat_le.mp bounds.2⟩)
  · have both : (decide ('a'.val ≤ c.val) && decide (c.val ≤ 'z'.val)) = true := lower
    have bounds : 'a'.val ≤ c.val ∧ c.val ≤ 'z'.val := by
      simpa only [Bool.and_eq_true, decide_eq_true_eq] using both
    exact .inr (.inr ⟨UInt32.le_iff_toNat_le.mp bounds.1, UInt32.le_iff_toNat_le.mp bounds.2⟩)
  · have both : (decide ('0'.val ≤ c.val) && decide (c.val ≤ '9'.val)) = true := digit
    have bounds : '0'.val ≤ c.val ∧ c.val ≤ '9'.val := by
      simpa only [Bool.and_eq_true, decide_eq_true_eq] using both
    exact .inl ⟨UInt32.le_iff_toNat_le.mp bounds.1, UInt32.le_iff_toNat_le.mp bounds.2⟩

theorem isUnreserved_bounds {c : Char} (unreserved : isUnreserved c = true) :
    Printable c ∧ c.toNat ≠ 34 ∧ c.toNat ≠ 92 ∧ c.toNat ≠ 37 := by
  simp only [isUnreserved, Bool.or_eq_true, List.contains_iff_mem] at unreserved
  obtain alphanumeric | mark := unreserved
  · have bounds := isAlphanum_bounds alphanumeric
    unfold Printable
    omega
  · have marks : ∀ m ∈ "_.-~".toList,
        Printable m ∧ m.toNat ≠ 34 ∧ m.toNat ≠ 92 ∧ m.toNat ≠ 37 :=
      forall_of_all (by decide)
    exact marks c mark

theorem isAttrChar_of_isUnreserved {c : Char} (unreserved : isUnreserved c = true) :
    isAttrChar c = true := by
  simp only [isUnreserved, isAttrChar, Bool.or_eq_true, List.contains_iff_mem] at unreserved ⊢
  obtain alphanumeric | mark := unreserved
  · exact .inl alphanumeric
  · have marks : ∀ m ∈ "_.-~".toList, m ∈ "!#$&+-.^_`|~".toList :=
      forall_of_all (by decide)
    exact .inr (marks c mark)

theorem hexValue_hexDigit {n : Nat} (digit : n < 16) : hexValue (hexDigit n) = some n := by
  have digits : ∀ d, d < 16 → hexValue (hexDigit d) = some d := by decide
  exact digits n digit

theorem hexDigit_bounds {n : Nat} (digit : n < 16) :
    Printable (hexDigit n) ∧ (hexDigit n).toNat ≠ 34 ∧ (hexDigit n).toNat ≠ 92 := by
  have digits : ∀ d, d < 16 →
      Printable (hexDigit d) ∧ (hexDigit d).toNat ≠ 34 ∧ (hexDigit d).toNat ≠ 92 := by decide
  exact digits n digit

theorem byteChar_toNat (byte : UInt8) : (byteChar byte).toNat = byte.toNat := by
  have bound := byte.toNat_lt
  have valid : byte.toNat.isValidChar := .inl (by omega)
  have made : byteChar byte = Char.ofNatAux byte.toNat valid := dif_pos valid
  rw [made]
  rfl

/-! ## One byte -/

/-- Every character of an encoded byte is printable, and neither a quote nor a backslash. -/
theorem quoteByte_bounds {byte : UInt8} {c : Char} (member : c ∈ quoteByte byte) :
    Printable c ∧ c.toNat ≠ 34 ∧ c.toNat ≠ 92 := by
  have bound := byte.toNat_lt
  unfold quoteByte at member
  split at member
  · rename_i unreserved
    obtain rfl := List.mem_singleton.mp member
    obtain ⟨printable, quote, backslash, -⟩ := isUnreserved_bounds unreserved
    exact ⟨printable, quote, backslash⟩
  · simp only [List.mem_cons, List.not_mem_nil, or_false] at member
    obtain rfl | rfl | rfl := member
    · decide
    · exact hexDigit_bounds (by omega)
    · exact hexDigit_bounds (by omega)

theorem ExtValue.quoteByte_append (byte : UInt8) {rest : List Char} (later : ExtValue rest) :
    ExtValue (quoteByte byte ++ rest) := by
  have bound := byte.toNat_lt
  unfold quoteByte
  split
  · rename_i unreserved
    exact .attr (isAttrChar_of_isUnreserved unreserved) later
  · refine .triplet ?_ ?_ later
    · rw [hexValue_hexDigit (by omega), Option.isSome_some]
    · rw [hexValue_hexDigit (by omega), Option.isSome_some]

theorem unquoteBytes_quoteByte_append (byte : UInt8) (rest : List Char) :
    unquoteBytes (quoteByte byte ++ rest) = (unquoteBytes rest).map (byte :: ·) := by
  have bound := byte.toNat_lt
  unfold quoteByte
  split
  · rename_i unreserved
    obtain ⟨⟨-, printable⟩, -, -, percent⟩ := isUnreserved_bounds unreserved
    have notPercent : byteChar byte ≠ '%' := fun equal => percent (by rw [equal]; rfl)
    rw [byteChar_toNat] at printable
    have ascii : byte.toNat < 128 := by omega
    rw [List.singleton_append, unquoteBytes.eq_def]
    simp only [if_neg notPercent, byteChar_toNat, if_pos ascii, UInt8.ofNat_toNat]
  · have digits : UInt8.ofNat (16 * (byte.toNat / 16) + byte.toNat % 16) = byte := by
      rw [Nat.div_add_mod, UInt8.ofNat_toNat]
    simp only [List.cons_append, List.nil_append, unquoteBytes, if_true,
      hexValue_hexDigit (show byte.toNat / 16 < 16 by omega),
      hexValue_hexDigit (show byte.toNat % 16 < 16 by omega), digits]

/-! ## Byte strings -/

theorem quoteBytes_bounds {bytes : List UInt8} {c : Char} (member : c ∈ quoteBytes bytes) :
    Printable c ∧ c.toNat ≠ 34 ∧ c.toNat ≠ 92 := by
  obtain ⟨byte, -, encoded⟩ := List.mem_flatMap.mp member
  exact quoteByte_bounds encoded

theorem quoteBytes_extValue (bytes : List UInt8) : ExtValue (quoteBytes bytes) := by
  induction bytes with
  | nil => exact .nil
  | cons byte rest inductionHypothesis =>
      simpa only [quoteBytes, List.flatMap_cons] using
        inductionHypothesis.quoteByte_append byte

theorem unquoteBytes_quoteBytes (bytes : List UInt8) :
    unquoteBytes (quoteBytes bytes) = some bytes := by
  induction bytes with
  | nil => rfl
  | cons byte rest inductionHypothesis =>
      have split : quoteBytes (byte :: rest) = quoteByte byte ++ quoteBytes rest := by
        simp only [quoteBytes, List.flatMap_cons]
      rw [split, unquoteBytes_quoteByte_append, inductionHypothesis, Option.map_some]

/-! ## Text -/

/-- Text as percent-encoded UTF-8. -/
def quote (text : String) : List Char := quoteBytes text.toUTF8.data.toList

/-- Percent-encoded UTF-8 as text; nothing where either encoding is not well formed. -/
def unquote (encoded : List Char) : Option String :=
  (unquoteBytes encoded).bind fun bytes => String.fromUTF8? ⟨bytes.toArray⟩

theorem unquote_quote (text : String) : unquote (quote text) = some text := by
  have decoded : String.fromUTF8? text.toUTF8 = some text := by
    simp [String.fromUTF8?, String.fromUTF8, text.isValidUTF8]
  rw [unquote, quote, unquoteBytes_quoteBytes, Option.bind_some, Array.toArray_toList]
  exact decoded

end PercentEncoding
