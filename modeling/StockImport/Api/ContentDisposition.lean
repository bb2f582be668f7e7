import Mathlib.Data.List.Count
import StockImport.Library.PercentEncoding

/-!
# The header of a download

The original is offered under two names: a plain one of harmless characters for old
readers, and the uploader's own, percent-encoded.
-/

set_option autoImplicit false

namespace StockImport.Api

open PercentEncoding

def quotationMark : Char := Char.ofNat 34

def backslash : Char := Char.ofNat 92

/-- The characters the plain name keeps. -/
def isFallbackChar (character : Char) : Bool :=
  character.isAlphanum || "._-".toList.contains character

def asciiFallback (filename : String) : String :=
  let kept := filename.toList.map fun character => if isFallbackChar character then character else '_'
  if kept.isEmpty then "original.csv" else String.ofList kept

def contentDisposition (filename : String) : String :=
  "attachment; filename=\"" ++ asciiFallback filename ++
    "\"; filename*=UTF-8''" ++ String.ofList (quote filename)

/-- A header value that carries the name and nothing a name could smuggle in: one plain
name between the only two quotation marks, and one extended value that reads back as
the name itself. -/
structure CarriesName (filename : String) (header : String) : Prop where
  parts : ∃ fallback encoded : List Char,
    header.toList = "attachment; filename=\"".toList ++ fallback ++
      "\"; filename*=UTF-8''".toList ++ encoded ∧
    fallback ≠ [] ∧ (∀ c ∈ fallback, c.isAlphanum = true ∨ c = '.' ∨ c = '_' ∨ c = '-') ∧
    ExtValue encoded ∧ unquote encoded = some filename
  printable : ∀ c ∈ header.toList, Printable c
  twoQuotes : header.toList.count quotationMark = 2
  noBackslash : backslash ∉ header.toList
  noLineBreak : '\r' ∉ header.toList ∧ '\n' ∉ header.toList

/-! ## The plain name -/

theorem isFallbackChar_bounds {c : Char} (kept : isFallbackChar c = true) :
    Printable c ∧ c.toNat ≠ 34 ∧ c.toNat ≠ 92 := by
  simp only [isFallbackChar, Bool.or_eq_true, List.contains_iff_mem] at kept
  obtain alphanumeric | mark := kept
  · have bounds := isAlphanum_bounds alphanumeric
    unfold Printable
    omega
  · have marks : ∀ m ∈ "._-".toList, Printable m ∧ m.toNat ≠ 34 ∧ m.toNat ≠ 92 :=
      forall_of_all (by decide)
    exact marks c mark

theorem isFallbackChar_iff (c : Char) :
    isFallbackChar c = true ↔ c.isAlphanum = true ∨ c = '.' ∨ c = '_' ∨ c = '-' := by
  have marks : "._-".toList = ['.', '_', '-'] := by decide
  simp only [isFallbackChar, marks, Bool.or_eq_true, List.contains_iff_mem, List.mem_cons,
    List.not_mem_nil, or_false]

theorem asciiFallback_ne_nil (filename : String) : (asciiFallback filename).toList ≠ [] := by
  simp only [asciiFallback, List.isEmpty_iff]
  split
  · decide
  · rename_i nonempty
    simpa only [String.toList_ofList] using nonempty

theorem asciiFallback_kept {filename : String} {c : Char}
    (member : c ∈ (asciiFallback filename).toList) : isFallbackChar c = true := by
  simp only [asciiFallback, List.isEmpty_iff] at member
  split at member
  · have characters : ∀ m ∈ "original.csv".toList, isFallbackChar m = true :=
      forall_of_all (by decide)
    exact characters c member
  · rw [String.toList_ofList] at member
    obtain ⟨original, -, rfl⟩ := List.mem_map.mp member
    split
    · assumption
    · decide

/-! ## The header -/

theorem contentDisposition_toList (filename : String) :
    (contentDisposition filename).toList =
      "attachment; filename=\"".toList ++ (asciiFallback filename).toList ++
        "\"; filename*=UTF-8''".toList ++ quote filename := by
  have encoded : (String.ofList (quote filename)).toList = quote filename := String.toList_ofList
  unfold contentDisposition
  rw [String.toList_append, String.toList_append, String.toList_append, encoded]

/-- A character that stands in the header stands in one of the two fixed texts or is
harmless. -/
theorem contentDisposition_bounds {filename : String} {c : Char}
    (member : c ∈ (contentDisposition filename).toList) :
    Printable c ∧ c.toNat ≠ 92 := by
  have frame : ∀ m ∈ "attachment; filename=\"".toList ++ "\"; filename*=UTF-8''".toList,
      Printable m ∧ m.toNat ≠ 92 := forall_of_all (by decide)
  rw [contentDisposition_toList] at member
  simp only [List.mem_append] at member frame
  obtain ((opening | fallback) | middle) | encoded := member
  · exact frame c (.inl opening)
  · obtain ⟨printable, -, other⟩ := isFallbackChar_bounds (asciiFallback_kept fallback)
    exact ⟨printable, other⟩
  · exact frame c (.inr middle)
  · obtain ⟨printable, -, other⟩ := quoteBytes_bounds encoded
    exact ⟨printable, other⟩

theorem contentDisposition_twoQuotes (filename : String) :
    (contentDisposition filename).toList.count quotationMark = 2 := by
  have fallback : (asciiFallback filename).toList.count quotationMark = 0 := by
    refine List.count_eq_zero.mpr fun member => ?_
    exact (isFallbackChar_bounds (asciiFallback_kept member)).2.1 rfl
  have encoded : (quote filename).count quotationMark = 0 := by
    refine List.count_eq_zero.mpr fun member => ?_
    exact (quoteBytes_bounds member).2.1 rfl
  have opening : "attachment; filename=\"".toList.count quotationMark = 1 := by decide
  have middle : "\"; filename*=UTF-8''".toList.count quotationMark = 1 := by decide
  rw [contentDisposition_toList]
  simp only [List.count_append, fallback, encoded, opening, middle]

theorem content_disposition_carries_name (filename : String) :
    CarriesName filename (contentDisposition filename) where
  parts := by
    refine ⟨(asciiFallback filename).toList, quote filename, contentDisposition_toList filename,
      asciiFallback_ne_nil filename, ?_, quoteBytes_extValue _, unquote_quote filename⟩
    intro c member
    exact (isFallbackChar_iff c).mp (asciiFallback_kept member)
  printable c member := (contentDisposition_bounds member).1
  twoQuotes := contentDisposition_twoQuotes filename
  noBackslash member := (contentDisposition_bounds member).2 rfl
  noLineBreak := by
    constructor
    · intro member
      exact absurd (contentDisposition_bounds member).1 (by decide)
    · intro member
      exact absurd (contentDisposition_bounds member).1 (by decide)

end StockImport.Api
