import Mathlib.Data.Nat.Digits.Defs
import BraceTemplate.Proofs.Naming

/-!
# Indices written in digits

A name leads into an array if it is a row of decimal digits, and it leads to the item whose index
the digits write. The row may be of any length, while an index is a machine word.

## Main result

`numeral_finds_item`: a name finds an item of an array exactly if it is a numeral below the length,
and then it finds the item at that index. Reading the digits into a machine word, which is given up
where a word does not hold the next number, finds the same. A key that is an index finds what its
decimal digits find.

## Proof strategy

Putting one more digit behind a number never makes it smaller. So reading that is given up has come
to a number that is too great already, and the whole row writes one that is no smaller.
-/

namespace BraceTemplate

namespace Decimal

/-! ### Numerals -/

/-- A row of decimal digits with at least one of them. -/
structure IsNumeral (word : String) : Prop where
  nonempty : word ≠ ""
  digits : ∀ c ∈ word.toList, c.isDigit = true

instance (word : String) : Decidable (IsNumeral word) :=
  decidable_of_iff (word ≠ "" ∧ word.toList.all Char.isDigit = true)
    ⟨fun h => ⟨h.1, List.all_eq_true.mp h.2⟩, fun h => ⟨h.1, List.all_eq_true.mpr h.2⟩⟩

/-- What a digit adds to a number in the place of the ones. -/
def digit (c : Char) : Nat :=
  c.toNat - '0'.toNat

/-- The number that a numeral writes: the last digit counts ones, and each digit counts ten times as
much as the next. -/
def value (word : String) : Nat :=
  Nat.ofDigits 10 (word.toList.reverse.map digit)

private theorem natOfDigits_toList (word : String) : natOfDigits word.toList = value word := by
  rw [value, Nat.ofDigits_eq_foldr, List.map_reverse, List.foldr_reverse, List.foldl_map,
    natOfDigits]
  congr 1
  funext number c
  exact Nat.add_comm _ _

/-! ### Machine words -/

/-- A number as a machine word, if a word holds it. -/
def word? (number : Nat) : Option UInt64 :=
  if number < UInt64.size then some (.ofNat number) else none

/-- Puts one more digit behind a machine word. Both the product with ten and the sum with the digit
are given up if a word does not hold them. -/
def readDigit? (word : UInt64) (d : Char) : Option UInt64 := do
  let tens ← word? (word.toNat * 10)
  word? (tens.toNat + digit d)

/-- Reads digits into a machine word, one after the other. -/
def readWord? (ds : List Char) : Option UInt64 :=
  ds.foldlM readDigit? 0

theorem word?_toNat (word : UInt64) : word? word.toNat = some word := by
  rw [word?, if_pos word.toNat_lt_size, UInt64.ofNat_toNat]

theorem word?_eq_none_iff {number : Nat} : word? number = none ↔ UInt64.size ≤ number := by
  simp [word?]

theorem toNat_of_word? {number : Nat} {word : UInt64} (held : word? number = some word) :
    word.toNat = number := by
  obtain ⟨fits, isWord⟩ := Option.ite_none_right_eq_some.mp held
  rw [← Option.some.inj isWord]
  exact UInt64.toNat_ofNat_of_lt fits

private theorem readDigit?_eq (word : UInt64) (d : Char) :
    readDigit? word d = word? (10 * word.toNat + digit d) := by
  rw [readDigit?, Nat.mul_comm 10]
  cases held : word? (word.toNat * 10) with
  | none =>
    have tooGreat : UInt64.size ≤ word.toNat * 10 + digit d :=
      Nat.le_add_right_of_le (word?_eq_none_iff.mp held)
    exact (word?_eq_none_iff.mpr tooGreat).symm
  | some tens =>
    rw [← toNat_of_word? held]
    rfl

/-- A number does not become smaller by digits behind it. -/
private theorem le_foldl_digits (ds : List Char) (number : Nat) :
    number ≤ ds.foldl (fun n d => 10 * n + digit d) number := by
  induction ds generalizing number with
  | nil => exact Nat.le_refl number
  | cons d ds ih =>
    have behindFirst : number ≤ 10 * number + digit d := by omega
    exact behindFirst.trans (ih _)

private theorem foldlM_readDigit? (ds : List Char) (word : UInt64) :
    ds.foldlM readDigit? word =
      word? (ds.foldl (fun n d => 10 * n + digit d) word.toNat) := by
  induction ds generalizing word with
  | nil => exact (word?_toNat word).symm
  | cons d ds ih =>
    rw [List.foldlM_cons, readDigit?_eq, List.foldl_cons]
    cases held : word? (10 * word.toNat + digit d) with
    | none =>
      -- Reading ends here, and what the whole row writes is no smaller.
      have tooGreat := (word?_eq_none_iff.mp held).trans (le_foldl_digits ds _)
      exact (word?_eq_none_iff.mpr tooGreat).symm
    | some next =>
      rw [← toNat_of_word? held]
      exact ih next

/-- Reading digits into a machine word is reading the number and then seeing whether a word
holds it. -/
theorem readWord?_eq (ds : List Char) : readWord? ds = word? (natOfDigits ds) :=
  foldlM_readDigit? ds 0

end Decimal

namespace Key

open Decimal

/-- The index that a name stands for, read into a machine word. -/
def placeWord? (word : String) : Option UInt64 :=
  if IsNumeral word then readWord? word.toList else none

/-- The names that stand for an index are the numerals. -/
theorem place?_eq (word : String) :
    place? word = if IsNumeral word then some (value word) else none := by
  rw [place?, natOfDigits_toList]
  by_cases isNumeral : IsNumeral word
  · have someDigit : word.toList.isEmpty = false := by
      rw [List.isEmpty_eq_false_iff]
      exact mt String.toList_eq_nil_iff.mp isNumeral.nonempty
    have onlyDigits : word.toList.all Char.isDigit = true := List.all_eq_true.mpr isNumeral.digits
    rw [if_pos isNumeral, someDigit, onlyDigits]
    rfl
  · rw [if_neg isNumeral, if_pos]
    by_contra guarded
    rw [Bool.or_eq_true, not_or, List.isEmpty_iff, String.toList_eq_nil_iff, Bool.not_eq_true',
      Bool.not_eq_false, List.all_eq_true] at guarded
    exact isNumeral ⟨guarded.1, guarded.2⟩

private theorem placeWord?_eq (word : String) : placeWord? word = (place? word).bind word? := by
  rw [placeWord?, place?_eq, readWord?_eq, natOfDigits_toList]
  split <;> rfl

private theorem placeWord?_eq_none {word : String} (tooGreat : UInt64.size ≤ value word) :
    placeWord? word = none := by
  rw [placeWord?, readWord?_eq, natOfDigits_toList, word?_eq_none_iff.mpr tooGreat, ite_self]

private theorem placeWord?_text_index (place : UInt64) :
    placeWord? (toString place.toNat) = some place := by
  have readBack : place? (toString place.toNat) = some place.toNat := place?_text_index place.toNat
  rw [placeWord?_eq, readBack]
  exact word?_toNat place

end Key

namespace Value

open Decimal

/-! ### Items of an array -/

private theorem lookup_array_name (items : List Value) (word : String) :
    (array items).lookup (.name word) = (Key.place? word).bind (items[·]?) := by
  rw [lookup]
  cases Key.place? word <;> rfl

private theorem lookup_array_numeral (items : List Value) {word : String}
    (isNumeral : IsNumeral word) :
    (array items).lookup (.name word) = items[Decimal.value word]? := by
  rw [lookup_array_name, Key.place?_eq, if_pos isNumeral]
  rfl

private theorem isSome_lookup_array_name_iff (items : List Value) (word : String) :
    ((array items).lookup (.name word)).isSome = true ↔
      IsNumeral word ∧ Decimal.value word < items.length := by
  by_cases isNumeral : IsNumeral word
  · rw [lookup_array_numeral items isNumeral, isSome_getElem?]
    exact (and_iff_right isNumeral).symm
  · rw [lookup_array_name, Key.place?_eq, if_neg isNumeral]
    simp [isNumeral]

/-- A number that no machine word holds is not the index of an item. -/
private theorem lookup_array_placeWord? {items : List Value} (fits : items.length ≤ UInt64.size)
    (word : String) :
    (array items).lookup (.name word) =
      (Key.placeWord? word).bind fun place => items[place.toNat]? := by
  rw [lookup_array_name, Key.placeWord?_eq]
  cases Key.place? word with
  | none => rfl
  | some place =>
    rw [Option.bind_some, Option.bind_some]
    cases held : word? place with
    | none =>
      have outside : items.length ≤ place := fits.trans (word?_eq_none_iff.mp held)
      exact List.getElem?_eq_none outside
    | some index =>
      rw [Option.bind_some, toNat_of_word? held]

/-- Let an array have fewer items than there are machine words. A name finds an item exactly if it is
a numeral of a number below the length, and then the item is the one at that index. Reading the
numeral into a machine word finds the same. The reading is given up for all numbers that no word
holds, so that such a numeral finds nothing, and it gives every word back from its decimal digits.
In any value, an index finds what its decimal digits find. -/
theorem numeral_finds_item :
    (∀ items : List Value, items.length < UInt64.size → ∀ word,
      (((array items).lookup (.name word)).isSome = true ↔
        IsNumeral word ∧ Decimal.value word < items.length) ∧
      (IsNumeral word → (array items).lookup (.name word) = items[Decimal.value word]?) ∧
      ((array items).lookup (.name word) =
        (Key.placeWord? word).bind fun place => items[place.toNat]?) ∧
      (UInt64.size ≤ Decimal.value word → (array items).lookup (.name word) = none)) ∧
    (∀ word, UInt64.size ≤ Decimal.value word → Key.placeWord? word = none) ∧
    (∀ place : UInt64, Key.placeWord? (toString place.toNat) = some place) ∧
    ∀ (value : Value) (place : Nat),
      value.lookup (.index place) = value.lookup (.name (toString place)) := by
  refine ⟨fun items fits word => ?_, fun word => Key.placeWord?_eq_none,
    Key.placeWord?_text_index, fun value place => ?_⟩
  · have wordFinds := lookup_array_placeWord? fits.le word
    refine ⟨isSome_lookup_array_name_iff items word, lookup_array_numeral items, wordFinds, ?_⟩
    intro tooGreat
    rw [wordFinds, Key.placeWord?_eq_none tooGreat]
    rfl
  · exact (value.lookup_name_text (.index place)).symm

/-- Zeros in front of an index, and the number that comes back to one in a machine word. -/
theorem numeral_finds_item_padded :
    ∃ items : List Value, items.length < UInt64.size ∧
      ((array items).lookup (.name "0001")).map text = some "x" ∧
      ¬((array items).lookup (.name "+1")).isSome = true ∧
      Decimal.value "18446744073709551617" = UInt64.size + 1 ∧
      Key.placeWord? "18446744073709551617" = none ∧
      (array items).lookup (.name "18446744073709551617") = none ∧
      Key.placeWord? (toString (1 : UInt64).toNat) = some 1 ∧
      (array items).lookup (.index 1) = (array items).lookup (.name "1") := by
  let items : List Value := [.null, .string "x"]
  have fits : items.length < UInt64.size := by decide
  have great : Decimal.value "18446744073709551617" = UInt64.size + 1 := by decide
  have tooGreat : UInt64.size ≤ Decimal.value "18446744073709551617" := by
    rw [great]
    exact Nat.le_succ _
  obtain ⟨byName, givenUp, readBack, byIndex⟩ := numeral_finds_item
  refine ⟨items, fits, ?_, ?_, great, givenUp _ tooGreat, ?_, readBack 1, byIndex _ 1⟩
  · rw [(byName items fits "0001").2.1 (by decide)]
    rfl
  · rw [(byName items fits "+1").1]
    decide
  · exact (byName items fits _).2.2.2 tooGreat

end Value

end BraceTemplate
