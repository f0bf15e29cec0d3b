import LuaLowering.Lower.Numeral
import LuaLowering.Proofs.Escapes
import LuaLowering.Proofs.Rounding
import Mathlib.Data.Nat.Digits.Lemmas
/-!
# Constants of integer numerals

What an integer numeral stands for, by the places of its digits (`placeValue`). Hexadecimal digits are read into 64 bits
one after the other, and the bits are those of the number modulo `2 ^ 64` (`toNat_hexBits`). Decimal digits are the
number itself as far as 64 bits with a sign reach, and the nearest float beyond (`constant_of_digits`).
-/
namespace LuaLowering
namespace Text

/-- The sixteen digits in their order. -/
def digitOrder : List Char := "0123456789abcdef".toList

/-- The number that digits write by their places: the last one counts once, and each other one counts the base times as
much as the one behind it. Letters count the same in either case. -/
def placeValue (base : Nat) (digits : List Char) : Nat :=
  Nat.ofDigits base (digits.reverse.map fun c => digitOrder.idxOf c.toLower)

theorem toNat_lt_of_isHexDigit {c : Char} (digit : isHexDigit c = true) : c.toNat < 103 := by
  simp only [isHexDigit, Char.isDigit, Bool.or_eq_true, Bool.and_eq_true, decide_eq_true_eq, Char.le_def,
    UInt32.le_iff_toNat_le, ge_iff_le] at digit
  simp only [Char.reduceVal, UInt32.reduceToNat] at digit
  unfold Char.toNat
  omega

theorem digitValue_eq_idxOf {c : Char} (digit : isHexDigit c = true) : digitValue c = digitOrder.idxOf c.toLower := by
  have each : ((List.range 103).all fun n => !isHexDigit (.ofNat n) ||
      digitValue (.ofNat n) == digitOrder.idxOf (Char.ofNat n).toLower) = true := by
    decide +kernel
  have here := List.all_eq_true.mp each c.toNat (List.mem_range.mpr (toNat_lt_of_isHexDigit digit))
  simpa [Char.ofNat_toNat, digit] using here

/-- Reading digits from left to right gives the number that they write by their places. -/
theorem natOfDigits_eq_placeValue (base : Nat) {digits : List Char} (hex : ∀ c ∈ digits, isHexDigit c = true) :
    natOfDigits base digits = placeValue base digits := by
  have places : placeValue base digits =
      digits.foldl (fun n c => digitOrder.idxOf c.toLower + base * n) 0 := by
    rw [placeValue, Nat.ofDigits_eq_foldr, List.foldr_map, List.foldr_reverse]
    rfl
  rw [places, natOfDigits]
  refine List.foldl_ext _ _ _ fun n c member => ?_
  rw [digitValue_eq_idxOf (hex c member), Nat.add_comm]

end Text

namespace Syntax
open Text Lexeme QuotedString Decimal

/-! ## Hexadecimal digits -/

/-- One more digit, whatever has been lost before it. -/
theorem toNat_nextDigit {bits : UInt64} {n : Nat} (same : bits.toNat = n % 2 ^ 64) (digit : Nat) :
    (bits * 16 + .ofNat digit).toNat = (16 * n + digit) % 2 ^ 64 := by
  rw [UInt64.toNat_add, UInt64.toNat_mul, same, UInt64.toNat_ofNat']
  have sixteen : (16 : UInt64).toNat = 16 := rfl
  rw [sixteen]
  omega

/-- The bits of hexadecimal digits are those of their number modulo `2 ^ 64`, however many digits there are. -/
theorem toNat_hexBits (digits : List Char) : (hexBits digits).toNat = natOfDigits 16 digits % 2 ^ 64 := by
  have run (bits : UInt64) (n : Nat) (same : bits.toNat = n % 2 ^ 64) :
      (digits.foldl (fun bits c => bits * 16 + .ofNat (digitValue c)) bits).toNat =
        digits.foldl (fun n c => 16 * n + digitValue c) n % 2 ^ 64 := by
    induction digits generalizing bits n with
    | nil => exact same
    | cons c digits ih => exact ih _ _ (toNat_nextDigit same (digitValue c))
  exact run 0 0 rfl

namespace Numeral
variable {digits : List Char}

theorem constant?_hex (hex : HexDigits digits) {mark : Char} (letter : mark = 'x' ∨ mark = 'X') :
    constant? ⟨.hex, String.ofList ('0' :: mark :: digits)⟩ = some (.int (hexBits digits).toInt64) := by
  have two : byteSize ['0', mark] = 2 := by
    rcases letter with rfl | rfl <;> rfl
  have cut : splitBytes 2 ('0' :: mark :: digits) = some (['0', mark], digits) :=
    two ▸ splitBytes_byteSize ['0', mark] digits
  have value : hexInt64? digits = some (hexBits digits).toInt64 := if_pos (List.all_eq_true.mpr hex.each)
  simp [constant?, cut, value]

/-! ## Decimal digits -/

theorem int?_of_digits (written : Digits digits) : int? digits = some (natOfDigits 10 digits : Int) := by
  have unsigned := splitSign_of_digits written []
  rw [List.append_nil] at unsigned
  have value : nat? digits = some (natOfDigits 10 digits) := if_neg (by simpa [written.1] using written.2)
  simp [int?, unsigned, value]

theorem toLower_of_isDigit {c : Char} (digit : c.isDigit = true) : c.toLower = c := by
  unfold Char.toLower
  split
  · rename_i capital
    have small : c.val.toNat ≤ 57 := by
      simp only [Char.isDigit, Bool.and_eq_true, decide_eq_true_eq, UInt32.le_iff_toNat_le] at digit
      exact digit.2
    have large : 65 ≤ c.val.toNat := capital.1
    omega
  · rfl

/-- A number in digits is none by name. -/
theorem named?_of_digits (written : Digits digits) (negative : Bool) : named? negative digits = none := by
  cases digits with
  | nil => exact absurd rfl written.1
  | cons d digits =>
    have digit := written.2 d List.mem_cons_self
    have other (name : String) (c : Char) (s : List Char) (letters : name.toList = c :: s)
        (letter : c.isDigit = false) : String.ofList ((d :: digits).map Char.toLower) ≠ name := by
      rintro rfl
      rw [String.toList_ofList, List.map_cons, toLower_of_isDigit digit, List.cons.injEq] at letters
      exact ne_of_apply_ne Char.isDigit (by simp [digit, letter]) letters.1
    unfold named?
    generalize String.ofList ((d :: digits).map Char.toLower) = word at other
    simp [other "inf" 'i' _ rfl rfl, other "infinity" 'i' _ rfl rfl, other "nan" 'n' _ rfl rfl]

theorem read?_of_digits (written : Digits digits) :
    Binary64.read? digits = some (.ofDecimal false (natOfDigits 10 digits) 0) := by
  have unsigned := splitSign_of_digits written []
  have stop : ∀ c, ([] : List Char).head? = some c → c.isDigit = false := by simp
  obtain ⟨whole, left⟩ := span_digits written.2 stop
  rw [List.append_nil] at unsigned whole left
  simp [Binary64.read?, unsigned, named?_of_digits written, unsigned?, whole, left, written.1, exponent?]

theorem int64?_of_digits (written : Digits digits) : int64? digits =
    if natOfDigits 10 digits ≤ 2 ^ 63 - 1 then some (.ofInt (natOfDigits 10 digits)) else none := by
  have least : Int64.minValue.toInt = -2 ^ 63 := by decide
  have greatest : Int64.maxValue.toInt = 2 ^ 63 - 1 := by decide
  rw [int64?, int?_of_digits written, Option.bind_some, least, greatest]
  refine if_congr ?_ rfl rfl
  rw [Bool.and_eq_true, decide_eq_true_eq, decide_eq_true_eq]
  omega

theorem constant?_int (written : Digits digits) : constant? ⟨.int, String.ofList digits⟩ =
    if natOfDigits 10 digits ≤ 2 ^ 63 - 1 then some (.int (.ofInt (natOfDigits 10 digits)))
    else some (.float (.ofDecimal false (natOfDigits 10 digits) 0)) := by
  simp only [constant?, String.toList_ofList, int64?_of_digits written, read?_of_digits written]
  by_cases fits : natOfDigits 10 digits ≤ 2 ^ 63 - 1
  · rw [if_pos fits, if_pos fits]
  · rw [if_neg fits, if_neg fits]
    rfl

/-- Hexadecimal digits of any number and case stand for the integer with the bits of their number modulo `2 ^ 64`.
Decimal digits stand for their number, if it is at most `2 ^ 63 - 1`, and otherwise for the float nearest to it. -/
theorem constant_of_digits (digits : List Char) :
    (HexDigits digits → ∀ mark, mark = 'x' ∨ mark = 'X' → ∃ i : Int64,
      constant? ⟨.hex, String.ofList ('0' :: mark :: digits)⟩ = some (.int i) ∧
      i.toUInt64.toNat = placeValue 16 digits % 2 ^ 64) ∧
    (Digits digits →
      (placeValue 10 digits ≤ 2 ^ 63 - 1 → ∃ i : Int64,
        constant? ⟨.int, String.ofList digits⟩ = some (.int i) ∧ i.toInt = placeValue 10 digits) ∧
      (2 ^ 63 - 1 < placeValue 10 digits →
        constant? ⟨.int, String.ofList digits⟩ = some (.float (.ofDecimal false (placeValue 10 digits) 0)) ∧
        (Binary64.ofDecimal false (placeValue 10 digits) 0).isNegative = false ∧
        Binary64.RoundsTo (placeValue 10 digits) (.ofDecimal false (placeValue 10 digits) 0))) := by
  constructor
  · intro hex mark letter
    refine ⟨_, constant?_hex hex letter, ?_⟩
    rw [← natOfDigits_eq_placeValue 16 hex.each, ← toNat_hexBits]
    rfl
  · intro written
    have hex : ∀ c ∈ digits, isHexDigit c = true := fun c member => by simp [isHexDigit, written.2 c member]
    rw [constant?_int written, natOfDigits_eq_placeValue 10 hex]
    refine ⟨fun fits => ⟨_, if_pos fits, ?_⟩, fun large => ⟨if_neg (Nat.not_le.mpr large), ?_⟩⟩
    · exact Int64.toInt_ofInt_of_le (by omega) (by omega)
    · simpa using Binary64.ofDecimal_roundsTo false (placeValue 10 digits) 0

/-- Seventeen hexadecimal digits in both cases, the greatest integer with zeros in front of it, the number after it, and
one midway between two floats. -/
theorem constant_of_digits_boundaries :
    (∃ i : Int64, constant? ⟨.hex, "0X1fFfFfFfFfFfFfFf0"⟩ = some (.int i) ∧ i.toUInt64.toNat = 2 ^ 64 - 16) ∧
    (∃ i : Int64, constant? ⟨.int, "009223372036854775807"⟩ = some (.int i) ∧ i.toInt = 2 ^ 63 - 1) ∧
    (constant? ⟨.int, "9223372036854775808"⟩ = some (.float (.ofDecimal false (2 ^ 63) 0)) ∧
      Binary64.RoundsTo (2 ^ 63) (.ofDecimal false (2 ^ 63) 0) ∧
      (Binary64.ofDecimal false (2 ^ 63) 0).bits = 0x43e0000000000000) ∧
    constant? ⟨.int, "9223372036854776832"⟩ = some (.float ⟨0x43e0000000000000⟩) := by
  have hex : HexDigits "1fFfFfFfFfFfFfFf0".toList := ⟨by decide, List.all_eq_true.mp rfl⟩
  have greatest : Digits "009223372036854775807".toList := ⟨by decide, List.all_eq_true.mp rfl⟩
  have next : Digits "9223372036854775808".toList := ⟨by decide, List.all_eq_true.mp rfl⟩
  have wide : placeValue 16 "1fFfFfFfFfFfFfFf0".toList % 2 ^ 64 = 2 ^ 64 - 16 := by decide
  have small : placeValue 10 "009223372036854775807".toList = 2 ^ 63 - 1 := by decide
  have large : placeValue 10 "9223372036854775808".toList = 2 ^ 63 := by decide
  have midway : Digits "9223372036854776832".toList := ⟨by decide, List.all_eq_true.mp rfl⟩
  have larger : placeValue 10 "9223372036854776832".toList = 2 ^ 63 + 2 ^ 10 := by decide
  have bits : Binary64.ofDecimal false (2 ^ 63) 0 = ⟨0x43e0000000000000⟩ ∧
      Binary64.ofDecimal false (2 ^ 63 + 2 ^ 10) 0 = ⟨0x43e0000000000000⟩ := by
    decide +kernel
  refine ⟨?_, ?_, ?_, ?_⟩
  · rw [← wide]
    exact (constant_of_digits _).1 hex 'X' (.inr rfl)
  · exact ((constant_of_digits _).2 greatest).1 (by omega)
  · obtain ⟨read, -, nearest⟩ := ((constant_of_digits _).2 next).2 (by omega)
    rw [large] at read nearest
    exact ⟨read, by exact_mod_cast nearest, by rw [bits.1]⟩
  · obtain ⟨read, -, -⟩ := ((constant_of_digits _).2 midway).2 (by omega)
    rwa [larger, bits.2] at read

end Numeral
end Syntax
end LuaLowering
