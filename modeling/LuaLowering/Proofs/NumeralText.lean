import LuaLowering.Lexeme.Numeral
import LuaLowering.Lower.Numeral
import LuaLowering.Proofs.Scanning
/-!
# Texts of numerals

What the scanners of numerals read can be turned into constants, hexadecimal floats apart. `Decimal.Unsigned`
are the decimal texts, with and without a point and an exponent: all that the scanners of decimal numerals
read is such a text (`unsigned_of_int`, `unsigned_of_float`), and such a text is read as a number
(`isSome_read?`).
-/
namespace LuaLowering

/-- The letters that become `l` as small letters are `l` and the one 32 before it. -/
theorem eq_or_toNat_of_toLower {c l : Char} (lower : c.toLower = l) : c = l ∨ c.toNat + 32 = l.toNat := by
  unfold Char.toLower at lower
  split at lower
  · rename_i bounds
    right
    have upper : c.val.toNat ≤ 90 := bounds.2
    have sum : c.val + 32 = l.val := congrArg Char.val lower
    have sums := congrArg UInt32.toNat sum
    have small : (c.val.toNat + (32 : UInt32).toNat) % 2 ^ 32 = c.val.toNat + 32 := Nat.mod_eq_of_lt (by
      show c.val.toNat + 32 < 2 ^ 32
      omega)
    rw [UInt32.toNat_add, small] at sums
    exact sums
  · exact .inl lower

theorem eq_of_toLower {c l u : Char} (lower : c.toLower = l) (letters : u.toNat + 32 = l.toNat) : c = l ∨ c = u :=
  (eq_or_toNat_of_toLower lower).imp id fun sum =>
    Char.toNat_inj.mp (Nat.add_right_cancel (sum.trans letters.symm))

namespace Decimal

/-- At least one digit, and nothing else. -/
def Digits (text : List Char) : Prop := text ≠ [] ∧ ∀ c ∈ text, c.isDigit = true

/-- Nothing, or an exponent. -/
inductive Tail : List Char → Prop where
  | nil : Tail []
  | exponent {mark : Char} {sign digits : List Char} (letter : mark = 'e' ∨ mark = 'E')
    (signed : sign = [] ∨ sign = ['+'] ∨ sign = ['-']) (written : Digits digits) : Tail (mark :: (sign ++ digits))

/-- Digits with an optional point, at least one of them, and an optional exponent. -/
inductive Unsigned : List Char → Prop where
  | whole {digits tail : List Char} (written : Digits digits) (ending : Tail tail) : Unsigned (digits ++ tail)
  | point {digits part tail : List Char} (written : Digits (digits ++ part)) (ending : Tail tail) :
    Unsigned (digits ++ '.' :: (part ++ tail))

section Reading
variable {text tail digits : List Char}

/-- Digits are split from what follows them. -/
theorem span_digits (written : ∀ c ∈ digits, c.isDigit = true)
    (stop : ∀ c, tail.head? = some c → c.isDigit = false) :
    (digits ++ tail).takeWhile Char.isDigit = digits ∧ (digits ++ tail).dropWhile Char.isDigit = tail := by
  have ended : tail.takeWhile Char.isDigit = [] ∧ tail.dropWhile Char.isDigit = tail := by
    cases tail with
    | nil => exact ⟨rfl, rfl⟩
    | cons c rest => simp [stop c rfl]
  rw [List.takeWhile_append_of_pos written, List.dropWhile_append_of_pos written, ended.1, ended.2]
  simp

theorem Tail.stop (ending : Tail tail) (c : Char) (first : tail.head? = some c) : c.isDigit = false := by
  cases ending with
  | nil => cases first
  | exponent letter signed written =>
    cases first
    rcases letter with rfl | rfl <;> rfl

theorem nat?_of_digits (written : Digits text) : ∃ n, nat? text = some n := by
  obtain ⟨some_digit, all_digits⟩ := written
  refine ⟨Text.natOfDigits 10 text, if_neg ?_⟩
  simpa [some_digit] using all_digits

theorem splitSign_of_ne {c : Char} (minus : c ≠ '-') (plus : c ≠ '+') (rest : List Char) :
    splitSign (c :: rest) = (false, c :: rest) := by
  unfold splitSign
  split
  · simp_all
  · simp_all
  · rfl

theorem ne_sign_of_isDigit {c : Char} (digit : c.isDigit = true) : c ≠ '-' ∧ c ≠ '+' := by
  constructor <;> rintro rfl <;> cases digit

theorem splitSign_of_digits (written : Digits digits) (tail : List Char) :
    splitSign (digits ++ tail) = (false, digits ++ tail) := by
  obtain ⟨some_digit, all_digits⟩ := written
  cases digits with
  | nil => exact absurd rfl some_digit
  | cons c rest =>
    obtain ⟨minus, plus⟩ := ne_sign_of_isDigit (all_digits c (by simp))
    exact splitSign_of_ne minus plus _

theorem int?_of_signed {sign : List Char} (signed : sign = [] ∨ sign = ['+'] ∨ sign = ['-'])
    (written : Digits digits) : ∃ n, int? (sign ++ digits) = some n := by
  obtain ⟨n, found⟩ := nat?_of_digits written
  rcases signed with rfl | rfl | rfl
  · have split := splitSign_of_digits written []
    rw [List.append_nil] at split
    exact ⟨n, by simp [int?, split, found]⟩
  · exact ⟨n, by simp [int?, splitSign, found]⟩
  · exact ⟨-n, by simp [int?, splitSign, found]⟩

theorem Tail.exponent?_eq (ending : Tail tail) : ∃ e, exponent? tail = some e := by
  cases ending with
  | nil => exact ⟨0, rfl⟩
  | exponent letter signed written =>
    obtain ⟨n, found⟩ := int?_of_signed signed written
    refine ⟨n, ?_⟩
    rcases letter with rfl | rfl <;> simp [exponent?, found]

theorem Tail.ne_point (ending : Tail tail) (rest : List Char) : tail ≠ '.' :: rest := by
  rintro rfl
  cases ending with
  | exponent letter _ _ => rcases letter with letter | letter <;> cases letter

theorem Unsigned.isSome_unsigned? (unsigned : Unsigned text) (negative : Bool) :
    (unsigned? negative text).isSome := by
  cases unsigned with
  | @whole digits tail written ending =>
    obtain ⟨e, exponent⟩ := ending.exponent?_eq
    obtain ⟨read, left⟩ := span_digits written.2 ending.stop
    simp only [unsigned?, read, left]
    split
    · exact absurd rfl (ending.ne_point _)
    · simp [written.1, exponent]
  | @point digits part tail written ending =>
    obtain ⟨e, exponent⟩ := ending.exponent?_eq
    have before : ∀ c ∈ digits, c.isDigit = true := fun c member => written.2 c (by simp [member])
    have after : ∀ c ∈ part, c.isDigit = true := fun c member => written.2 c (by simp [member])
    have stop : ∀ c, ('.' :: (part ++ tail)).head? = some c → c.isDigit = false := by
      rintro c ⟨⟩
      rfl
    obtain ⟨read, left⟩ := span_digits before stop
    obtain ⟨read', left'⟩ := span_digits after ending.stop
    have some_digit : ¬ (digits ++ part).isEmpty = true := by simpa using written.1
    simp only [unsigned?, read, left, read', left', exponent, if_neg some_digit, Option.map_some, Option.isSome_some]

theorem Unsigned.splitSign_eq (unsigned : Unsigned text) : splitSign text = (false, text) := by
  cases unsigned with
  | whole written ending => exact splitSign_of_digits written _
  | @point digits part tail written ending =>
    cases digits with
    | nil => rfl
    | cons c rest =>
      exact splitSign_of_digits ⟨by simp, fun d member => written.2 d (List.mem_append_left _ member)⟩ _

/-- A decimal text is read as a number. -/
theorem Unsigned.isSome_read? (unsigned : Unsigned text) : (Binary64.read? text).isSome := by
  simp only [Binary64.read?, unsigned.splitSign_eq]
  split
  · rfl
  · exact unsigned.isSome_unsigned? false

end Reading
end Decimal

namespace Lexeme.Numeral
open Peg Scanner Decimal
variable {text : List Char}

theorem digits_of_reads (reads : digits.Reads text) : Digits text := reads_many1 reads

theorem tail_of_exponent (reads : (exponent 'e').Reads text) : Tail text := by
  obtain ⟨mark, afterMark, rfl, marked, more⟩ := reads_all_cons reads
  obtain ⟨sign, ds, rfl, signed, last⟩ := reads_all_cons more
  obtain ⟨c, rfl, small⟩ := reads_one marked
  have signs : sign = [] ∨ sign = ['+'] ∨ sign = ['-'] := by
    rcases reads_opt signed with rfl | one
    · exact .inl rfl
    · obtain ⟨c, rfl, plusMinus⟩ := reads_one one
      rcases Bool.or_eq_true_iff.mp plusMinus with plus | minus
      · exact .inr (.inl (by rw [beq_iff_eq.mp plus]))
      · exact .inr (.inr (by rw [beq_iff_eq.mp minus]))
  have letter : c = 'e' ∨ c = 'E' := eq_of_toLower (beq_iff_eq.mp small) rfl
  have ending := Tail.exponent letter signs (digits_of_reads (reads_all_singleton last))
  exact ending

theorem tail_of_opt_exponent (reads : (opt (exponent 'e')).Reads text) : Tail text := by
  rcases reads_opt reads with rfl | reads
  · exact .nil
  · exact tail_of_exponent reads

theorem unsigned_of_int (reads : int.Reads text) : Unsigned text := by
  rw [← List.append_nil text]
  exact .whole (digits_of_reads reads) .nil

theorem unsigned_of_float (reads : float.Reads text) : Unsigned text := by
  rcases reads_alt reads with withPoint | withExponent
  · obtain ⟨front, tail, rfl, point, last⟩ := reads_all_cons withPoint
    have ending := tail_of_opt_exponent (reads_all_singleton last)
    rcases reads_alt point with inside | leading
    · obtain ⟨ds, more, rfl, written, rest⟩ := reads_all_cons inside
      obtain ⟨mark, more', rfl, marked, rest'⟩ := reads_all_cons rest
      obtain ⟨gap, part, rfl, single, further⟩ := reads_all_cons rest'
      obtain ⟨some_digit, all_digits⟩ := digits_of_reads written
      have part_digits := reads_many (reads_all_singleton further)
      have both : Digits (ds ++ part) := by
        refine ⟨by simp [some_digit], ?_⟩
        intro c member
        exact (List.mem_append.mp member).elim (all_digits c) (part_digits c)
      have split : ds ++ (mark ++ (gap ++ part)) ++ tail = ds ++ '.' :: (part ++ tail) := by
        simp [reads_literal marked, reads_absent single]
      exact split ▸ .point both ending
    · obtain ⟨mark, part, rfl, marked, written⟩ := reads_all_cons leading
      have split : mark ++ part ++ tail = [] ++ '.' :: (part ++ tail) := by simp [reads_literal marked]
      exact split ▸ .point (digits_of_reads (reads_all_singleton written)) ending
  · obtain ⟨ds, tail, rfl, written, last⟩ := reads_all_cons withExponent
    exact .whole (digits_of_reads written) (tail_of_exponent (reads_all_singleton last))

/-- The first two characters take one byte each. -/
theorem splitBytes_hexInt (reads : hexInt.Reads text) :
    ∃ mark digits, Text.splitBytes 2 text = some (mark, digits) ∧ ∀ c ∈ digits, Text.isHexDigit c = true := by
  obtain ⟨mark, ds, rfl, marked, last⟩ := reads_all_cons reads
  obtain ⟨zero, letter, rfl, first, second⟩ := reads_all_cons marked
  obtain ⟨c, rfl, small⟩ := reads_one (reads_all_singleton second)
  have written := (reads_many1 (reads_all_singleton last)).2
  rw [reads_literal first]
  have two : Text.byteSize ['0', c] = 2 := by
    rcases eq_of_toLower (u := 'X') (beq_iff_eq.mp small) rfl with rfl | rfl <;> rfl
  have cut := Text.splitBytes_byteSize ['0', c] ds
  rw [two] at cut
  exact ⟨['0', c], ds, cut, written⟩

end Lexeme.Numeral

namespace Syntax.Numeral
open Lexeme

/-- A decimal integer is a constant, a float where it is too large. -/
theorem isSome_constant?_int {text : List Char} (reads : Numeral.int.Reads text) :
    (constant? ⟨.int, String.ofList text⟩).isSome := by
  simp only [constant?, String.toList_ofList]
  split
  · rfl
  · simpa using (Numeral.unsigned_of_int reads).isSome_read?

theorem isSome_constant?_hex {text : List Char} (reads : Numeral.hexInt.Reads text) :
    (constant? ⟨.hex, String.ofList text⟩).isSome := by
  obtain ⟨mark, digits, split, written⟩ := Numeral.splitBytes_hexInt reads
  have value : hexInt64? digits = some _ := if_pos (List.all_eq_true.mpr written)
  simp [constant?, split, value]

theorem isSome_constant?_float {text : List Char} (reads : Numeral.float.Reads text) :
    (constant? ⟨.float, String.ofList text⟩).isSome := by
  simpa [constant?] using (Numeral.unsigned_of_float reads).isSome_read?

end Syntax.Numeral
end LuaLowering
