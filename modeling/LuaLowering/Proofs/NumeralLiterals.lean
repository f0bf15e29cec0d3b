import LuaLowering.Proofs.LiteralScripts
/-!
# Numerals in scripts

The numerals of Lua, by their form (`NumeralClass.Written`): digits with an optional point and an optional exponent,
decimal or hexadecimal. The scanner of its class reads each of them whole (`scan_of_written`), so a script that assigns
it has a number of that class and with that text as its value (`Chunk.parse_numeral`).
-/
namespace LuaLowering

namespace Syntax
open Peg Peg.Scanner Lexeme

/-! ## The numerals of Lua -/

/-- Digits with at most one point, and at least one digit. -/
inductive Mantissa (isDigit : Char → Bool) : (pointed : Bool) → List Char → Prop where
  | whole {digits : List Char} (some_digit : digits ≠ []) (each : ∀ c ∈ digits, isDigit c = true) :
    Mantissa isDigit false digits
  | point {before after : List Char} (some_digit : before ++ after ≠ [])
    (each : ∀ c ∈ before ++ after, isDigit c = true) : Mantissa isDigit true (before ++ '.' :: after)

/-- Nothing, or one of the marks, an optional sign and decimal digits. -/
inductive Scale (marks : List Char) : (scaled : Bool) → List Char → Prop where
  | none : Scale marks false []
  | exponent {mark : Char} {sign digits : List Char} (marked : mark ∈ marks)
    (signed : sign = [] ∨ sign = ['+'] ∨ sign = ['-']) (written : Decimal.Digits digits) :
    Scale marks true (mark :: (sign ++ digits))

namespace NumeralClass

/-- A numeral with a point or an exponent is a float. -/
def ofForm : (hexadecimal fractional : Bool) → NumeralClass
  | false, false => .int
  | false, true => .float
  | true, false => .hex
  | true, true => .hexFloat

/-- The texts of numerals, with their class. -/
inductive Written : NumeralClass → List Char → Prop where
  | decimal {pointed scaled : Bool} {m e : List Char} (mantissa : Mantissa Char.isDigit pointed m)
    (scale : Scale ['e', 'E'] scaled e) : Written (ofForm false (pointed || scaled)) (m ++ e)
  | hexadecimal {mark : Char} {pointed scaled : Bool} {m e : List Char} (letter : mark = 'x' ∨ mark = 'X')
    (mantissa : Mantissa Text.isHexDigit pointed m) (scale : Scale ['p', 'P'] scaled e) :
    Written (ofForm true (pointed || scaled)) ('0' :: mark :: (m ++ e))

end NumeralClass

/-! ## Reading them -/

section
variable {p : Char → Bool} {behind : Scanner} {marks : List Char} {letter mark : Char} {pointed scaled : Bool}
  {before after digits sign tail m e : List Char}

theorem Scale.stops (scale : Scale marks scaled e) {q : Char → Bool} (outside : ∀ c ∈ marks, q c = false) :
    Stops q e := by
  cases scale with
  | none => exact stops_nil q
  | exponent marked _ _ => exact stops_cons.mpr (outside _ marked)

theorem sides_eq_some (dot : p '.' = false) (some_digit : before ++ after ≠ [])
    (each : ∀ c ∈ before ++ after, p c = true) (stops : Stops p tail)
    (found : behind (after ++ tail) = some (after, tail)) :
    Numeral.sides p behind (before ++ '.' :: (after ++ tail)) = some (before ++ '.' :: after, tail) := by
  have stop : Stops p ('.' :: (after ++ tail)) := stops_cons.mpr dot
  obtain ⟨eachBefore, eachAfter⟩ := List.forall_mem_append.mp each
  have point : Numeral.point ('.' :: (after ++ tail)) = some (['.'], after ++ tail) := rfl
  cases before with
  | nil =>
    have front : seq (many1 p) (seq Numeral.point behind) ('.' :: (after ++ tail)) = none :=
      seq_eq_none (many1_eq_none stop)
    have back : seq Numeral.point (many1 p) ('.' :: (after ++ tail)) = some (['.'] ++ after, tail) :=
      seq_eq_some point (many1_eq_some some_digit eachAfter stops)
    rw [List.nil_append, Numeral.sides, alt_of_none front]
    exact back
  | cons c before =>
    have digits := many1_eq_some (List.cons_ne_nil c before) eachBefore stop
    exact alt_of_some (seq_eq_some digits (seq_eq_some point found))

/-- An exponent is read whole. -/
theorem exponent_eq_some (small : mark.toLower = letter) (signed : sign = [] ∨ sign = ['+'] ∨ sign = ['-'])
    (written : Decimal.Digits digits) :
    Numeral.exponent letter (mark :: (sign ++ digits)) = some (mark :: (sign ++ digits), []) := by
  have last : Numeral.digits digits = some (digits, []) := by
    have read := many1_eq_some written.1 written.2 (stops_nil Char.isDigit)
    rwa [List.append_nil] at read
  have front : one (·.toLower == letter) (mark :: (sign ++ digits)) = some ([mark], sign ++ digits) := by
    simp [one, small]
  have middle : opt (one fun c => c == '+' || c == '-') (sign ++ digits) = some (sign, digits) := by
    rcases signed with rfl | rfl | rfl
    · -- the first digit is no sign
      cases digits with
      | nil => rfl
      | cons c digits =>
        obtain ⟨minus, plus⟩ := Decimal.ne_sign_of_isDigit (written.2 c List.mem_cons_self)
        simp [opt, one, minus, plus]
    · rfl
    · rfl
  rw [Numeral.exponent, all_cons, all_pair]
  exact seq_eq_some front (seq_eq_some middle last)

theorem Scale.opt_eq_some (small : ∀ c ∈ marks, c.toLower = letter) (scale : Scale marks scaled e) :
    opt (Numeral.exponent letter) e = some (e, []) := by
  cases scale with
  | none => rfl
  | exponent marked signed written => rw [opt, exponent_eq_some (small _ marked) signed written]

/-- The marks of exponents are no digits, and no points. -/
structure MarksEnd (p : Char → Bool) (marks : List Char) (letter : Char) : Prop where
  dot : p '.' = false
  small : ∀ c ∈ marks, c.toLower = letter
  digit : ∀ c ∈ marks, p c = false
  point : ∀ c ∈ marks, (c == '.') = false

theorem fractional_eq_some (ends : MarksEnd p marks letter)
    (reads : ∀ after tail, (∀ c ∈ after, p c = true) → Stops p tail → Stops (· == '.') tail →
      behind (after ++ tail) = some (after, tail))
    (mantissa : Mantissa p pointed m) (scale : Scale marks scaled e) (isFractional : (pointed || scaled) = true) :
    Numeral.fractional p behind letter (m ++ e) = some (m ++ e, []) := by
  have stops : Stops p e := scale.stops ends.digit
  have noPoint : Stops (· == '.') e := scale.stops ends.point
  have optional := scale.opt_eq_some ends.small
  cases mantissa with
  | point some_digit each =>
    have found := reads _ e (fun c member => each c (List.mem_append_right _ member)) stops noPoint
    have read := sides_eq_some ends.dot some_digit each stops found
    have whole := seq_eq_some read optional
    rw [List.append_assoc, List.cons_append] at whole ⊢
    exact alt_of_some whole
  | whole some_digit each =>
    have noSides : seq (Numeral.sides p behind) (opt (Numeral.exponent letter)) (m ++ e) = none :=
      seq_eq_none (Numeral.sides_eq_none ends.dot some_digit each stops noPoint)
    rw [Numeral.fractional, alt_of_none noSides]
    cases scale with
    | none => cases isFractional
    | exponent marked signed written =>
      have exponent := exponent_eq_some (ends.small _ marked) signed written
      exact seq_eq_some (many1_eq_some some_digit each stops) exponent

theorem hexMark_eq_some {c : Char} (cross : c = 'x' ∨ c = 'X') (s : List Char) :
    Numeral.hexMark ('0' :: c :: s) = some (['0', c], s) := by
  rcases cross with rfl | rfl <;> rfl

end

namespace NumeralClass

theorem marksEnd_decimal : MarksEnd Char.isDigit ['e', 'E'] 'e' :=
  ⟨rfl, by simp, by simp, by simp⟩

theorem marksEnd_hexadecimal : MarksEnd Text.isHexDigit ['p', 'P'] 'p' :=
  ⟨rfl, by simp, by simp [Text.isHexDigit], by simp⟩

theorem whole_eq_some {p : Char → Bool} {marks m e : List Char} {pointed scaled : Bool}
    (mantissa : Mantissa p pointed m) (scale : Scale marks scaled e) (plain : (pointed || scaled) = false) :
    many1 p (m ++ e) = some (m ++ e, []) := by
  obtain ⟨rfl, rfl⟩ := Bool.or_eq_false_iff.mp plain
  cases mantissa with
  | whole some_digit each =>
    cases scale with
    | none =>
      have read := many1_eq_some some_digit each (stops_nil p)
      rwa [List.append_nil] at read ⊢

/-- The scanner of its class reads a numeral whole. -/
theorem scan_of_written {k : NumeralClass} {text : List Char} (written : k.Written text) :
    k.scan text = some (text, []) := by
  cases written with
  | @decimal pointed scaled m e mantissa scale =>
    cases isFractional : pointed || scaled with
    | false => exact whole_eq_some mantissa scale isFractional
    | true =>
      show Numeral.float (m ++ e) = some (m ++ e, [])
      rw [Numeral.float_eq_fractional]
      refine fractional_eq_some marksEnd_decimal (fun after tail each stops noPoint => ?_) mantissa scale isFractional
      have noSecond : absent Numeral.point (after ++ tail) = some ([], after ++ tail) := by
        rw [absent, Numeral.point_none (Numeral.stops_point_of_digits rfl each noPoint)]
      exact seq_eq_some noSecond (many_eq_some each stops)
  | @hexadecimal mark pointed scaled m e letter mantissa scale =>
    have front := hexMark_eq_some letter (m ++ e)
    cases isFractional : pointed || scaled with
    | false =>
      show Numeral.hexInt ('0' :: mark :: (m ++ e)) = some ('0' :: mark :: (m ++ e), [])
      rw [Numeral.hexInt, all_pair]
      exact seq_eq_some front (whole_eq_some mantissa scale isFractional)
    | true =>
      show Numeral.hexFloat ('0' :: mark :: (m ++ e)) = some ('0' :: mark :: (m ++ e), [])
      rw [Numeral.hexFloat_eq_fractional]
      have number := fractional_eq_some marksEnd_hexadecimal (fun _ _ each stops _ => many_eq_some each stops) mantissa
        scale isFractional
      exact seq_eq_some front number

end NumeralClass

theorem isLiteral_numeral {k : NumeralClass} {t : String} (written : k.Written t.toList) :
    IsLiteral t (.number ⟨k, t⟩) := by
  have inClass : (Numeral.mk k t).inClass = true := by
    simp [Numeral.inClass, NumeralClass.scan_of_written written]
  have opens := opens_numeral inClass []
  refine ⟨.of_shape opens (by rfl), .pick opens (by rfl) ((matches_numeral inClass []).post ?_)⟩
  rintro ts ⟨tree, rfl, range, u, rfl, given⟩
  exact ⟨_, rfl, .bind_ok given (.ok rfl)⟩

/-- A script that assigns a numeral of Lua is one assignment of a number, which has the text of the numeral and its
class. -/
theorem Chunk.parse_numeral {k : NumeralClass} {t : String} (written : k.Written t.toList) (file : String) :
    ∃ chunk, Chunk.parse ⟨file, "x = " ++ t⟩ = .ok chunk ∧ chunk.erase = assigning "x" (.number ⟨k, t⟩) := by
  obtain ⟨chunk, parsed, same⟩ := parse_literal (n := "x") (isLiteral_numeral written) (by decide) file
  exact ⟨chunk, parsed, by simpa [assigning, Chunk.relabel] using same⟩

/-- A point without digits before it, a digit that is the mark of decimal exponents, and a sign; and a point without
digits behind it. -/
theorem Chunk.parse_numeral_points :
    (NumeralClass.hexFloat.Written "0X.eEp-07".toList ∧
      ∃ chunk, Chunk.parse ⟨"main.lua", "x = 0X.eEp-07"⟩ = .ok chunk ∧
        chunk.erase = assigning "x" (.number ⟨.hexFloat, "0X.eEp-07"⟩)) ∧
    (NumeralClass.float.Written "3.E5".toList ∧
      ∃ chunk, Chunk.parse ⟨"main.lua", "x = 3.E5"⟩ = .ok chunk ∧
        chunk.erase = assigning "x" (.number ⟨.float, "3.E5"⟩)) := by
  have hexMantissa : Mantissa Text.isHexDigit true ([] ++ '.' :: ['e', 'E']) :=
    .point (by simp) (List.all_eq_true.mp rfl)
  have hexScale : Scale ['p', 'P'] true ('p' :: (['-'] ++ ['0', '7'])) :=
    .exponent (by simp) (.inr (.inr rfl)) ⟨by simp, List.all_eq_true.mp rfl⟩
  have hexadecimal : NumeralClass.hexFloat.Written "0X.eEp-07".toList := .hexadecimal (.inr rfl) hexMantissa hexScale
  have mantissa : Mantissa Char.isDigit true (['3'] ++ '.' :: []) := .point (by simp) (List.all_eq_true.mp rfl)
  have scale : Scale ['e', 'E'] true ('E' :: ([] ++ ['5'])) :=
    .exponent (by simp) (.inl rfl) ⟨by simp, List.all_eq_true.mp rfl⟩
  have decimal : NumeralClass.float.Written "3.E5".toList := .decimal mantissa scale
  exact ⟨⟨hexadecimal, parse_numeral hexadecimal "main.lua"⟩, decimal, parse_numeral decimal "main.lua"⟩

end Syntax
end LuaLowering
