import LuaLowering.Decimal.Binary64
import LuaLowering.Text.Digits
/-!
Reading numbers in decimal. A number is an optional sign and then digits with an optional point, at
least one digit in all, and an optional exponent; or, in any case of letters, `inf`, `infinity` or `nan`.
-/
namespace LuaLowering.Decimal

/-- Whether a minus sign stands in front, and the text after a sign. -/
def splitSign : List Char → Bool × List Char
  | '-' :: s => (true, s)
  | '+' :: s => (false, s)
  | s => (false, s)

/-- A whole number in digits only. -/
def nat? (text : List Char) : Option Nat :=
  if text.isEmpty || ! text.all Char.isDigit then none else some (Text.natOfDigits 10 text)

/-- A whole number with an optional sign. -/
def int? (text : List Char) : Option Int :=
  let (negative, digits) := splitSign text
  (nat? digits).map fun n => if negative then -n else n

/-- The exponent at the end of a number; without one, zero. -/
def exponent? : List Char → Option Int
  | [] => some 0
  | c :: s => if c = 'e' || c = 'E' then int? s else none

/-- A number without a sign, given whether it is negative. -/
def unsigned? (negative : Bool) (text : List Char) : Option Binary64 :=
  let whole := text.takeWhile Char.isDigit
  let rest := text.dropWhile Char.isDigit
  let (part, rest) := match rest with
    | '.' :: s => (s.takeWhile Char.isDigit, s.dropWhile Char.isDigit)
    | s => ([], s)
  if (whole ++ part).isEmpty then none
  else (exponent? rest).map fun e =>
    .ofDecimal negative (Text.natOfDigits 10 (whole ++ part)) (e - part.length)

/-- A number by name. -/
def named? (negative : Bool) (text : List Char) : Option Binary64 :=
  let word := String.ofList (text.map Char.toLower)
  if word = "inf" || word = "infinity" then some (.infinity negative)
  else if word = "nan" then some (.nan negative)
  else none

def Binary64.read? (text : List Char) : Option Binary64 :=
  let (negative, s) := splitSign text
  match named? negative s with
  | some x => some x
  | none => unsigned? negative s

end LuaLowering.Decimal
