import LuaLowering.Decimal.Shortest
/-!
Writing numbers in decimal. A `Format` says where notation with an exponent begins and how its
parts look; the digits are the shortest that read back.
-/
namespace LuaLowering.Decimal

structure Format where
  tie : Tie
  /-- The least power of ten of a first digit that is written without an exponent. -/
  least : Int
  /-- From this power of ten of a first digit on there is an exponent. -/
  limit : Int
  /-- Whether an exponent that is not negative has a sign. -/
  plus : Bool
  nan : String
  infinity : String
  negInfinity : String

namespace Format

/-- Digits with a point, where the first digit counts `10 ^ power`. -/
def positional (digits : List Char) (power : Int) : List Char :=
  if power < 0 then '0' :: '.' :: (List.replicate (-power - 1).toNat '0' ++ digits)
  else
    let places := power.toNat + 1
    let whole := digits.take places ++ List.replicate (places - digits.length) '0'
    let part := digits.drop places
    whole ++ '.' :: (if part.isEmpty then ['0'] else part)

/-- One digit before the point, and an exponent. -/
def scientific (f : Format) (digits : List Char) (power : Int) : List Char :=
  let point := if digits.length ≤ 1 then digits else digits.take 1 ++ '.' :: digits.drop 1
  let sign := if power < 0 then ['-'] else if f.plus then ['+'] else []
  point ++ 'e' :: (sign ++ Nat.toDigits 10 power.natAbs)

/-- A positive finite number. -/
def magnitude (f : Format) (x : Binary64) : List Char :=
  let s := shortest f.tie x
  let digits := Nat.toDigits 10 s.digits
  let power := s.exponent + (digits.length - 1 : Nat)
  if f.least ≤ power && power < f.limit then positional digits power else f.scientific digits power

def render (f : Format) (x : Binary64) : String :=
  if x.isNan then f.nan
  else if x.isInfinite then (if x.isNegative then f.negInfinity else f.infinity)
  else
    let sign := if x.isNegative then ['-'] else []
    String.ofList (sign ++ (if x.isZero then ['0', '.', '0'] else f.magnitude x))

end Format
end LuaLowering.Decimal
