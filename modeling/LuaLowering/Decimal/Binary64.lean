/-!
Binary floating-point numbers of 64 bits, kept as their bits: a sign, eleven bits of exponent and 52
of fraction. A finite number is `m · 2 ^ q`; `ofRatio` rounds a quotient to the nearest one, a tie
to the even fraction.
-/
namespace LuaLowering.Decimal

structure Binary64 where
  bits : UInt64
  deriving DecidableEq, Repr

namespace Binary64

/-- Number of bits of the fraction. -/
def fractionBits : Nat := 52

/-- The weight of the sign bit, `2 ^ 63`. -/
def signWeight : Nat := 0x8000000000000000

/-- The weight of the last bit of the exponent, `2 ^ 52`. Fractions are less. -/
def exponentWeight : Nat := 0x10000000000000

/-- Exponent of the last bit of the smallest numbers. -/
def minExponent : Int := -1074

/-- The biased exponent of infinities and NaN. -/
def maxBiased : Nat := 2047

def ofParts (negative : Bool) (magnitude : Nat) : Binary64 :=
  ⟨UInt64.ofNat (if negative then signWeight + magnitude else magnitude)⟩

def infinity (negative : Bool) : Binary64 := ofParts negative (maxBiased * exponentWeight)

def nan (negative : Bool) : Binary64 := ofParts negative (maxBiased * exponentWeight + exponentWeight / 2)

def zero (negative : Bool) : Binary64 := ofParts negative 0

def isNegative (x : Binary64) : Bool := signWeight ≤ x.bits.toNat

/-- The bits without the sign. -/
def magnitude (x : Binary64) : Nat := x.bits.toNat % signWeight

def biased (x : Binary64) : Nat := x.magnitude / exponentWeight

def fraction (x : Binary64) : Nat := x.magnitude % exponentWeight

def isNan (x : Binary64) : Bool := x.biased == maxBiased && x.fraction != 0

def isInfinite (x : Binary64) : Bool := x.biased == maxBiased && x.fraction == 0

def isZero (x : Binary64) : Bool := x.magnitude == 0

/-- The factor `m` of a finite number `m · 2 ^ q`. -/
def mantissa (x : Binary64) : Nat :=
  if x.biased = 0 then x.fraction else exponentWeight + x.fraction

/-- The exponent `q` of a finite number `m · 2 ^ q`. -/
def exponent (x : Binary64) : Int := minExponent + (x.biased - 1 : Nat)

/-- The quotient `n / d` rounded to a whole number, a half to the even one. -/
def roundEven (n d : Nat) : Nat :=
  let q := n / d
  let r := n % d
  if 2 * r < d then q
  else if d < 2 * r then q + 1
  else q + q % 2

/-- Whole part of the binary logarithm of `n / d`, for positive `n` and `d`. -/
def log2Ratio (n d : Nat) : Int :=
  let e : Int := n.log2 - d.log2
  if d * Nat.pow 2 e.toNat ≤ n * Nat.pow 2 (-e).toNat then e else e - 1

/-- The number nearest to `n / d`, for positive `n` and `d`; beyond the greatest, infinity. -/
def ofRatio (negative : Bool) (n d : Nat) : Binary64 :=
  let q := max (log2Ratio n d - fractionBits) minExponent
  let m := roundEven (n * Nat.pow 2 (-q).toNat) (d * Nat.pow 2 q.toNat)
  let magnitude := (q - minExponent).toNat * exponentWeight + m
  if maxBiased * exponentWeight ≤ magnitude then infinity negative else ofParts negative magnitude

/-- The number nearest to `n · 10 ^ e`. Far outside the range the power is not computed. -/
def ofDecimal (negative : Bool) (n : Nat) (e : Int) : Binary64 :=
  let places : Int := (Nat.toDigits 10 n).length
  if n = 0 || places + e < -330 then zero negative
  else if 320 < places + e then infinity negative
  else ofRatio negative (n * Nat.pow 10 e.toNat) (Nat.pow 10 (-e).toNat)

end Binary64
end LuaLowering.Decimal
