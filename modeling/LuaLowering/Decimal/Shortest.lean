import LuaLowering.Decimal.Binary64
/-!
The shortest decimal that reads back as a given number. All reals between the midpoints to its two
neighbours round to a number, the midpoints too when its fraction is even. For one digit, two and so
on the number's two neighbours on that decimal grid are tried; the first grid with one that reads
back wins, and of two the nearer.
-/
namespace LuaLowering.Decimal

/-- Which of two equally near decimals is taken. -/
inductive Tie where
  | up | even
  deriving DecidableEq, Repr

/-- The decimal `digits · 10 ^ exponent`. -/
structure Scientific where
  digits : Nat
  exponent : Int
  deriving DecidableEq, Repr

namespace Scientific

/-- Without zeros at the end. -/
def trim : (fuel : Nat) → Scientific → Scientific
  | 0, s => s
  | fuel + 1, s => if s.digits % 10 = 0 then trim fuel ⟨s.digits / 10, s.exponent + 1⟩ else s

end Scientific

/-- The reals that round to a number: `lower` to `upper` in units of `2 ^ unit`, around `middle`. -/
structure Interval where
  lower : Nat
  middle : Nat
  upper : Nat
  unit : Int
  closed : Bool

namespace Binary64

def interval (x : Binary64) : Interval :=
  let m := x.mantissa
  let atPower := x.fraction = 0 && 1 < x.biased
  ⟨4 * m - (if atPower then 1 else 2), 4 * m, 4 * m + 2, x.exponent - 2, m % 2 = 0⟩

end Binary64

namespace Interval

/-- The size of `n` units, in a measure in which both units and steps of the grid `10 ^ p` are whole. -/
def onGrid (i : Interval) (p : Int) (n : Nat) : Nat :=
  n * Nat.pow 2 i.unit.toNat * Nat.pow 10 (-p).toNat

/-- A step of the grid `10 ^ p`, in the same measure as `onGrid`. -/
def scale (i : Interval) (p : Int) : Nat := Nat.pow 2 (-i.unit).toNat * Nat.pow 10 p.toNat

/-- Whether `d · 10 ^ p` lies in the interval. -/
def holds (i : Interval) (p : Int) (d : Nat) : Bool :=
  let x := d * i.scale p
  if i.closed then i.onGrid p i.lower ≤ x && x ≤ i.onGrid p i.upper
  else i.onGrid p i.lower < x && x < i.onGrid p i.upper

/-- The decimal on the grid `10 ^ p` that lies in the interval and is nearest to its middle. -/
def nearest? (i : Interval) (tie : Tie) (p : Int) : Option Nat :=
  let value := i.onGrid p i.middle
  let step := i.scale p
  let d := value / step
  match i.holds p d, i.holds p (d + 1) with
  | false, false => none
  | true, false => some d
  | false, true => some (d + 1)
  | true, true =>
    let below := value - d * step
    let above := (d + 1) * step - value
    if below < above then some d
    else if above < below then some (d + 1)
    else match tie with
      | .up => some (d + 1)
      | .even => some (d + d % 2)

/-- Whole part of the decimal logarithm of the middle, searched downwards from `p`. -/
def magnitude (i : Interval) : (fuel : Nat) → (p : Int) → Int
  | 0, p => p
  | fuel + 1, p => if i.scale p ≤ i.onGrid p i.middle then p else i.magnitude fuel (p - 1)

/-- The first grid, from `10 ^ p` downwards, that has a decimal in the interval. -/
def search (i : Interval) (tie : Tie) : (fuel : Nat) → (p : Int) → Scientific
  | 0, p => ⟨i.onGrid p i.middle / i.scale p, p⟩
  | fuel + 1, p =>
    match i.nearest? tie p with
    | some d => ⟨d, p⟩
    | none => i.search tie fuel (p - 1)

end Interval

/-- The shortest decimal that reads back as the positive finite number of this magnitude. -/
def shortest (tie : Tie) (x : Binary64) : Scientific :=
  let i := x.interval
  let top : Int := (i.middle.log2 + i.unit) * 30103 / 100000 + 2
  (i.search tie 20 (i.magnitude 8 top)).trim 20

end LuaLowering.Decimal
