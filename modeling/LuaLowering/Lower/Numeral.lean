import LuaLowering.Decimal.Read
import LuaLowering.Module.Value
import LuaLowering.Syntax.Basic
import LuaLowering.Text.Bytes
/-!
The constants that numerals stand for. A decimal integer that does not fit into 64 bits is a float, a
hexadecimal one wraps around, and a hexadecimal float has no constant.
-/
namespace LuaLowering.Syntax
open Text

/-- A whole number of 64 bits. -/
def int64? (text : List Char) : Option Int64 :=
  (Decimal.int? text).bind fun n =>
    if Int64.minValue.toInt ≤ n && n ≤ Int64.maxValue.toInt then some (Int64.ofInt n) else none

/-- The last 64 bits of a hexadecimal number: each digit moves those before it up by four bits, and what moves out is
lost. -/
def hexBits (digits : List Char) : UInt64 := digits.foldl (fun bits c => bits * 16 + .ofNat (digitValue c)) 0

def hexInt64? (digits : List Char) : Option Int64 :=
  if digits.all isHexDigit then some (hexBits digits).toInt64 else none

def Numeral.constant? (n : Numeral) : Option Constant :=
  let text := n.text.toList
  match n.kind with
  | .int =>
    match int64? text with
    | some i => some (.int i)
    | none => (Decimal.Binary64.read? text).map .float
  | .hex => do
    let (_, digits) ← splitBytes 2 text
    return .int (← hexInt64? digits)
  | .float => (Decimal.Binary64.read? text).map .float
  | .hexFloat => none

end LuaLowering.Syntax
