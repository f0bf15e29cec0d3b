import LuaLowering.Decimal.Format
import LuaLowering.Text.Quoted
/-!
Values of a module: their ids, types and origins, and the constants that operations carry. A value is
one Lua value or a pack, an ordered group of Lua values.
-/
namespace LuaLowering

structure ValueId where
  index : Nat
  deriving DecidableEq, Repr

structure OpId where
  index : Nat
  deriving DecidableEq, Repr

structure BlockId where
  index : Nat
  deriving DecidableEq, Repr

structure RegionId where
  index : Nat
  deriving DecidableEq, Repr

def ValueId.render (v : ValueId) : String := s!"%{v.index}"

def BlockId.render (b : BlockId) : String := s!"^bb{b.index}"

inductive ValueType where
  /-- One Lua value: a constant, the cell of a variable, something to call. -/
  | ref
  /-- Call arguments, call results, the right side of an assignment. -/
  | pack
  deriving DecidableEq, Repr

def ValueType.render : ValueType → String
  | .ref => "!lua.ref"
  | .pack => "!lua.pack"

/-- A value that was made as one Lua value. -/
structure Ref where
  id : ValueId
  deriving DecidableEq, Repr

/-- A value that was made as a pack. -/
structure Pack where
  id : ValueId
  deriving DecidableEq, Repr

/-- Where a value comes from. -/
inductive Origin where
  | result (op : OpId) (index : Nat)
  | argument (block : BlockId) (index : Nat)
  deriving DecidableEq, Repr

structure Value where
  type : ValueType
  origin : Origin
  deriving DecidableEq, Repr

/-- A number as a constant. -/
inductive Constant where
  | int (n : Int64)
  | float (x : Decimal.Binary64)
  deriving DecidableEq

/-- A constant that an operation carries. -/
inductive Attribute where
  | i64 (n : Int64)
  | f64 (x : Decimal.Binary64)
  | str (s : String)
  deriving DecidableEq

inductive AttrKind where
  | i64 | f64 | str
  deriving DecidableEq, Repr

def AttrKind.render : AttrKind → String
  | .i64 => "i64"
  | .f64 => "f64"
  | .str => "string"

def Constant.attribute : Constant → Attribute
  | .int n => .i64 n
  | .float x => .f64 x

namespace Attribute

def kind : Attribute → AttrKind
  | .i64 _ => .i64
  | .f64 _ => .f64
  | .str _ => .str

/-- An exponent stands from `10 ^ 16` on and below `10 ^ -4`, without a plus sign. -/
def numbers : Decimal.Format where
  tie := .up
  least := -4
  limit := 16
  plus := false
  nan := "NaN"
  infinity := "inf"
  negInfinity := "-inf"

def render : Attribute → String
  | .i64 n => s!"{n.toInt} : i64"
  | .f64 x => s!"{numbers.render x} : f64"
  | .str s => Text.quoted s

end Attribute
end LuaLowering
