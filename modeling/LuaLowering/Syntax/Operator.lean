/-!
Operators and how tightly they bind.
-/
namespace LuaLowering.Syntax

inductive UnaryOp where
  | not | neg | len | bnot
  deriving DecidableEq, Repr

inductive BinaryOp where
  | or | and | lt | gt | le | ge | eq | ne | bor | bxor | band | shl | shr | concat
  | add | sub | mul | div | idiv | mod | pow
  deriving DecidableEq, Repr

def UnaryOp.all : List UnaryOp := [.not, .neg, .len, .bnot]

/-- How tightly unary operators bind: less than a power, more than all else. -/
def UnaryOp.level : Nat := 11

namespace BinaryOp

def all : List BinaryOp :=
  [.or, .and, .lt, .gt, .le, .ge, .eq, .ne, .bor, .bxor, .band, .shl, .shr, .concat,
    .add, .sub, .mul, .div, .idiv, .mod, .pow]

/-- How tightly an operator binds; the greater, the tighter. -/
def level : BinaryOp → Nat
  | .or => 1
  | .and => 2
  | .lt | .gt | .le | .ge | .eq | .ne => 3
  | .bor => 4
  | .bxor => 5
  | .band => 6
  | .shl | .shr => 7
  | .concat => 8
  | .add | .sub => 9
  | .mul | .div | .idiv | .mod => 10
  | .pow => 12

/-- Whether operators of the same level group to the right. -/
def groupsRight : BinaryOp → Bool
  | .concat | .pow => true
  | _ => false

/-- In `a o b p c`, whether `p` takes `b` from `o`. -/
def yieldsTo (o p : BinaryOp) : Bool := o.level < p.level || (o.level == p.level && p.groupsRight)

/-- Name of the construct that an operator makes. -/
def construct : BinaryOp → String
  | .or => "operatorOr"
  | .and => "operatorAnd"
  | .lt | .gt | .le | .ge | .eq | .ne => "operatorComparison"
  | .bor | .bxor | .band | .shl | .shr => "operatorBitwise"
  | .concat => "operatorStrcat"
  | .add | .sub => "operatorAddSub"
  | .mul | .div | .idiv | .mod => "operatorMulDivMod"
  | .pow => "operatorPower"

end BinaryOp
end LuaLowering.Syntax
