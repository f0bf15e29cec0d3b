import LuaLowering.Syntax.Basic
/-!
Expressions as written: operands and operators in a row, without grouping. `FlatExp.assemble` groups
them by how tightly the operators bind. It takes the operators from left to right and puts each one
into the right edge of the tree built so far, below the operators that yield their last operand to it.
-/
namespace LuaLowering.Syntax

/-- An operand with the unary operators before it, outermost first, and where each stands. -/
structure Operand where
  unary : List (UnaryOp × TextRange)
  exp : Exp

structure FlatExp where
  first : Operand
  rest : List (BinaryOp × Operand)

namespace Exp

def unary (op : UnaryOp) (range : Option TextRange) (operand : Exp) : Exp :=
  ⟨.unary op operand, TextRange.join range operand.range⟩

def binary (op : BinaryOp) (lhs rhs : Exp) : Exp :=
  ⟨.binary op lhs rhs, TextRange.join lhs.range rhs.range⟩

/-- Put `op rhs` into the right edge of an expression. -/
def graft (op : BinaryOp) (rhs : Exp) : Exp → Exp
  | ⟨.binary o a b, range⟩ =>
    if o.yieldsTo op then binary o a (graft op rhs b) else binary op ⟨.binary o a b, range⟩ rhs
  | ⟨.unary o a, range⟩ =>
    if UnaryOp.level < op.level then unary o range (graft op rhs a) else binary op ⟨.unary o a, range⟩ rhs
  | lhs => binary op lhs rhs

end Exp

def Operand.toExp (o : Operand) : Exp :=
  o.unary.foldr (fun (op, range) e => Exp.unary op (some range) e) o.exp

def FlatExp.assemble (e : FlatExp) : Exp :=
  e.rest.foldl (fun lhs (op, operand) => Exp.graft op operand.toExp lhs) e.first.toExp

end LuaLowering.Syntax
