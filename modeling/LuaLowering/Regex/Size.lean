import LuaLowering.Regex.Pattern
/-!
The size of a pattern when its repetitions are written out, which is limited.
-/
namespace LuaLowering.Regex

/-- The most bytes that a pattern may take when its repetitions are written out. -/
def sizeLimit : Nat := 10485760

/-- About how many bytes the table of a class takes. -/
def CharClass.weight : CharClass → Nat
  | .nothing | .property _ _ _ => 0
  | .literal _ | .range _ _ => 8
  | .short _ _ _ | .ascii _ _ _ => 64
  | .union a b | .combine _ a b => a.weight + b.weight
  | .bracketed negated inner _ => 32 + inner.weight + (if negated then 400 else 0)

namespace Pattern

mutual

/-- About how many bytes a pattern takes when its repetitions are written out. -/
def weight : Pattern → Nat
  | .empty _ | .flags _ _ => 0
  | .literal l => 32 * l.char.utf8Size
  | .dot _ => 450
  | .assertion _ _ => 32
  | .charClass c _ => c.weight
  | .times p least most _ => max 1 (most.getD least) * p.weight + 32
  | .group _ p _ => p.weight + 64
  | .alternatives ps _ | .sequence ps _ => weightAll ps

def weightAll : List Pattern → Nat
  | [] => 0
  | p :: ps => weight p + weightAll ps

end

end Pattern

end LuaLowering.Regex
