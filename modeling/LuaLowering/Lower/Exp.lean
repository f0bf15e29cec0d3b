import LuaLowering.Lower.Basic
import LuaLowering.Lower.Numeral
/-!
Lowering expressions: nil, numbers, names, parentheses and single calls. Every other construct is
refused by its name.
-/
namespace LuaLowering
open Lowering Syntax

/-- The cell of a variable that is only a name. -/
def Frame.lowerVar (f : Frame) (v : Var) : Lowering Ref :=
  match v.bareName? with
  | some name => f.resolve name (f.startLoc v.range)
  | none => throw (.unsupported "varSuffix" (f.span v.range))

def Frame.lowerNumeral (f : Frame) (n : Numeral) (range : Option TextRange) : Lowering Lowered :=
  match n.constant?, n.kind with
  | some c, _ =>
    let loc := f.startLoc range
    return .value (← emit .number loc (f.site.number c loc))
  | none, .hexFloat => throw (.unsupported "hexfloat" (f.span range))
  | none, _ => throw (.invariant (.numeral n.text) (f.startLoc range))

mutual

def Frame.lowerExp (f : Frame) : Exp → Lowering Lowered
  | ⟨.nil, range⟩ => do
    let loc := f.startLoc range
    return .value (← emit .nil loc (f.site.nil loc))
  | ⟨.number n, range⟩ => f.lowerNumeral n range
  | ⟨.prefixExp p, range⟩ => f.lowerPrefixExp p range
  | ⟨kind, range⟩ => throw (.unsupported kind.construct (f.span range))

/-- Expressions from left to right. Only the last may give more than one value. -/
def Frame.lowerExps (f : Frame) : List Exp → Lowering (List Lowered)
  | [] => return []
  | e :: es => do
    let item ← f.lowerExp e
    if item.isPack && ! es.isEmpty then
      throw (.unsupported "multivalue" (f.span e.range))
    let items ← f.lowerExps es
    return item :: items

/-- A prefix expression with at most one call. The call stands at the start of `range`. -/
def Frame.lowerPrefixExp (f : Frame) : PrefixExp → (range : Option TextRange) → Lowering Lowered
  | ⟨head, calls⟩, range => do
    let callee ← f.lowerHead head
    match calls with
    | [] => return .value callee
    | [call] => return .pack (← f.lowerCall callee call (f.startLoc range))
    | _ :: second :: _ => throw (.unsupported "chainedcall" (f.span second.range))

def Frame.lowerHead (f : Frame) : Head → Lowering Ref
  | .var v => f.lowerVar v
  | .paren e => do
    let item ← f.lowerExp e
    f.adjustToOne item (f.startLoc e.range)

def Frame.lowerCall (f : Frame) (callee : Ref) : Call → (loc : Location) → Lowering Pack
  | ⟨some _, _, range⟩, _ => throw (.unsupported "methodcall" (f.span range))
  | ⟨none, args, _⟩, loc => do
    let items ← f.lowerArgs args
    let packed ← f.pack items loc
    emit .call loc (f.site.call callee packed loc)

def Frame.lowerArgs (f : Frame) : Args → Lowering (List Lowered)
  | .list es => f.lowerExps es
  | .table e => do
    let item ← f.lowerExp e
    return [.value (← f.adjustToOne item (f.startLoc e.range))]
  | .str e => do
    let item ← f.lowerExp e
    return [.value (← f.adjustToOne item (f.startLoc e.range))]

end
end LuaLowering
