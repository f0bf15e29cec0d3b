import LuaLowering.Module.Basic
/-!
The text of a module: an operation to a line, with the types of its operands and results and its
place. The results of an operation that has several are written after its first one, as in `%3#1`.
-/
namespace LuaLowering

def Location.renderNote (l : Location) : String :=
  if l.isUnknown then "loc(unknown)" else s!"loc({Text.quoted l.file}:{l.line}:{l.column})"

namespace Module

/-- The name under which a value is written. -/
def valueName (m : Module) (v : ValueId) : String :=
  match m.value? v with
  | some ⟨_, .result o index⟩ =>
    match m.op? o with
    | some ⟨_, _, _, _, first :: _ :: _, _⟩ => s!"{first.render}#{index}"
    | _ => v.render
  | _ => v.render

def typeName (m : Module) (v : ValueId) : String := (m.type? v).elim "<invalid>" ValueType.render

def renderResults : List ValueId → String
  | [] => ""
  | [v] => v.render ++ " = "
  | v :: vs => s!"{v.render}:{vs.length + 1} = "

def renderOp (m : Module) (op : Operation) : String :=
  let operands :=
    if op.operands.isEmpty then "" else "(" ++ ", ".intercalate (op.operands.map m.valueName) ++ ")"
  let attributes :=
    if op.attributes.isEmpty then ""
    else " \x7b" ++ ", ".intercalate (op.attributes.map fun (name, a) => s!"{name} = {a.render}") ++ "\x7d"
  let types (vs : List ValueId) := "(" ++ ", ".intercalate (vs.map m.typeName) ++ ")"
  renderResults op.results ++ op.kind.mnemonic ++ operands ++ attributes ++ " : " ++ types op.operands
    ++ " -> " ++ types op.results ++ " " ++ op.loc.renderNote

def renderArgs (m : Module) (args : List ValueId) : String :=
  if args.isEmpty then ""
  else "(" ++ ", ".intercalate (args.map fun v => s!"{m.valueName v}: {m.typeName v}") ++ ")"

def blockLines (m : Module) (b : BlockId) : List String :=
  match m.block? b with
  | none => []
  | some block =>
    ("  " ++ b.render ++ m.renderArgs block.args.toList ++ ":")
      :: (m.blockOps b).map fun op => "    " ++ m.renderOp op

def functionLines (m : Module) (f : Function) : List String :=
  let blocks := (m.region? f.body).elim [] (·.blocks.toList)
  (s!"  func @{f.name}() \x7b" :: blocks.flatMap m.blockLines) ++ [s!"  \x7d {f.loc.renderNote}"]

def render (m : Module) : String :=
  "\n".intercalate (["module \x7b"] ++ m.functions.toList.flatMap m.functionLines ++ ["\x7d"])

end Module
end LuaLowering
