import LuaLowering.Json
import LuaLowering.Module.Basic
/-!
Modules as JSON: the lists of a module one by one, with ids as numbers.
-/
namespace LuaLowering

def Location.toJson (l : Location) : Json :=
  .obj [("file", .str l.file), ("line", .nat l.line), ("column", .nat l.column)]

def ValueType.toJson : ValueType → Json
  | .ref => .str "Ref"
  | .pack => .str "Pack"

def Origin.toJson : Origin → Json
  | .result op index => .obj [("OpResult", .obj [("op", .nat op.index), ("index", .nat index)])]
  | .argument block index => .obj [("BlockArg", .obj [("block", .nat block.index), ("index", .nat index)])]

def Value.toJson (v : Value) : Json := .obj [("ty", v.type.toJson), ("def", v.origin.toJson)]

def Attribute.toJson : Attribute → Json
  | .i64 n => .obj [("I64", .int n.toInt)]
  | .f64 x => .obj [("F64", .float x)]
  | .str s => .obj [("Str", .str s)]

def OpKind.label : OpKind → String
  | .nil => "Nil"
  | .number => "Number"
  | .getOrAlloc => "GetOrAlloc"
  | .concat => "Concat"
  | .unpack => "Unpack"
  | .assign => "Assign"
  | .call => "Call"
  | .ret => "Return"

def Operation.toJson (op : Operation) : Json :=
  .obj [
    ("kind", .str op.kind.label),
    ("block", .nat op.block.index),
    ("operands", .arr (op.operands.map fun v => .nat v.index)),
    ("attributes", .obj (op.attributes.map fun (name, a) => (name, a.toJson))),
    ("results", .arr (op.results.map fun v => .nat v.index)),
    ("loc", op.loc.toJson)]

def Block.toJson (b : Block) : Json :=
  .obj [
    ("region", .nat b.region.index),
    ("args", .arr (b.args.toList.map fun v => .nat v.index)),
    ("ops", .arr (b.ops.toList.map fun o => .nat o.index))]

def Region.toJson (r : Region) : Json := .obj [("blocks", .arr (r.blocks.toList.map fun b => .nat b.index))]

def Function.toJson (f : Function) : Json :=
  .obj [("name", .str f.name), ("body", .nat f.body.index), ("loc", f.loc.toJson)]

def Module.toJson (m : Module) : Json :=
  .obj [
    ("functions", .arr (m.functions.toList.map Function.toJson)),
    ("regions", .arr (m.regions.toList.map Region.toJson)),
    ("blocks", .arr (m.blocks.toList.map Block.toJson)),
    ("ops", .arr (m.ops.toList.map Operation.toJson)),
    ("values", .arr (m.values.toList.map Value.toJson))]

end LuaLowering
