import LuaLowering.Module.Operation
/-!
Modules: functions whose bodies are regions of blocks of operations. Everything is kept in arrays by
number, and nothing is ever removed.
-/
namespace LuaLowering

structure Function where
  name : String
  body : RegionId
  loc : Location
  deriving DecidableEq, Repr

structure Region where
  blocks : Array BlockId
  deriving DecidableEq, Repr

structure Block where
  region : RegionId
  args : Array ValueId
  ops : Array OpId
  deriving DecidableEq, Repr

structure Module where
  functions : Array Function
  regions : Array Region
  blocks : Array Block
  ops : Array Operation
  values : Array Value
  deriving DecidableEq

namespace Module

def empty : Module := ⟨#[], #[], #[], #[], #[]⟩

def function? (m : Module) (name : String) : Option Function := m.functions.find? (·.name == name)

def region? (m : Module) (r : RegionId) : Option Region := m.regions[r.index]?

def block? (m : Module) (b : BlockId) : Option Block := m.blocks[b.index]?

def op? (m : Module) (o : OpId) : Option Operation := m.ops[o.index]?

def value? (m : Module) (v : ValueId) : Option Value := m.values[v.index]?

def type? (m : Module) (v : ValueId) : Option ValueType := (m.value? v).map (·.type)

/-- The operation that gives a value, if it is a result. -/
def definingOp? (m : Module) (v : ValueId) : Option Operation :=
  match m.value? v with
  | some ⟨_, .result op _⟩ => m.op? op
  | _ => none

/-- The operations of a block in order. -/
def blockOps (m : Module) (b : BlockId) : List Operation :=
  match m.block? b with
  | some block => block.ops.toList.filterMap m.op?
  | none => []

/-- The first block of a function. -/
def entryBlock? (m : Module) (name : String) : Option BlockId := do
  let f ← m.function? name
  let r ← m.region? f.body
  r.blocks[0]?

end Module
end LuaLowering
