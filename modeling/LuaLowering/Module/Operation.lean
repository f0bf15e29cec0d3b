import LuaLowering.Location
import LuaLowering.Module.Value
/-!
Operations and the catalogue of those in use. Each kind has a fixed definition: which operands it
takes, which results it gives, which attributes it needs and whether it ends a block.
-/
namespace LuaLowering

inductive OpKind where
  | nil | number | getOrAlloc | concat | unpack | assign | call | ret
  deriving DecidableEq, Repr

namespace OpKind

def all : List OpKind := [.nil, .number, .getOrAlloc, .concat, .unpack, .assign, .call, .ret]

def mnemonic : OpKind → String
  | .nil => "lua.nil"
  | .number => "lua.number"
  | .getOrAlloc => "lua.get_or_alloc"
  | .concat => "lua.concat"
  | .unpack => "lua.unpack"
  | .assign => "lua.assign"
  | .call => "lua.call"
  | .ret => "return"

end OpKind

/-- An operation in a block, with its attributes in order of their names. -/
structure Operation where
  kind : OpKind
  block : BlockId
  operands : List ValueId
  attributes : List (String × Attribute)
  results : List ValueId
  loc : Location
  deriving DecidableEq

def Operation.attribute? (op : Operation) (name : String) : Option Attribute := op.attributes.lookup name

/-- What an operand may be. -/
inductive TypeConstraint where
  | ref | pack | any
  deriving DecidableEq, Repr

def TypeConstraint.admits : TypeConstraint → ValueType → Bool
  | .any, _ => true
  | .ref, .ref => true
  | .pack, .pack => true
  | _, _ => false

inductive OperandShape where
  | fixed (types : List TypeConstraint)
  | variadic (type : TypeConstraint)
  deriving DecidableEq, Repr

inductive ResultShape where
  | fixed (types : List ValueType)
  | variadic (type : ValueType)
  deriving DecidableEq, Repr

/-- An attribute that an operation needs, and the kinds it may have. -/
structure AttrSpec where
  name : String
  kinds : List AttrKind
  deriving DecidableEq, Repr

structure OpDef where
  kind : OpKind
  operands : OperandShape
  results : ResultShape
  attributes : List AttrSpec
  terminator : Bool
  deriving DecidableEq, Repr

def OpKind.definition : OpKind → OpDef
  | .nil => ⟨.nil, .fixed [], .fixed [.ref], [], false⟩
  | .number => ⟨.number, .fixed [], .fixed [.ref], [⟨"value", [.i64, .f64]⟩], false⟩
  | .getOrAlloc => ⟨.getOrAlloc, .fixed [], .fixed [.ref], [⟨"var", [.str]⟩], false⟩
  | .concat => ⟨.concat, .variadic .any, .fixed [.pack], [], false⟩
  | .unpack => ⟨.unpack, .fixed [.pack], .variadic .ref, [], false⟩
  | .assign => ⟨.assign, .fixed [.ref, .ref], .fixed [], [], false⟩
  | .call => ⟨.call, .fixed [.ref, .pack], .fixed [.pack], [], false⟩
  | .ret => ⟨.ret, .fixed [], .fixed [], [], true⟩

/-- The kinds of operations that may be used. -/
structure Catalogue where
  kinds : List OpKind
  deriving DecidableEq, Repr

namespace Catalogue

/-- All kinds. -/
def full : Catalogue := ⟨OpKind.all⟩

def without (c : Catalogue) (kind : OpKind) : Catalogue := ⟨c.kinds.filter (· != kind)⟩

def get? (c : Catalogue) (kind : OpKind) : Option OpDef :=
  if kind ∈ c.kinds then some kind.definition else none

def definitions (c : Catalogue) : List OpDef := c.kinds.map OpKind.definition

def size (c : Catalogue) : Nat := c.kinds.length

/-- Whether an operation of this kind ends a block. -/
def endsBlock (c : Catalogue) (kind : OpKind) : Bool := (c.get? kind).any (·.terminator)

end Catalogue
end LuaLowering
