import LuaLowering.Module.Basic
/-!
Checking a module against a catalogue. `Module.verify` lists all that is wrong, function by function
and operation by operation; a module is fit for use when the list is empty.
-/
namespace LuaLowering

/-- What is wrong with one operation. -/
inductive OpFault where
  | unknownOp
  | operandCount (expected actual : Nat)
  | operandType (index : Nat) (actual : ValueType)
  | resultCount (expected actual : Nat)
  | resultType (index : Nat) (actual : ValueType)
  | missingAttribute (name : String)
  | attributeKind (name : String) (actual : AttrKind)
  | useBeforeDef (value : ValueId)
  deriving DecidableEq, Repr

inductive VerifyError where
  | missingMain
  | duplicateFunction (name : String)
  | emptyRegion (function : String)
  | entryBlockArguments (function : String) (count : Nat)
  | missingTerminator (function : String) (block : BlockId)
  | terminatorNotLast (function : String) (block : BlockId) (loc : Location)
  | op (function : String) (kind : OpKind) (loc : Location) (fault : OpFault)
  deriving DecidableEq, Repr

namespace VerifyError

def location? : VerifyError → Option Location
  | .terminatorNotLast _ _ loc => some loc
  | .op _ _ loc _ => some loc
  | _ => none

/-- The message for a fault of an operation, given the mnemonic and the function's name. -/
def opMessage (op function : String) : OpFault → String
  | .unknownOp => s!"'{op}' in '{function}' is not a registered operation"
  | .operandCount expected actual => s!"'{op}' in '{function}' expects {expected} operand(s), got {actual}"
  | .operandType index actual => s!"operand #{index} of '{op}' in '{function}' has invalid type {actual.render}"
  | .resultCount expected actual => s!"'{op}' in '{function}' expects {expected} result(s), got {actual}"
  | .resultType index actual => s!"result #{index} of '{op}' in '{function}' has invalid type {actual.render}"
  | .missingAttribute name => s!"'{op}' in '{function}' requires attribute '{name}'"
  | .attributeKind name actual => s!"attribute '{name}' of '{op}' in '{function}' cannot be {actual.render}"
  | .useBeforeDef value => s!"'{op}' in '{function}' uses {value.render} before its definition"

def message : VerifyError → String
  | .missingMain => "module has no 'main' function"
  | .duplicateFunction name => s!"function '{name}' is defined twice"
  | .emptyRegion function => s!"body of '{function}' has no blocks"
  | .entryBlockArguments function count => s!"entry block of '{function}' has {count} argument(s), expected none"
  | .missingTerminator function block => s!"block {block.render} of '{function}' does not end in a terminator"
  | .terminatorNotLast function block _ => s!"terminator in the middle of block {block.render} of '{function}'"
  | .op function kind _ fault => opMessage kind.mnemonic function fault

end VerifyError

/-- Where an operand or a result has another type than it should, from number `index` on. A value
without a type is not looked at. -/
def mistyped (fault : Nat → ValueType → OpFault) (admits : Nat → ValueType → Bool) :
    (index : Nat) → List (Option ValueType) → List OpFault
  | _, [] => []
  | i, none :: types => mistyped fault admits (i + 1) types
  | i, some type :: types =>
    if admits i type then mistyped fault admits (i + 1) types
    else fault i type :: mistyped fault admits (i + 1) types

namespace OpDef

def operandFaults (d : OpDef) (types : List (Option ValueType)) : List OpFault :=
  match d.operands with
  | .fixed wanted =>
    if wanted.length = types.length then
      mistyped .operandType (fun i type => wanted[i]?.any (·.admits type)) 0 types
    else [.operandCount wanted.length types.length]
  | .variadic wanted => mistyped .operandType (fun _ type => wanted.admits type) 0 types

def resultFaults (d : OpDef) (types : List (Option ValueType)) : List OpFault :=
  match d.results with
  | .fixed wanted =>
    (if wanted.length = types.length then [] else [.resultCount wanted.length types.length])
      ++ mistyped .resultType (fun i type => wanted[i]?.all (· == type)) 0 types
  | .variadic wanted => mistyped .resultType (fun _ type => wanted == type) 0 types

def attributeFaults (d : OpDef) (op : Operation) : List OpFault :=
  d.attributes.filterMap fun spec =>
    match op.attribute? spec.name with
    | none => some (.missingAttribute spec.name)
    | some a => if a.kind ∈ spec.kinds then none else some (.attributeKind spec.name a.kind)

end OpDef

namespace Module

/-- What is wrong with an operation of a known kind, apart from its place. -/
def opFaults (m : Module) (d : OpDef) (defined : List ValueId) (op : Operation) : List OpFault :=
  (op.operands.filter (! defined.contains ·)).map .useBeforeDef
    ++ d.operandFaults (op.operands.map m.type?)
    ++ d.resultFaults (op.results.map m.type?)
    ++ d.attributeFaults op

/-- Check one operation, given the values defined before it and whether it is the last of its block. -/
def verifyOp (m : Module) (c : Catalogue) (function : String) (block : BlockId) (defined : List ValueId)
    (isLast : Bool) (op : Operation) : List VerifyError :=
  match c.get? op.kind with
  | none => [.op function op.kind op.loc .unknownOp]
  | some d =>
    (if d.terminator && ! isLast then [.terminatorNotLast function block op.loc] else [])
      ++ (m.opFaults d defined op).map (.op function op.kind op.loc)

/-- Check operations in order. -/
def verifyOps (m : Module) (c : Catalogue) (function : String) (block : BlockId) :
    (defined : List ValueId) → List Operation → List VerifyError
  | _, [] => []
  | defined, op :: ops =>
    m.verifyOp c function block defined ops.isEmpty op
      ++ m.verifyOps c function block (op.results ++ defined) ops

/-- Check that a block ends in a terminator, and its operations. -/
def verifyBlock (m : Module) (c : Catalogue) (function : String) (block : BlockId) (defined : List ValueId)
    (ops : List Operation) : List VerifyError :=
  (if ops.getLast?.any fun op => c.endsBlock op.kind then [] else [.missingTerminator function block])
    ++ m.verifyOps c function block defined ops

/-- Check blocks in order. The first one takes no arguments. -/
def verifyBlocks (m : Module) (c : Catalogue) (function : String) :
    (isEntry : Bool) → (defined : List ValueId) → List BlockId → List VerifyError
  | _, _, [] => []
  | isEntry, defined, b :: bs =>
    match m.block? b with
    | none => .emptyRegion function :: m.verifyBlocks c function false defined bs
    | some block =>
      let ops := m.blockOps b
      let before := block.args.toList ++ defined
      (if isEntry && ! block.args.isEmpty then [.entryBlockArguments function block.args.size] else [])
        ++ m.verifyBlock c function b before ops
        ++ m.verifyBlocks c function false (ops.flatMap (·.results) ++ before) bs

def verifyFunction (m : Module) (c : Catalogue) (f : Function) : List VerifyError :=
  match (m.region? f.body).elim [] (·.blocks.toList) with
  | [] => [.emptyRegion f.name]
  | bs => m.verifyBlocks c f.name true [] bs

/-- Functions whose name an earlier one has. -/
def duplicates : (seen : List String) → List Function → List VerifyError
  | _, [] => []
  | seen, f :: fs =>
    (if seen.contains f.name then [.duplicateFunction f.name] else []) ++ duplicates (f.name :: seen) fs

/-- All that is wrong with a module. -/
def verify (m : Module) (c : Catalogue) : List VerifyError :=
  let fs := m.functions.toList
  duplicates [] fs
    ++ (if fs.any (·.name == "main") then [] else [.missingMain])
    ++ fs.flatMap (m.verifyFunction c)

end Module
end LuaLowering
