import LuaLowering.Module.Basic
/-!
Building modules. A construction step changes a module in place and gives a result or an error. Operations
go to the end of a block, and results come back as `Ref` or `Pack`, so that a pack cannot stand where one
value is needed.
-/
namespace LuaLowering

/-- Misuse of the construction steps. -/
inductive BuildError where
  | regionPopulated (region : RegionId)
  | unknownRegion (region : RegionId)
  | unknownBlock (block : BlockId)
  | unknownValue (value : ValueId)
  | unregisteredOp (kind : OpKind)
  | missingResult (kind : OpKind)
  | blockTerminated (block : BlockId) (kind : OpKind)
  deriving DecidableEq, Repr

def BuildError.message : BuildError → String
  | .regionPopulated r => s!"region #{r.index} already has an entry block"
  | .unknownRegion r => s!"region #{r.index} does not exist"
  | .unknownBlock b => s!"block {b.render} does not exist"
  | .unknownValue v => s!"value {v.render} does not exist"
  | .unregisteredOp k => s!"operation '{k.mnemonic}' is not in the catalogue"
  | .missingResult k => s!"operation '{k.mnemonic}' produced no result"
  | .blockTerminated b k => s!"cannot append '{k.mnemonic}' to block {b.render} after its terminator"

/-- A construction step. When it fails, what it has changed by then stays changed. -/
structure Build (α : Type) where
  run : EStateM BuildError Module α

namespace Build
variable {α : Type}

instance : Monad Build where
  pure a := ⟨pure a⟩
  bind step next := ⟨step.run >>= fun a => (next a).run⟩

def fail (e : BuildError) : Build α := ⟨throw e⟩

/-- What a step gives, with the module after it, or its error. -/
def outcome (step : Build α) (m : Module) : Except BuildError (α × Module) :=
  match step.run m with
  | .ok a m' => .ok (a, m')
  | .error e _ => .error e

instance : CoeFun (Build α) fun _ => Module → Except BuildError (α × Module) := ⟨outcome⟩

end Build

/-- An operation that is still to be placed. -/
structure Draft where
  kind : OpKind
  operands : List ValueId
  attributes : List (String × Attribute)
  results : List ValueType
  loc : Location

namespace Module

/-- Add a function record as it is. -/
def pushFunction (m : Module) (f : Function) : Module := { m with functions := m.functions.push f }

/-- Add a function with a new body that has no block yet. -/
def addFunction (m : Module) (name : String) (loc : Location) : RegionId × Module :=
  let body : RegionId := ⟨m.regions.size⟩
  (body, { m.pushFunction ⟨name, body, loc⟩ with regions := m.regions.push ⟨#[]⟩ })

/-- Whether the last operation of a block ends it. -/
def isTerminated (m : Module) (c : Catalogue) (block : Block) : Bool :=
  match block.ops.back?.bind m.op? with
  | some op => c.endsBlock op.kind
  | none => false

/-- Values for the results of the next operation. -/
def resultIds (m : Module) (types : List ValueType) : List ValueId :=
  (List.range' m.values.size types.length).map ValueId.mk

/-- Place an operation at the end of a block. -/
def append (m : Module) (b : BlockId) (draft : Draft) : Module :=
  let op : OpId := ⟨m.ops.size⟩
  { m with
    values := m.values ++ (draft.results.mapIdx fun i type => (⟨type, .result op i⟩ : Value))
    ops := m.ops.push ⟨draft.kind, b, draft.operands, draft.attributes, m.resultIds draft.results, draft.loc⟩
    blocks := m.blocks.modify b.index fun block => { block with ops := block.ops.push op } }

end Module

namespace Build

def addFunction (name : String) (loc : Location) : Build RegionId where
  run m :=
    let (body, m') := m.addFunction name loc
    .ok body m'

/-- Open the first block of a region. -/
def addEntryBlock (r : RegionId) : Build BlockId where
  run m :=
    match m.region? r with
    | none => .error (.unknownRegion r) m
    | some region =>
      if region.blocks.isEmpty then
        let b : BlockId := ⟨m.blocks.size⟩
        .ok b { m with
          regions := m.regions.modify r.index fun region => ⟨region.blocks.push b⟩
          blocks := m.blocks.push ⟨r, #[], #[]⟩ }
      else .error (.regionPopulated r) m

def addBlockArgument (b : BlockId) (type : ValueType) : Build ValueId where
  run m :=
    match m.block? b with
    | none => .error (.unknownBlock b) m
    | some block =>
      let v : ValueId := ⟨m.values.size⟩
      .ok v { m with
        values := m.values.push ⟨type, .argument b block.args.size⟩
        blocks := m.blocks.modify b.index fun block => { block with args := block.args.push v } }

end Build

/-- Where operations are placed: at the end of a block, from a catalogue. -/
structure Site where
  catalogue : Catalogue
  block : BlockId

namespace Site

/-- Place an operation and give its results. -/
def insert (site : Site) (draft : Draft) : Build (List ValueId) where
  run m :=
    if (site.catalogue.get? draft.kind).isNone then .error (.unregisteredOp draft.kind) m
    else match m.block? site.block with
      | none => .error (.unknownBlock site.block) m
      | some block =>
        if m.isTerminated site.catalogue block then .error (.blockTerminated site.block draft.kind) m
        else match draft.operands.find? fun v => m.values.size ≤ v.index with
          | some v => .error (.unknownValue v) m
          | none => .ok (m.resultIds draft.results) (m.append site.block draft)

/-- Place an operation that has a first result, and give that. -/
def insertOne (site : Site) (draft : Draft) : Build ValueId := do
  match ← site.insert draft with
  | v :: _ => return v
  | [] => .fail (.missingResult draft.kind)

def nil (site : Site) (loc : Location) : Build Ref :=
  Ref.mk <$> site.insertOne ⟨.nil, [], [], [.ref], loc⟩

def number (site : Site) (n : Constant) (loc : Location) : Build Ref :=
  Ref.mk <$> site.insertOne ⟨.number, [], [("value", n.attribute)], [.ref], loc⟩

def getOrAlloc (site : Site) (name : String) (loc : Location) : Build Ref :=
  Ref.mk <$> site.insertOne ⟨.getOrAlloc, [], [("var", .str name)], [.ref], loc⟩

/-- Group values into a pack; a pack among them adds all of its values. -/
def concat (site : Site) (items : List ValueId) (loc : Location) : Build Pack :=
  Pack.mk <$> site.insertOne ⟨.concat, items, [], [.pack], loc⟩

/-- Take exactly `count` values out of a pack: further ones are dropped, missing ones are nil. -/
def unpack (site : Site) (pack : Pack) (count : Nat) (loc : Location) : Build (List Ref) :=
  List.map Ref.mk <$> site.insert ⟨.unpack, [pack.id], [], List.replicate count .ref, loc⟩

def assign (site : Site) (target value : Ref) (loc : Location) : Build Unit :=
  (fun _ => ()) <$> site.insert ⟨.assign, [target.id, value.id], [], [], loc⟩

def call (site : Site) (callee : Ref) (args : Pack) (loc : Location) : Build Pack :=
  Pack.mk <$> site.insertOne ⟨.call, [callee.id, args.id], [], [.pack], loc⟩

def ret (site : Site) (loc : Location) : Build Unit :=
  (fun _ => ()) <$> site.insert ⟨.ret, [], [], [], loc⟩

end Site
end LuaLowering
