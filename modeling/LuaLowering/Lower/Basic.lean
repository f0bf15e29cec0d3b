import LuaLowering.Log
import LuaLowering.Lower.Error
import LuaLowering.Lower.Scope
/-!
Lowering one function. A step changes the module, the scope and the log; when it fails, what it had
done by then stays. Whatever has several values goes through `pack` and `unpack`.
-/
namespace LuaLowering

/-- What the lowering of a function changes. -/
structure LowerState where
  module : Module
  scope : Scope
  log : Array Event

def LowerState.ofModule (m : Module) : LowerState := ⟨m, .empty, #[]⟩

abbrev Lowering := EStateM LowerError LowerState

/-- What the lowering of a function goes by. -/
structure Frame where
  site : Site
  source : Source
  name : String

/-- The result of lowering an expression: one value, or all that a call gives. -/
inductive Lowered where
  | value (v : Ref)
  | pack (p : Pack)
  deriving DecidableEq, Repr

namespace Lowered

def id : Lowered → ValueId
  | .value v => v.id
  | .pack p => p.id

def isPack : Lowered → Bool
  | .value _ => false
  | .pack _ => true

/-- The last item that is a pack without being the last of all. -/
def misplacedPack? (items : List Lowered) : Option Nat :=
  ((items.reverse.drop 1).findIdx? isPack).map (items.length - 2 - ·)

end Lowered

namespace Lowering

def note (e : Event) : Lowering Unit := modify fun s => { s with log := s.log.push e }

/-- Make a construction step on the module. An error of it is reported at a place, if one is given. -/
def build {α : Type} (step : Build α) (loc : Option Location) : Lowering α := fun s =>
  match step.run s.module with
  | .ok a m => .ok a { s with module := m }
  | .error e m => .error (.invariant (.build e) loc) { s with module := m }

/-- Place an operation. -/
def emit {α : Type} (kind : OpKind) (loc : Location) (step : Build α) : Lowering α := do
  let a ← build step none
  note (.emit kind loc)
  return a

/-- Add a function to the module and open its first block. -/
def openFunction (c : Catalogue) (source : Source) (name : String) (loc : Location) : Lowering Frame := do
  let body ← build (Build.addFunction name loc) loc
  let block ← build (Build.addEntryBlock body) loc
  note (.opened block name)
  return ⟨⟨c, block⟩, source, name⟩

/-- The cell of a name. A name without a cell gets the one that `alloc` makes. -/
def resolve (name : String) (alloc : Lowering Ref) : Lowering Ref := do
  let s ← get
  let (cell, scope) ← s.scope.resolve name alloc
  modify fun s => { s with scope }
  return cell

end Lowering

namespace Frame
open Lowering hiding resolve

def startLoc (f : Frame) (range : Option TextRange) : Location := f.source.startLoc range

def span (f : Frame) (range : Option TextRange) : Span := f.source.span range

/-- The cell of a name, placed where the name is first used. -/
def resolve (f : Frame) (name : String) (loc : Location) : Lowering Ref :=
  Lowering.resolve name do
    note (.declaring name loc)
    emit .getOrAlloc loc (f.site.getOrAlloc name loc)

/-- Group values into a pack. Only the last may be a pack. -/
def pack (f : Frame) (items : List Lowered) (loc : Location) : Lowering Pack :=
  match Lowered.misplacedPack? items with
  | some position => throw (.invariant (.misplacedPack position items.length) loc)
  | none => emit .concat loc (f.site.concat (items.map Lowered.id) loc)

/-- Take exactly `count` values out of a pack. -/
def unpack (f : Frame) (pack : Pack) (count : Nat) (loc : Location) : Lowering (List Ref) := do
  let values ← emit .unpack loc (f.site.unpack pack count loc)
  if values.length = count then return values
  else throw (.invariant (.unpackCount values.length count) loc)

/-- One value: of a pack, its first. -/
def adjustToOne (f : Frame) (item : Lowered) (loc : Location) : Lowering Ref :=
  match item with
  | .value v => return v
  | .pack p => do
    match ← f.unpack p 1 loc with
    | v :: _ => return v
    | [] => throw (.invariant .emptyUnpack loc)

/-- End the function. -/
def finish (f : Frame) (loc : Location) : Lowering Unit := do
  emit .ret loc (f.site.ret loc)
  note (.closed f.name (← get).scope.size)

end Frame
end LuaLowering
