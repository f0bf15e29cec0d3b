import LuaLowering.Module.Basic
/-!
What is known about packs without running anything: the values a pack is made of, and the value that
a result of `lua.unpack` stands for. Nothing is known of the length of a pack that a call gives.
-/
namespace LuaLowering

/-- What a value taken out of a pack is. -/
inductive Slot (α : Type) where
  | value (a : α)
  /-- The pack was too short. -/
  | nil
  deriving DecidableEq, Repr

/-- Exactly `count` slots: further contents are dropped, missing ones are nil. -/
def unpackSlots {α : Type} (contents : List α) (count : Nat) : List (Slot α) :=
  (List.range count).map fun i => contents[i]?.elim .nil .value

namespace Module

/-- The single values that a pack is made of. Operands are older than results, so an operand that is
not older than the pack is taken for unknown. -/
def packContents (m : Module) (pack : ValueId) : Option (List ValueId) :=
  match m.definingOp? pack with
  | some op =>
    if op.kind = .concat then
      List.flatten <$> op.operands.mapM fun v =>
        match m.type? v with
        | some .ref => some [v]
        | some .pack => if v.index < pack.index then m.packContents v else none
        | none => none
    else none
  | none => none
termination_by pack.index

/-- The value that a result of `lua.unpack` stands for. -/
def resolveUnpacked (m : Module) (v : ValueId) : Option (Slot ValueId) :=
  match m.value? v with
  | some ⟨_, .result o index⟩ => do
    let op ← m.op? o
    if op.kind = .unpack then
      let contents ← m.packContents (← op.operands.head?)
      (unpackSlots contents op.results.length)[index]?
    else none
  | _ => none

end Module
end LuaLowering
