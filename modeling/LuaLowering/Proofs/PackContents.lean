import LuaLowering.Module.Packs
import LuaLowering.Proofs.Growth
/-!
# The contents of packs

What `packContents` and `resolveUnpacked` answer, by the operation that defines a value. A concat of single
values has exactly these as its contents; a concat with a pack among its operands of which nothing is known
has unknown contents.
-/
namespace LuaLowering

theorem mapM_eq_none_of_mem {α β : Type} {g : α → Option β} {l : List α} {a : α} (member : a ∈ l)
    (unknown : g a = none) : l.mapM g = none := by
  induction l with
  | nil => cases member
  | cons x rest ih =>
    rw [List.mapM_cons]
    rcases List.mem_cons.mp member with rfl | member
    · rw [unknown]
      rfl
    · rw [ih member]
      cases g x <;> rfl

/-- The slot at a position below the count. -/
theorem getElem?_unpackSlots {α : Type} (contents : List α) {count i : Nat} (inside : i < count) :
    (unpackSlots contents count)[i]? = some (contents[i]?.elim .nil .value) := by
  simp [unpackSlots, inside]

namespace Module
variable {m : Module}

theorem Gives.definingOp?_eq {v : ValueId} {d : Draft} (gives : m.Gives v d) :
    ∃ b, m.definingOp? v = some ⟨d.kind, b, d.operands, d.attributes, [v], d.loc⟩ := by
  obtain ⟨o, b, type, -, value, found⟩ := gives
  exact ⟨b, by simp [definingOp?, value, found]⟩

/-- A concat of a pack of which nothing is known. -/
theorem packContents_of_unknown {pack v : ValueId} {op : Operation} (defined : m.definingOp? pack = some op)
    (member : v ∈ op.operands) (isPack : m.type? v = some .pack) (unknown : m.packContents v = none) :
    m.packContents pack = none := by
  rw [packContents, defined]
  simp only
  split
  · rw [mapM_eq_none_of_mem member]
    · rfl
    · simp [isPack, unknown]
  · rfl

/-- A result of an unpack stands for what the contents of its pack have at its position. -/
theorem resolveUnpacked_of_unpack {v pack : ValueId} {type : ValueType} {o : OpId} {index : Nat} {op : Operation}
    (value : m.value? v = some ⟨type, .result o index⟩) (found : m.op? o = some op) (unpack : op.kind = .unpack)
    (operands : op.operands = [pack]) (inside : index < op.results.length) :
    m.resolveUnpacked v = (m.packContents pack).map fun contents => contents[index]?.elim .nil .value := by
  simp only [resolveUnpacked, value, found, unpack, operands, bind, Option.bind, if_true, List.head?_cons]
  cases m.packContents pack with
  | none => rfl
  | some contents => exact getElem?_unpackSlots contents inside

end Module
end LuaLowering
