import LuaLowering.Proofs.Restriction
import LuaLowering.Proofs.WellFormed
/-!
# Checking with fewer operations

A module that passes the checks of a catalogue is checked again after some kinds were taken out of the catalogue. What
is found then can be read off the blocks (`Module.removals`): a block misses its terminator when the kind of its last
operation is gone, and each operation of a removed kind is unknown. Nothing follows from these: an unknown operation is
not looked at any further, but its results count as defined, and it keeps its place in the block
(`Module.build_verify_without`).
-/
namespace LuaLowering

namespace Catalogue
variable (c : Catalogue) (removed : List OpKind) (kind : OpKind)

theorem get?_without :
    (removed.foldl without c).get? kind = if removed.contains kind then none else c.get? kind := by
  simp only [get?, mem_kinds_without, List.contains_iff_mem]
  by_cases gone : kind ∈ removed <;> simp [gone]

theorem endsBlock_without :
    (removed.foldl without c).endsBlock kind = (!removed.contains kind && c.endsBlock kind) := by
  rw [endsBlock, get?_without]
  cases removed.contains kind <;> rfl

end Catalogue

namespace Module
variable {m : Module} {c : Catalogue}

/-- The blocks of a function in order. -/
def bodyBlocks (m : Module) (f : Function) : List BlockId := (m.region? f.body).elim [] (·.blocks.toList)

/-- What the removed kinds leave behind in the operations of a block. -/
def removals (removed : List OpKind) (function : String) (block : BlockId) (ops : List Operation) : List VerifyError :=
  (if ops.getLast?.any (removed.contains ·.kind) then [.missingTerminator function block] else [])
    ++ (ops.filter (removed.contains ·.kind)).map fun op => .op function op.kind op.loc .unknownOp

/-! ## Operations and blocks -/

section
variable {function : String} {block : BlockId} (removed : List OpKind)

/-- An operation that passes is unknown when its kind is gone, and passes otherwise. -/
theorem verifyOp_without {defined : List ValueId} {isLast : Bool} {op : Operation}
    (accepted : m.verifyOp c function block defined isLast op = []) :
    m.verifyOp (removed.foldl Catalogue.without c) function block defined isLast op =
      if removed.contains op.kind then [.op function op.kind op.loc .unknownOp] else [] := by
  rw [verifyOp, Catalogue.get?_without]
  by_cases gone : removed.contains op.kind = true
  · rw [if_pos gone, if_pos gone]
  · rw [if_neg gone, if_neg gone]
    exact accepted

/-- What is defined where does not depend on the catalogue, so each operation is judged with the same values before
it. -/
theorem verifyOps_without {defined : List ValueId} {ops : List Operation}
    (accepted : m.verifyOps c function block defined ops = []) :
    m.verifyOps (removed.foldl Catalogue.without c) function block defined ops =
      (ops.filter (removed.contains ·.kind)).map fun op => .op function op.kind op.loc .unknownOp := by
  induction ops generalizing defined with
  | nil => rfl
  | cons op ops ih =>
    obtain ⟨first, others⟩ := List.append_eq_nil_iff.mp accepted
    rw [verifyOps, verifyOp_without removed first, ih others, List.filter_cons]
    split <;> rfl

theorem verifyBlock_without {defined : List ValueId} {ops : List Operation}
    (accepted : m.verifyBlock c function block defined ops = []) :
    m.verifyBlock (removed.foldl Catalogue.without c) function block defined ops =
      removals removed function block ops := by
  obtain ⟨ended, passes⟩ := List.append_eq_nil_iff.mp accepted
  rw [verifyBlock, removals, verifyOps_without removed passes]
  congr 1
  cases last : ops.getLast? with
  | none =>
    -- without a last operation the block would not have been accepted
    rw [last] at ended
    cases ended
  | some op =>
    have ends : c.endsBlock op.kind = true := by simpa [last] using ended
    by_cases gone : op.kind ∈ removed <;> simp [Catalogue.endsBlock_without, ends, gone]

end

/-! ## Functions -/

section
variable (removed : List OpKind)

/-- An accepted function has one block, which takes no arguments. -/
theorem Linked.bodyBlocks_eq (linked : m.Linked) {f : Function} (accepted : m.verifyFunction c f = []) :
    ∃ b block, m.bodyBlocks f = [b] ∧ m.block? b = some block ∧ block.args = #[] := by
  have wellFormed := (linked.verifyFunction_eq_nil_iff f).mp accepted
  obtain ⟨region, found, filled⟩ := wellFormed.body
  have atMost := linked.blocks.single f.body region found
  obtain ⟨b, only⟩ : ∃ b, region.blocks = #[b] := Array.size_eq_one_iff.mp (by omega)
  obtain ⟨block, listed, -⟩ := linked.blocks.named f.body region b found (by simp [only])
  have free := wellFormed.entry region b block found (by simp [only]) listed
  exact ⟨b, block, by simp [bodyBlocks, found, only], listed, free⟩

/-- The checks of a function with one block that takes no arguments are those of the block. -/
theorem verifyFunction_eq (c : Catalogue) {f : Function} {b : BlockId} {block : Block} (only : m.bodyBlocks f = [b])
    (found : m.block? b = some block) (free : block.args = #[]) :
    m.verifyFunction c f = m.verifyBlock c f.name b [] (m.blockOps b) := by
  have body : (m.region? f.body).elim [] (·.blocks.toList) = [b] := only
  rw [verifyFunction, body]
  simp [verifyBlocks, found, free]

theorem Linked.verifyFunction_without (linked : m.Linked) {f : Function} (accepted : m.verifyFunction c f = []) :
    m.verifyFunction (removed.foldl Catalogue.without c) f =
      (m.bodyBlocks f).flatMap fun b => removals removed f.name b (m.blockOps b) := by
  obtain ⟨b, block, only, found, free⟩ := linked.bodyBlocks_eq accepted
  rw [verifyFunction_eq c only found free] at accepted
  rw [verifyFunction_eq _ only found free, verifyBlock_without removed accepted, only, List.flatMap_singleton]

/-- The other checks of a module do not ask the catalogue. -/
theorem Linked.verify_without (linked : m.Linked) (accepted : m.verify c = []) :
    m.verify (removed.foldl Catalogue.without c) = m.functions.toList.flatMap fun f =>
      (m.bodyBlocks f).flatMap fun b => removals removed f.name b (m.blockOps b) := by
  simp only [verify, List.append_eq_nil_iff] at accepted
  obtain ⟨⟨distinct, main⟩, functions⟩ := accepted
  rw [verify, distinct, main, List.nil_append, List.nil_append]
  refine List.flatMap_congr fun f member => ?_
  exact linked.verifyFunction_without removed (List.flatMap_eq_nil_iff.mp functions f member)

end

/-! ## All operations -/

/-- Every region is the body of a function. -/
def Rooted (m : Module) : Prop := ∀ r region, m.region? r = some region → ∃ f ∈ m.functions, f.body = r

theorem Rooted.change {m m' : Module} (change : m.Change m') (rooted : m.Rooted) : m'.Rooted := by
  intro r region found
  cases change with
  | none | argument | operation => exact rooted r region found
  | function g =>
    obtain ⟨f, member, body⟩ := rooted r region found
    exact ⟨f, Array.mem_push_of_mem g member, body⟩
  | body name loc =>
    rw [region?_addFunction] at found
    split at found
    · rename_i new
      refine ⟨⟨name, ⟨m.regions.size⟩, loc⟩, Array.mem_push_self, ?_⟩
      rw [← new]
    · obtain ⟨f, member, body⟩ := rooted r region found
      exact ⟨f, Array.mem_push_of_mem _ member, body⟩
  | block r' free =>
    rw [region?_openBlock] at found
    obtain ⟨old, before, -⟩ := Option.map_eq_some_iff.mp found
    exact rooted r old before

theorem build_rooted (steps : List Construction) : (build steps).Rooted :=
  extend_invariant (fun _ _ => Rooted.change) (by simp [Rooted, region?, empty]) steps

/-- Every operation stands in a block of a function. -/
theorem Linked.mem_bodyBlocks (linked : m.Linked) (rooted : m.Rooted) {op : Operation} (member : op ∈ m.ops) :
    ∃ f ∈ m.functions, ∃ b ∈ m.bodyBlocks f, op ∈ m.blockOps b := by
  obtain ⟨i, inside, rfl⟩ := Array.mem_iff_getElem.mp member
  have found : m.op? ⟨i⟩ = some m.ops[i] := Array.getElem?_eq_getElem inside
  have numbered : (⟨i⟩ : OpId) ∈ m.opIds := List.mem_map_of_mem (List.mem_range.mpr inside)
  obtain ⟨block, listed, held⟩ := List.mem_flatMap.mp (linked.ops.once.mem_iff.mpr numbered)
  obtain ⟨j, inside', rfl⟩ := Array.mem_iff_getElem.mp (Array.mem_toList_iff.mp listed)
  have home : m.block? ⟨j⟩ = some m.blocks[j] := Array.getElem?_eq_getElem inside'
  have numbered' : (⟨j⟩ : BlockId) ∈ m.blockIds := List.mem_map_of_mem (List.mem_range.mpr inside')
  obtain ⟨region, listed', held'⟩ := List.mem_flatMap.mp (linked.blocks.once.mem_iff.mpr numbered')
  obtain ⟨k, inside'', rfl⟩ := Array.mem_iff_getElem.mp (Array.mem_toList_iff.mp listed')
  have home' : m.region? ⟨k⟩ = some m.regions[k] := Array.getElem?_eq_getElem inside''
  obtain ⟨f, isFunction, body⟩ := rooted ⟨k⟩ _ home'
  refine ⟨f, isFunction, ⟨j⟩, by rw [bodyBlocks, body, home']; exact held', ?_⟩
  rw [blockOps_of_found home]
  exact List.mem_filterMap.mpr ⟨⟨i⟩, held, found⟩

/-- Nothing is left behind where no operation is of a removed kind. -/
theorem removals_eq_nil_iff {removed : List OpKind} {function : String} {block : BlockId} {ops : List Operation} :
    removals removed function block ops = [] ↔ ∀ op ∈ ops, op.kind ∉ removed := by
  simp only [removals, List.append_eq_nil_iff, List.map_eq_nil_iff, List.filter_eq_nil_iff, List.contains_iff_mem,
    ite_eq_right_iff, List.cons_ne_nil, imp_false, Option.any_eq_true, not_exists, not_and]
  constructor
  · exact And.right
  · exact fun free => ⟨fun op last => free op (List.mem_of_getLast? last), free⟩

/-- With some kinds taken out of its catalogue, an accepted module is refused exactly for the operations of these kinds:
function by function, the one block of the function misses its terminator if the kind of its last operation is gone, and
each of its operations of a removed kind is reported in order. -/
theorem build_verify_without (steps : List Construction) (c : Catalogue) (removed : List OpKind)
    (accepted : (build steps).verify c = []) :
    (∀ f ∈ (build steps).functions, ∃ b, (build steps).bodyBlocks f = [b]) ∧
    (build steps).verify (removed.foldl Catalogue.without c) = ((build steps).functions.toList.flatMap fun f =>
      ((build steps).bodyBlocks f).flatMap fun b => removals removed f.name b ((build steps).blockOps b)) ∧
    ((build steps).verify (removed.foldl Catalogue.without c) = [] ↔ ∀ op ∈ (build steps).ops, op.kind ∉ removed) := by
  have linked : (build steps).Linked := linked_empty.extend steps
  have reported := linked.verify_without removed accepted
  refine ⟨fun f member => ?_, reported, ?_⟩
  · have functions := (List.append_eq_nil_iff.mp accepted).2
    have passes := List.flatMap_eq_nil_iff.mp functions f (Array.mem_toList_iff.mpr member)
    obtain ⟨b, -, only, -, -⟩ := linked.bodyBlocks_eq passes
    exact ⟨b, only⟩
  · simp only [reported, List.flatMap_eq_nil_iff, removals_eq_nil_iff, Array.mem_toList_iff]
    constructor
    · intro free op member
      obtain ⟨f, isFunction, b, isBlock, held⟩ := linked.mem_bodyBlocks (build_rooted steps) member
      exact free f isFunction b isBlock op held
    · intro free f _ b _ op held
      obtain ⟨o, found⟩ := mem_blockOps held
      exact free op (Array.mem_of_getElem? found)

/-- Two functions. In `main` a pack is made of a nil, and both functions return. -/
def returning (place : Nat → Location) : List Construction :=
  [.addFunction "main" (place 1), .addEntryBlock ⟨0⟩, .nil ⟨.full, ⟨0⟩⟩ (place 2), .concat ⟨.full, ⟨0⟩⟩ [⟨0⟩] (place 3),
    .ret ⟨.full, ⟨0⟩⟩ (place 4), .addFunction "f" (place 5), .addEntryBlock ⟨1⟩, .ret ⟨.full, ⟨1⟩⟩ (place 6)]

/-- The pack is still made of a defined value, although nothing is known of the operation that gave it. -/
theorem build_verify_without_returning : ∃ place : Nat → Location,
    (build (returning place)).verify .full = [] ∧
    (build (returning place)).verify ([.nil, .ret].foldl Catalogue.without .full) =
      [.missingTerminator "main" ⟨0⟩, .op "main" .nil (place 2) .unknownOp, .op "main" .ret (place 4) .unknownOp,
        .missingTerminator "f" ⟨1⟩, .op "f" .ret (place 6) .unknownOp] := by
  let place (line : Nat) : Location := ⟨"main.lua", line, 1⟩
  have accepted : (build (returning place)).verify .full = [] := by decide +kernel
  obtain ⟨-, reported, -⟩ := build_verify_without (returning place) .full [.nil, .ret] accepted
  exact ⟨place, accepted, reported.trans (by decide +kernel)⟩

end Module
end LuaLowering
