import LuaLowering.Proofs.Construction
import Mathlib.Data.List.Basic
/-!
# Links of the arenas

Functions, regions, blocks, operations and values refer to one another by number. `Module.Linked` says
that these references agree: an operation and its results, a block and its arguments name each other,
every operation stands in one block and every block in one region, and operands are older than results.
Every module built by construction steps is linked (`build_linked`), whatever the arguments of the
steps were and whether they failed or not. The last section says what the operations of a block are after each
change.
-/
namespace LuaLowering
namespace Module

/-- The numbers of all operations, in the order of their construction. -/
def opIds (m : Module) : List OpId := (List.range m.ops.size).map OpId.mk

def blockIds (m : Module) : List BlockId := (List.range m.blocks.size).map BlockId.mk

/-- Values and what they come from name each other. -/
structure OriginsLinked (m : Module) : Prop where
  result : ∀ o op i v, m.op? o = some op → op.results[i]? = some v →
    ∃ type, m.value? v = some ⟨type, .result o i⟩
  consecutive : ∀ o op, m.op? o = some op →
    ∃ first, op.results = (List.range' first op.results.length).map ValueId.mk
  argument : ∀ b block i v, m.block? b = some block → block.args[i]? = some v →
    ∃ type, m.value? v = some ⟨type, .argument b i⟩
  ofResult : ∀ v type o i, m.value? v = some ⟨type, .result o i⟩ →
    ∃ op, m.op? o = some op ∧ op.results[i]? = some v
  ofArgument : ∀ v type b i, m.value? v = some ⟨type, .argument b i⟩ →
    ∃ block, m.block? b = some block ∧ block.args[i]? = some v

/-- Every operation stands exactly once in the blocks, in the one that it names, and a block lists
its operations in the order of their construction. -/
structure OpsPlaced (m : Module) : Prop where
  once : (m.blocks.toList.flatMap (·.ops.toList)).Perm m.opIds
  named : ∀ b block o, m.block? b = some block → o ∈ block.ops → ∃ op, m.op? o = some op ∧ op.block = b
  ordered : ∀ b block, m.block? b = some block → block.ops.toList.Pairwise (·.index < ·.index)

/-- Operands exist and are older than the results, and so are the operations they come from. -/
structure OperandsOlder (m : Module) : Prop where
  exist : ∀ o op v, m.op? o = some op → v ∈ op.operands → v.index < m.values.size
  older : ∀ o op v r, m.op? o = some op → v ∈ op.operands → r ∈ op.results → v.index < r.index
  origin : ∀ o op v type o' i, m.op? o = some op → v ∈ op.operands →
    m.value? v = some ⟨type, .result o' i⟩ → o'.index < o.index

/-- Every block stands exactly once in the regions, in the one that it names, and no region has two. -/
structure BlocksPlaced (m : Module) : Prop where
  once : (m.regions.toList.flatMap (·.blocks.toList)).Perm m.blockIds
  named : ∀ r region b, m.region? r = some region → b ∈ region.blocks →
    ∃ block, m.block? b = some block ∧ block.region = r
  single : ∀ r region, m.region? r = some region → region.blocks.size ≤ 1

structure Linked (m : Module) : Prop where
  origins : m.OriginsLinked
  ops : m.OpsPlaced
  operands : m.OperandsOlder
  blocks : m.BlocksPlaced

theorem linked_empty : Linked .empty where
  origins := by constructor <;> simp [op?, block?, value?, empty]
  ops := by constructor <;> simp [block?, empty, opIds]
  operands := by constructor <;> simp [op?, empty]
  blocks := by constructor <;> simp [region?, empty, blockIds]

section Bounds
variable {m : Module}

theorem op?_lt {o : OpId} {op : Operation} (found : m.op? o = some op) : o.index < m.ops.size :=
  (Array.getElem?_eq_some_iff.mp found).1

theorem value?_lt {v : ValueId} {value : Value} (found : m.value? v = some value) :
    v.index < m.values.size :=
  (Array.getElem?_eq_some_iff.mp found).1

theorem block?_lt {b : BlockId} {block : Block} (found : m.block? b = some block) :
    b.index < m.blocks.size :=
  (Array.getElem?_eq_some_iff.mp found).1

theorem getElem?_resultIds {types : List ValueType} {i : Nat} {v : ValueId} :
    (m.resultIds types)[i]? = some v ↔ i < types.length ∧ v.index = m.values.size + i := by
  cases v with | mk n =>
  by_cases inside : i < types.length
  · simp [resultIds, inside, eq_comm]
  · simp [resultIds, inside]

theorem mem_resultIds {types : List ValueType} {v : ValueId} :
    v ∈ m.resultIds types ↔ m.values.size ≤ v.index ∧ v.index < m.values.size + types.length := by
  cases v with | mk n => simp [resultIds]

theorem value?_append_of_some {b : BlockId} {d : Draft} {v : ValueId} {value : Value}
    (found : m.value? v = some value) : (m.append b d).value? v = some value := by
  rw [value?_append, if_pos (value?_lt found), found]

theorem op?_append_of_some {b : BlockId} {d : Draft} {o : OpId} {op : Operation}
    (found : m.op? o = some op) : (m.append b d).op? o = some op := by
  rw [op?_append, if_neg (Nat.ne_of_lt (op?_lt found)), found]

theorem value?_addArgument_of_some {b : BlockId} {i : Nat} {type : ValueType} {v : ValueId} {value : Value}
    (found : m.value? v = some value) : (m.addArgument b i type).value? v = some value := by
  rw [value?_addArgument, if_neg (Nat.ne_of_lt (value?_lt found)), found]

end Bounds

/-! ## Operations -/

theorem OriginsLinked.append {m : Module} (linked : m.OriginsLinked) (b : BlockId) (d : Draft) :
    (m.append b d).OriginsLinked where
  result o op i v found listed := by
    rw [op?_append] at found
    split at found
    · rename_i new
      cases found
      obtain ⟨inside, position⟩ := getElem?_resultIds.mp listed
      refine ⟨d.results[i], ?_⟩
      rw [value?_append, if_neg (by omega), position, Nat.add_sub_cancel_left, List.getElem?_eq_getElem inside,
        ← new]
      rfl
    · obtain ⟨type, value⟩ := linked.result o op i v found listed
      exact ⟨type, value?_append_of_some value⟩
  consecutive o op found := by
    rw [op?_append] at found
    split at found
    · cases found
      exact ⟨m.values.size, by simp [resultIds]⟩
    · exact linked.consecutive o op found
  argument b' block i v found listed := by
    rw [block?_append] at found
    obtain ⟨old, before, rfl⟩ := Option.map_eq_some_iff.mp found
    have same : (if b' = b then { old with ops := old.ops.push ⟨m.ops.size⟩ } else old).args = old.args := by
      split <;> rfl
    obtain ⟨type, value⟩ := linked.argument b' old i v before (same ▸ listed)
    exact ⟨type, value?_append_of_some value⟩
  ofResult v type o i found := by
    rw [value?_append] at found
    split at found
    · obtain ⟨op, before, listed⟩ := linked.ofResult v type o i found
      exact ⟨op, op?_append_of_some before, listed⟩
    · rename_i beyond
      obtain ⟨type', inside, made⟩ := Option.map_eq_some_iff.mp found
      cases made
      have listed : (m.resultIds d.results)[v.index - m.values.size]? = some v :=
        getElem?_resultIds.mpr ⟨(List.getElem?_eq_some_iff.mp inside).1, by omega⟩
      exact ⟨_, by rw [op?_append, if_pos rfl], listed⟩
  ofArgument v type b' i found := by
    rw [value?_append] at found
    split at found
    · obtain ⟨block, before, listed⟩ := linked.ofArgument v type b' i found
      refine ⟨_, by rw [block?_append, before, Option.map_some], ?_⟩
      split <;> exact listed
    · obtain ⟨type', -, made⟩ := Option.map_eq_some_iff.mp found
      cases made

/-- Adding an element to the list of one member adds it to the lists of all. -/
theorem flatMap_modify_perm {α β : Type} (f : α → List β) (g : α → α) (x : β)
    (grown : ∀ a, f (g a) = f a ++ [x]) (l : List α) (i : Nat) (inside : i < l.length) :
    ((l.modify i g).flatMap f).Perm (l.flatMap f ++ [x]) := by
  induction l generalizing i with
  | nil => cases inside
  | cons a rest ih =>
    cases i with
    | zero =>
      simp only [List.modify_zero_cons, List.flatMap_cons, grown, List.append_assoc]
      exact List.Perm.append_left _ List.perm_append_comm
    | succ i =>
      simp only [List.modify_succ_cons, List.flatMap_cons, List.append_assoc]
      exact List.Perm.append_left _ (ih i (by simpa using inside))

/-- A change that leaves the list of a member as it is leaves the lists of all. -/
theorem flatMap_modify_eq {α β : Type} (f : α → List β) (g : α → α) (same : ∀ a, f (g a) = f a)
    (l : List α) (i : Nat) : (l.modify i g).flatMap f = l.flatMap f := by
  induction l generalizing i with
  | nil => simp
  | cons a rest ih =>
    cases i with
    | zero => simp only [List.modify_zero_cons, List.flatMap_cons, same]
    | succ i => simp only [List.modify_succ_cons, List.flatMap_cons, ih]

theorem OpsPlaced.append {m : Module} (placed : m.OpsPlaced) {b : BlockId} {block : Block} (d : Draft)
    (found : m.block? b = some block) : (m.append b d).OpsPlaced where
  once := by
    have ids : (m.append b d).opIds = m.opIds ++ [⟨m.ops.size⟩] := by
      simp [opIds, Module.append, List.range_succ]
    rw [ids]
    simp only [Module.append, Array.toList_modify]
    have grown := flatMap_modify_perm (fun block : Block => block.ops.toList)
      (fun block => { block with ops := block.ops.push ⟨m.ops.size⟩ }) (⟨m.ops.size⟩ : OpId)
      (fun _ => Array.toList_push) m.blocks.toList b.index (by simpa using block?_lt found)
    exact grown.trans (placed.once.append_right _)
  named b' block' o found' member := by
    rw [block?_append] at found'
    obtain ⟨old, before, rfl⟩ := Option.map_eq_some_iff.mp found'
    have either : o ∈ old.ops ∨ o = ⟨m.ops.size⟩ ∧ b' = b := by
      split at member
      · simp only [Array.mem_push] at member
        exact member.imp id (fun new => ⟨new, ‹_›⟩)
      · exact Or.inl member
    rcases either with old_member | ⟨rfl, rfl⟩
    · obtain ⟨op, listed, home⟩ := placed.named b' old o before old_member
      exact ⟨op, op?_append_of_some listed, home⟩
    · exact ⟨_, by rw [op?_append, if_pos rfl], rfl⟩
  ordered b' block' found' := by
    rw [block?_append] at found'
    obtain ⟨old, before, rfl⟩ := Option.map_eq_some_iff.mp found'
    have increasing := placed.ordered b' old before
    split
    · simp only [Array.toList_push, List.pairwise_append, List.pairwise_singleton, List.mem_singleton,
        forall_eq, true_and]
      refine ⟨increasing, fun o member => ?_⟩
      obtain ⟨op, listed, -⟩ := placed.named b' old o before (by simpa using member)
      exact op?_lt listed
    · exact increasing

theorem OperandsOlder.append {m : Module} (older : m.OperandsOlder) (linked : m.OriginsLinked)
    (b : BlockId) {d : Draft} (operands : ∀ v ∈ d.operands, v.index < m.values.size) :
    (m.append b d).OperandsOlder where
  exist o op v found member := by
    have grown : m.values.size ≤ (m.append b d).values.size := by simp
    rw [op?_append] at found
    split at found
    · cases found
      exact Nat.lt_of_lt_of_le (operands v member) grown
    · exact Nat.lt_of_lt_of_le (older.exist o op v found member) grown
  older o op v r found member result := by
    rw [op?_append] at found
    split at found
    · cases found
      exact Nat.lt_of_lt_of_le (operands v member) (mem_resultIds.mp result).1
    · exact older.older o op v r found member result
  origin o op v type o' i found member value := by
    rw [op?_append] at found
    split at found
    · rename_i new
      cases found
      rw [value?_append, if_pos (operands v member)] at value
      obtain ⟨op', before, -⟩ := linked.ofResult v type o' i value
      exact new ▸ op?_lt before
    · rw [value?_append, if_pos (older.exist o op v found member)] at value
      exact older.origin o op v type o' i found member value

theorem BlocksPlaced.append {m : Module} (placed : m.BlocksPlaced) (b : BlockId) (d : Draft) :
    (m.append b d).BlocksPlaced where
  once := by
    have same : (m.append b d).blockIds = m.blockIds := by simp [blockIds, Module.append]
    exact same ▸ placed.once
  named r region b' found member := by
    obtain ⟨block, before, home⟩ := placed.named r region b' found member
    refine ⟨_, by rw [block?_append, before, Option.map_some], ?_⟩
    split <;> exact home
  single := placed.single

theorem Linked.append {m : Module} (linked : m.Linked) {b : BlockId} {block : Block} {d : Draft}
    (found : m.block? b = some block) (operands : ∀ v ∈ d.operands, v.index < m.values.size) :
    (m.append b d).Linked :=
  ⟨linked.origins.append b d, linked.ops.append d found, linked.operands.append linked.origins b operands,
    linked.blocks.append b d⟩

/-! ## Block arguments -/

theorem OriginsLinked.addArgument {m : Module} (linked : m.OriginsLinked) {b : BlockId} {block : Block}
    (found : m.block? b = some block) (type : ValueType) :
    (m.addArgument b block.args.size type).OriginsLinked where
  result o op i v found' listed := by
    obtain ⟨type', value⟩ := linked.result o op i v found' listed
    exact ⟨type', value?_addArgument_of_some value⟩
  consecutive := linked.consecutive
  argument b' block' i v found' listed := by
    rw [block?_addArgument] at found'
    obtain ⟨old, before, rfl⟩ := Option.map_eq_some_iff.mp found'
    have either : old.args[i]? = some v ∨ v = ⟨m.values.size⟩ ∧ i = old.args.size ∧ b' = b := by
      split at listed
      · rw [Array.getElem?_push] at listed
        split at listed
        · cases listed
          exact Or.inr ⟨rfl, ‹_›, ‹_›⟩
        · exact Or.inl listed
      · exact Or.inl listed
    rcases either with listed | ⟨rfl, rfl, rfl⟩
    · obtain ⟨type', value⟩ := linked.argument b' old i v before listed
      exact ⟨type', value?_addArgument_of_some value⟩
    · rw [found] at before
      cases before
      exact ⟨type, by rw [value?_addArgument, if_pos rfl]⟩
  ofResult v type' o i value := by
    rw [value?_addArgument] at value
    split at value
    · cases value
    · exact linked.ofResult v type' o i value
  ofArgument v type' b' i value := by
    rw [value?_addArgument] at value
    split at value
    · rename_i new
      cases value
      refine ⟨_, by rw [block?_addArgument, found, Option.map_some, if_pos rfl], ?_⟩
      rw [Array.getElem?_push, if_pos rfl, ← new]
    · obtain ⟨old, before, listed⟩ := linked.ofArgument v type' b' i value
      refine ⟨_, by rw [block?_addArgument, before, Option.map_some], ?_⟩
      split
      · have inside := (Array.getElem?_eq_some_iff.mp listed).1
        rw [Array.getElem?_push, if_neg (by omega), listed]
      · exact listed

theorem OpsPlaced.addArgument {m : Module} (placed : m.OpsPlaced) (b : BlockId) (i : Nat) (type : ValueType) :
    (m.addArgument b i type).OpsPlaced where
  once := by
    have same := flatMap_modify_eq (fun block : Block => block.ops.toList)
      (fun block => { block with args := block.args.push ⟨m.values.size⟩ }) (fun _ => rfl)
      m.blocks.toList b.index
    simp only [Module.addArgument, Array.toList_modify, same]
    exact placed.once
  named b' block' o found' member := by
    rw [block?_addArgument] at found'
    obtain ⟨old, before, rfl⟩ := Option.map_eq_some_iff.mp found'
    refine placed.named b' old o before ?_
    split at member <;> exact member
  ordered b' block' found' := by
    rw [block?_addArgument] at found'
    obtain ⟨old, before, rfl⟩ := Option.map_eq_some_iff.mp found'
    have increasing := placed.ordered b' old before
    split <;> exact increasing

theorem OperandsOlder.addArgument {m : Module} (older : m.OperandsOlder) (b : BlockId) (i : Nat)
    (type : ValueType) : (m.addArgument b i type).OperandsOlder where
  exist o op v found member := by
    have inside := older.exist o op v found member
    simp only [Module.addArgument, Array.size_push]
    omega
  older := older.older
  origin o op v type' o' j found member value := by
    have inside := older.exist o op v found member
    rw [value?_addArgument, if_neg (by omega)] at value
    exact older.origin o op v type' o' j found member value

theorem BlocksPlaced.addArgument {m : Module} (placed : m.BlocksPlaced) (b : BlockId) (i : Nat)
    (type : ValueType) : (m.addArgument b i type).BlocksPlaced where
  once := by
    have same : (m.addArgument b i type).blockIds = m.blockIds := by simp [blockIds, Module.addArgument]
    exact same ▸ placed.once
  named r region b' found member := by
    obtain ⟨block, before, home⟩ := placed.named r region b' found member
    refine ⟨_, by rw [block?_addArgument, before, Option.map_some], ?_⟩
    split <;> exact home
  single := placed.single

theorem Linked.addArgument {m : Module} (linked : m.Linked) {b : BlockId} {block : Block}
    (found : m.block? b = some block) (type : ValueType) : (m.addArgument b block.args.size type).Linked :=
  ⟨linked.origins.addArgument found type, linked.ops.addArgument b _ type, linked.operands.addArgument b _ type,
    linked.blocks.addArgument b _ type⟩

/-! ## Blocks and functions -/

theorem OriginsLinked.openBlock {m : Module} (linked : m.OriginsLinked) (r : RegionId) :
    (m.openBlock r).OriginsLinked where
  result := linked.result
  consecutive := linked.consecutive
  argument b block i v found listed := by
    rw [block?_openBlock] at found
    split at found
    · cases found
      simp at listed
    · exact linked.argument b block i v found listed
  ofResult := linked.ofResult
  ofArgument v type b i value := by
    obtain ⟨block, before, listed⟩ := linked.ofArgument v type b i value
    exact ⟨block, by rw [block?_openBlock, if_neg (Nat.ne_of_lt (block?_lt before)), before], listed⟩

theorem OpsPlaced.openBlock {m : Module} (placed : m.OpsPlaced) (r : RegionId) :
    (m.openBlock r).OpsPlaced where
  once := by
    have same : (m.openBlock r).blocks.toList.flatMap (·.ops.toList) =
        m.blocks.toList.flatMap (·.ops.toList) := by simp [Module.openBlock]
    exact same ▸ placed.once
  named b block o found member := by
    rw [block?_openBlock] at found
    split at found
    · cases found
      simp at member
    · exact placed.named b block o found member
  ordered b block found := by
    rw [block?_openBlock] at found
    split at found
    · cases found
      exact List.Pairwise.nil
    · exact placed.ordered b block found

theorem BlocksPlaced.openBlock {m : Module} (placed : m.BlocksPlaced) {r : RegionId}
    (free : m.region? r = some ⟨#[]⟩) : (m.openBlock r).BlocksPlaced where
  once := by
    have ids : (m.openBlock r).blockIds = m.blockIds ++ [⟨m.blocks.size⟩] := by
      simp [blockIds, Module.openBlock, List.range_succ]
    have inside : r.index < m.regions.toList.length := by
      simpa using (Array.getElem?_eq_some_iff.mp free).1
    have grown := flatMap_modify_perm (fun region : Region => region.blocks.toList)
      (fun region => ⟨region.blocks.push ⟨m.blocks.size⟩⟩) (⟨m.blocks.size⟩ : BlockId)
      (fun _ => Array.toList_push) m.regions.toList r.index inside
    rw [ids]
    simp only [Module.openBlock, Array.toList_modify]
    exact grown.trans (placed.once.append_right _)
  named r' region b found member := by
    rw [region?_openBlock] at found
    obtain ⟨old, before, rfl⟩ := Option.map_eq_some_iff.mp found
    have either : b ∈ old.blocks ∨ b = ⟨m.blocks.size⟩ ∧ r' = r := by
      split at member
      · simp only [Array.mem_push] at member
        exact member.imp id (fun new => ⟨new, ‹_›⟩)
      · exact Or.inl member
    rcases either with old_member | ⟨rfl, rfl⟩
    · obtain ⟨block, listed, home⟩ := placed.named r' old b before old_member
      exact ⟨block, by rw [block?_openBlock, if_neg (Nat.ne_of_lt (block?_lt listed)), listed], home⟩
    · exact ⟨_, by rw [block?_openBlock, if_pos rfl], rfl⟩
  single r' region found := by
    rw [region?_openBlock] at found
    obtain ⟨old, before, rfl⟩ := Option.map_eq_some_iff.mp found
    split
    · subst r'
      rw [free] at before
      cases before
      simp
    · exact placed.single r' old before

theorem Linked.openBlock {m : Module} (linked : m.Linked) {r : RegionId} (free : m.region? r = some ⟨#[]⟩) :
    (m.openBlock r).Linked :=
  ⟨linked.origins.openBlock r, linked.ops.openBlock r,
    ⟨linked.operands.exist, linked.operands.older, linked.operands.origin⟩, linked.blocks.openBlock free⟩

theorem BlocksPlaced.addFunction {m : Module} (placed : m.BlocksPlaced) (name : String) (loc : Location) :
    (m.addFunction name loc).2.BlocksPlaced where
  once := by
    have same : (m.addFunction name loc).2.regions.toList.flatMap (·.blocks.toList) =
        m.regions.toList.flatMap (·.blocks.toList) := by simp [Module.addFunction, pushFunction]
    exact same ▸ placed.once
  named r region b found member := by
    rw [region?_addFunction] at found
    split at found
    · cases found
      simp at member
    · exact placed.named r region b found member
  single r region found := by
    rw [region?_addFunction] at found
    split at found
    · cases found
      simp
    · exact placed.single r region found

/-- A record of a function refers to a region by number, but nothing refers to it. -/
theorem Linked.pushFunction {m : Module} (linked : m.Linked) (f : Function) : (m.pushFunction f).Linked where
  origins := { linked.origins with }
  ops := { linked.ops with }
  operands := { linked.operands with }
  blocks := { linked.blocks with }

theorem Linked.addFunction {m : Module} (linked : m.Linked) (name : String) (loc : Location) :
    (m.addFunction name loc).2.Linked where
  origins := { linked.origins with }
  ops := { linked.ops with }
  operands := { linked.operands with }
  blocks := linked.blocks.addFunction name loc

theorem Linked.change {m m' : Module} (change : m.Change m') (linked : m.Linked) : m'.Linked := by
  cases change with
  | none => exact linked
  | function f => exact linked.pushFunction f
  | body name loc => exact linked.addFunction name loc
  | block r free => exact linked.openBlock free
  | argument b block type found => exact linked.addArgument found type
  | operation b block draft found operands => exact linked.append found operands

theorem Linked.extend {m : Module} (linked : m.Linked) (steps : List Construction) : (m.extend steps).Linked :=
  extend_invariant (fun _ _ change linked => linked.change change) linked steps

/-- However a module was built, its parts refer to one another consistently. -/
theorem build_linked (steps : List Construction) : (build steps).Linked := linked_empty.extend steps

/-! ## The operations of a block -/

section Blocks
variable {m : Module}

theorem mem_blockOps {b : BlockId} {op : Operation} (member : op ∈ m.blockOps b) : ∃ o, m.op? o = some op := by
  unfold blockOps at member
  split at member
  · obtain ⟨o, -, found⟩ := List.mem_filterMap.mp member
    exact ⟨o, found⟩
  · cases member

theorem blockOps_of_found {b : BlockId} {block : Block} (found : m.block? b = some block) :
    m.blockOps b = block.ops.toList.filterMap m.op? := by
  simp [blockOps, found]

/-- An operation is added at the end of its block. -/
theorem OpsPlaced.blockOps_append (placed : m.OpsPlaced) {b : BlockId} {block : Block} (d : Draft)
    (found : m.block? b = some block) (b' : BlockId) :
    (m.append b d).blockOps b' = m.blockOps b' ++
      if b' = b then [⟨d.kind, b, d.operands, d.attributes, m.resultIds d.results, d.loc⟩] else [] := by
  have kept {block' : Block} (found' : m.block? b' = some block') :
      block'.ops.toList.filterMap (m.append b d).op? = block'.ops.toList.filterMap m.op? := by
    apply List.filterMap_congr
    intro o member
    obtain ⟨op, listed, -⟩ := placed.named b' block' o found' (by simpa using member)
    rw [listed, op?_append_of_some listed]
  cases found' : m.block? b' with
  | none =>
    have other : b' ≠ b := by
      rintro rfl
      rw [found] at found'
      cases found'
    simp [blockOps, block?_append, found', other]
  | some block' =>
    have listed := m.block?_append b d b'
    rw [found', Option.map_some] at listed
    rw [blockOps_of_found listed, blockOps_of_found found']
    split
    · rw [Array.toList_push, List.filterMap_append, kept found']
      simp [op?_append]
    · rw [kept found', List.append_nil]

theorem blockOps_addArgument (b : BlockId) (i : Nat) (type : ValueType) (b' : BlockId) :
    (m.addArgument b i type).blockOps b' = m.blockOps b' := by
  cases found : m.block? b' with
  | none => simp [blockOps, block?_addArgument, found]
  | some block =>
    have listed := m.block?_addArgument b i type b'
    rw [found, Option.map_some] at listed
    rw [blockOps_of_found listed, blockOps_of_found found]
    split <;> rfl

theorem blockOps_openBlock (r : RegionId) (b : BlockId) : (m.openBlock r).blockOps b = m.blockOps b := by
  by_cases new : b.index = m.blocks.size
  · have fresh : m.block? b = none := by simp [block?, new]
    simp [blockOps, block?_openBlock, new, fresh]
  · rw [blockOps, blockOps, block?_openBlock, if_neg new]
    rfl

/-- The builder and the checks look at the same last operation. -/
theorem OpsPlaced.getLast?_blockOps (placed : m.OpsPlaced) {b : BlockId} {block : Block}
    (found : m.block? b = some block) : (m.blockOps b).getLast? = block.ops.back?.bind m.op? := by
  rw [blockOps_of_found found, ← Array.getLast?_toList]
  rcases List.eq_nil_or_concat' block.ops.toList with empty | ⟨front, o, split⟩
  · simp [empty]
  · obtain ⟨op, listed, -⟩ := placed.named b block o found (by simp [← Array.mem_toList_iff, split])
    simp [split, listed]

end Blocks

end Module
end LuaLowering
