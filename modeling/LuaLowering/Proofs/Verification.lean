import LuaLowering.Module.Verify
import LuaLowering.Proofs.Arena
/-!
# When the checks find nothing

The checks of a module give a list of what is wrong. An operation passes them exactly when it is
registered, conforms to the definition of its kind, uses only values that are defined before it and
ends a block only at the end (`verifyOp_eq_nil_iff`); operations in a row pass when each of them does
(`verifyOps_eq_nil_iff`). In a module whose only function is `main`, with one block that holds all
operations, only the end of that block is left to check (`OnlyMain.verify_eq`).
-/
namespace LuaLowering

/-- The operands, results and attributes of an operation are as the definition of its kind says. -/
structure Module.Conforms (m : Module) (op : Operation) : Prop where
  operands : op.kind.definition.operandFaults (op.operands.map m.type?) = []
  results : op.kind.definition.resultFaults (op.results.map m.type?) = []
  attributes : op.kind.definition.attributeFaults op = []

namespace Module
variable {m : Module} {c : Catalogue} {function : String} {block : BlockId}

theorem verifyOp_eq_nil_iff {defined : List ValueId} {isLast : Bool} {op : Operation} :
    m.verifyOp c function block defined isLast op = [] ↔
      op.kind ∈ c.kinds ∧ (op.kind.definition.terminator = true → isLast = true) ∧
      (∀ v ∈ op.operands, v ∈ defined) ∧ m.Conforms op := by
  by_cases registered : op.kind ∈ c.kinds
  · have conforms : m.Conforms op ↔ op.kind.definition.operandFaults (op.operands.map m.type?) = [] ∧
        op.kind.definition.resultFaults (op.results.map m.type?) = [] ∧
        op.kind.definition.attributeFaults op = [] :=
      ⟨fun h => ⟨h.operands, h.results, h.attributes⟩, fun h => ⟨h.1, h.2.1, h.2.2⟩⟩
    simp [verifyOp, Catalogue.get?, registered, opFaults, conforms]
  · simp [verifyOp, Catalogue.get?, registered]

/-- Operations in a row pass when each passes after those before it. -/
theorem verifyOps_eq_nil_iff {defined : List ValueId} {ops : List Operation} :
    m.verifyOps c function block defined ops = [] ↔ ∀ before op after, ops = before ++ op :: after →
      op.kind ∈ c.kinds ∧ (op.kind.definition.terminator = true → after = []) ∧
      (∀ v ∈ op.operands, v ∈ defined ∨ ∃ earlier ∈ before, v ∈ earlier.results) ∧ m.Conforms op := by
  induction ops generalizing defined with
  | nil => simp [verifyOps]
  | cons first rest ih =>
    simp only [verifyOps, List.append_eq_nil_iff, verifyOp_eq_nil_iff, ih, List.isEmpty_iff]
    constructor
    · rintro ⟨head, tail⟩ before op after split
      cases before with
      | nil =>
        cases split
        exact ⟨head.1, head.2.1, fun v member => Or.inl (head.2.2.1 v member), head.2.2.2⟩
      | cons earlier before =>
        cases split
        obtain ⟨registered, last, operands, conforms⟩ := tail before op after rfl
        refine ⟨registered, last, fun v member => ?_, conforms⟩
        rcases operands v member with known | ⟨e, inside, result⟩
        · rcases List.mem_append.mp known with result | known
          · exact Or.inr ⟨first, by simp, result⟩
          · exact Or.inl known
        · exact Or.inr ⟨e, by simp [inside], result⟩
    · intro passes
      constructor
      · obtain ⟨registered, last, operands, conforms⟩ := passes [] first rest rfl
        exact ⟨registered, last, fun v member => by simpa using operands v member, conforms⟩
      · intro before op after split
        obtain ⟨registered, last, operands, conforms⟩ := passes (first :: before) op after (by simp [split])
        refine ⟨registered, last, fun v member => ?_, conforms⟩
        rcases operands v member with known | ⟨e, inside, result⟩
        · exact Or.inl (List.mem_append_right _ known)
        · rcases List.mem_cons.mp inside with rfl | inside
          · exact Or.inl (List.mem_append_left _ result)
          · exact Or.inr ⟨e, inside, result⟩

/-- The module has one function, `main`, with one block, which holds all operations and takes no
arguments. All operations pass the checks, and only the last one may end the block. -/
structure OnlyMain (c : Catalogue) (m : Module) : Prop where
  functions : ∃ loc, m.functions = #[⟨"main", ⟨0⟩, loc⟩]
  regions : m.regions = #[⟨#[⟨0⟩]⟩]
  blocks : m.blocks = #[⟨⟨0⟩, #[], m.opIds.toArray⟩]
  linked : m.Linked
  registered : ∀ o op, m.op? o = some op → op.kind ∈ c.kinds
  conforms : ∀ o op, m.op? o = some op → m.Conforms op
  terminator : ∀ o op, m.op? o = some op → op.kind.definition.terminator = true → o.index + 1 = m.ops.size

theorem filterMap_opIds (m : Module) : m.opIds.filterMap m.op? = m.ops.toList := by
  have each : m.opIds.map m.op? = m.ops.toList.map some := by
    apply List.ext_getElem?
    intro i
    by_cases inside : i < m.ops.size
    · simp [opIds, op?, inside]
    · simp [opIds, inside]
  calc m.opIds.filterMap m.op?
    _ = (m.opIds.map m.op?).filterMap id := by rw [List.filterMap_map, Function.id_comp]
    _ = m.ops.toList := by rw [each, List.filterMap_map, Function.id_comp, List.filterMap_some]

namespace OnlyMain

theorem block?_zero (main : OnlyMain c m) : m.block? ⟨0⟩ = some ⟨⟨0⟩, #[], m.opIds.toArray⟩ := by
  simp [block?, main.blocks]

theorem blockOps_zero (main : OnlyMain c m) : m.blockOps ⟨0⟩ = m.ops.toList := by
  simp [blockOps, main.block?_zero, filterMap_opIds]

theorem block_eq (main : OnlyMain c m) {o : OpId} {op : Operation} (found : m.op? o = some op) : op.block = ⟨0⟩ := by
  have inside : o.index < m.ops.size := (Array.getElem?_eq_some_iff.mp found).1
  have listed : o ∈ m.opIds.toArray := by simpa [opIds] using ⟨o.index, inside, rfl⟩
  obtain ⟨op', found', block⟩ := main.linked.ops.named _ _ o main.block?_zero listed
  rw [found] at found'
  cases found'
  exact block

/-- Every value is a result: there are no block arguments. -/
theorem origin_result (main : OnlyMain c m) {v : ValueId} {type : ValueType} {origin : Origin}
    (value : m.value? v = some ⟨type, origin⟩) :
    ∃ o i op, origin = .result o i ∧ m.op? o = some op ∧ op.results[i]? = some v := by
  cases origin with
  | result o i =>
    obtain ⟨op, listed, result⟩ := main.linked.origins.ofResult v type o i value
    exact ⟨o, i, op, rfl, listed, result⟩
  | argument b i =>
    obtain ⟨block, listed, argument⟩ := main.linked.origins.ofArgument v type b i value
    simp only [block?, main.blocks, Array.getElem?_singleton] at listed
    split at listed
    · cases listed
      simp at argument
    · cases listed

/-- Every operand is a result of an earlier operation. -/
theorem operand_earlier (main : OnlyMain c m) {o : OpId} {op : Operation} {v : ValueId}
    (found : m.op? o = some op) (operand : v ∈ op.operands) :
    ∃ o' op', o'.index < o.index ∧ m.op? o' = some op' ∧ v ∈ op'.results := by
  have inside := main.linked.operands.exist o op v found operand
  obtain ⟨⟨type, origin⟩, value⟩ : ∃ value, m.value? v = some value :=
    ⟨m.values[v.index], Array.getElem?_eq_getElem inside⟩
  obtain ⟨o', i, op', rfl, listed, result⟩ := main.origin_result value
  exact ⟨o', op', main.linked.operands.origin o op v type o' i found operand value, listed,
    List.mem_of_getElem? result⟩

theorem verifyOps_nil (main : OnlyMain c m) (function : String) (block : BlockId) :
    m.verifyOps c function block [] m.ops.toList = [] := by
  rw [verifyOps_eq_nil_iff]
  intro before op after split
  have position : m.ops.toList[before.length]? = some op := by simp [split]
  have found : m.op? ⟨before.length⟩ = some op := by simpa [op?] using position
  have length : before.length + 1 + after.length = m.ops.size := by
    rw [← Array.length_toList, split]
    simp
    omega
  refine ⟨main.registered _ op found, fun ends => ?_, fun v operand => Or.inr ?_, main.conforms _ op found⟩
  · have last := main.terminator _ op found ends
    exact List.eq_nil_of_length_eq_zero (by simp at last; omega)
  · obtain ⟨o', op', older, listed, result⟩ := main.operand_earlier found operand
    refine ⟨op', ?_, result⟩
    have earlier : m.ops.toList[o'.index]? = some op' := by simpa [op?] using listed
    rw [split, List.getElem?_append_left older] at earlier
    exact List.mem_of_getElem? earlier

/-- Only the end of the block of `main` is left to check. -/
theorem verify_eq (main : OnlyMain c m) :
    m.verify c = if m.ops.toList.getLast?.any fun op => c.endsBlock op.kind then []
      else [.missingTerminator "main" ⟨0⟩] := by
  obtain ⟨loc, functions⟩ := main.functions
  simp [verify, functions, duplicates, verifyFunction, region?, main.regions, verifyBlocks, main.block?_zero,
    main.blockOps_zero, verifyBlock, main.verifyOps_nil]

end OnlyMain
end Module

/-! ## Placing an operation -/

/-- The operands, results and attributes of an operation to be placed are as its kind asks for. -/
structure Draft.Fits (m : Module) (d : Draft) : Prop where
  operands : d.kind.definition.operandFaults (d.operands.map m.type?) = []
  results : d.kind.definition.resultFaults (d.results.map some) = []
  attributes : ∀ op : Operation, op.attributes = d.attributes → d.kind.definition.attributeFaults op = []

theorem mistyped_eq_nil {fault : Nat → ValueType → OpFault} {admits : Nat → ValueType → Bool} {i : Nat}
    {types : List (Option ValueType)} (admitted : ∀ j type, some type ∈ types → admits j type = true) :
    mistyped fault admits i types = [] := by
  induction types generalizing i with
  | nil => rfl
  | cons first rest ih =>
    have later := ih (i := i + 1) fun j type member => admitted j type (List.mem_cons_of_mem _ member)
    cases first with
    | none => simpa [mistyped] using later
    | some type => simpa [mistyped, admitted i type (by simp)] using later

namespace Draft
variable (m : Module) (loc : Location)

theorem fits_nil : Fits m ⟨.nil, [], [], [.ref], loc⟩ :=
  ⟨rfl, rfl, fun _ _ => rfl⟩

theorem fits_number (n : Constant) : Fits m ⟨.number, [], [("value", n.attribute)], [.ref], loc⟩ where
  operands := rfl
  results := rfl
  attributes op same := by
    cases n <;> simp [OpKind.definition, OpDef.attributeFaults, Operation.attribute?, same, Constant.attribute,
      Attribute.kind]

theorem fits_getOrAlloc (name : String) : Fits m ⟨.getOrAlloc, [], [("var", .str name)], [.ref], loc⟩ where
  operands := rfl
  results := rfl
  attributes op same := by
    simp [OpKind.definition, OpDef.attributeFaults, Operation.attribute?, same, Attribute.kind]

theorem fits_concat (items : List ValueId) : Fits m ⟨.concat, items, [], [.pack], loc⟩ where
  operands := mistyped_eq_nil fun _ _ _ => rfl
  results := rfl
  attributes _ _ := rfl

theorem fits_unpack {pack : Pack} (isPack : m.type? pack.id = some .pack) (count : Nat) :
    Fits m ⟨.unpack, [pack.id], [], List.replicate count .ref, loc⟩ where
  operands := by simp [OpKind.definition, OpDef.operandFaults, isPack, mistyped, TypeConstraint.admits]
  results := by
    apply mistyped_eq_nil
    intro _ type member
    simp only [List.map_replicate, List.mem_replicate, Option.some.injEq] at member
    simp [member.2]
  attributes _ _ := rfl

theorem fits_assign {target value : Ref} (isCell : m.type? target.id = some .ref)
    (isRef : m.type? value.id = some .ref) : Fits m ⟨.assign, [target.id, value.id], [], [], loc⟩ where
  operands := by simp [OpKind.definition, OpDef.operandFaults, isCell, isRef, mistyped, TypeConstraint.admits]
  results := rfl
  attributes _ _ := rfl

theorem fits_call {callee : Ref} {args : Pack} (isRef : m.type? callee.id = some .ref)
    (isPack : m.type? args.id = some .pack) : Fits m ⟨.call, [callee.id, args.id], [], [.pack], loc⟩ where
  operands := by simp [OpKind.definition, OpDef.operandFaults, isRef, isPack, mistyped, TypeConstraint.admits]
  results := rfl
  attributes _ _ := rfl

theorem fits_ret : Fits m ⟨.ret, [], [], [], loc⟩ :=
  ⟨rfl, rfl, fun _ _ => rfl⟩

end Draft

namespace Module
variable {m : Module} {c : Catalogue}

theorem type?_lt {v : ValueId} {type : ValueType} (found : m.type? v = some type) : v.index < m.values.size := by
  obtain ⟨value, listed, -⟩ := Option.map_eq_some_iff.mp found
  exact value?_lt listed

theorem type?_append_of_lt {b : BlockId} {d : Draft} {v : ValueId} (inside : v.index < m.values.size) :
    (m.append b d).type? v = m.type? v := by
  rw [type?, value?_append, if_pos inside, type?]

theorem type?_append_resultIds (b : BlockId) (d : Draft) :
    (m.resultIds d.results).map (m.append b d).type? = d.results.map some := by
  apply List.ext_getElem?
  intro i
  by_cases inside : i < d.results.length
  · have listed : (m.resultIds d.results)[i]? = some ⟨m.values.size + i⟩ := getElem?_resultIds.mpr ⟨inside, rfl⟩
    have beyond : ¬ m.values.size + i < m.values.size := by omega
    simp [listed, type?, value?_append, inside, beyond]
  · simp [resultIds, inside]

theorem type?_append_of_mem {b : BlockId} {d : Draft} {v : ValueId} (new : v ∈ m.resultIds d.results) :
    ∃ type ∈ d.results, (m.append b d).type? v = some type := by
  have typed := List.mem_map_of_mem (f := (m.append b d).type?) new
  rw [type?_append_resultIds] at typed
  obtain ⟨type, member, same⟩ := List.mem_map.mp typed
  exact ⟨type, member, same.symm⟩

/-- No operation ends a block. -/
def Open (m : Module) : Prop := ∀ o op, m.op? o = some op → op.kind.definition.terminator = false

theorem Open.append {b : BlockId} {d : Draft} (opened : m.Open) (goesOn : d.kind.definition.terminator = false) :
    (m.append b d).Open := by
  intro o op found
  rw [op?_append] at found
  split at found
  · cases found
    exact goesOn
  · exact opened o op found

theorem Conforms.append {b : BlockId} {d : Draft} {op : Operation} (conforms : m.Conforms op)
    (operands : ∀ v ∈ op.operands, v.index < m.values.size)
    (results : ∀ v ∈ op.results, v.index < m.values.size) : (m.append b d).Conforms op where
  operands := by
    rw [List.map_congr_left fun v member => type?_append_of_lt (operands v member)]
    exact conforms.operands
  results := by
    rw [List.map_congr_left fun v member => type?_append_of_lt (results v member)]
    exact conforms.results
  attributes := conforms.attributes

theorem Linked.result_lt (linked : m.Linked) {o : OpId} {op : Operation} {v : ValueId} (found : m.op? o = some op)
    (member : v ∈ op.results) : v.index < m.values.size := by
  obtain ⟨i, listed⟩ := List.getElem?_of_mem member
  obtain ⟨type, value⟩ := linked.origins.result o op i v found listed
  exact value?_lt value

/-- An operation that fits its kind conforms to it once it is placed, and those before it still do. -/
theorem conforms_append (linked : m.Linked) (conforms : ∀ o op, m.op? o = some op → m.Conforms op) {b : BlockId}
    {d : Draft} (operands : ∀ v ∈ d.operands, v.index < m.values.size) (fits : d.Fits m) {o : OpId}
    {op : Operation} (found : (m.append b d).op? o = some op) : (m.append b d).Conforms op := by
  rw [op?_append] at found
  split at found
  · cases found
    refine ⟨?_, ?_, fits.attributes _ rfl⟩
    · rw [List.map_congr_left fun v member => type?_append_of_lt (operands v member)]
      exact fits.operands
    · rw [type?_append_resultIds]
      exact fits.results
  · exact (conforms o op found).append (fun v => linked.operands.exist o op v found)
      fun v => linked.result_lt found

theorem OnlyMain.append (main : OnlyMain c m) (opened : m.Open) {d : Draft} (registered : d.kind ∈ c.kinds)
    (operands : ∀ v ∈ d.operands, v.index < m.values.size) (fits : d.Fits m) :
    OnlyMain c (m.append ⟨0⟩ d) where
  functions := main.functions
  regions := main.regions
  blocks := by
    simp [Module.append, main.blocks, opIds, List.range_succ]
  linked := main.linked.append main.block?_zero operands
  registered o op found := by
    rw [op?_append] at found
    split at found
    · cases found
      exact registered
    · exact main.registered o op found
  conforms _ _ := conforms_append main.linked main.conforms operands fits
  terminator o op found ends := by
    rw [op?_append] at found
    split at found
    · rename_i last
      rw [size_ops_append, last]
    · simp [opened o op found] at ends

/-- The block of `main` is not ended when none of its operations ends it. -/
theorem OnlyMain.isTerminated_eq_false_iff (main : OnlyMain c m) :
    m.isTerminated c ⟨⟨0⟩, #[], m.opIds.toArray⟩ = false ↔ m.Open := by
  by_cases empty : m.ops.size = 0
  · have opened : m.Open := fun o op found => absurd (op?_lt found) (by omega)
    simp [isTerminated, opIds, empty, opened]
  · have inside : m.ops.size - 1 < m.ops.size := by omega
    have last : m.op? ⟨m.ops.size - 1⟩ = some m.ops[m.ops.size - 1] := Array.getElem?_eq_getElem inside
    have back : m.opIds.getLast? = some ⟨m.ops.size - 1⟩ := by simp [opIds, List.getLast?_range, empty]
    have ends : m.isTerminated c ⟨⟨0⟩, #[], m.opIds.toArray⟩ =
        m.ops[m.ops.size - 1].kind.definition.terminator := by
      simp [isTerminated, back, last, Catalogue.endsBlock, Catalogue.get?, main.registered _ _ last]
    rw [ends]
    constructor
    · intro goesOn o op found
      cases terminator : op.kind.definition.terminator with
      | false => rfl
      | true =>
        have position := main.terminator o op found terminator
        have same : o = ⟨m.ops.size - 1⟩ := by
          cases o
          simp only [OpId.mk.injEq] at position ⊢
          omega
        rw [same, last] at found
        cases found
        rw [goesOn] at terminator
        cases terminator
    · exact fun opened => opened _ _ last

end Module
end LuaLowering
