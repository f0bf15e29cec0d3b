import LuaLowering.Proofs.PackValues
import LuaLowering.Proofs.AppendOnly
/-!
# Packs inside packs

The contents of a pack are found by going through the operands of the concat that made it, and from there into the
packs among them, without a limit and without remembering what was seen. `Module.Finds` is this recursion as it is:
a derivation is one finite course of it. In a module made by calls of the construction interface, with whatever ids,
operands are older than results, so the recursion comes to an end everywhere and gives what `packContents` gives,
which is made of single values older than the pack. Later calls change no answer (`packContents_recursion`).
-/
namespace LuaLowering

namespace Module

mutual

/-- The search for the contents of a pack ends with the answer. Nothing is asked about the age of operands. -/
inductive Finds (m : Module) : ValueId → Option (List ValueId) → Prop where
  | concat {pack : ValueId} {op : Operation} {answer : Option (List ValueId)} (defined : m.definingOp? pack = some op)
      (concat : op.kind = .concat) (gathered : Gathers m op.operands answer) : Finds m pack answer
  | other {pack : ValueId} (other : ¬ m.IsConcat pack) : Finds m pack none

/-- The walk through the operands of a concat ends with the answer. It stops at the first one that is not known. -/
inductive Gathers (m : Module) : List ValueId → Option (List ValueId) → Prop where
  | done : Gathers m [] (some [])
  | missing {v : ValueId} {rest : List ValueId} (missing : m.type? v = none) : Gathers m (v :: rest) none
  | single {v : ValueId} {rest : List ValueId} {answer : Option (List ValueId)} (isRef : m.type? v = some .ref)
      (others : Gathers m rest answer) : Gathers m (v :: rest) (answer.map (v :: ·))
  | inner {v : ValueId} {rest contents : List ValueId} {answer : Option (List ValueId)}
      (isPack : m.type? v = some .pack) (found : Finds m v (some contents)) (others : Gathers m rest answer) :
      Gathers m (v :: rest) (answer.map (contents ++ ·))
  | unknown {v : ValueId} {rest : List ValueId} (isPack : m.type? v = some .pack) (found : Finds m v none) :
      Gathers m (v :: rest) none

end

variable {m : Module}

/-- What a list of operands has together. -/
theorem flatten_mapM_cons (g : ValueId → Option (List ValueId)) (v : ValueId) (rest : List ValueId) :
    List.flatten <$> (v :: rest).mapM g =
      (g v).bind fun part => (List.flatten <$> rest.mapM g).map (part ++ ·) := by
  rw [List.mapM_cons]
  cases g v with
  | none => rfl
  | some part => cases rest.mapM g <;> rfl

/-- The walk gives the contents of the operands one after the other, if the search does so for the packs among them. -/
theorem gathers_operandContents {vs : List ValueId}
    (found : ∀ v ∈ vs, m.type? v = some .pack → m.Finds v (m.packContents v)) :
    m.Gathers vs (List.flatten <$> vs.mapM m.operandContents) := by
  induction vs with
  | nil => exact .done
  | cons v rest ih =>
    have others := ih fun u member => found u (by simp [member])
    rw [flatten_mapM_cons]
    cases type : m.type? v with
    | none =>
      rw [operandContents, type]
      exact .missing type
    | some t =>
      cases t with
      | ref =>
        rw [operandContents, type]
        exact .single type others
      | pack =>
        have inner := found v (by simp) type
        rw [operandContents, type]
        cases known : m.packContents v with
        | none => exact .unknown type (known ▸ inner)
        | some contents => exact .inner type (known ▸ inner) others

/-- The search ends for every id. -/
theorem Linked.finds_packContents (linked : m.Linked) (pack : ValueId) : m.Finds pack (m.packContents pack) := by
  -- operands are older than the pack, so the induction is on its number
  induction number : pack.index using Nat.strongRecOn generalizing pack with
  | ind n ih =>
    by_cases concat : m.IsConcat pack
    · obtain ⟨op, defined, isConcat⟩ := concat
      obtain ⟨o, found, result⟩ := linked.definingOp?_eq_some defined
      rw [linked.packContents_concat defined isConcat]
      refine .concat defined isConcat (gathers_operandContents fun v member _ => ?_)
      exact ih v.index (number ▸ linked.operands.older o op v pack found member result) v rfl
    · rw [packContents_of_not_isConcat concat]
      exact .other concat

/-- The search has no other end than this. -/
theorem Linked.packContents_of_finds (linked : m.Linked) {pack : ValueId} {answer : Option (List ValueId)}
    (finds : m.Finds pack answer) : m.packContents pack = answer := by
  refine @Finds.rec m (fun pack answer _ => m.packContents pack = answer)
    (fun vs answer _ => List.flatten <$> vs.mapM m.operandContents = answer)
    ?concat ?other ?done ?missing ?single ?inner ?unknown pack answer finds
  case concat =>
    intro pack op answer defined isConcat _ gathered
    rw [linked.packContents_concat defined isConcat, gathered]
  case other => exact fun other => packContents_of_not_isConcat other
  case done => rfl
  case missing =>
    intro v rest missing
    rw [flatten_mapM_cons, operandContents, missing]
    rfl
  case single =>
    intro v rest answer isRef _ others
    rw [flatten_mapM_cons, operandContents, isRef, others]
    rfl
  case inner =>
    intro v rest contents answer isPack _ _ found others
    rw [flatten_mapM_cons, operandContents, isPack, others]
    simp only [found, Option.bind_some]
  case unknown =>
    intro v rest isPack _ found
    rw [flatten_mapM_cons, operandContents, isPack]
    simp only [found, Option.bind_none]

theorem Linked.finds_iff (linked : m.Linked) (pack : ValueId) (answer : Option (List ValueId)) :
    m.Finds pack answer ↔ m.packContents pack = answer :=
  ⟨linked.packContents_of_finds, fun same => same ▸ linked.finds_packContents pack⟩

theorem Linked.definingOp?_of_result (linked : m.Linked) {o : OpId} {op : Operation} (found : m.op? o = some op)
    {v : ValueId} (result : v ∈ op.results) : m.definingOp? v = some op := by
  obtain ⟨i, listed⟩ := List.mem_iff_getElem?.mp result
  obtain ⟨type, value⟩ := linked.origins.result o op i v found listed
  rw [definingOp?, value]
  exact found

/-- What a pack is made of are single values that are older than it. -/
theorem Linked.packContents_older (linked : m.Linked) {pack : ValueId} {contents : List ValueId}
    (known : m.packContents pack = some contents) : ∀ u ∈ contents, m.type? u = some .ref ∧ u.index < pack.index := by
  induction number : pack.index using Nat.strongRecOn generalizing pack contents with
  | ind n ih =>
    intro u member
    by_cases concat : m.IsConcat pack
    · obtain ⟨op, defined, isConcat⟩ := concat
      obtain ⟨o, found, result⟩ := linked.definingOp?_eq_some defined
      rw [linked.packContents_concat defined isConcat, Option.map_eq_map, Option.map_eq_some_iff] at known
      obtain ⟨parts, each, rfl⟩ := known
      obtain ⟨v, operand, part, ofOperand, inside⟩ := mem_flatten_of_mapM each member
      have older : v.index < n := number ▸ linked.operands.older o op v pack found operand result
      unfold operandContents at ofOperand
      split at ofOperand
      · rename_i isRef
        cases ofOperand
        rw [List.mem_singleton] at inside
        exact inside ▸ ⟨isRef, older⟩
      · obtain ⟨isRef, below⟩ := ih v.index older ofOperand rfl u inside
        exact ⟨isRef, Nat.lt_trans below older⟩
      · cases ofOperand
    · rw [packContents_of_not_isConcat concat] at known
      cases known

/-! ## Later calls -/

/-- Operations and values of the first module are the same in the second one, which may have more. -/
structure Within (m m' : Module) : Prop where
  ops : ∀ o op, m.op? o = some op → m'.op? o = some op
  values : ∀ v value, m.value? v = some value → m'.value? v = some value

variable {m' : Module}

theorem Kept.within {region : Option RegionId} {block : Option BlockId} (kept : m.Kept m' region block) :
    m.Within m' := ⟨kept.ops, kept.values⟩

theorem Change.within (change : m.Change m') : m.Within m' := by
  cases change with
  | none => exact ⟨fun _ _ => id, fun _ _ => id⟩
  | function f => exact (m.kept_pushFunction f).within
  | body name loc => exact (m.kept_addFunction name loc).within
  | block r _ => exact (m.kept_openBlock r).within
  | argument b block type _ => exact (m.kept_addArgument b block.args.size type).within
  | operation b _ draft _ _ => exact (m.kept_append b draft).within

theorem within_extend (m : Module) (steps : List Construction) : m.Within (m.extend steps) := by
  refine extend_invariant (P := m.Within) (fun m₁ m₂ change within => ?_) ⟨fun _ _ => id, fun _ _ => id⟩ steps
  exact ⟨fun o op found => change.within.ops o op (within.ops o op found),
    fun v value found => change.within.values v value (within.values v value found)⟩

theorem Within.value?_eq (within : m.Within m') {v : ValueId} (inside : v.index < m.values.size) :
    m'.value? v = m.value? v := by
  have found : m.value? v = some (m.values[v.index]) := by simp [value?, inside]
  rw [found, within.values v _ found]

theorem Within.type?_eq (within : m.Within m') {v : ValueId} (inside : v.index < m.values.size) :
    m'.type? v = m.type? v := by
  rw [type?, within.value?_eq inside, type?]

theorem Within.definingOp?_eq (within : m.Within m') (linked : m.Linked) {v : ValueId}
    (inside : v.index < m.values.size) : m'.definingOp? v = m.definingOp? v := by
  rw [definingOp?, within.value?_eq inside, definingOp?]
  split
  · rename_i type o i value
    obtain ⟨op, found, -⟩ := linked.origins.ofResult v type o i value
    rw [found, within.ops o op found]
  · rfl

theorem Within.isConcat_iff (within : m.Within m') (linked : m.Linked) {v : ValueId}
    (inside : v.index < m.values.size) : m'.IsConcat v ↔ m.IsConcat v := by
  simp only [IsConcat, within.definingOp?_eq linked inside]

theorem Within.packContents_eq (within : m.Within m') (linked : m.Linked) (linked' : m'.Linked) {pack : ValueId}
    (inside : pack.index < m.values.size) : m'.packContents pack = m.packContents pack := by
  induction number : pack.index using Nat.strongRecOn generalizing pack with
  | ind n ih =>
    by_cases concat : m.IsConcat pack
    · obtain ⟨op, defined, isConcat⟩ := concat
      obtain ⟨o, found, result⟩ := linked.definingOp?_eq_some defined
      have defined' : m'.definingOp? pack = some op := (within.definingOp?_eq linked inside).trans defined
      rw [linked.packContents_concat defined isConcat, linked'.packContents_concat defined' isConcat]
      congr 1
      apply mapM_congr
      intro v member
      have exists_v : v.index < m.values.size := linked.operands.exist o op v found member
      have older : v.index < n := number ▸ linked.operands.older o op v pack found member result
      rw [operandContents, operandContents, within.type?_eq exists_v, ih v.index older exists_v rfl]
    · have concat' : ¬ m'.IsConcat pack := fun isConcat => concat ((within.isConcat_iff linked inside).mp isConcat)
      rw [packContents_of_not_isConcat concat, packContents_of_not_isConcat concat']

theorem Within.resolveUnpacked_eq (within : m.Within m') (linked : m.Linked) (linked' : m'.Linked) {v : ValueId}
    (inside : v.index < m.values.size) : m'.resolveUnpacked v = m.resolveUnpacked v := by
  rw [resolveUnpacked, within.value?_eq inside, resolveUnpacked]
  split
  · rename_i type o i value
    obtain ⟨op, found, -⟩ := linked.origins.ofResult v type o i value
    simp only [found, within.ops o op found, Option.bind_eq_bind, Option.bind_some]
    cases operand : op.operands.head? with
    | none => rfl
    | some pack =>
      have exists_pack := linked.operands.exist o op pack found (List.mem_of_mem_head? operand)
      simp only [Option.bind_some, within.packContents_eq linked linked' exists_pack]
  · rfl

/-! ## Modules made by calls -/

theorem extend_append (m : Module) (steps more : List Construction) :
    m.extend (steps ++ more) = (m.extend steps).extend more := List.foldl_append

/-- In a module made by calls of the construction interface the search for contents ends for every id, existing or not,
and ends with the answer given. The contents of a concat are those of its operands one after the other, unknown when one
of them is; contents are existing single values older than the pack. Further calls leave what is answered about existing
values as it is. -/
theorem packContents_recursion (steps more : List Construction) :
    (∀ v answer, (build steps).Finds v answer ↔ (build steps).packContents v = answer) ∧
    (∀ o op pack, (build steps).op? o = some op → op.kind = .concat → pack ∈ op.results →
      (build steps).packContents pack = List.flatten <$> op.operands.mapM (build steps).operandContents) ∧
    (∀ pack contents, (build steps).packContents pack = some contents →
      ∀ u ∈ contents, (build steps).type? u = some .ref ∧ u.index < pack.index) ∧
    (∀ v, v.index < (build steps).values.size →
      (build (steps ++ more)).packContents v = (build steps).packContents v ∧
      (build (steps ++ more)).resolveUnpacked v = (build steps).resolveUnpacked v) := by
  have linked : (build steps).Linked := linked_empty.extend steps
  refine ⟨linked.finds_iff, fun o op pack found concat result => ?_, fun pack contents => linked.packContents_older,
    fun v inside => ?_⟩
  · exact linked.packContents_concat (linked.definingOp?_of_result found result) concat
  · have within : (build steps).Within (build (steps ++ more)) := by
      rw [build, build, extend_append]
      exact within_extend _ more
    have linked' : (build (steps ++ more)).Linked := linked_empty.extend (steps ++ more)
    exact ⟨within.packContents_eq linked linked' inside, within.resolveUnpacked_eq linked linked' inside⟩

/-- `%4` is made of `%0` and `%1` twice, with `%1` in between, so the sixth value taken out of it is missing. A further
concat of `%4` with itself makes no difference. -/
theorem packContents_recursion_nested :
    let more := nestedPacks ++ [.concat ⟨.full, ⟨0⟩⟩ [⟨4⟩, ⟨4⟩] ⟨"main.lua", 2, 1⟩]
    (build nestedPacks).Finds ⟨4⟩ (some [⟨0⟩, ⟨1⟩, ⟨1⟩, ⟨0⟩, ⟨1⟩]) ∧
    (build more).packContents ⟨4⟩ = some [⟨0⟩, ⟨1⟩, ⟨1⟩, ⟨0⟩, ⟨1⟩] ∧
    (build more).resolveUnpacked ⟨10⟩ = some .nil := by
  have facts := packContents_recursion nestedPacks [.concat ⟨.full, ⟨0⟩⟩ [⟨4⟩, ⟨4⟩] ⟨"main.lua", 2, 1⟩]
  have contents : (build nestedPacks).packContents ⟨4⟩ = some [⟨0⟩, ⟨1⟩, ⟨1⟩, ⟨0⟩, ⟨1⟩] := by decide +kernel
  have sixth : (build nestedPacks).resolveUnpacked ⟨10⟩ = some .nil := by decide +kernel
  have size : (build nestedPacks).values.size = 15 := by decide +kernel
  refine ⟨(facts.1 _ _).mpr contents, ?_, ?_⟩
  · exact (facts.2.2.2 ⟨4⟩ (by rw [size]; decide)).1.trans contents
  · exact (facts.2.2.2 ⟨10⟩ (by rw [size]; decide)).2.trans sixth

end Module
end LuaLowering
