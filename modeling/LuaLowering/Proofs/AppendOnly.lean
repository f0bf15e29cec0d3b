import LuaLowering.Proofs.LoweringSteps
/-!
# Appending

Building a module never changes or removes what is there. A call of the construction interface either fails, and then
the module is as it was before, or it appends: records that exist stay as they are, except that one block gets an
operation or an argument at its end, or one empty region its first block (`Module.Appends`), and what the call gives out
is just what it has made (`Answer.Created`). The scope of a function grows in the same way: a name gets its cell once,
and only when the cell could be made. `append_only` puts both together.
-/
namespace LuaLowering

namespace Module

/-- All records are the same as before, but for the region and the block that are named. -/
structure Kept (m m' : Module) (region : Option RegionId) (block : Option BlockId) : Prop where
  functions : ∀ (i : Nat) f, m.functions[i]? = some f → m'.functions[i]? = some f
  ops : ∀ o op, m.op? o = some op → m'.op? o = some op
  values : ∀ v value, m.value? v = some value → m'.value? v = some value
  regions : ∀ r x, m.region? r = some x → some r ≠ region → m'.region? r = some x
  blocks : ∀ b x, m.block? b = some x → some b ≠ block → m'.block? b = some x

/-- Records are at most added, and at most one of those before has something more at its end. -/
inductive Appends (m m' : Module) : Prop where
  | apart (kept : m.Kept m' none none)
  | operation (b : BlockId) (block : Block) (kept : m.Kept m' none (some b)) (before : m.block? b = some block)
      (after : m'.block? b = some { block with ops := block.ops.push ⟨m.ops.size⟩ })
  | argument (b : BlockId) (block : Block) (kept : m.Kept m' none (some b)) (before : m.block? b = some block)
      (after : m'.block? b = some { block with args := block.args.push ⟨m.values.size⟩ })
  | entry (r : RegionId) (kept : m.Kept m' (some r) none) (before : m.region? r = some ⟨#[]⟩)
      (after : m'.region? r = some ⟨#[⟨m.blocks.size⟩]⟩)

section Kept
variable (m : Module)

theorem kept_pushFunction (f : Function) : m.Kept (m.pushFunction f) none none where
  functions i g found := by
    have inside : i < m.functions.size := (Array.getElem?_eq_some_iff.mp found).1
    simpa [pushFunction, Array.getElem?_push, Nat.ne_of_lt inside] using found
  ops _ _ found := found
  values _ _ found := found
  regions _ _ found _ := found
  blocks _ _ found _ := found

theorem kept_addFunction (name : String) (loc : Location) : m.Kept (m.addFunction name loc).2 none none where
  functions := (m.kept_pushFunction ⟨name, ⟨m.regions.size⟩, loc⟩).functions
  ops _ _ found := found
  values _ _ found := found
  regions r x found _ := by
    have inside : r.index < m.regions.size := (Array.getElem?_eq_some_iff.mp found).1
    rw [region?_addFunction, if_neg (Nat.ne_of_lt inside), found]
  blocks _ _ found _ := found

theorem kept_openBlock (r : RegionId) : m.Kept (m.openBlock r) (some r) none where
  functions _ _ found := found
  ops _ _ found := found
  values _ _ found := found
  regions r' x found other := by
    have different : r' ≠ r := fun same => other (congrArg some same)
    rw [region?_openBlock, found, Option.map_some, if_neg different]
  blocks b x found _ := by
    have inside : b.index < m.blocks.size := (Array.getElem?_eq_some_iff.mp found).1
    rw [block?_openBlock, if_neg (Nat.ne_of_lt inside), found]

theorem kept_addArgument (b : BlockId) (i : Nat) (type : ValueType) :
    m.Kept (m.addArgument b i type) none (some b) where
  functions _ _ found := found
  ops _ _ found := found
  values v value found := by
    have inside : v.index < m.values.size := (Array.getElem?_eq_some_iff.mp found).1
    rw [value?_addArgument, if_neg (Nat.ne_of_lt inside), found]
  regions _ _ found _ := found
  blocks b' x found other := by
    have different : b' ≠ b := fun same => other (congrArg some same)
    rw [block?_addArgument, found, Option.map_some, if_neg different]

theorem kept_append (b : BlockId) (d : Draft) : m.Kept (m.append b d) none (some b) where
  functions _ _ found := found
  ops _ _ found := op?_append_of_some found
  values _ _ found := value?_append_of_some found
  regions _ _ found _ := found
  blocks b' x found other := by
    have different : b' ≠ b := fun same => other (congrArg some same)
    rw [block?_append, found, Option.map_some, if_neg different]

end Kept
end Module

/-- What a call of the construction interface gives out. A value comes with the type that its handle promises. -/
structure Answer where
  regions : List RegionId
  blocks : List BlockId
  values : List (ValueId × ValueType)

namespace Answer

def ofValues (values : List (ValueId × ValueType)) : Answer := ⟨[], [], values⟩

def ofRef (v : Ref) : Answer := ofValues [(v.id, .ref)]

def ofRefs (vs : List Ref) : Answer := ofValues (vs.map fun v => (v.id, .ref))

def ofPack (p : Pack) : Answer := ofValues [(p.id, .pack)]

/-- What is given out is what `m'` has and `m` has not, in order, and values are of the promised types. -/
structure Created (answer : Answer) (m m' : Module) : Prop where
  regions : answer.regions = (List.range' m.regions.size (m'.regions.size - m.regions.size)).map RegionId.mk
  blocks : answer.blocks = (List.range' m.blocks.size (m'.blocks.size - m.blocks.size)).map BlockId.mk
  values : answer.values.map Prod.fst = (List.range' m.values.size (m'.values.size - m.values.size)).map ValueId.mk
  typed : ∀ given ∈ answer.values, m'.type? given.1 = some given.2

/-- The results of an operation are given out with their types. -/
theorem created_append (m : Module) (b : BlockId) {d : Draft} {given : List (ValueId × ValueType)}
    (ids : given.map Prod.fst = m.resultIds d.results) (types : given.map Prod.snd = d.results) :
    (ofValues given).Created m (m.append b d) where
  regions := by simp [ofValues, Module.append]
  blocks := by simp [ofValues, Module.append]
  values := by rw [ofValues, ids, Module.resultIds, Module.size_values_append, Nat.add_sub_cancel_left]
  typed := by
    intro pair member
    obtain ⟨i, at_i⟩ : ∃ i : Nat, given[i]? = some pair := List.mem_iff_getElem?.mp member
    have listed : (m.resultIds d.results)[i]? = some pair.1 := by
      rw [← ids, List.getElem?_map, at_i, Option.map_some]
    have typed : d.results[i]? = some pair.2 := by
      rw [← types, List.getElem?_map, at_i, Option.map_some]
    rw [Module.type?, Module.value?_append_resultIds b listed typed, Option.map_some]

end Answer

/-- A call of the construction interface, with what it gives out. -/
def Construction.answer : Construction → Build Answer
  | .addFunction name loc => (fun r => ⟨[r], [], []⟩) <$> Build.addFunction name loc
  | .pushFunction f => ⟨fun m => .ok ⟨[], [], []⟩ (m.pushFunction f)⟩
  | .addEntryBlock r => (fun b => ⟨[], [b], []⟩) <$> Build.addEntryBlock r
  | .addBlockArgument b type => (fun v => ⟨[], [], [(v, type)]⟩) <$> Build.addBlockArgument b type
  | .nil site loc => Answer.ofRef <$> site.nil loc
  | .number site n loc => Answer.ofRef <$> site.number n loc
  | .getOrAlloc site name loc => Answer.ofRef <$> site.getOrAlloc name loc
  | .concat site items loc => Answer.ofPack <$> site.concat items loc
  | .unpack site pack count loc => Answer.ofRefs <$> site.unpack pack count loc
  | .assign site target value loc => (fun _ => .ofValues []) <$> site.assign target value loc
  | .call site callee args loc => Answer.ofPack <$> site.call callee args loc
  | .ret site loc => (fun _ => .ofValues []) <$> site.ret loc

namespace Build
variable {α : Type}

/-- When the step fails, the module is as it was; otherwise it has grown at its ends by what is given out. -/
structure AppendOnly (step : Build Answer) : Prop where
  failed : step.Atomic
  done : ∀ m answer m', step.run m = .ok answer m' → m.Appends m' ∧ answer.Created m m'

theorem AppendOnly.of_map {step : Build α} {g : α → Answer} (atomic : step.Atomic)
    (done : ∀ m a m', step m = .ok (a, m') → m.Appends m' ∧ (g a).Created m m') : (g <$> step).AppendOnly where
  failed := atomic.map g
  done m answer m' success := by
    rw [run_map] at success
    cases made : step.run m with
    | error e m'' =>
      rw [made] at success
      cases success
    | ok a m'' =>
      rw [made] at success
      cases success
      exact done m a m' (eq_ok_iff_run.mpr made)

theorem after_map {β : Type} (g : α → β) (step : Build α) (m : Module) : (g <$> step).after m = step.after m := by
  simp only [after, run_map]
  cases step.run m <;> rfl

theorem addFunction_appendOnly (name : String) (loc : Location) :
    ((fun r => (⟨[r], [], []⟩ : Answer)) <$> addFunction name loc).AppendOnly := by
  refine .of_map (fun m e m' failed => nomatch failed) fun m r m' success => ?_
  have made := eq_ok_iff_run.mp success
  cases made
  refine ⟨.apart (m.kept_addFunction name loc), ?_, ?_, ?_, nofun⟩ <;> simp [Module.pushFunction]

theorem addEntryBlock_appendOnly (r : RegionId) :
    ((fun b => (⟨[], [b], []⟩ : Answer)) <$> addEntryBlock r).AppendOnly := by
  refine .of_map (addEntryBlock_atomic r) fun m b m' success => ?_
  obtain ⟨free, rfl, rfl⟩ := addEntryBlock_ok success
  have opened : (m.openBlock r).region? r = some ⟨#[⟨m.blocks.size⟩]⟩ := by
    rw [Module.region?_openBlock, free, Option.map_some, if_pos rfl]
    rfl
  refine ⟨.entry r (m.kept_openBlock r) free opened, ?_, ?_, ?_, nofun⟩ <;> simp [Module.openBlock]

theorem addBlockArgument_appendOnly (b : BlockId) (type : ValueType) :
    ((fun v => (⟨[], [], [(v, type)]⟩ : Answer)) <$> addBlockArgument b type).AppendOnly := by
  refine .of_map (addBlockArgument_atomic b type) fun m v m' success => ?_
  obtain ⟨block, found, rfl, rfl⟩ := addBlockArgument_ok success
  have grown : (m.addArgument b block.args.size type).block? b =
      some { block with args := block.args.push ⟨m.values.size⟩ } := by
    rw [Module.block?_addArgument, found, Option.map_some, if_pos rfl]
  refine ⟨.argument b block (m.kept_addArgument b _ type) found grown, ?_, ?_, ?_, ?_⟩
  · simp [Module.addArgument]
  · simp [Module.addArgument]
  · simp [Module.addArgument]
  · simp [Module.type?, Module.value?_addArgument]

/-- A factory gives out the results of the operation that it places. -/
theorem places_appendOnly {site : Site} {d : Draft} {step : Build α} {handle : Module → α}
    (places : site.Places d step handle) {g : α → Answer} (given : Module → List (ValueId × ValueType))
    (answer : ∀ m, g (handle m) = .ofValues (given m)) (ids : ∀ m, (given m).map Prod.fst = m.resultIds d.results)
    (types : ∀ m, (given m).map Prod.snd = d.results) : (g <$> step).AppendOnly := by
  refine .of_map places.atomic fun m a m' success => ?_
  obtain ⟨-, ⟨block, found, -⟩, -, rfl, rfl⟩ := (places.eq_ok_iff m m' a).mp success
  have grown : (m.append site.block d).block? site.block =
      some { block with ops := block.ops.push ⟨m.ops.size⟩ } := by
    rw [Module.block?_append, found, Option.map_some, if_pos rfl]
  rw [answer m]
  exact ⟨.operation site.block block (m.kept_append site.block d) found grown,
    Answer.created_append m site.block (ids m) (types m)⟩

theorem places_one_appendOnly {site : Site} {d : Draft} {step : Build α} {h : ValueId → α}
    (places : site.Places d step fun m => h ⟨m.values.size⟩) {g : α → Answer} {type : ValueType}
    (one : d.results = [type]) (answer : ∀ v, g (h v) = .ofValues [(v, type)]) : (g <$> step).AppendOnly := by
  refine places_appendOnly places (fun m => [(⟨m.values.size⟩, type)]) (fun m => answer _) (fun m => ?_) fun m => ?_
  · rw [one]
    rfl
  · rw [one]
    rfl

theorem places_unit_appendOnly {site : Site} {d : Draft} {step : Build Unit} (places : site.Places d step fun _ => ())
    (silent : d.results = []) : ((fun _ => Answer.ofValues []) <$> step).AppendOnly := by
  refine places_appendOnly places (fun _ => []) (fun _ => rfl) (fun m => ?_) fun m => ?_
  · rw [silent]
    rfl
  · rw [silent]
    rfl

end Build

/-- What is given out makes no difference to the module. -/
theorem Construction.after_answer (k : Construction) (m : Module) : k.answer.after m = k.after m := by
  cases k with
  | pushFunction f => rfl
  | _ => exact Build.after_map _ _ m

/-- Every call of the construction interface fails without a trace or appends. -/
theorem Construction.answer_appendOnly (k : Construction) : k.answer.AppendOnly := by
  cases k with
  | addFunction name loc => exact Build.addFunction_appendOnly name loc
  | pushFunction f =>
    refine ⟨(fun m e m' failed => nomatch failed), fun m answer m' success => ?_⟩
    cases success
    refine ⟨.apart (m.kept_pushFunction f), ?_, ?_, ?_, nofun⟩ <;> simp [Module.pushFunction]
  | addEntryBlock r => exact Build.addEntryBlock_appendOnly r
  | addBlockArgument b type => exact Build.addBlockArgument_appendOnly b type
  | nil site loc => exact Build.places_one_appendOnly (site.places_nil loc) rfl fun _ => rfl
  | number site n loc => exact Build.places_one_appendOnly (site.places_number loc n) rfl fun _ => rfl
  | getOrAlloc site name loc => exact Build.places_one_appendOnly (site.places_getOrAlloc loc name) rfl fun _ => rfl
  | concat site items loc => exact Build.places_one_appendOnly (site.places_concat loc items) rfl fun _ => rfl
  | unpack site pack count loc =>
    refine Build.places_appendOnly (site.places_unpack loc pack count) _ (fun m => rfl) (fun m => ?_) fun m => ?_
    · simp [Function.comp_def]
    · simp [Function.comp_def, Module.resultIds]
  | assign site target value loc => exact Build.places_unit_appendOnly (site.places_assign loc target value) rfl
  | call site callee args loc => exact Build.places_one_appendOnly (site.places_call loc callee args) rfl fun _ => rfl
  | ret site loc => exact Build.places_unit_appendOnly (site.places_ret loc) rfl

/-! ## Scopes -/

/-- The step leaves the names and their cells alone, whether it fails or not. -/
def Lowering.SparesScope {α : Type} (x : Lowering α) : Prop :=
  ∀ s, match x s with
    | .ok _ t => t.scope = s.scope
    | .error _ t => t.scope = s.scope

namespace Lowering
variable {alloc : Lowering Ref} (name : String) (s : LowerState)

/-- Only a name without a cell can fail to be resolved, and only for want of the cell. -/
theorem resolve_eq_error_iff (e : LowerError) (t : LowerState) :
    resolve name alloc s = .error e t ↔ s.scope.lookup name = none ∧ alloc s = .error e t := by
  cases known : s.scope.lookup name with
  | some cell =>
    rw [resolve_bound name s known]
    simp
  | none =>
    rw [resolve_free name s known]
    cases alloc s <;> simp

/-- After a name is resolved it has the given cell, and the cells of before are still there. -/
theorem resolve_keeps {cell : Ref} {t : LowerState} (resolved : resolve name alloc s = .ok cell t) :
    t.scope.lookup name = some cell ∧ ∀ n c, s.scope.lookup n = some c → t.scope.lookup n = some c := by
  cases known : s.scope.lookup name with
  | some bound =>
    rw [resolve_bound name s known] at resolved
    cases resolved
    exact ⟨known, fun _ _ => id⟩
  | none =>
    rw [resolve_free name s known] at resolved
    cases made : alloc s with
    | error e t' =>
      rw [made] at resolved
      cases resolved
    | ok cell' t' =>
      rw [made] at resolved
      cases resolved
      refine ⟨by simp [Scope.lookup_declare, known], fun n c found => ?_⟩
      rw [Scope.lookup_declare, found, Option.some_or]

theorem emit_sparesScope {α : Type} (kind : OpKind) (loc : Location) (step : Build α) :
    (emit kind loc step).SparesScope := by
  intro s
  simp only [emit, bind, EStateM.bind, build]
  cases step.run s.module <;> exact rfl

end Lowering

/-- Whatever is in the module, a call that fails leaves it exactly as it was, and one that succeeds appends to it and
gives out what it has made. Resolving a name fails exactly when it needs a cell and none can be made, and leaves the
scope as it was then; otherwise the name has its cell, and all names keep theirs. -/
theorem Construction.append_only (k : Construction) (m : Module) (name : String) {alloc : Lowering Ref}
    (spares : alloc.SparesScope) (s : LowerState) :
    k.answer.after m = k.after m ∧
    (∀ e m', k.answer.run m = .error e m' → m' = m) ∧
    (∀ answer m', k.answer.run m = .ok answer m' → m.Appends m' ∧ answer.Created m m') ∧
    (∀ e t, Lowering.resolve name alloc s = .error e t ↔ s.scope.lookup name = none ∧ alloc s = .error e t) ∧
    (∀ e t, Lowering.resolve name alloc s = .error e t → t.scope = s.scope) ∧
    (∀ cell t, Lowering.resolve name alloc s = .ok cell t →
      t.scope.lookup name = some cell ∧ ∀ n c, s.scope.lookup n = some c → t.scope.lookup n = some c) := by
  refine ⟨k.after_answer m, k.answer_appendOnly.failed m, k.answer_appendOnly.done m,
    Lowering.resolve_eq_error_iff name s, ?_, fun _ _ => Lowering.resolve_keeps name s⟩
  intro e t failed
  have spared := spares s
  rw [((Lowering.resolve_eq_error_iff name s e t).mp failed).2] at spared
  exact spared

/-- Without the operation for cells, no cell can be made, and the scope stays as it was. -/
theorem Construction.append_only_noCell :
    let f := Frame.ofMain ⟨"t.lua", ""⟩ (Catalogue.full.without .getOrAlloc)
    let alloc := Lowering.emit .getOrAlloc (.unknown "t.lua") (f.site.getOrAlloc "x" (.unknown "t.lua"))
    let s := LowerState.ofMain (.unknown "t.lua")
    alloc.SparesScope ∧ ∃ e t, Lowering.resolve "x" alloc s = .error e t ∧ t.scope = s.scope := by
  intro f alloc s
  have spares : alloc.SparesScope := Lowering.emit_sparesScope _ _ _
  have failed : alloc s = .error (.invariant (.build (.unregisteredOp .getOrAlloc)) none) s := rfl
  have facts := append_only (.ret f.site (.unknown "t.lua")) s.module "x" spares s
  have resolved := (facts.2.2.2.1 _ _).mpr ⟨rfl, failed⟩
  exact ⟨spares, _, _, resolved, facts.2.2.2.2.1 _ _ resolved⟩

end LuaLowering
