import LuaLowering.Module.Build
/-!
# Construction steps

A module is built by calls of the construction interface, in any order and with any arguments. A call
that fails leaves the module as it was (`Build.Atomic`). `Module.Change` lists all that a call can do to a module
(`Construction.after_change`), and the lookup lemmas say what the module holds after each change, so
that an invariant of modules is proved once per change and then holds of every module built
(`Module.extend_invariant`).
-/
namespace LuaLowering

namespace Build
variable {α β : Type}

/-- The module after a construction step, whether the step fails or not. -/
def after (step : Build α) (m : Module) : Module :=
  match step.run m with
  | .ok _ m' => m'
  | .error _ m' => m'

/-- When the step fails, it leaves the module as it was. -/
def Atomic (step : Build α) : Prop := ∀ m e m', step.run m = .error e m' → m' = m

theorem eq_ok_iff_run {step : Build α} {m m' : Module} {a : α} :
    step m = .ok (a, m') ↔ step.run m = .ok a m' := by
  unfold outcome
  cases step.run m <;> simp

theorem run_map (g : α → β) (step : Build α) (m : Module) :
    (g <$> step).run m = match step.run m with
      | .ok a m' => .ok (g a) m'
      | .error e m' => .error e m' := by
  simp only [Functor.map, bind, EStateM.bind]
  cases step.run m <;> rfl

theorem run_bind (step : Build α) (next : α → Build β) (m : Module) :
    (step >>= next).run m = match step.run m with
      | .ok a m' => (next a).run m'
      | .error e m' => .error e m' := by
  simp only [bind, EStateM.bind]
  cases step.run m <;> rfl

/-- An atomic step is given by its outcome. -/
theorem Atomic.run_eq {step : Build α} (atomic : step.Atomic) (m : Module) :
    step.run m = match step m with
      | .ok (a, m') => .ok a m'
      | .error e => .error e m := by
  unfold outcome
  cases made : step.run m with
  | ok a m' => rfl
  | error e m' => rw [atomic m e m' made]

theorem Atomic.map {step : Build α} (atomic : step.Atomic) (g : α → β) : (g <$> step).Atomic := by
  intro m e m' failed
  rw [run_map] at failed
  cases made : step.run m with
  | ok a m'' =>
    rw [made] at failed
    cases failed
  | error e' m'' =>
    rw [made] at failed
    cases failed
    exact atomic m e m' made

end Build

/-- A call of the construction interface. Sites, ids and handles are arbitrary. -/
inductive Construction where
  | addFunction (name : String) (loc : Location)
  | pushFunction (f : Function)
  | addEntryBlock (r : RegionId)
  | addBlockArgument (b : BlockId) (type : ValueType)
  | nil (site : Site) (loc : Location)
  | number (site : Site) (n : Constant) (loc : Location)
  | getOrAlloc (site : Site) (name : String) (loc : Location)
  | concat (site : Site) (items : List ValueId) (loc : Location)
  | unpack (site : Site) (pack : Pack) (count : Nat) (loc : Location)
  | assign (site : Site) (target value : Ref) (loc : Location)
  | call (site : Site) (callee : Ref) (args : Pack) (loc : Location)
  | ret (site : Site) (loc : Location)

def Construction.after : Construction → Module → Module
  | .addFunction name loc, m => (Build.addFunction name loc).after m
  | .pushFunction f, m => m.pushFunction f
  | .addEntryBlock r, m => (Build.addEntryBlock r).after m
  | .addBlockArgument b type, m => (Build.addBlockArgument b type).after m
  | .nil site loc, m => (site.nil loc).after m
  | .number site n loc, m => (site.number n loc).after m
  | .getOrAlloc site name loc, m => (site.getOrAlloc name loc).after m
  | .concat site items loc, m => (site.concat items loc).after m
  | .unpack site pack count loc, m => (site.unpack pack count loc).after m
  | .assign site target value loc, m => (site.assign target value loc).after m
  | .call site callee args loc, m => (site.call callee args loc).after m
  | .ret site loc, m => (site.ret loc).after m

namespace Module

/-- The module after further calls, made one after the other. -/
def extend (m : Module) (steps : List Construction) : Module :=
  steps.foldl (fun m step => step.after m) m

/-- The module that calls make out of an empty one. -/
def build (steps : List Construction) : Module := Module.empty.extend steps

/-- The module with a first block in a region. -/
def openBlock (m : Module) (r : RegionId) : Module :=
  { m with
    regions := m.regions.modify r.index fun region => ⟨region.blocks.push ⟨m.blocks.size⟩⟩
    blocks := m.blocks.push ⟨r, #[], #[]⟩ }

/-- The module with one more argument of a block, the one with the given number. -/
def addArgument (m : Module) (b : BlockId) (index : Nat) (type : ValueType) : Module :=
  { m with
    values := m.values.push ⟨type, .argument b index⟩
    blocks := m.blocks.modify b.index fun block =>
      { block with args := block.args.push ⟨m.values.size⟩ } }

/-- All that a call of the construction interface can do to a module. -/
inductive Change (m : Module) : Module → Prop where
  | none : Change m m
  | function (f : Function) : Change m (m.pushFunction f)
  | body (name : String) (loc : Location) : Change m (m.addFunction name loc).2
  | block (r : RegionId) (free : m.region? r = some ⟨#[]⟩) : Change m (m.openBlock r)
  | argument (b : BlockId) (block : Block) (type : ValueType) (found : m.block? b = some block) :
      Change m (m.addArgument b block.args.size type)
  | operation (b : BlockId) (block : Block) (draft : Draft) (found : m.block? b = some block)
      (operands : ∀ v ∈ draft.operands, v.index < m.values.size) : Change m (m.append b draft)

end Module

namespace Site

/-- An operation is placed when its kind is registered, its block is there and still open, and its
operands exist. -/
theorem insert_eq_ok_iff (site : Site) (draft : Draft) (m m' : Module) (vs : List ValueId) :
    site.insert draft m = .ok (vs, m') ↔
      draft.kind ∈ site.catalogue.kinds ∧
      (∃ block, m.block? site.block = some block ∧ m.isTerminated site.catalogue block = false) ∧
      (∀ v ∈ draft.operands, v.index < m.values.size) ∧
      vs = m.resultIds draft.results ∧ m' = m.append site.block draft := by
  rw [Build.eq_ok_iff_run]
  unfold insert
  by_cases registered : draft.kind ∈ site.catalogue.kinds
  · simp only [Catalogue.get?, registered, if_true, Option.isNone_some, Bool.false_eq_true, if_false, true_and]
    cases found : m.block? site.block with
    | none => simp
    | some block =>
      cases ended : m.isTerminated site.catalogue block with
      | true => simp [ended]
      | false =>
        cases missing : draft.operands.find? fun v => m.values.size ≤ v.index with
        | some v =>
          have member := List.mem_of_find?_eq_some missing
          have beyond : m.values.size ≤ v.index := by simpa using List.find?_some missing
          simp only [ended, Bool.false_eq_true, if_false, reduceCtorEq, false_iff]
          rintro ⟨-, operands, -⟩
          exact absurd (operands v member) (by omega)
        | none =>
          have operands : ∀ v ∈ draft.operands, v.index < m.values.size := by
            simpa using List.find?_eq_none.mp missing
          simp only [ended, Bool.false_eq_true, if_false, EStateM.Result.ok.injEq]
          constructor
          · rintro ⟨rfl, rfl⟩
            exact ⟨⟨block, rfl, ended⟩, operands, rfl, rfl⟩
          · rintro ⟨-, -, rfl, rfl⟩
            exact ⟨rfl, rfl⟩
  · simp [Catalogue.get?, registered]

/-- All checks are made before the operation is placed. -/
theorem insert_atomic (site : Site) (draft : Draft) : (site.insert draft).Atomic := by
  intro m e m' failed
  simp only [insert] at failed
  repeat' split at failed
  all_goals
    cases failed
    try rfl

/-- A factory places the operation `draft` and hands out what `handle` reads off the module before. -/
def Places {α : Type} (site : Site) (draft : Draft) (step : Build α) (handle : Module → α) : Prop :=
  ∀ m, step.run m = match (site.insert draft).run m with
    | .ok _ m' => .ok (handle m) m'
    | .error e m' => .error e m'

theorem places_insert {α : Type} (site : Site) (draft : Draft) (g : List ValueId → α) :
    site.Places draft (g <$> site.insert draft) fun m => g (m.resultIds draft.results) := by
  intro m
  rw [Build.run_map]
  cases placed : (site.insert draft).run m with
  | error e m' => rfl
  | ok vs m' =>
    obtain ⟨-, -, -, rfl, -⟩ := (site.insert_eq_ok_iff draft m m' vs).mp (Build.eq_ok_iff_run.mpr placed)
    rfl

/-- That a placed operation lacks its first result is found only after it was placed, but an operation with a
result never lacks it. -/
theorem places_insertOne {α : Type} (site : Site) (draft : Draft) (g : ValueId → α) (type : ValueType)
    (one : draft.results = [type]) :
    site.Places draft (g <$> site.insertOne draft) fun m => g ⟨m.values.size⟩ := by
  intro m
  rw [Build.run_map, insertOne, Build.run_bind]
  cases placed : (site.insert draft).run m with
  | error e m' => rfl
  | ok vs m' =>
    obtain ⟨-, -, -, rfl, -⟩ := (site.insert_eq_ok_iff draft m m' vs).mp (Build.eq_ok_iff_run.mpr placed)
    simp only [Module.resultIds, one]
    rfl

section Factories
variable (site : Site) (loc : Location)

theorem places_nil : site.Places ⟨.nil, [], [], [.ref], loc⟩ (site.nil loc) fun m => ⟨⟨m.values.size⟩⟩ :=
  site.places_insertOne _ _ .ref rfl

theorem places_number (n : Constant) :
    site.Places ⟨.number, [], [("value", n.attribute)], [.ref], loc⟩ (site.number n loc)
      fun m => ⟨⟨m.values.size⟩⟩ :=
  site.places_insertOne _ _ .ref rfl

theorem places_getOrAlloc (name : String) :
    site.Places ⟨.getOrAlloc, [], [("var", .str name)], [.ref], loc⟩ (site.getOrAlloc name loc)
      fun m => ⟨⟨m.values.size⟩⟩ :=
  site.places_insertOne _ _ .ref rfl

theorem places_concat (items : List ValueId) :
    site.Places ⟨.concat, items, [], [.pack], loc⟩ (site.concat items loc) fun m => ⟨⟨m.values.size⟩⟩ :=
  site.places_insertOne _ _ .pack rfl

theorem places_unpack (pack : Pack) (count : Nat) :
    site.Places ⟨.unpack, [pack.id], [], List.replicate count .ref, loc⟩ (site.unpack pack count loc)
      fun m => (m.resultIds (List.replicate count .ref)).map Ref.mk :=
  site.places_insert _ _

theorem places_assign (target value : Ref) :
    site.Places ⟨.assign, [target.id, value.id], [], [], loc⟩ (site.assign target value loc) fun _ => () :=
  site.places_insert _ _

theorem places_call (callee : Ref) (args : Pack) :
    site.Places ⟨.call, [callee.id, args.id], [], [.pack], loc⟩ (site.call callee args loc)
      fun m => ⟨⟨m.values.size⟩⟩ :=
  site.places_insertOne _ _ .pack rfl

theorem places_ret : site.Places ⟨.ret, [], [], [], loc⟩ (site.ret loc) fun _ => () :=
  site.places_insert _ _

end Factories

theorem Places.eq_ok_iff {α : Type} {site : Site} {draft : Draft} {step : Build α} {handle : Module → α}
    (places : site.Places draft step handle) (m m' : Module) (a : α) :
    step m = .ok (a, m') ↔
      draft.kind ∈ site.catalogue.kinds ∧
      (∃ block, m.block? site.block = some block ∧ m.isTerminated site.catalogue block = false) ∧
      (∀ v ∈ draft.operands, v.index < m.values.size) ∧
      a = handle m ∧ m' = m.append site.block draft := by
  rw [Build.eq_ok_iff_run, places m]
  constructor
  · intro success
    cases placed : (site.insert draft).run m with
    | error e m'' =>
      rw [placed] at success
      cases success
    | ok vs m'' =>
      rw [placed] at success
      cases success
      obtain ⟨registered, home, operands, -, grown⟩ :=
        (site.insert_eq_ok_iff draft m m' vs).mp (Build.eq_ok_iff_run.mpr placed)
      exact ⟨registered, home, operands, rfl, grown⟩
  · rintro ⟨registered, home, operands, rfl, rfl⟩
    have placed := (site.insert_eq_ok_iff draft m _ _).mpr ⟨registered, home, operands, rfl, rfl⟩
    rw [Build.eq_ok_iff_run.mp placed]

theorem Places.atomic {α : Type} {site : Site} {draft : Draft} {step : Build α} {handle : Module → α}
    (places : site.Places draft step handle) : step.Atomic := by
  intro m e m' failed
  rw [places m] at failed
  cases placed : (site.insert draft).run m with
  | ok vs m'' =>
    rw [placed] at failed
    cases failed
  | error e' m'' =>
    rw [placed] at failed
    cases failed
    exact site.insert_atomic draft m e m' placed

end Site

namespace Build
open LuaLowering.Module (Change)

/-- What holds before an atomic step and after its successful runs holds after it. -/
theorem Atomic.after_of_ok {α : Type} {P : Module → Prop} {step : Build α} (atomic : step.Atomic) {m : Module}
    (before : P m) (success : ∀ a m', step m = .ok (a, m') → P m') : P (step.after m) := by
  unfold after
  cases made : step.run m with
  | error e m' => exact atomic m e m' made ▸ before
  | ok a m' => exact success a m' (eq_ok_iff_run.mpr made)

theorem change_of_places {α : Type} {site : Site} {draft : Draft} {step : Build α} {handle : Module → α}
    (places : site.Places draft step handle) (m : Module) : Change m (step.after m) := by
  apply places.atomic.after_of_ok .none
  intro a m' success
  obtain ⟨-, ⟨block, found, -⟩, operands, -, rfl⟩ := (places.eq_ok_iff m m' a).mp success
  exact .operation site.block block draft found operands

theorem addEntryBlock_ok {r : RegionId} {m m' : Module} {b : BlockId} (success : addEntryBlock r m = .ok (b, m')) :
    m.region? r = some ⟨#[]⟩ ∧ b = ⟨m.blocks.size⟩ ∧ m' = m.openBlock r := by
  rw [eq_ok_iff_run] at success
  simp only [addEntryBlock] at success
  split at success
  · cases success
  · rename_i region found
    split at success
    · rename_i free
      cases success
      have empty : region = ⟨#[]⟩ := by
        cases region
        simpa using free
      exact ⟨by rw [found, empty], rfl, rfl⟩
    · cases success

theorem addEntryBlock_atomic (r : RegionId) : (addEntryBlock r).Atomic := by
  intro m e m' failed
  simp only [addEntryBlock] at failed
  split at failed
  · cases failed
    rfl
  · split at failed
    · cases failed
    · cases failed
      rfl

theorem addBlockArgument_ok {b : BlockId} {type : ValueType} {m m' : Module} {v : ValueId}
    (success : addBlockArgument b type m = .ok (v, m')) :
    ∃ block, m.block? b = some block ∧ v = ⟨m.values.size⟩ ∧ m' = m.addArgument b block.args.size type := by
  rw [eq_ok_iff_run] at success
  simp only [addBlockArgument] at success
  split at success
  · cases success
  · rename_i block found
    cases success
    exact ⟨block, found, rfl, rfl⟩

theorem addBlockArgument_atomic (b : BlockId) (type : ValueType) : (addBlockArgument b type).Atomic := by
  intro m e m' failed
  simp only [addBlockArgument] at failed
  split at failed
  · cases failed
    rfl
  · cases failed

theorem addEntryBlock_change (r : RegionId) (m : Module) : Change m ((addEntryBlock r).after m) := by
  apply (addEntryBlock_atomic r).after_of_ok .none
  intro b m' success
  obtain ⟨free, -, rfl⟩ := addEntryBlock_ok success
  exact .block r free

theorem addBlockArgument_change (b : BlockId) (type : ValueType) (m : Module) :
    Change m ((addBlockArgument b type).after m) := by
  apply (addBlockArgument_atomic b type).after_of_ok .none
  intro v m' success
  obtain ⟨block, found, -, rfl⟩ := addBlockArgument_ok success
  exact .argument b block type found

end Build

/-- A call of the construction interface makes one of the listed changes. -/
theorem Construction.after_change (k : Construction) (m : Module) : m.Change (k.after m) := by
  cases k with
  | addFunction name loc => exact .body name loc
  | pushFunction f => exact .function f
  | addEntryBlock r => exact Build.addEntryBlock_change r m
  | addBlockArgument b type => exact Build.addBlockArgument_change b type m
  | nil site loc => exact Build.change_of_places (site.places_nil loc) m
  | number site n loc => exact Build.change_of_places (site.places_number loc n) m
  | getOrAlloc site name loc => exact Build.change_of_places (site.places_getOrAlloc loc name) m
  | concat site items loc => exact Build.change_of_places (site.places_concat loc items) m
  | unpack site pack count loc => exact Build.change_of_places (site.places_unpack loc pack count) m
  | assign site target value loc => exact Build.change_of_places (site.places_assign loc target value) m
  | call site callee args loc => exact Build.change_of_places (site.places_call loc callee args) m
  | ret site loc => exact Build.change_of_places (site.places_ret loc) m

namespace Module

/-- What each change keeps, any number of calls keeps. -/
theorem extend_invariant {P : Module → Prop} (change : ∀ m m', m.Change m' → P m → P m') {m : Module}
    (start : P m) (steps : List Construction) : P (m.extend steps) := by
  induction steps generalizing m with
  | nil => exact start
  | cons k rest ih => exact ih (change m _ (k.after_change m) start)

/-! ## What a module holds after a change -/

section Lookup
variable (m : Module)

theorem op?_append (b : BlockId) (d : Draft) (o : OpId) :
    (m.append b d).op? o =
      if o.index = m.ops.size then some ⟨d.kind, b, d.operands, d.attributes, m.resultIds d.results, d.loc⟩
      else m.op? o := by
  simp [op?, append, Array.getElem?_push]

@[simp] theorem size_values_append (b : BlockId) (d : Draft) :
    (m.append b d).values.size = m.values.size + d.results.length := by
  rw [← Array.length_toList, append, Array.toList_appendList, List.length_append, List.length_mapIdx,
    Array.length_toList]

@[simp] theorem size_ops_append (b : BlockId) (d : Draft) : (m.append b d).ops.size = m.ops.size + 1 := by
  simp [append]

theorem value?_append (b : BlockId) (d : Draft) (v : ValueId) :
    (m.append b d).value? v =
      if v.index < m.values.size then m.value? v
      else (d.results[v.index - m.values.size]?).map fun type =>
        ⟨type, .result ⟨m.ops.size⟩ (v.index - m.values.size)⟩ := by
  rw [value?, append, ← Array.getElem?_toList, Array.toList_appendList, List.getElem?_append,
    List.getElem?_mapIdx]
  simp only [Array.length_toList, Array.getElem?_toList, value?]

theorem block?_append (b : BlockId) (d : Draft) (b' : BlockId) :
    (m.append b d).block? b' = (m.block? b').map fun block =>
      if b' = b then { block with ops := block.ops.push ⟨m.ops.size⟩ } else block := by
  cases b with | mk i =>
  cases b' with | mk j =>
  by_cases same : j = i
  · simp [block?, append, Array.getElem?_modify, same]
  · simp [block?, append, Array.getElem?_modify, same, Ne.symm same]

theorem value?_addArgument (b : BlockId) (i : Nat) (type : ValueType) (v : ValueId) :
    (m.addArgument b i type).value? v =
      if v.index = m.values.size then some ⟨type, .argument b i⟩ else m.value? v := by
  simp [value?, addArgument, Array.getElem?_push]

theorem block?_addArgument (b : BlockId) (i : Nat) (type : ValueType) (b' : BlockId) :
    (m.addArgument b i type).block? b' = (m.block? b').map fun block =>
      if b' = b then { block with args := block.args.push ⟨m.values.size⟩ } else block := by
  cases b with | mk i =>
  cases b' with | mk j =>
  by_cases same : j = i
  · simp [block?, addArgument, Array.getElem?_modify, same]
  · simp [block?, addArgument, Array.getElem?_modify, same, Ne.symm same]

theorem block?_openBlock (r : RegionId) (b : BlockId) :
    (m.openBlock r).block? b = if b.index = m.blocks.size then some ⟨r, #[], #[]⟩ else m.block? b := by
  simp [block?, openBlock, Array.getElem?_push]

theorem region?_openBlock (r r' : RegionId) :
    (m.openBlock r).region? r' = (m.region? r').map fun region =>
      if r' = r then ⟨region.blocks.push ⟨m.blocks.size⟩⟩ else region := by
  cases r with | mk i =>
  cases r' with | mk j =>
  by_cases same : j = i
  · simp [region?, openBlock, Array.getElem?_modify, same]
  · simp [region?, openBlock, Array.getElem?_modify, same, Ne.symm same]

theorem region?_addFunction (name : String) (loc : Location) (r : RegionId) :
    (m.addFunction name loc).2.region? r = if r.index = m.regions.size then some ⟨#[]⟩ else m.region? r := by
  simp [region?, addFunction, pushFunction, Array.getElem?_push]

end Lookup
end Module
end LuaLowering
