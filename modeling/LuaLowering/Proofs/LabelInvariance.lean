import LuaLowering.Proofs.Erasure
import LuaLowering.Proofs.LoweringSteps
/-!
# Lowering does not look at labels

Two runs of the lowering, one on a tree and one on the same tree with other names and ranges, go in step: they place the
same operations on the same values, and they stop at the same point (`Mirrors`). What they make differs in the labels
only. So variables can be renamed before or after lowering (`lower_rename`), and locations have no influence on what is
emitted or reported (`lower_unplaced`).
-/
namespace LuaLowering

/-! ## Labels of modules -/

section Labels
variable (names : String → String) (places : Location → Location)

/-- Another name for the variable that an attribute names. -/
def Attribute.relabel : String × Attribute → String × Attribute
  | (key, .str n) => if key = "var" then (key, .str (names n)) else (key, .str n)
  | other => other

def Operation.relabel (op : Operation) : Operation :=
  { op with attributes := op.attributes.map (Attribute.relabel names), loc := places op.loc }

def Draft.relabel (d : Draft) : Draft :=
  { d with attributes := d.attributes.map (Attribute.relabel names), loc := places d.loc }

/-- The module with other names of variables and other places. -/
def Module.relabel (m : Module) : Module :=
  { m with
    functions := m.functions.map fun f => { f with loc := places f.loc }
    ops := m.ops.map (Operation.relabel names places) }

def LowerError.relabel : LowerError → LowerError
  | .unsupported construct span => .unsupported construct ⟨places span.first, places span.last⟩
  | .invariant breach location => .invariant breach (location.map places)

/-- The outcome of lowering with other names and places. -/
def relabelOutcome : Except LowerError Module → Except LowerError Module
  | .ok m => .ok (m.relabel names places)
  | .error e => .error (e.relabel places)

theorem Module.op?_relabel (m : Module) (o : OpId) :
    (m.relabel names places).op? o = (m.op? o).map (Operation.relabel names places) := by
  simp [op?, relabel]

theorem Module.append_relabel (m : Module) (b : BlockId) (d : Draft) :
    (m.append b d).relabel names places = (m.relabel names places).append b (d.relabel names places) := by
  simp [append, relabel, Draft.relabel, Operation.relabel, resultIds]

end Labels

/-! ## Runs in step -/

section Runs
variable {names : String → String} {places : Location → Location} {α β : Type}

/-- The second module is the first with other names, up to places that `places` does not tell apart. -/
def Module.Alike (names : String → String) (places : Location → Location) (m m' : Module) : Prop :=
  m'.relabel id places = m.relabel names places

def Draft.Alike (names : String → String) (places : Location → Location) (d d' : Draft) : Prop :=
  d'.relabel id places = d.relabel names places

theorem Draft.Alike.shape {d d' : Draft} (same : d.Alike names places d') :
    d'.kind = d.kind ∧ d'.operands = d.operands ∧ d'.results = d.results := by
  simp only [Alike, relabel, Draft.mk.injEq] at same
  exact ⟨same.1, same.2.1, same.2.2.2.1⟩

namespace Module.Alike
variable {m m' : Module} (alike : m.Alike names places m')
include alike

theorem values_eq : m'.values = m.values := by
  have same := congrArg Module.values alike
  exact same

theorem block?_eq (b : BlockId) : m'.block? b = m.block? b := by
  have same := congrArg (·.block? b) alike
  exact same

theorem kind_eq (o : OpId) : (m'.op? o).map (·.kind) = (m.op? o).map (·.kind) := by
  have same := congrArg (fun m => (m.op? o).map (·.kind)) alike
  simp only [op?_relabel, Option.map_map] at same
  exact same

theorem isTerminated_eq (c : Catalogue) (block : Block) : m'.isTerminated c block = m.isTerminated c block := by
  have byKind (m : Module) : m.isTerminated c block =
      (block.ops.back?.bind fun o => (m.op? o).map (·.kind)).any c.endsBlock := by
    unfold isTerminated
    cases block.ops.back? with
    | none => rfl
    | some o =>
      simp only [Option.bind_some]
      cases m.op? o <;> rfl
  simp only [byKind, alike.kind_eq]

theorem append {d d' : Draft} (same : d.Alike names places d') (b : BlockId) :
    (m.append b d).Alike names places (m'.append b d') := by
  unfold Alike
  rw [append_relabel, append_relabel, alike, same]

end Module.Alike

/-- Two results of construction steps that go in step. -/
inductive Build.Agree (names : String → String) (places : Location → Location) :
    EStateM.Result BuildError Module α → EStateM.Result BuildError Module α → Prop where
  | ok (a : α) {m m' : Module} (alike : m.Alike names places m') : Agree names places (.ok a m) (.ok a m')
  | error (e : BuildError) {m m' : Module} (alike : m.Alike names places m') :
    Agree names places (.error e m) (.error e m')

/-- On modules that are alike, both steps have the same result, and the modules are still alike. -/
def Build.Mirrors (names : String → String) (places : Location → Location) (step step' : Build α) : Prop :=
  ∀ m m', m.Alike names places m' → Agree names places (step.run m) (step'.run m')

namespace Build.Mirrors

theorem map {step step' : Build α} (mirrors : Mirrors names places step step') (g : α → β) :
    Mirrors names places (g <$> step) (g <$> step') := by
  intro m m' alike
  have agree := mirrors m m' alike
  rw [run_map, run_map]
  generalize step.run m = r, step'.run m' = r' at agree
  cases agree with
  | ok a alike => exact .ok (g a) alike
  | error e alike => exact .error e alike

theorem bind {step step' : Build α} {next next' : α → Build β} (first : Mirrors names places step step')
    (second : ∀ a, Mirrors names places (next a) (next' a)) :
    Mirrors names places (step >>= next) (step' >>= next') := by
  intro m m' alike
  have agree := first m m' alike
  rw [run_bind, run_bind]
  generalize step.run m = r, step'.run m' = r' at agree
  cases agree with
  | ok a alike => exact second a _ _ alike
  | error e alike => exact .error e alike

/-- Whether an operation can be placed does not depend on labels. -/
theorem insert (site : Site) {d d' : Draft} (same : d.Alike names places d') :
    Mirrors names places (site.insert d) (site.insert d') := by
  intro m m' alike
  obtain ⟨kind, operands, results⟩ := same.shape
  simp only [Site.insert, Module.resultIds, kind, operands, results, alike.values_eq, alike.block?_eq,
    alike.isTerminated_eq]
  repeat' split
  all_goals first
    | exact .error _ alike
    | exact .ok _ (alike.append same site.block)

theorem insertOne (site : Site) {d d' : Draft} (same : d.Alike names places d') :
    Mirrors names places (site.insertOne d) (site.insertOne d') := by
  refine .bind (.insert site same) fun vs => ?_
  rw [same.shape.1]
  cases vs with
  | nil => exact fun _ _ alike => .error _ alike
  | cons v rest => exact fun _ _ alike => .ok v alike

end Build.Mirrors

def LowerState.Alike (names : String → String) (places : Location → Location) (s s' : LowerState) : Prop :=
  s.module.Alike names places s'.module ∧ s'.scope.cells = s.scope.cells.map fun (n, cell) => (names n, cell)

/-- Under other names, a name has the cell that it had. -/
theorem Scope.lookup_rename {names : String → String} (injective : Function.Injective names) {s s' : Scope}
    (renamed : s'.cells = s.cells.map fun (n, cell) => (names n, cell)) (name : String) :
    s'.lookup (names name) = s.lookup name := by
  unfold lookup
  rw [renamed]
  induction s.cells with
  | nil => rfl
  | cons pair rest ih =>
    obtain ⟨n, cell⟩ := pair
    by_cases same : name = n
    · simp [same]
    · have different : names name ≠ names n := fun equal => same (injective equal)
      simp [List.lookup_cons, beq_false_of_ne same, beq_false_of_ne different, ih]

namespace Lowering

/-- Two results of the lowering that go in step. -/
inductive Agree (names : String → String) (places : Location → Location) :
    EStateM.Result LowerError LowerState α → EStateM.Result LowerError LowerState α → Prop where
  | ok (a : α) {s s' : LowerState} (alike : s.Alike names places s') : Agree names places (.ok a s) (.ok a s')
  | error {e e' : LowerError} {s s' : LowerState} (same : e'.relabel places = e.relabel places) :
    Agree names places (.error e s) (.error e' s')

/-- From states that are alike, both steps lead to the same result and to states that are alike, or both fail with the
same error, up to places. -/
def Mirrors (names : String → String) (places : Location → Location) (x x' : Lowering α) : Prop :=
  ∀ s s', s.Alike names places s' → Agree names places (x s) (x' s')

namespace Mirrors

theorem pure (a : α) : Mirrors names places (Pure.pure a) (Pure.pure a) := fun _ _ alike => .ok a alike

theorem throw {e e' : LowerError} (same : e'.relabel places = e.relabel places) :
    Mirrors names places (MonadExcept.throw e : Lowering α) (MonadExcept.throw e') := fun _ _ _ => .error same

/-- The log keeps its labels. -/
theorem note (e e' : Event) : Mirrors names places (Lowering.note e) (Lowering.note e') := fun _ _ alike => .ok () alike

theorem bind {x x' : Lowering α} {g g' : α → Lowering β} (first : Mirrors names places x x')
    (second : ∀ a, Mirrors names places (g a) (g' a)) : Mirrors names places (x >>= g) (x' >>= g') := by
  intro s s' alike
  have agree := first s s' alike
  simp only [Bind.bind, EStateM.bind]
  generalize x s = r, x' s' = r' at agree
  cases agree with
  | ok a alike => exact second a _ _ alike
  | error same => exact .error same

theorem emit {kind : OpKind} {loc loc' : Location} {step step' : Build α}
    (mirrors : Build.Mirrors names places step step') :
    Mirrors names places (Lowering.emit kind loc step) (Lowering.emit kind loc' step') := by
  refine .bind (fun s s' alike => ?_) fun a => .bind (.note _ _) fun _ => .pure a
  have agree := mirrors s.module s'.module alike.1
  unfold Lowering.build
  generalize step.run s.module = r, step'.run s'.module = r' at agree
  cases agree with
  | ok a same => exact .ok a ⟨same, alike.2⟩
  | error e same => exact .error rfl

theorem resolve (injective : Function.Injective names) {alloc alloc' : Lowering Ref}
    (mirrors : Mirrors names places alloc alloc') (name : String) :
    Mirrors names places (Lowering.resolve name alloc) (Lowering.resolve (names name) alloc') := by
  intro s s' alike
  have bound := Scope.lookup_rename injective alike.2 name
  cases known : s.scope.lookup name with
  | some cell =>
    rw [known] at bound
    rw [resolve_bound name s known, resolve_bound _ s' bound]
    exact .ok cell alike
  | none =>
    rw [known] at bound
    have agree := mirrors s s' alike
    rw [resolve_free name s known, resolve_free _ s' bound]
    generalize alloc s = r, alloc' s' = r' at agree
    cases agree with
    | ok cell alike' => exact .ok cell ⟨alike'.1, by simp [Scope.declare, alike.2]⟩
    | error same => exact .error same

end Mirrors
end Lowering
end Runs

/-! ## Steps of the lowering -/

namespace Frame
open Syntax
open Lowering (Mirrors)

/-- What the lowering of a tree goes by, and what the lowering of the relabelled tree goes by. -/
structure Relabelled (names : String → String) (ranges : Option TextRange → Option TextRange)
    (places : Location → Location) (f f' : Frame) : Prop where
  injective : Function.Injective names
  site : f'.site = f.site
  start : ∀ range, places (f'.startLoc (ranges range)) = places (f.startLoc range)
  stop : ∀ range, places (f'.source.endLoc (ranges range)) = places (f.source.endLoc range)

section Steps
variable {names : String → String} {ranges : Option TextRange → Option TextRange} {places : Location → Location}
  {f f' : Frame} (relabelled : Relabelled names ranges places f f')
include relabelled

theorem unsupported_mirrors {α : Type} (construct : String) (range : Option TextRange) :
    Mirrors names places (throw (.unsupported construct (f.span range)) : Lowering α)
      (throw (.unsupported construct (f'.span (ranges range)))) := by
  have first : places (f'.span (ranges range)).first = places (f.span range).first := relabelled.start range
  have last : places (f'.span (ranges range)).last = places (f.span range).last := relabelled.stop range
  refine .throw ?_
  simp only [LowerError.relabel, first, last]

theorem resolve_mirrors (name : String) {loc loc' : Location} (here : places loc' = places loc) :
    Mirrors names places (f.resolve name loc) (f'.resolve (names name) loc') := by
  unfold resolve
  rw [relabelled.site]
  refine .resolve relabelled.injective (.bind (.note _ _) fun _ => ?_) name
  refine .emit ((Build.Mirrors.insertOne f.site ?_).map Ref.mk)
  simp [Draft.Alike, Draft.relabel, Attribute.relabel, here]

theorem pack_mirrors (items : List Lowered) {loc loc' : Location} (here : places loc' = places loc) :
    Mirrors names places (f.pack items loc) (f'.pack items loc') := by
  unfold pack
  split
  · exact .throw (by simp [LowerError.relabel, here])
  · rw [relabelled.site]
    refine .emit ((Build.Mirrors.insertOne f.site ?_).map Pack.mk)
    simp [Draft.Alike, Draft.relabel, here]

theorem unpack_mirrors (p : Pack) (count : Nat) {loc loc' : Location} (here : places loc' = places loc) :
    Mirrors names places (f.unpack p count loc) (f'.unpack p count loc') := by
  unfold unpack
  rw [relabelled.site]
  refine .bind (.emit ((Build.Mirrors.insert f.site ?_).map _)) fun values => ?_
  · simp [Draft.Alike, Draft.relabel, here]
  · split
    · exact .pure _
    · exact .throw (by simp [LowerError.relabel, here])

theorem adjustToOne_mirrors (item : Lowered) {loc loc' : Location} (here : places loc' = places loc) :
    Mirrors names places (f.adjustToOne item loc) (f'.adjustToOne item loc') := by
  cases item with
  | value v => exact .pure v
  | pack p =>
    refine .bind (unpack_mirrors relabelled p 1 here) fun values => ?_
    cases values with
    | nil => exact .throw (by simp [LowerError.relabel, here])
    | cons v rest => exact .pure v

theorem lowerVar_mirrors (v : Var) :
    Mirrors names places (f.lowerVar v) (f'.lowerVar (v.relabel names ranges)) := by
  unfold lowerVar
  rw [v.bareName?_relabel, v.range_relabel]
  cases v.bareName? with
  | some name => exact resolve_mirrors relabelled name (relabelled.start v.range)
  | none => exact unsupported_mirrors relabelled _ v.range

theorem lowerNumeral_mirrors (n : Numeral) (range : Option TextRange) :
    Mirrors names places (f.lowerNumeral n range) (f'.lowerNumeral n (ranges range)) := by
  have here := relabelled.start range
  unfold lowerNumeral
  rw [relabelled.site]
  split
  · refine .bind (.emit ((Build.Mirrors.insertOne f.site ?_).map Ref.mk)) fun v => .pure _
    rename_i c _
    cases c <;> simp [Draft.Alike, Draft.relabel, Constant.attribute, Attribute.relabel, here]
  · exact unsupported_mirrors relabelled _ range
  · exact .throw (by simp [LowerError.relabel, here])

end Steps

section Trees
variable {names : String → String} {ranges : Option TextRange → Option TextRange} {places : Location → Location}
  {f f' : Frame}

mutual

theorem lowerExp_mirrors (relabelled : Relabelled names ranges places f f') : ∀ e : Exp,
    Mirrors names places (f.lowerExp e) (f'.lowerExp (e.relabel names ranges))
  | ⟨.nil, range⟩ => by
    simp only [Exp.relabel, ExpKind.relabel, lowerExp, relabelled.site]
    refine .bind (.emit ((Build.Mirrors.insertOne f.site ?_).map Ref.mk)) fun v => .pure _
    simp [Draft.Alike, Draft.relabel, relabelled.start range]
  | ⟨.number n, range⟩ => by
    simp only [Exp.relabel, ExpKind.relabel, lowerExp]
    exact lowerNumeral_mirrors relabelled n range
  | ⟨.prefixExp p, range⟩ => by
    simp only [Exp.relabel, ExpKind.relabel, lowerExp]
    exact lowerPrefixExp_mirrors relabelled p range
  | ⟨.false, range⟩ | ⟨.true, range⟩ | ⟨.varArgs, range⟩ | ⟨.str _, range⟩ | ⟨.function _, range⟩
  | ⟨.table _, range⟩ | ⟨.unary _ _, range⟩ | ⟨.binary _ _ _, range⟩ => by
    simp only [Exp.relabel, ExpKind.relabel, lowerExp]
    exact unsupported_mirrors relabelled _ range

theorem lowerExps_mirrors (relabelled : Relabelled names ranges places f f') : ∀ es : List Exp,
    Mirrors names places (f.lowerExps es) (f'.lowerExps (expsRelabel names ranges es))
  | [] => by
    simp only [expsRelabel, lowerExps]
    exact .pure _
  | e :: es => by
    have empty : (expsRelabel names ranges es).isEmpty = es.isEmpty := by cases es <;> simp
    simp only [expsRelabel, lowerExps, empty, e.range_relabel]
    refine .bind (lowerExp_mirrors relabelled e) fun item => ?_
    split
    · exact unsupported_mirrors relabelled _ e.range
    · exact .bind (lowerExps_mirrors relabelled es) fun items => .pure _

theorem lowerPrefixExp_mirrors (relabelled : Relabelled names ranges places f f') :
    ∀ (p : PrefixExp) (range : Option TextRange),
      Mirrors names places (f.lowerPrefixExp p range) (f'.lowerPrefixExp (p.relabel names ranges) (ranges range))
  | ⟨head, []⟩, range => by
    simp only [PrefixExp.relabel, callsRelabel, lowerPrefixExp]
    exact .bind (lowerHead_mirrors relabelled head) fun callee => .pure _
  | ⟨head, [call]⟩, range => by
    simp only [PrefixExp.relabel, callsRelabel, lowerPrefixExp]
    refine .bind (lowerHead_mirrors relabelled head) fun callee => ?_
    exact .bind (lowerCall_mirrors relabelled callee call (relabelled.start range)) fun p => .pure _
  | ⟨head, _ :: second :: _⟩, range => by
    simp only [PrefixExp.relabel, callsRelabel, lowerPrefixExp, second.range_relabel]
    exact .bind (lowerHead_mirrors relabelled head) fun callee => unsupported_mirrors relabelled _ second.range

theorem lowerHead_mirrors (relabelled : Relabelled names ranges places f f') : ∀ head : Head,
    Mirrors names places (f.lowerHead head) (f'.lowerHead (head.relabel names ranges))
  | .var v => by
    simp only [Head.relabel, lowerHead]
    exact lowerVar_mirrors relabelled v
  | .paren e => by
    simp only [Head.relabel, lowerHead, e.range_relabel]
    exact .bind (lowerExp_mirrors relabelled e) fun item =>
      adjustToOne_mirrors relabelled item (relabelled.start e.range)

theorem lowerCall_mirrors (relabelled : Relabelled names ranges places f f') (callee : Ref) :
    ∀ (call : Call) {loc loc' : Location}, places loc' = places loc →
      Mirrors names places (f.lowerCall callee call loc) (f'.lowerCall callee (call.relabel names ranges) loc')
  | ⟨some _, _, range⟩, loc, loc', _ => by
    simp only [Call.relabel, lowerCall]
    exact unsupported_mirrors relabelled _ range
  | ⟨none, args, _⟩, loc, loc', here => by
    simp only [Call.relabel, lowerCall, relabelled.site]
    refine .bind (lowerArgs_mirrors relabelled args) fun items => .bind (pack_mirrors relabelled items here) fun p => ?_
    refine .emit ((Build.Mirrors.insertOne f.site ?_).map Pack.mk)
    simp [Draft.Alike, Draft.relabel, here]

theorem lowerArgs_mirrors (relabelled : Relabelled names ranges places f f') : ∀ args : Args,
    Mirrors names places (f.lowerArgs args) (f'.lowerArgs (args.relabel names ranges))
  | .list es => by
    simp only [Args.relabel, lowerArgs]
    exact lowerExps_mirrors relabelled es
  | .table e | .str e => by
    simp only [Args.relabel, lowerArgs, e.range_relabel]
    refine .bind (lowerExp_mirrors relabelled e) fun item => ?_
    exact .bind (adjustToOne_mirrors relabelled item (relabelled.start e.range)) fun v => .pure _

end
end Trees

section Statements
variable {names : String → String} {ranges : Option TextRange → Option TextRange} {places : Location → Location}
  {f f' : Frame} (relabelled : Relabelled names ranges places f f')
include relabelled

theorem lowerVars_mirrors (targets : List Var) :
    Mirrors names places (targets.mapM f.lowerVar) ((varsRelabel names ranges targets).mapM f'.lowerVar) := by
  induction targets with
  | nil =>
    rw [varsRelabel]
    exact .pure _
  | cons t rest ih =>
    rw [varsRelabel, List.mapM_cons, List.mapM_cons]
    exact .bind (lowerVar_mirrors relabelled t) fun cell => .bind ih fun cells => .pure _

omit relabelled in
theorem assignAll_mirrors {loc loc' : Location} (here : places loc' = places loc) (pairs : List (Ref × Ref)) :
    Mirrors names places
      (pairs.forM fun (cell, value) => Lowering.emit .assign loc (f.site.assign cell value loc))
      (pairs.forM fun (cell, value) => Lowering.emit .assign loc' (f.site.assign cell value loc')) := by
  induction pairs with
  | nil => exact .pure _
  | cons pair rest ih =>
    refine .bind (.emit ((Build.Mirrors.insert f.site ?_).map _)) fun _ => ih
    simp [Draft.Alike, Draft.relabel, here]

theorem store_mirrors (cells : List Ref) (items : List Lowered) {loc loc' : Location}
    (here : places loc' = places loc) :
    Mirrors names places (f.store cells items loc) (f'.store cells items loc') := by
  unfold store
  rw [relabelled.site]
  exact .bind (pack_mirrors relabelled items here) fun packed =>
    .bind (unpack_mirrors relabelled packed cells.length here) fun unpacked =>
      assignAll_mirrors here (cells.zip unpacked)

theorem lowerAssign_mirrors (targets : List Var) (values : List Exp) {loc loc' : Location}
    (here : places loc' = places loc) :
    Mirrors names places (f.lowerAssign targets values loc)
      (f'.lowerAssign (varsRelabel names ranges targets) (expsRelabel names ranges values) loc') := by
  rw [lowerAssign_eq, lowerAssign_eq]
  refine .bind (lowerVars_mirrors relabelled targets) fun cells => .bind (lowerExps_mirrors relabelled values)
    fun items => ?_
  split
  · exact store_mirrors relabelled cells items here
  · exact .bind (.note _ _) fun _ => store_mirrors relabelled cells items here

theorem lowerStat_mirrors (stat : Stat) :
    Mirrors names places (f.lowerStat stat) (f'.lowerStat (stat.relabel names ranges)) := by
  obtain ⟨kind, range⟩ := stat
  rw [Stat.relabel]
  refine .bind (.note _ _) fun _ => ?_
  cases kind with
  | assign targets values =>
    rw [StatKind.relabel]
    exact lowerAssign_mirrors relabelled targets values (relabelled.start range)
  | call p =>
    rw [StatKind.relabel]
    exact .bind (lowerPrefixExp_mirrors relabelled p range) fun _ => .pure _
  | ifChain clauses otherwise =>
    cases otherwise <;> rw [StatKind.relabel] <;> exact unsupported_mirrors relabelled _ range
  | numericFor var start limit step body =>
    cases step <;> rw [StatKind.relabel] <;> exact unsupported_mirrors relabelled _ range
  | _ =>
    rw [StatKind.relabel]
    exact unsupported_mirrors relabelled _ range

theorem lowerBlock_mirrors (block : Syntax.Block) :
    Mirrors names places (f.lowerBlock block) (f'.lowerBlock (block.relabel names ranges)) := by
  have stats (stats : List Stat) :
      Mirrors names places (stats.forM f.lowerStat) ((statsRelabel names ranges stats).forM f'.lowerStat) := by
    induction stats with
    | nil =>
      rw [statsRelabel]
      exact .pure _
    | cons stat rest ih =>
      rw [statsRelabel]
      exact .bind (lowerStat_mirrors relabelled stat) fun _ => ih
  unfold lowerBlock
  rw [block.stats_relabel, block.ret_relabel]
  refine .bind (stats block.stats) fun _ => ?_
  cases block.ret with
  | none => exact .pure _
  | some ret =>
    simp only [Option.map_some, ret.range_relabel]
    exact unsupported_mirrors relabelled _ ret.range

end Statements
end Frame

/-! ## Chunks -/

namespace Syntax.Chunk

theorem alike_ofMain (names : String → String) {places : Location → Location} {loc loc' : Location}
    (here : places loc' = places loc) : (LowerState.ofMain loc).Alike names places (.ofMain loc') := by
  refine ⟨?_, rfl⟩
  simp [Module.Alike, Module.relabel, LowerState.ofMain, Module.addFunction, Module.pushFunction, Module.openBlock,
    Module.empty, here]

/-- Lowering a chunk commutes with relabelling it. -/
theorem lower_relabel (chunk : Chunk) {names : String → String} {ranges : Option TextRange → Option TextRange}
    {places : Location → Location} {source source' : Source} (injective : Function.Injective names)
    (start : ∀ range, places (source'.startLoc (ranges range)) = places (source.startLoc range))
    (stop : ∀ range, places (source'.endLoc (ranges range)) = places (source.endLoc range)) (c : Catalogue) :
    relabelOutcome id places ((chunk.relabel names ranges).lower source' c) =
      relabelOutcome names places (chunk.lower source c) := by
  have relabelled : Frame.Relabelled names ranges places (.ofMain source c) (.ofMain source' c) :=
    ⟨injective, rfl, start, stop⟩
  have agree := Frame.lowerBlock_mirrors relabelled chunk.block _ _ (alike_ofMain names (start chunk.range))
  by_cases registered : .ret ∈ c.kinds
  · rw [lower_of_registered _ source' registered, lower_of_registered _ source registered]
    simp only [relabel, Block.range_relabel]
    generalize Frame.lowerBlock _ chunk.block _ = r, Frame.lowerBlock _ (Block.relabel _ _ _) _ = r' at agree
    cases agree with
    | error same => exact congrArg Except.error same
    | ok _ alike =>
      have same : (Frame.retDraft (source.endLoc chunk.block.range)).Alike names places
          (Frame.retDraft (source'.endLoc (ranges chunk.block.range))) := by
        simp [Draft.Alike, Draft.relabel, Frame.retDraft, stop]
      exact congrArg Except.ok (alike.1.append same ⟨0⟩)
  · rw [lower_of_unregistered _ source' registered, lower_of_unregistered _ source registered]
    simp only [relabel]
    generalize Frame.lowerBlock _ chunk.block _ = r, Frame.lowerBlock _ (Block.relabel _ _ _) _ = r' at agree
    cases agree with
    | error same => exact congrArg Except.error same
    | ok _ alike => rfl

end Syntax.Chunk

/-! ## Renaming -/

/-- The module with other names of variables in its `var` attributes. -/
def Module.rename (r : String → String) (m : Module) : Module :=
  { m with ops := m.ops.map fun op => { op with attributes := op.attributes.map (Attribute.relabel r) } }

/-- The chunk with other names of variables. -/
def Syntax.Chunk.rename (r : String → String) (chunk : Chunk) : Chunk := chunk.relabel r id

theorem Attribute.relabel_id : Attribute.relabel id = id := by
  funext entry
  unfold relabel
  split <;> simp_all

theorem Module.relabel_eq_rename (r : String → String) (m : Module) : m.relabel r id = m.rename r := by
  simp [relabel, rename, Operation.relabel]

theorem Module.rename_id (m : Module) : m.rename id = m := by
  simp [rename, Attribute.relabel_id]

theorem LowerError.relabel_id (e : LowerError) : e.relabel id = e := by
  cases e <;> simp [relabel]

theorem relabelOutcome_eq_map (r : String → String) (outcome : Except LowerError Module) :
    relabelOutcome r id outcome = outcome.map (Module.rename r) := by
  cases outcome with
  | ok m => simp [relabelOutcome, Except.map, Module.relabel_eq_rename]
  | error e => simp [relabelOutcome, Except.map, LowerError.relabel_id]

/-- Variables can be renamed before or after lowering, as long as different ones keep different names: the module is the
same but for its `var` attributes, and an error is the same. -/
theorem Syntax.Chunk.lower_rename (chunk : Chunk) (source : Source) (c : Catalogue) {r : String → String}
    (injective : Function.Injective r) :
    (chunk.rename r).lower source c = (chunk.lower source c).map (Module.rename r) := by
  have commutes : relabelOutcome id id ((chunk.rename r).lower source c) = relabelOutcome r id (chunk.lower source c) :=
    chunk.lower_relabel injective (fun _ => rfl) (fun _ => rfl) c
  rw [relabelOutcome_eq_map, relabelOutcome_eq_map] at commutes
  rw [← commutes]
  cases (chunk.rename r).lower source c with
  | ok m => simp [Except.map, Module.rename_id]
  | error e => rfl

namespace Syntax.Chunk

/-- `y = x`, without ranges. -/
def copying : Chunk :=
  ⟨⟨[⟨.assign [⟨.name "y", [], none⟩] [⟨.prefixExp ⟨.var ⟨.name "x", [], none⟩, []⟩, none⟩], none⟩], none, none⟩, none⟩

/-- The kinds and attributes of the operations of `y = x`, where the variables are given. -/
def copyingOps (y x : String) : List (OpKind × List (String × Attribute)) :=
  [(.getOrAlloc, [("var", .str y)]), (.getOrAlloc, [("var", .str x)]), (.concat, []), (.unpack, []), (.assign, []),
    (.ret, [])]

/-- The two variables of `y = x` under longer names. -/
theorem lower_rename_copying : Function.Injective ("the_" ++ ·) ∧
    ∃ m, copying.lower ⟨"main.lua", ""⟩ .full = .ok m ∧
      m.ops.toList.map (fun op => (op.kind, op.attributes)) = copyingOps "y" "x" ∧
      (copying.rename ("the_" ++ ·)).lower ⟨"main.lua", ""⟩ .full = .ok (m.rename ("the_" ++ ·)) ∧
      (m.rename ("the_" ++ ·)).ops.toList.map (fun op => (op.kind, op.attributes)) = copyingOps "the_y" "the_x" := by
  have injective : Function.Injective ("the_" ++ · : String → String) := fun a b same => by simpa using same
  refine ⟨injective, ?_⟩
  have renamed := copying.lower_rename ⟨"main.lua", ""⟩ .full injective
  obtain ⟨m, lowered, listed⟩ : ∃ m, copying.lower ⟨"main.lua", ""⟩ .full = .ok m ∧
      m.ops.toList.map (fun op => (op.kind, op.attributes)) = copyingOps "y" "x" := ⟨_, rfl, rfl⟩
  refine ⟨m, lowered, listed, by rw [renamed, lowered]; rfl, ?_⟩
  have each : (m.rename ("the_" ++ ·)).ops.toList.map (fun op => (op.kind, op.attributes)) =
      (m.ops.toList.map fun op => (op.kind, op.attributes)).map
        (.map id (List.map (Attribute.relabel ("the_" ++ ·)))) := by
    simp [Module.rename, Function.comp_def]
  rw [each, listed]
  decide

end Syntax.Chunk

/-! ## Places -/

/-- The module without its locations. -/
def Module.unplaced (m : Module) : Module :=
  { m with
    functions := m.functions.map fun f => { f with loc := .unknown "" }
    ops := m.ops.map fun op => { op with loc := .unknown "" } }

/-- Both outcomes are modules, and these are equal but for locations, or both are errors of the same kind, with the same
construct or the same breach, at whatever places. -/
inductive SameButPlaces : Except LowerError Module → Except LowerError Module → Prop where
  | modules {m m' : Module} (same : m.unplaced = m'.unplaced) : SameButPlaces (.ok m) (.ok m')
  | unsupported (construct : String) (span span' : Span) :
    SameButPlaces (.error (.unsupported construct span)) (.error (.unsupported construct span'))
  | invariant (breach : Breach) (loc loc' : Option Location) :
    SameButPlaces (.error (.invariant breach loc)) (.error (.invariant breach loc'))

theorem Module.relabel_eq_unplaced (m : Module) : m.relabel id (fun _ => .unknown "") = m.unplaced := by
  simp [relabel, unplaced, Operation.relabel, Attribute.relabel_id]

theorem sameButPlaces_of_relabelOutcome {outcome outcome' : Except LowerError Module}
    (same : relabelOutcome id (fun _ => .unknown "") outcome = relabelOutcome id (fun _ => .unknown "") outcome') :
    SameButPlaces outcome outcome' := by
  cases outcome with
  | ok m =>
    cases outcome' with
    | error e => cases same
    | ok m' =>
      simp only [relabelOutcome, Module.relabel_eq_unplaced, Except.ok.injEq] at same
      exact .modules same
  | error e =>
    cases outcome' with
    | ok m' => cases same
    | error e' =>
      simp only [relabelOutcome, Except.error.injEq] at same
      cases e <;> cases e' <;> simp only [LowerError.relabel, LowerError.unsupported.injEq,
        LowerError.invariant.injEq, reduceCtorEq] at same
      · obtain ⟨rfl, -⟩ := same
        exact .unsupported _ _ _
      · obtain ⟨rfl, -⟩ := same
        exact .invariant _ _ _

theorem Syntax.Chunk.relabelOutcome_lower_erase (chunk : Chunk) (source origin : Source) (c : Catalogue) :
    relabelOutcome id (fun _ => .unknown "") (chunk.erase.lower source c) =
      relabelOutcome id (fun _ => .unknown "") (chunk.lower origin c) := by
  refine chunk.lower_relabel Function.injective_id ?_ ?_ c <;> exact fun _ => rfl

/-- Ranges and sources have no influence on what is lowered: chunks that are equal without ranges are lowered to modules
that are equal without locations, or refused for the same reason. -/
theorem Syntax.Chunk.lower_unplaced {a b : Chunk} (same : a.erase = b.erase) (source source' : Source) (c : Catalogue) :
    SameButPlaces (a.lower source c) (b.lower source' c) := by
  apply sameButPlaces_of_relabelOutcome
  rw [← a.relabelOutcome_lower_erase source, ← b.relabelOutcome_lower_erase source, same]

/-- `copying` as it is read from `y = x`. -/
def Syntax.Chunk.copyingRead : Chunk :=
  ⟨⟨[⟨.assign [⟨.name "y", [], some ⟨0, 0, 2⟩⟩]
    [⟨.prefixExp ⟨.var ⟨.name "x", [], some ⟨4, 4, 5⟩⟩, []⟩, some ⟨4, 4, 5⟩⟩], some ⟨0, 4, 5⟩⟩],
    none, some ⟨0, 4, 5⟩⟩, some ⟨0, 4, 5⟩⟩

/-- A tree that was read and a tree that was made. Their operations stand at other places. -/
theorem Syntax.Chunk.lower_unplaced_copying : copyingRead.erase = copying.erase ∧
    SameButPlaces (copyingRead.lower ⟨"main.lua", "y = x"⟩ .full) (copying.lower ⟨"made.lua", ""⟩ .full) ∧
    ∃ m m', copyingRead.lower ⟨"main.lua", "y = x"⟩ .full = .ok m ∧ copying.lower ⟨"made.lua", ""⟩ .full = .ok m' ∧
      m.unplaced = m'.unplaced ∧
      m.ops.toList.map (fun op => (op.kind, op.attributes)) = copyingOps "y" "x" ∧
      m.ops.toList.map (fun op => (op.loc.line, op.loc.column)) = [(1, 1), (1, 5), (1, 1), (1, 1), (1, 1), (1, 5)] ∧
      m'.ops.toList.map (fun op => (op.kind, op.attributes)) = copyingOps "y" "x" ∧
      m'.ops.toList.map (·.loc) = List.replicate 6 (.unknown "made.lua") := by
  have same : copyingRead.erase = copying.erase := rfl
  have places := lower_unplaced same ⟨"main.lua", "y = x"⟩ ⟨"made.lua", ""⟩ .full
  refine ⟨same, places, _, _, rfl, rfl, ?_, rfl, rfl, rfl, ?_⟩
  · cases places with
    | modules equal => exact equal
  · rfl

end LuaLowering
