import LuaLowering.Proofs.LoweringSteps
/-!
# Lowering with fewer operations

Taking kinds of operations out of a catalogue changes nothing but what may be placed. Two runs of the lowering, one by
a catalogue and one by a part of it, go through the same states until an operation is placed whose kind is missing from
the part (`Narrows`). So the smaller catalogue gives a module exactly when the larger one gives it and the module does
without the missing kinds (`lower_without_iff`).
-/
namespace LuaLowering

namespace Catalogue

/-- Every operation of the module is of a registered kind. -/
def Admits (c : Catalogue) (m : Module) : Prop := ∀ op ∈ m.ops, op.kind ∈ c.kinds

theorem admits_append {c : Catalogue} {m : Module} {b : BlockId} {d : Draft} :
    c.Admits (m.append b d) ↔ c.Admits m ∧ d.kind ∈ c.kinds := by
  have pushed : (m.append b d).ops =
      m.ops.push ⟨d.kind, b, d.operands, d.attributes, m.resultIds d.results, d.loc⟩ := rfl
  simp only [Admits, pushed, Array.mem_push]
  constructor
  · intro admits
    exact ⟨fun op member => admits op (.inl member), admits _ (.inr rfl)⟩
  · rintro ⟨admits, registered⟩ op (member | rfl)
    · exact admits op member
    · exact registered

/-- The kinds that are left when some are taken out. -/
theorem mem_kinds_without (c : Catalogue) (removed : List OpKind) (kind : OpKind) :
    kind ∈ (removed.foldl without c).kinds ↔ kind ∈ c.kinds ∧ kind ∉ removed := by
  induction removed generalizing c with
  | nil => simp
  | cons first rest ih =>
    rw [List.foldl_cons, ih]
    simp only [without, List.mem_filter, bne_iff_ne, List.mem_cons, not_or]
    exact and_assoc

end Catalogue

/-- While no operation ends its block, no catalogue takes a block for ended. -/
theorem Module.Open.isTerminated_eq_false {m : Module} (opened : m.Open) (c : Catalogue) (block : Block) :
    m.isTerminated c block = false := by
  unfold isTerminated
  cases last : block.ops.back?.bind m.op? with
  | none => rfl
  | some op =>
    obtain ⟨o, -, found⟩ := Option.bind_eq_some_iff.mp last
    have goesOn := opened o op found
    by_cases registered : op.kind ∈ c.kinds <;>
      simp [Catalogue.endsBlock, Catalogue.get?, registered, goesOn]

namespace Frame
open Lowering Syntax

/-- What the lowering goes by, with another catalogue. -/
def limit (f : Frame) (c : Catalogue) : Frame := { f with site := { f.site with catalogue := c } }

/-- From an open state without missing kinds, the first step succeeds exactly when the second one does so without
placing a missing kind, and then both have the same result and lead to the same state. -/
structure Narrows {α : Type} (c : Catalogue) (x y : Lowering α) : Prop where
  agree : ∀ s a s', s.module.Open → c.Admits s.module →
    (x s = .ok a s' ↔ y s = .ok a s' ∧ c.Admits s'.module)
  keep : ∀ s a s', s.module.Open → y s = .ok a s' → s'.module.Open ∧ (c.Admits s'.module → c.Admits s.module)

namespace Narrows
variable {α β : Type} {c : Catalogue}

/-- A step that leaves the module as it is does not ask the catalogue. -/
theorem still {x : Lowering α} (same : ∀ s a s', x s = .ok a s' → s'.module = s.module) : Narrows c x x where
  agree s a s' _ admits := by
    constructor
    · intro success
      have unchanged := same s a s' success
      exact ⟨success, unchanged ▸ admits⟩
    · exact And.left
  keep s a s' opened success := by
    have unchanged := same s a s' success
    rw [unchanged]
    exact ⟨opened, id⟩

theorem pure (a : α) : Narrows c (Pure.pure a) (Pure.pure a) :=
  still fun s b s' success => by
    cases success
    rfl

theorem throw (e : LowerError) : Narrows c (MonadExcept.throw e : Lowering α) (MonadExcept.throw e) :=
  still fun s a s' success => by cases success

theorem note (e : Event) : Narrows c (Lowering.note e) (Lowering.note e) :=
  still fun s a s' success => by
    cases success
    rfl

theorem bind {x y : Lowering α} {g h : α → Lowering β} (first : Narrows c x y)
    (second : ∀ a, Narrows c (g a) (h a)) : Narrows c (x >>= g) (y >>= h) where
  agree s b s'' opened admits := by
    constructor
    · intro success
      obtain ⟨a, s', run, rest⟩ := bind_ok success
      obtain ⟨run', admits'⟩ := (first.agree s a s' opened admits).mp run
      obtain ⟨opened', -⟩ := first.keep s a s' opened run'
      obtain ⟨rest', admits''⟩ := ((second a).agree s' b s'' opened' admits').mp rest
      refine ⟨?_, admits''⟩
      simpa only [Bind.bind, EStateM.bind, run'] using rest'
    · rintro ⟨success, admits''⟩
      obtain ⟨a, s', run', rest'⟩ := bind_ok success
      obtain ⟨opened', -⟩ := first.keep s a s' opened run'
      -- what is registered in the end was registered midway
      have admits' := ((second a).keep s' b s'' opened' rest').2 admits''
      have run := (first.agree s a s' opened admits).mpr ⟨run', admits'⟩
      have rest := ((second a).agree s' b s'' opened' admits').mpr ⟨rest', admits''⟩
      simpa only [Bind.bind, EStateM.bind, run] using rest
  keep s b s'' opened success := by
    obtain ⟨a, s', run, rest⟩ := bind_ok success
    obtain ⟨opened', back⟩ := first.keep s a s' opened run
    obtain ⟨opened'', back'⟩ := (second a).keep s' b s'' opened' rest
    exact ⟨opened'', back ∘ back'⟩

end Narrows

section Steps
variable {c : Catalogue} {f : Frame} (within : ∀ kind ∈ c.kinds, kind ∈ f.site.catalogue.kinds)
include within

/-- Whether a factory succeeds depends on the catalogue only through the kind that it places. -/
theorem places_limit_iff {α : Type} {d : Draft} {step step' : Build α} {handle : Module → α}
    (places : (f.limit c).site.Places d step handle) (places' : f.site.Places d step' handle) {m : Module}
    (opened : m.Open) (a : α) (m' : Module) :
    step m = .ok (a, m') ↔ step' m = .ok (a, m') ∧ d.kind ∈ c.kinds := by
  rw [places.eq_ok_iff, places'.eq_ok_iff]
  simp only [limit, opened.isTerminated_eq_false]
  constructor
  · rintro ⟨registered, placed⟩
    exact ⟨⟨within _ registered, placed⟩, registered⟩
  · rintro ⟨⟨-, placed⟩, registered⟩
    exact ⟨registered, placed⟩

theorem emit_narrows {α : Type} {kind : OpKind} {loc : Location} {d : Draft} {step step' : Build α}
    {handle : Module → α} (places : (f.limit c).site.Places d step handle) (places' : f.site.Places d step' handle)
    (goesOn : d.kind.definition.terminator = false) : Narrows c (emit kind loc step) (emit kind loc step') where
  agree s a s' opened admits := by
    have same := places_limit_iff within places places' opened
    rw [emit_run _ _ places.atomic, emit_run _ _ places'.atomic]
    cases made' : step' s.module with
    | error e =>
      cases made : step s.module with
      | error e' => simp
      | ok pair => simpa [made'] using (same pair.1 pair.2).mp made
    | ok pair =>
      obtain ⟨b, m'⟩ := pair
      obtain ⟨-, -, -, rfl, rfl⟩ := (places'.eq_ok_iff _ _ _).mp made'
      by_cases registered : d.kind ∈ c.kinds
      · rw [(same _ _).mpr ⟨made', registered⟩]
        constructor
        · intro success
          cases success
          exact ⟨rfl, Catalogue.admits_append.mpr ⟨admits, registered⟩⟩
        · exact And.left
      · constructor
        · intro success
          cases made : step s.module with
          | error e =>
            rw [made] at success
            cases success
          | ok pair => exact absurd ((same pair.1 pair.2).mp made).2 registered
        · rintro ⟨success, admits'⟩
          cases success
          exact absurd (Catalogue.admits_append.mp admits').2 registered
  keep s a s' opened success := by
    rw [emit_run _ _ places'.atomic] at success
    cases made : step' s.module with
    | error e =>
      rw [made] at success
      cases success
    | ok pair =>
      obtain ⟨b, m'⟩ := pair
      rw [made] at success
      cases success
      obtain ⟨-, -, -, rfl, rfl⟩ := (places'.eq_ok_iff _ _ _).mp made
      exact ⟨opened.append goesOn, fun admits => (Catalogue.admits_append.mp admits).1⟩

theorem resolve_narrows (name : String) (loc : Location) :
    Narrows c ((f.limit c).resolve name loc) (f.resolve name loc) := by
  have got : Narrows c (get : Lowering LowerState) get := .still fun s a s' success => by
    cases success
    rfl
  refine .bind got fun s => .bind ?_ fun found => .bind (.still fun t a t' success => ?_) fun _ => .pure _
  · unfold Scope.resolve
    split
    · exact .pure _
    · refine .bind (.bind (.note _) fun _ => ?_) fun cell => .pure _
      exact emit_narrows within ((f.limit c).site.places_getOrAlloc loc name) (f.site.places_getOrAlloc loc name) rfl
  · cases success
    rfl

theorem pack_narrows (items : List Lowered) (loc : Location) :
    Narrows c ((f.limit c).pack items loc) (f.pack items loc) := by
  unfold pack
  split
  · exact .throw _
  · exact emit_narrows within ((f.limit c).site.places_concat loc _) (f.site.places_concat loc _) rfl

theorem unpack_narrows (p : Pack) (count : Nat) (loc : Location) :
    Narrows c ((f.limit c).unpack p count loc) (f.unpack p count loc) := by
  refine .bind (emit_narrows within ((f.limit c).site.places_unpack loc p count) (f.site.places_unpack loc p count) rfl)
    fun values => ?_
  split
  · exact .pure _
  · exact .throw _

theorem adjustToOne_narrows (item : Lowered) (loc : Location) :
    Narrows c ((f.limit c).adjustToOne item loc) (f.adjustToOne item loc) := by
  cases item with
  | value v => exact .pure _
  | pack p =>
    refine .bind (unpack_narrows within p 1 loc) fun values => ?_
    cases values with
    | nil => exact .throw _
    | cons v rest => exact .pure _

theorem lowerVar_narrows (v : Var) : Narrows c ((f.limit c).lowerVar v) (f.lowerVar v) := by
  unfold lowerVar
  split
  · exact resolve_narrows within _ _
  · exact .throw _

theorem lowerNumeral_narrows (n : Numeral) (range : Option TextRange) :
    Narrows c ((f.limit c).lowerNumeral n range) (f.lowerNumeral n range) := by
  unfold lowerNumeral
  split
  · refine .bind ?_ fun v => .pure _
    exact emit_narrows within ((f.limit c).site.places_number _ _) (f.site.places_number _ _) rfl
  · exact .throw _
  · exact .throw _

end Steps

variable {c : Catalogue} {f : Frame}

mutual

theorem lowerExp_narrows (within : ∀ kind ∈ c.kinds, kind ∈ f.site.catalogue.kinds) : ∀ e : Exp,
    Narrows c ((f.limit c).lowerExp e) (f.lowerExp e)
  | ⟨.nil, range⟩ => by
    rw [lowerExp, lowerExp]
    refine .bind ?_ fun v => .pure _
    exact emit_narrows within ((f.limit c).site.places_nil _) (f.site.places_nil _) rfl
  | ⟨.number n, range⟩ => by
    rw [lowerExp, lowerExp]
    exact lowerNumeral_narrows within n range
  | ⟨.prefixExp p, range⟩ => by
    rw [lowerExp, lowerExp]
    exact lowerPrefixExp_narrows within p range
  | ⟨.false, _⟩ | ⟨.true, _⟩ | ⟨.varArgs, _⟩ | ⟨.str _, _⟩ | ⟨.function _, _⟩ | ⟨.table _, _⟩
  | ⟨.unary _ _, _⟩ | ⟨.binary _ _ _, _⟩ => by
    simp only [lowerExp]
    exact .throw _

theorem lowerExps_narrows (within : ∀ kind ∈ c.kinds, kind ∈ f.site.catalogue.kinds) : ∀ es : List Exp,
    Narrows c ((f.limit c).lowerExps es) (f.lowerExps es)
  | [] => by
    rw [lowerExps, lowerExps]
    exact .pure _
  | e :: es => by
    rw [lowerExps, lowerExps]
    refine .bind (lowerExp_narrows within e) fun item => ?_
    split
    · exact .throw _
    · exact .bind (lowerExps_narrows within es) fun items => .pure _

theorem lowerPrefixExp_narrows (within : ∀ kind ∈ c.kinds, kind ∈ f.site.catalogue.kinds) :
    ∀ (p : PrefixExp) (range : Option TextRange),
      Narrows c ((f.limit c).lowerPrefixExp p range) (f.lowerPrefixExp p range)
  | ⟨head, []⟩, range => by
    rw [lowerPrefixExp, lowerPrefixExp]
    exact .bind (lowerHead_narrows within head) fun callee => .pure _
  | ⟨head, [call]⟩, range => by
    rw [lowerPrefixExp, lowerPrefixExp]
    refine .bind (lowerHead_narrows within head) fun callee => ?_
    exact .bind (lowerCall_narrows within callee call _) fun p => .pure _
  | ⟨head, _ :: second :: _⟩, range => by
    rw [lowerPrefixExp, lowerPrefixExp]
    exact .bind (lowerHead_narrows within head) fun callee => .throw _

theorem lowerHead_narrows (within : ∀ kind ∈ c.kinds, kind ∈ f.site.catalogue.kinds) : ∀ head : Head,
    Narrows c ((f.limit c).lowerHead head) (f.lowerHead head)
  | .var v => by
    rw [lowerHead, lowerHead]
    exact lowerVar_narrows within v
  | .paren e => by
    rw [lowerHead, lowerHead]
    exact .bind (lowerExp_narrows within e) fun item => adjustToOne_narrows within item _

theorem lowerCall_narrows (within : ∀ kind ∈ c.kinds, kind ∈ f.site.catalogue.kinds) (callee : Ref) :
    ∀ (call : Call) (loc : Location), Narrows c ((f.limit c).lowerCall callee call loc) (f.lowerCall callee call loc)
  | ⟨some _, _, range⟩, loc => by
    rw [lowerCall, lowerCall]
    exact .throw _
  | ⟨none, args, _⟩, loc => by
    rw [lowerCall, lowerCall]
    refine .bind (lowerArgs_narrows within args) fun items => .bind (pack_narrows within items loc) fun packed => ?_
    exact emit_narrows within ((f.limit c).site.places_call loc callee packed)
      (f.site.places_call loc callee packed) rfl

theorem lowerArgs_narrows (within : ∀ kind ∈ c.kinds, kind ∈ f.site.catalogue.kinds) : ∀ args : Args,
    Narrows c ((f.limit c).lowerArgs args) (f.lowerArgs args)
  | .list es => by
    rw [lowerArgs, lowerArgs]
    exact lowerExps_narrows within es
  | .table e | .str e => by
    rw [lowerArgs, lowerArgs]
    refine .bind (lowerExp_narrows within e) fun item => ?_
    exact .bind (adjustToOne_narrows within item _) fun v => .pure _

end

section Statements
variable (within : ∀ kind ∈ c.kinds, kind ∈ f.site.catalogue.kinds)
include within

theorem lowerVars_narrows (targets : List Var) :
    Narrows c (targets.mapM (f.limit c).lowerVar) (targets.mapM f.lowerVar) := by
  induction targets with
  | nil => exact .pure _
  | cons t rest ih =>
    rw [List.mapM_cons, List.mapM_cons]
    exact .bind (lowerVar_narrows within t) fun cell => .bind ih fun cells => .pure _

theorem assignAll_narrows (loc : Location) (pairs : List (Ref × Ref)) :
    Narrows c (pairs.forM fun (cell, value) => emit .assign loc ((f.limit c).site.assign cell value loc))
      (pairs.forM fun (cell, value) => emit .assign loc (f.site.assign cell value loc)) := by
  induction pairs with
  | nil => exact .pure _
  | cons pair rest ih =>
    refine .bind ?_ fun _ => ih
    exact emit_narrows within ((f.limit c).site.places_assign loc pair.1 pair.2)
      (f.site.places_assign loc pair.1 pair.2) rfl

theorem store_narrows (cells : List Ref) (items : List Lowered) (loc : Location) :
    Narrows c ((f.limit c).store cells items loc) (f.store cells items loc) :=
  .bind (pack_narrows within items loc) fun packed =>
    .bind (unpack_narrows within packed cells.length loc) fun unpacked =>
      assignAll_narrows within loc (cells.zip unpacked)

theorem lowerAssign_narrows (targets : List Var) (values : List Exp) (loc : Location) :
    Narrows c ((f.limit c).lowerAssign targets values loc) (f.lowerAssign targets values loc) := by
  rw [lowerAssign_eq, lowerAssign_eq]
  refine .bind (lowerVars_narrows within targets) fun cells => .bind (lowerExps_narrows within values) fun items => ?_
  split
  · exact store_narrows within cells items loc
  · exact .bind (.note _) fun _ => store_narrows within cells items loc

theorem lowerStat_narrows (stat : Stat) : Narrows c ((f.limit c).lowerStat stat) (f.lowerStat stat) := by
  unfold lowerStat
  refine .bind (.note _) fun _ => ?_
  split
  · exact lowerAssign_narrows within _ _ _
  · exact .bind (lowerPrefixExp_narrows within _ _) fun _ => .pure _
  · exact .throw _

theorem lowerBlock_narrows (block : Syntax.Block) :
    Narrows c ((f.limit c).lowerBlock block) (f.lowerBlock block) := by
  have stats (stats : List Stat) : Narrows c (stats.forM (f.limit c).lowerStat) (stats.forM f.lowerStat) := by
    induction stats with
    | nil => exact .pure _
    | cons stat rest ih => exact .bind (lowerStat_narrows within stat) fun _ => ih
  refine .bind (stats block.stats) fun _ => ?_
  split
  · exact .throw _
  · exact .pure _

end Statements
end Frame

namespace Syntax.Chunk
variable {chunk : Chunk} {source : Source} {c c' : Catalogue} {m : Module}

theorem admits_ofMain (c : Catalogue) (loc : Location) : c.Admits (LowerState.ofMain loc).module := by
  intro op member
  cases Array.not_mem_empty op member

/-- A part of a catalogue gives the modules that the catalogue gives, as far as they need no other kinds. -/
theorem lower_iff_of_subset (within : ∀ kind ∈ c.kinds, kind ∈ c'.kinds) :
    chunk.lower source c = .ok m ↔ chunk.lower source c' = .ok m ∧ c.Admits m := by
  have narrows := Frame.lowerBlock_narrows (f := .ofMain source c') within chunk.block
  have opened := Frame.open_ofMain (source.startLoc chunk.range)
  have agree := fun s => narrows.agree _ () s opened (admits_ofMain c _)
  constructor
  · intro lowered
    obtain ⟨registered, s, run, rfl⟩ := block_of_lower lowered
    obtain ⟨run', admits⟩ := (agree s).mp run
    rw [lower_of_registered chunk source (within _ registered), run']
    exact ⟨rfl, Catalogue.admits_append.mpr ⟨admits, registered⟩⟩
  · rintro ⟨lowered, admits⟩
    obtain ⟨-, s, run', rfl⟩ := block_of_lower lowered
    obtain ⟨admits', registered⟩ := Catalogue.admits_append.mp admits
    have run : (Frame.ofMain source c).lowerBlock chunk.block _ = .ok () s := (agree s).mpr ⟨run', admits'⟩
    rw [lower_of_registered chunk source registered, run]

/-- With some kinds taken out of the catalogue, a chunk is lowered to a module exactly when it is lowered to that module
with all kinds, and no operation of the module is of a kind that was taken out. -/
theorem lower_without_iff (chunk : Chunk) (source : Source) (removed : List OpKind) (m : Module) :
    chunk.lower source (removed.foldl Catalogue.without .full) = .ok m ↔
      chunk.lower source .full = .ok m ∧ ∀ op ∈ m.ops, op.kind ∉ removed := by
  have kinds (kind : OpKind) : kind ∈ (removed.foldl Catalogue.without .full).kinds ↔ kind ∉ removed := by
    rw [Catalogue.mem_kinds_without]
    exact and_iff_right (Catalogue.mem_full kind)
  rw [lower_iff_of_subset fun kind _ => Catalogue.mem_full kind]
  simp only [Catalogue.Admits, kinds]

/-- The statement `f(nil)`. -/
def nilCall : Chunk :=
  ⟨⟨[⟨.call ⟨.var ⟨.name "f", [], none⟩, [⟨none, .list [⟨.nil, none⟩], none⟩]⟩, none⟩], none, none⟩, none⟩

/-- A call of `f` with a nil does without unpacking and assigning, but not without nil. -/
theorem lower_without_iff_nilCall : ∃ m, nilCall.lower ⟨"main.lua", ""⟩ .full = .ok m ∧
    m.ops.toList.map (fun op => (op.kind, op.attributes)) =
      [(.getOrAlloc, [("var", .str "f")]), (.nil, []), (.concat, []), (.call, []), (.ret, [])] ∧
    nilCall.lower ⟨"main.lua", ""⟩ ([.unpack, .assign].foldl Catalogue.without .full) = .ok m ∧
    ∀ m', nilCall.lower ⟨"main.lua", ""⟩ ([.nil].foldl Catalogue.without .full) ≠ .ok m' := by
  obtain ⟨m, lowered, listed⟩ : ∃ m, nilCall.lower ⟨"main.lua", ""⟩ .full = .ok m ∧
      m.ops.toList.map (fun op => (op.kind, op.attributes)) =
        [(.getOrAlloc, [("var", .str "f")]), (.nil, []), (.concat, []), (.call, []), (.ret, [])] := ⟨_, rfl, rfl⟩
  have kinds : m.ops.toList.map (·.kind) = [.getOrAlloc, .nil, .concat, .call, .ret] := by
    simpa [Function.comp_def] using congrArg (List.map Prod.fst) listed
  refine ⟨m, lowered, listed, (lower_without_iff _ _ _ m).mpr ⟨lowered, fun op member => ?_⟩, fun m' lowered' => ?_⟩
  · have used : op.kind ∈ m.ops.toList.map (·.kind) := List.mem_map_of_mem member.val
    rw [kinds] at used
    have apart : ∀ kind ∈ [OpKind.getOrAlloc, .nil, .concat, .call, .ret], kind ∉ [OpKind.unpack, .assign] := by decide
    exact apart op.kind used
  · obtain ⟨same, free⟩ := (lower_without_iff _ _ _ m').mp lowered'
    cases lowered.symm.trans same
    have used : OpKind.nil ∈ m.ops.toList.map (·.kind) := by simp [kinds]
    obtain ⟨op, member, isNil⟩ := List.mem_map.mp used
    exact free op ⟨member⟩ (by simp [isNil])

end Syntax.Chunk
end LuaLowering
