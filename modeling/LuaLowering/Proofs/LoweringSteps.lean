import LuaLowering.Lower.Chunk
import LuaLowering.Proofs.LoweringRun
import Mathlib.Data.List.Forall2
/-!
# Safe steps of the lowering

The steps for variables, expressions, calls and statements are safe under every catalogue. With all operations
registered the return can be placed after the statements of a chunk, and the module passes the checks, so the
outcome of a chunk is that of its statements (`lower_full`).
-/
namespace LuaLowering

theorem Scope.lookup_declare (s : Scope) (name : String) (cell : Ref) (name' : String) :
    (s.declare name cell).lookup name' = (s.lookup name').or (if name' = name then some cell else none) := by
  have single : List.lookup name' [(name, cell)] = if name' = name then some cell else none := by
    by_cases same : name' = name
    · simp [same]
    · simp [List.lookup_cons, beq_false_of_ne same, same]
  rw [declare, lookup, List.lookup_append, single, lookup]

theorem Scope.lookup_declare_eq_some {s : Scope} {name name' : String} {cell cell' : Ref}
    (found : (s.declare name cell).lookup name' = some cell') :
    s.lookup name' = some cell' ∨ name' = name ∧ cell' = cell := by
  rw [lookup_declare] at found
  cases old : s.lookup name' with
  | some bound =>
    rw [old, Option.some_or] at found
    exact .inl found
  | none =>
    rw [old, Option.none_or] at found
    split at found
    · rename_i same
      cases found
      exact .inr ⟨same, rfl⟩
    · cases found

namespace Lowering
variable {alloc : Lowering Ref} (name : String) (s : LowerState)

/-- For a name that has a cell, nothing is made. -/
theorem resolve_bound {cell : Ref} (bound : s.scope.lookup name = some cell) : resolve name alloc s = .ok cell s := by
  simp only [resolve, bind, EStateM.bind, get_run, Scope.resolve, bound]
  rfl

/-- A name without a cell gets the one that is made, if one can be made. -/
theorem resolve_free (free : s.scope.lookup name = none) :
    resolve name alloc s = match alloc s with
      | .ok cell t => .ok cell { t with scope := s.scope.declare name cell }
      | .error e t => .error e t := by
  simp only [resolve, bind, EStateM.bind, get_run, Scope.resolve, free]
  cases alloc s <;> rfl

end Lowering

namespace Frame
open LuaLowering.Module (Stable)
open Lowering hiding resolve

theorem resolve_run (f : Frame) (name : String) (loc : Location) (s : LowerState) :
    f.resolve name loc s = match s.scope.lookup name with
      | some cell => .ok cell s
      | none => match f.site.getOrAlloc name loc s.module with
        | .ok (cell, m) => .ok cell ⟨m, s.scope.declare name cell,
            (s.log.push (.declaring name loc)).push (.emit .getOrAlloc loc)⟩
        | .error e => .error (.invariant (.build e) none) { s with log := s.log.push (.declaring name loc) } := by
  cases known : s.scope.lookup name with
  | some cell => exact resolve_bound name s known
  | none =>
    rw [resolve, resolve_free name s known]
    simp only [bind, EStateM.bind, note, modify_run, emit_run _ _ (f.site.places_getOrAlloc loc name).atomic]
    cases f.site.getOrAlloc name loc s.module <;> rfl

theorem resolve_safe (f : Frame) (name : String) (loc : Location) :
    f.Safe (fun _ => True) (f.resolve name loc) fun cell m => m.IsCell name cell := by
  intro s sound _
  rw [resolve_run]
  cases known : s.scope.lookup name with
  | some cell => exact ⟨sound, .refl s, sound.scope name cell known⟩
  | none =>
    cases made : f.site.getOrAlloc name loc s.module with
    | error e => exact ⟨⟨sound.block, sound.main, sound.scope⟩, ⟨⟨[], by simp, rfl⟩, fun _ _ found => found⟩⟩
    | ok pair =>
      obtain ⟨cell, m'⟩ := pair
      obtain ⟨registered, opened, operands, rfl, rfl⟩ :=
        (sound.places_iff (f.site.places_getOrAlloc loc name) m' cell).mp made
      have grown := sound.append opened registered operands (Draft.fits_getOrAlloc _ loc name) #[]
      have fresh : Module.IsCell _ name ⟨⟨s.module.values.size⟩⟩ :=
        ⟨loc, s.module.gives_append ⟨0⟩ (d := ⟨.getOrAlloc, [], [("var", .str name)], [.ref], loc⟩) rfl⟩
      refine ⟨⟨sound.block, grown.main, ?_⟩, ⟨⟨[_], by simp [OpKind.definition], rfl⟩, ?_⟩, fresh⟩
      · intro name' cell' found
        rcases Scope.lookup_declare_eq_some found with old | ⟨rfl, rfl⟩
        · exact grown.scope name' cell' old
        · exact fresh
      · intro name' cell' found
        rw [Scope.lookup_declare, found, Option.some_or]

theorem pack_gives (f : Frame) (items : List Lowered) (loc : Location) :
    f.Safe (fun _ => True) (f.pack items loc)
      fun p m => m.Gives p.id ⟨.concat, items.map Lowered.id, [], [.pack], loc⟩ := by
  unfold pack
  split
  · exact .throw _
  · refine (emit_one_safe (f.site.places_concat loc _) rfl (fun m _ => Draft.fits_concat m loc _) rfl).post ?_
    rintro _ m ⟨v, rfl, gives⟩
    exact gives

theorem pack_safe (f : Frame) (items : List Lowered) (loc : Location) :
    f.Safe (fun _ => True) (f.pack items loc) fun p m => m.type? p.id = some .pack :=
  (pack_gives f items loc).post fun _ _ gives => gives.type?_eq rfl

/-- An unpack adds its operation and gives its results. -/
theorem unpack_placed (f : Frame) (pack : Pack) (count : Nat) (loc : Location) :
    f.Safe (fun m => m.type? pack.id = some .pack) (f.unpack pack count loc) fun values m => ∃ m₀ : Module,
      values = (m₀.resultIds (List.replicate count .ref)).map Ref.mk ∧
      m = m₀.append ⟨0⟩ ⟨.unpack, [pack.id], [], List.replicate count .ref, loc⟩ := by
  refine Safe.bind (emit_safe (f.site.places_unpack loc pack count) rfl
    fun m isPack => Draft.fits_unpack m loc isPack count) fun values => ?_
  split
  · exact .pure fun m ⟨m₀, _, same, grown⟩ => ⟨m₀, same, grown⟩
  · exact .throw _

theorem unpack_safe (f : Frame) (pack : Pack) (count : Nat) (loc : Location) :
    f.Safe (fun m => m.type? pack.id = some .pack) (f.unpack pack count loc)
      fun values m => ∀ v ∈ values, m.type? v.id = some .ref := by
  refine (unpack_placed f pack count loc).post ?_
  rintro _ _ ⟨m₀, rfl, rfl⟩ v member
  exact m₀.typed_unpack ⟨0⟩ pack count loc (.value v) (List.mem_map_of_mem member)

theorem adjustToOne_safe (f : Frame) (item : Lowered) (loc : Location) :
    f.Safe (fun m => item.Typed m) (f.adjustToOne item loc) fun v m => m.type? v.id = some .ref := by
  cases item with
  | value v => exact .pure fun _ holds => holds
  | pack p =>
    refine Safe.bind (unpack_safe f p 1 loc) fun values => ?_
    cases values with
    | nil => exact .throw _
    | cons v rest => exact .pure fun m typed => typed v (by simp)

theorem lowerVar_safe (f : Frame) (v : Syntax.Var) :
    f.Safe (fun _ => True) (f.lowerVar v) fun cell m => ∃ name, v.bareName? = some name ∧ m.IsCell name cell := by
  unfold lowerVar
  cases bare : v.bareName? with
  | none => exact .throw _
  | some name =>
    exact (resolve_safe f name _).post fun _ _ isCell => ⟨name, rfl, isCell⟩

theorem lowerNumeral_safe (f : Frame) (n : Syntax.Numeral) (range : Option TextRange) :
    f.Safe (fun _ => True) (f.lowerNumeral n range) fun item m => item.Valid m := by
  unfold lowerNumeral
  split
  · refine Safe.bind (emit_one_safe (f.site.places_number _ _) rfl (fun m _ => Draft.fits_number m _ _) rfl)
      fun v => ?_
    apply Safe.pure
    rintro m ⟨_, rfl, gives⟩
    exact gives.type?_eq rfl
  · exact .throw _
  · exact .throw _

open Syntax

mutual

theorem lowerExp_safe (f : Frame) : ∀ e : Exp, f.Safe (fun _ => True) (f.lowerExp e) fun item m => item.Valid m
  | ⟨.nil, range⟩ => by
    rw [lowerExp]
    refine Safe.bind (emit_one_safe (f.site.places_nil _) rfl (fun m _ => Draft.fits_nil m _) rfl) fun v => ?_
    apply Safe.pure
    rintro m ⟨_, rfl, gives⟩
    exact gives.type?_eq rfl
  | ⟨.number n, range⟩ => by
    rw [lowerExp]
    exact lowerNumeral_safe f n range
  | ⟨.prefixExp p, range⟩ => by
    rw [lowerExp]
    exact lowerPrefixExp_safe f p range
  | ⟨.false, _⟩ | ⟨.true, _⟩ | ⟨.varArgs, _⟩ | ⟨.str _, _⟩ | ⟨.function _, _⟩ | ⟨.table _, _⟩
  | ⟨.unary _ _, _⟩ | ⟨.binary _ _ _, _⟩ => by
    simp only [lowerExp]
    exact .throw _

theorem lowerExps_safe (f : Frame) : ∀ es : List Exp,
    f.Safe (fun _ => True) (f.lowerExps es) fun items m => ∀ item ∈ items, item.Valid m
  | [] => by
    rw [lowerExps]
    exact .pure fun _ _ => by simp
  | e :: es => by
    rw [lowerExps]
    refine Safe.bind (lowerExp_safe f e) fun item => ?_
    have rest : f.Safe (fun m => item.Valid m) (f.lowerExps es)
        fun items m => (∀ i ∈ items, i.Valid m) ∧ item.Valid m :=
      (lowerExps_safe f es).keep item.stable_valid
    split
    · exact .throw _
    · refine Safe.bind rest fun items => .pure ?_
      rintro m ⟨valid, first⟩ i member
      rcases List.mem_cons.mp member with rfl | member
      · exact first
      · exact valid i member

theorem lowerPrefixExp_safe (f : Frame) : ∀ (p : PrefixExp) (range : Option TextRange),
    f.Safe (fun _ => True) (f.lowerPrefixExp p range) fun item m => item.Valid m
  | ⟨head, calls⟩, range => by
    rw [lowerPrefixExp]
    refine Safe.bind (lowerHead_safe f head) fun callee => ?_
    match calls with
    | [] => exact .pure fun _ typed => typed
    | [call] =>
      refine Safe.bind (lowerCall_safe f callee call _) fun p => .pure ?_
      exact fun _ gives => gives
    | _ :: second :: _ => exact .throw _

theorem lowerHead_safe (f : Frame) : ∀ head : Head,
    f.Safe (fun _ => True) (f.lowerHead head) fun v m => m.type? v.id = some .ref
  | .var v => by
    rw [lowerHead]
    exact (lowerVar_safe f v).post fun _ _ ⟨_, _, isCell⟩ => isCell.type?_eq
  | .paren e => by
    rw [lowerHead]
    exact Safe.bind (lowerExp_safe f e) fun item => (adjustToOne_safe f item _).pre fun _ => Lowered.Valid.typed

theorem lowerCall_safe (f : Frame) (callee : Ref) : ∀ (call : Call) (loc : Location),
    f.Safe (fun m => m.type? callee.id = some .ref) (f.lowerCall callee call loc)
      fun p m => (Lowered.pack p).Valid m
  | ⟨some _, _, range⟩, loc => by
    rw [lowerCall]
    exact .throw _
  | ⟨none, args, _⟩, loc => by
    rw [lowerCall]
    have callable := Module.stable_type? callee.id .ref
    refine Safe.bind ((lowerArgs_safe f args).keep callable) fun items => ?_
    refine Safe.bind (((pack_safe f items loc).keep callable).pre fun _ holds => holds.2) fun packed => ?_
    refine (emit_one_safe (f.site.places_call loc callee packed) rfl
      (fun m typed => Draft.fits_call m loc typed.2 typed.1) rfl).post ?_
    rintro _ m ⟨v, rfl, gives⟩
    exact ⟨callee.id, packed.id, loc, gives⟩

theorem lowerArgs_safe (f : Frame) : ∀ args : Args,
    f.Safe (fun _ => True) (f.lowerArgs args) fun items m => ∀ item ∈ items, item.Valid m
  | .list es => by
    rw [lowerArgs]
    exact lowerExps_safe f es
  | .table e | .str e => by
    rw [lowerArgs]
    refine Safe.bind (lowerExp_safe f e) fun item => ?_
    refine Safe.bind ((adjustToOne_safe f item _).pre fun _ => Lowered.Valid.typed) fun v => .pure ?_
    intro m typed i member
    rw [List.mem_singleton.mp member]
    exact typed

end

/-- The cells of variables that are only names, in order. -/
def CellsOf (m : Module) (targets : List Var) (cells : List Ref) : Prop :=
  List.Forall₂ (fun t cell => ∃ name, t.bareName? = some name ∧ m.IsCell name cell) targets cells

theorem stable_cellsOf (targets : List Var) (cells : List Ref) : Stable fun m => CellsOf m targets cells := by
  intro m b d cellsOf
  exact cellsOf.imp fun t cell ⟨name, bare, isCell⟩ => ⟨name, bare, Module.stable_isCell name cell m b d isCell⟩

theorem CellsOf.type?_eq {m : Module} {targets : List Var} {cells : List Ref} (cellsOf : CellsOf m targets cells)
    {cell : Ref} (member : cell ∈ cells) : m.type? cell.id = some .ref := by
  induction cellsOf with
  | nil => cases member
  | cons found _ ih =>
    obtain ⟨name, -, isCell⟩ := found
    rcases List.mem_cons.mp member with rfl | member
    · exact isCell.type?_eq
    · exact ih member

theorem lowerVars_safe (f : Frame) (targets : List Var) :
    f.Safe (fun _ => True) (targets.mapM f.lowerVar) fun cells m => CellsOf m targets cells := by
  induction targets with
  | nil => exact .pure fun _ _ => .nil
  | cons t rest ih =>
    rw [List.mapM_cons]
    refine Safe.bind (lowerVar_safe f t) fun cell => ?_
    have stable : Stable fun m => ∃ name, t.bareName? = some name ∧ m.IsCell name cell :=
      fun m b d ⟨name, bare, isCell⟩ => ⟨name, bare, Module.stable_isCell name cell m b d isCell⟩
    exact Safe.bind (ih.keep stable) fun cells => .pure fun m ⟨cellsOf, found⟩ => .cons found cellsOf

/-- The sides of the assignments exist. -/
def Assignable (m : Module) (pairs : List (Ref × Ref)) : Prop :=
  ∀ pair ∈ pairs, m.type? pair.1.id = some .ref ∧ m.type? pair.2.id = some .ref

theorem stable_assignable (pairs : List (Ref × Ref)) : Stable fun m => Assignable m pairs :=
  fun m b d typed pair member => ⟨Module.stable_type? _ _ m b d (typed pair member).1,
    Module.stable_type? _ _ m b d (typed pair member).2⟩

theorem assignable_cons (m : Module) (cell value : Ref) (rest : List (Ref × Ref)) :
    Assignable m ((cell, value) :: rest) ↔
      (m.type? cell.id = some .ref ∧ m.type? value.id = some .ref) ∧ Assignable m rest := by
  simp only [Assignable, List.forall_mem_cons]

theorem assign_safe (f : Frame) (loc : Location) (cell value : Ref) (rest : List (Ref × Ref)) :
    f.Safe (fun m => Assignable m ((cell, value) :: rest)) (emit .assign loc (f.site.assign cell value loc))
      fun _ m => Assignable m rest := by
  have first : f.Safe (fun m => m.type? cell.id = some .ref ∧ m.type? value.id = some .ref)
      (emit .assign loc (f.site.assign cell value loc)) fun _ _ => True :=
    (emit_safe (f.site.places_assign loc cell value) rfl
      fun m typed => Draft.fits_assign m loc typed.1 typed.2).post fun _ _ _ => trivial
  exact (first.frame (stable_assignable rest)).weaken (fun m => (assignable_cons m cell value rest).mp)
    fun _ _ holds => holds.2

theorem assignAll_safe (f : Frame) (loc : Location) (pairs : List (Ref × Ref)) :
    f.Safe (fun m => Assignable m pairs)
      (pairs.forM fun (cell, value) => emit .assign loc (f.site.assign cell value loc)) fun _ _ => True := by
  induction pairs with
  | nil => exact .pure fun _ _ => trivial
  | cons pair rest ih => exact Safe.bind (assign_safe f loc pair.1 pair.2 rest) fun _ => ih

theorem CellsOf.assignable_zip {m : Module} {targets : List Var} {cells values : List Ref}
    (cellsOf : CellsOf m targets cells) (typed : ∀ v ∈ values, m.type? v.id = some .ref) :
    Assignable m (cells.zip values) := by
  rintro ⟨cell, value⟩ member
  have sides := List.of_mem_zip member
  exact ⟨cellsOf.type?_eq sides.1, typed value sides.2⟩

/-- The operations of an assignment, once its cells and its values are there. -/
def store (f : Frame) (cells : List Ref) (items : List Lowered) (loc : Location) : Lowering Unit := do
  let packed ← f.pack items loc
  let unpacked ← f.unpack packed cells.length loc
  (cells.zip unpacked).forM fun (cell, value) => emit .assign loc (f.site.assign cell value loc)

/-- Whether the number of values is left to the last of them, or is that of the cells. -/
def fitting (cells : List Ref) (items : List Lowered) : Bool :=
  items.getLast?.any Lowered.isPack || items.length = cells.length

theorem lowerAssign_eq (f : Frame) (targets : List Var) (values : List Exp) (loc : Location) :
    f.lowerAssign targets values loc = (do
      let cells ← targets.mapM f.lowerVar
      let items ← f.lowerExps values
      if fitting cells items then f.store cells items loc
      else do
        note (.adjusting loc cells.length items.length)
        f.store cells items loc) :=
  rfl

theorem store_safe (f : Frame) (targets : List Var) (cells : List Ref) (items : List Lowered) (loc : Location) :
    f.Safe (fun m => CellsOf m targets cells) (f.store cells items loc) fun _ _ => True := by
  have kept := stable_cellsOf targets cells
  refine Safe.bind ((pack_safe f items loc).keep kept) fun packed => ?_
  refine Safe.bind ((unpack_safe f packed cells.length loc).frame kept) fun unpacked => ?_
  exact (assignAll_safe f loc (cells.zip unpacked)).pre fun m ⟨typed, cellsOf⟩ => cellsOf.assignable_zip typed

theorem lowerAssign_safe (f : Frame) (targets : List Var) (values : List Exp) (loc : Location) :
    f.Safe (fun _ => True) (f.lowerAssign targets values loc) fun _ _ => True := by
  rw [lowerAssign_eq]
  refine Safe.bind (lowerVars_safe f targets) fun cells => ?_
  have items_safe := ((lowerExps_safe f values).keep (stable_cellsOf targets cells)).post fun _ _ holds => holds.2
  refine Safe.bind items_safe fun items => ?_
  split
  · exact store_safe f targets cells items loc
  · exact Safe.bind (Safe.note _) fun _ => store_safe f targets cells items loc

theorem lowerStat_safe (f : Frame) (stat : Stat) :
    f.Safe (fun _ => True) (f.lowerStat stat) fun _ _ => True := by
  unfold lowerStat
  refine Safe.bind (Safe.note _) fun _ => ?_
  split
  · exact lowerAssign_safe f _ _ _
  · exact Safe.bind (lowerPrefixExp_safe f _ _) fun _ => .pure fun _ _ => trivial
  · exact .throw _

theorem lowerStats_safe (f : Frame) (stats : List Stat) :
    f.Safe (fun _ => True) (stats.forM f.lowerStat) fun _ _ => True := by
  induction stats with
  | nil => exact .pure fun _ _ => trivial
  | cons stat rest ih => exact Safe.bind (lowerStat_safe f stat) fun _ => ih

theorem lowerBlock_safe (f : Frame) (block : Syntax.Block) :
    f.Safe (fun _ => True) (f.lowerBlock block) fun _ _ => True := by
  unfold lowerBlock
  refine Safe.bind (lowerStats_safe f block.stats) fun _ => ?_
  split
  · exact .throw _
  · exact .pure fun _ _ => trivial

/-! ## Whole chunks -/

/-- What the lowering of `main` goes by. -/
def ofMain (source : Source) (c : Catalogue) : Frame := ⟨⟨c, ⟨0⟩⟩, source, "main"⟩

end Frame

/-- The state in which the block of `main` is opened. -/
def LowerState.ofMain (loc : Location) : LowerState :=
  ⟨(Module.empty.addFunction "main" loc).2.openBlock ⟨0⟩, .empty, #[.opened ⟨0⟩ "main"]⟩

theorem Lowering.openFunction_main (c : Catalogue) (source : Source) (loc : Location) :
    openFunction c source "main" loc (.ofModule .empty) = .ok (Frame.ofMain source c) (.ofMain loc) := rfl

namespace Frame
open Lowering Syntax

theorem sound_ofMain (source : Source) (c : Catalogue) (loc : Location) :
    (ofMain source c).Sound (.ofMain loc) where
  block := rfl
  main :=
    { functions := ⟨loc, rfl⟩
      regions := rfl
      blocks := rfl
      linked := (Module.linked_empty.addFunction "main" loc).openBlock rfl
      registered := fun _ _ found => absurd (Module.op?_lt found) (Nat.not_lt_zero _)
      conforms := fun _ _ found => absurd (Module.op?_lt found) (Nat.not_lt_zero _)
      terminator := fun _ _ found => absurd (Module.op?_lt found) (Nat.not_lt_zero _) }
  scope name cell found := by cases found

theorem open_ofMain (loc : Location) : (LowerState.ofMain loc).module.Open :=
  fun _ _ found => absurd (Module.op?_lt found) (Nat.not_lt_zero _)

/-- The return that ends `main`. -/
def retDraft (loc : Location) : Draft := ⟨.ret, [], [], [], loc⟩

theorem finish_run {f : Frame} {s : LowerState} (sound : f.Sound s) (opened : s.module.Open)
    (registered : .ret ∈ f.site.catalogue.kinds) (loc : Location) :
    ∃ log, f.finish loc s = .ok () ⟨s.module.append ⟨0⟩ (retDraft loc), s.scope, log⟩ := by
  have placed : f.site.ret loc s.module = .ok ((), s.module.append ⟨0⟩ (retDraft loc)) :=
    (sound.places_iff (f.site.places_ret loc) _ _).mpr ⟨registered, opened, by simp, rfl, rfl⟩
  simp only [finish, bind, EStateM.bind, emit_run _ _ (f.site.places_ret loc).atomic, placed]
  exact ⟨_, rfl⟩

theorem verify_ret {c : Catalogue} {m : Module} (main : m.OnlyMain c) (opened : m.Open) (registered : .ret ∈ c.kinds)
    (loc : Location) : (m.append ⟨0⟩ (retDraft loc)).verify c = [] := by
  have ended := main.append opened (d := retDraft loc) registered (by simp [retDraft]) (Draft.fits_ret m loc)
  rw [ended.verify_eq]
  simp [Module.append, retDraft, Catalogue.endsBlock, Catalogue.get?, registered, OpKind.definition]

end Frame

theorem Catalogue.mem_full (kind : OpKind) : kind ∈ Catalogue.full.kinds := by
  cases kind <;> decide

/-- Where the return is registered, the outcome of lowering a chunk is that of lowering its statements: the return can
be placed after them, and the module passes the checks. -/
theorem Syntax.Chunk.lower_of_registered (chunk : Chunk) (source : Source) {c : Catalogue}
    (registered : .ret ∈ c.kinds) :
    chunk.lower source c =
      match (Frame.ofMain source c).lowerBlock chunk.block (.ofMain (source.startLoc chunk.range)) with
      | .ok _ s => .ok (s.module.append ⟨0⟩ (Frame.retDraft (source.endLoc chunk.block.range)))
      | .error e _ => .error e := by
  have start := Frame.sound_ofMain source c (source.startLoc chunk.range)
  have safe := Frame.lowerBlock_safe _ chunk.block _ start trivial
  simp only [lower, lowerLogged, Lowering.chunk, bind, EStateM.bind, Lowering.openFunction_main]
  cases run : (Frame.ofMain source c).lowerBlock chunk.block (.ofMain (source.startLoc chunk.range)) with
  | error e s => rfl
  | ok _ s =>
    rw [run] at safe
    obtain ⟨sound, advance, -⟩ := safe
    have opened := advance.opened (Frame.open_ofMain _)
    obtain ⟨log, finished⟩ := Frame.finish_run sound opened registered (source.endLoc chunk.block.range)
    have passes : Module.verify _ c = [] :=
      Frame.verify_ret sound.main opened registered (source.endLoc chunk.block.range)
    simp only [finished, Lowering.get_run, passes]
    rfl

/-- Where the return is not registered, the statements of a chunk are lowered in vain. -/
theorem Syntax.Chunk.lower_of_unregistered (chunk : Chunk) (source : Source) {c : Catalogue}
    (missing : .ret ∉ c.kinds) :
    chunk.lower source c =
      match (Frame.ofMain source c).lowerBlock chunk.block (.ofMain (source.startLoc chunk.range)) with
      | .ok _ _ => .error (.invariant (.build (.unregisteredOp .ret)) none)
      | .error e _ => .error e := by
  have refused (m : Module) (loc : Location) :
      (Frame.ofMain source c).site.ret loc m = .error (.unregisteredOp .ret) := by
    simp [Site.ret, Build.outcome, Build.run_map, Site.insert, Frame.ofMain, Catalogue.get?, missing]
  simp only [lower, lowerLogged, Lowering.chunk, bind, EStateM.bind, Lowering.openFunction_main]
  cases (Frame.ofMain source c).lowerBlock chunk.block (.ofMain (source.startLoc chunk.range)) with
  | error e s => rfl
  | ok _ s =>
    simp only [Frame.finish, bind, EStateM.bind,
      Lowering.emit_run _ _ ((Frame.ofMain source c).site.places_ret _).atomic, refused]

theorem Syntax.Chunk.lower_full (chunk : Chunk) (source : Source) :
    chunk.lower source .full =
      match (Frame.ofMain source .full).lowerBlock chunk.block (.ofMain (source.startLoc chunk.range)) with
      | .ok _ s => .ok (s.module.append ⟨0⟩ (Frame.retDraft (source.endLoc chunk.block.range)))
      | .error e _ => .error e :=
  chunk.lower_of_registered source (Catalogue.mem_full _)

theorem Frame.lowerBlock_ok {f : Frame} {s s' : LowerState} {block : Syntax.Block}
    (success : f.lowerBlock block s = .ok () s') : block.stats.forM f.lowerStat s = .ok () s' := by
  obtain ⟨_, t, stats, rest⟩ := bind_ok success
  cases ret : block.ret with
  | none =>
    rw [ret] at rest
    cases rest
    exact stats
  | some ret' =>
    rw [ret] at rest
    cases rest

theorem Frame.finish_ok {f : Frame} {s s' : LowerState} {loc : Location} (main : f.site.block = ⟨0⟩)
    (success : f.finish loc s = .ok () s') :
    .ret ∈ f.site.catalogue.kinds ∧ s'.module = s.module.append ⟨0⟩ (retDraft loc) := by
  obtain ⟨_, t, placed, noted⟩ := bind_ok success
  rw [Lowering.emit_run _ _ (f.site.places_ret loc).atomic] at placed
  cases made : f.site.ret loc s.module with
  | error e =>
    rw [made] at placed
    cases placed
  | ok pair =>
    rw [made] at placed
    cases placed
    cases noted
    obtain ⟨registered, -, -, -, grown⟩ := ((f.site.places_ret loc).eq_ok_iff _ _ _).mp made
    exact ⟨registered, main ▸ grown⟩

/-- A chunk is lowered by lowering its block and then placing the return. -/
theorem Syntax.Chunk.block_of_lower {chunk : Chunk} {source : Source} {c : Catalogue} {m : Module}
    (lowered : chunk.lower source c = .ok m) :
    .ret ∈ c.kinds ∧ ∃ s,
      (Frame.ofMain source c).lowerBlock chunk.block (.ofMain (source.startLoc chunk.range)) = .ok () s ∧
      m = s.module.append ⟨0⟩ (Frame.retDraft (source.endLoc chunk.block.range)) := by
  rw [lower, lowerLogged] at lowered
  cases run : Lowering.chunk chunk source c (.ofModule .empty) with
  | error e s =>
    rw [run] at lowered
    cases lowered
  | ok m' s' =>
    rw [run] at lowered
    cases lowered
    obtain ⟨f, s₀, opened, run⟩ := Frame.bind_ok run
    rw [Lowering.openFunction_main] at opened
    cases opened
    obtain ⟨_, s, block, run⟩ := Frame.bind_ok run
    obtain ⟨_, t, finished, run⟩ := Frame.bind_ok run
    obtain ⟨_, _, got, run⟩ := Frame.bind_ok run
    cases got
    have given : m = t.module := by
      cases found : t.module.verify c with
      | nil =>
        simp only [found] at run
        cases run
        rfl
      | cons e rest =>
        simp only [found] at run
        cases run
    obtain ⟨registered, grown⟩ := Frame.finish_ok rfl finished
    exact ⟨registered, s, block, given.trans grown⟩

/-- The statements of a lowered chunk are lowered one after the other. -/
theorem Syntax.Chunk.run_of_lower {chunk : Chunk} {source : Source} {c : Catalogue} {m : Module}
    (lowered : chunk.lower source c = .ok m) :
    ∃ s, chunk.block.stats.forM (Frame.ofMain source c).lowerStat (.ofMain (source.startLoc chunk.range)) = .ok () s ∧
      m = s.module.append ⟨0⟩ (Frame.retDraft (source.endLoc chunk.block.range)) := by
  obtain ⟨-, s, block, grown⟩ := block_of_lower lowered
  exact ⟨s, Frame.lowerBlock_ok block, grown⟩

/-- All operations of a lowered chunk stand in `main`. -/
theorem Syntax.Chunk.onlyMain_of_lower {chunk : Chunk} {source : Source} {c : Catalogue} {m : Module}
    (lowered : chunk.lower source c = .ok m) : m.OnlyMain c := by
  obtain ⟨registered, s, block, rfl⟩ := block_of_lower lowered
  have start := Frame.sound_ofMain source c (source.startLoc chunk.range)
  have safe := Frame.lowerBlock_safe _ chunk.block _ start trivial
  rw [block] at safe
  obtain ⟨sound, advance, -⟩ := safe
  exact sound.main.append (advance.opened (Frame.open_ofMain _)) registered (by simp [Frame.retDraft])
    (Draft.fits_ret _ _)

end LuaLowering
