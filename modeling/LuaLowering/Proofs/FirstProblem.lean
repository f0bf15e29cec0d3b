import LuaLowering.Proofs.LoweringSteps
/-!
# The first problem of a chunk

Whether a chunk can be lowered, and which error is reported if not, can be read off its tree without
building anything. `Chunk.problem?` walks the tree in the order of the text and gives the first thing
that is not lowered. With all operations registered, lowering fails with exactly that error, and succeeds
when there is none (`lower_decided`).
-/
namespace LuaLowering.Syntax

/-- Whether an expression is a call, which may give any number of values. -/
def PrefixExp.isCall : PrefixExp → Bool
  | ⟨_, [_]⟩ => true
  | _ => false

def Exp.isCall (e : Exp) : Bool :=
  match e.kind with
  | .prefixExp p => p.isCall
  | _ => false

section Walk
variable (source : Source)

/-- Only a name is lowered as a variable. -/
def Var.problem? : Var → Option LowerError
  | ⟨.name _, [], _⟩ => none
  | v => some (.unsupported "varSuffix" (source.span v.range))

def Numeral.problem? (n : Numeral) (range : Option TextRange) : Option LowerError :=
  if n.constant?.isSome then none
  else if n.kind = .hexFloat then some (.unsupported "hexfloat" (source.span range))
  else some (.invariant (.numeral n.text) (source.startLoc range))

mutual

def Exp.problem? : Exp → Option LowerError
  | ⟨.nil, _⟩ => none
  | ⟨.number n, range⟩ => n.problem? source range
  | ⟨.prefixExp p, _⟩ => p.problem?
  | ⟨kind, range⟩ => some (.unsupported kind.construct (source.span range))

/-- Only the last expression of a list may be a call; any other one is refused once it is found to be
without problems itself. -/
def expsProblem? : List Exp → Option LowerError
  | [] => none
  | e :: es =>
    let multivalue :=
      if e.isCall && ! es.isEmpty then some (.unsupported "multivalue" (source.span e.range)) else none
    e.problem?.or (multivalue.or (expsProblem? es))

/-- The head comes first, then the number of calls, then the call. -/
def PrefixExp.problem? : PrefixExp → Option LowerError
  | ⟨head, []⟩ => head.problem?
  | ⟨head, [call]⟩ => head.problem?.or call.problem?
  | ⟨head, _ :: second :: _⟩ => head.problem?.or (some (.unsupported "chainedcall" (source.span second.range)))

def Head.problem? : Head → Option LowerError
  | .var v => v.problem? source
  | .paren e => e.problem?

def Call.problem? : Call → Option LowerError
  | ⟨some _, _, range⟩ => some (.unsupported "methodcall" (source.span range))
  | ⟨none, args, _⟩ => args.problem?

def Args.problem? : Args → Option LowerError
  | .list es => expsProblem? es
  | .table e => e.problem?
  | .str e => e.problem?

end

/-- In an assignment the targets come before the values. -/
def Stat.problem? (stat : Stat) : Option LowerError :=
  match stat.kind with
  | .assign targets values => (targets.findSome? (·.problem? source)).or (expsProblem? source values)
  | .call p => p.problem? source
  | kind => some (.unsupported kind.construct (source.span stat.range))

/-- A return is refused after all statements. -/
def Block.problem? (block : Block) : Option LowerError :=
  (block.stats.findSome? (·.problem? source)).or
    (block.ret.map fun ret => .unsupported "retstat" (source.span ret.range))

/-- The first thing in a chunk that is not lowered. -/
def Chunk.problem? (chunk : Chunk) : Option LowerError := chunk.block.problem? source

end Walk
end LuaLowering.Syntax

namespace LuaLowering

theorem findSome?_cons_or {α β : Type} (g : α → Option β) (a : α) (rest : List α) :
    (a :: rest).findSome? g = (g a).or (rest.findSome? g) := by
  rw [List.findSome?_cons]
  cases g a <;> rfl

theorem Lowered.misplacedPack?_eq_none_iff (items : List Lowered) :
    misplacedPack? items = none ↔ ∀ item ∈ items.dropLast, item.isPack = false := by
  simp [misplacedPack?, List.drop_one, List.tail_reverse]

namespace Frame
open Lowering Syntax

/-- From an open state in which `P` holds, a step fails with the problem, or succeeds with a result of
which `Q` holds when there is none. Neither `Q` nor the problem knows the state. -/
def Decides {α : Type} (f : Frame) (P : Module → Prop) (x : Lowering α) (problem : Option LowerError)
    (Q : α → Prop) : Prop :=
  ∀ s, f.Sound s → s.module.Open → P s.module → match problem with
    | none => ∃ a s', x s = .ok a s' ∧ Q a
    | some e => ∃ s', x s = .error e s'

theorem Decides.pure {α : Type} {f : Frame} {P : Module → Prop} {Q : α → Prop} {a : α} (holds : Q a) :
    f.Decides P (Pure.pure a) none Q :=
  fun s _ _ _ => ⟨a, s, rfl, holds⟩

theorem Decides.throw {α : Type} {f : Frame} {P : Module → Prop} {Q : α → Prop} (e : LowerError) :
    f.Decides P (MonadExcept.throw e) (some e) Q :=
  fun s _ _ _ => ⟨s, rfl⟩

theorem Decides.note {f : Frame} {P : Module → Prop} (e : Event) :
    f.Decides P (Lowering.note e) none fun _ => True :=
  fun _ _ _ _ => ⟨(), _, rfl, trivial⟩

/-- The problem of two steps is that of the first, or else that of the second. -/
theorem Decides.bind {α β : Type} {f : Frame} {P : Module → Prop} {T : α → Module → Prop} {Q : α → Prop}
    {R : β → Prop} {x : Lowering α} {g : α → Lowering β} {p q : Option LowerError} (safe : f.Safe P x T)
    (first : f.Decides P x p Q) (second : ∀ a, Q a → f.Decides (T a) (g a) q R) :
    f.Decides P (x >>= g) (p.or q) R := by
  intro s sound opened holds
  have before := first s sound opened holds
  simp only [Bind.bind, EStateM.bind]
  cases p with
  | some e =>
    obtain ⟨s', failed⟩ := before
    exact ⟨s', by rw [failed]⟩
  | none =>
    obtain ⟨a, s', success, result⟩ := before
    have after := safe s sound holds
    rw [success] at after
    rw [success, Option.none_or]
    exact second a result s' after.1 (after.2.1.opened opened) after.2.2

/-- A step after which nothing can go wrong. -/
theorem Decides.bind_none {α β : Type} {f : Frame} {P : Module → Prop} {T : α → Module → Prop} {Q : α → Prop}
    {R : β → Prop} {x : Lowering α} {g : α → Lowering β} {p : Option LowerError} (safe : f.Safe P x T)
    (first : f.Decides P x p Q) (second : ∀ a, Q a → f.Decides (T a) (g a) none R) :
    f.Decides P (x >>= g) p R := by
  rw [← Option.or_none (o := p)]
  exact Decides.bind safe first second

theorem Decides.weaken {α : Type} {f : Frame} {P P' : Module → Prop} {Q Q' : α → Prop} {x : Lowering α}
    {p : Option LowerError} (decides : f.Decides P x p Q) (pre : ∀ m, P' m → P m) (post : ∀ a, Q a → Q' a) :
    f.Decides P' x p Q' := by
  intro s sound opened holds
  have result := decides s sound opened (pre _ holds)
  cases p with
  | some e => exact result
  | none =>
    obtain ⟨a, s', success, kept⟩ := result
    exact ⟨a, s', success, post a kept⟩

theorem Decides.always {α : Type} {f : Frame} {P : Module → Prop} {Q : α → Prop} {x : Lowering α}
    {p : Option LowerError} (decides : f.Decides (fun _ => True) x p Q) : f.Decides P x p Q :=
  decides.weaken (fun _ _ => trivial) fun _ holds => holds

theorem Decides.ok {α : Type} {f : Frame} {P : Module → Prop} {x : Lowering α} {p : Option LowerError} {Q : α → Prop}
    {s s' : LowerState} {a : α} (decides : f.Decides P x p Q) (sound : f.Sound s) (opened : s.module.Open)
    (holds : P s.module) (run : x s = .ok a s') : Q a := by
  have result := decides s sound opened holds
  cases p with
  | none =>
    obtain ⟨a', t, run', kept⟩ := result
    rw [run] at run'
    cases run'
    exact kept
  | some e =>
    obtain ⟨t, failed⟩ := result
    rw [run] at failed
    cases failed

section Steps
variable {f : Frame} (full : f.site.catalogue = .full)
include full

theorem emit_decides {α : Type} {P : Module → Prop} {kind : OpKind} {loc : Location} {d : Draft}
    {step : Build α} {handle : Module → α} (places : f.site.Places d step handle)
    (operands : ∀ m, P m → ∀ v ∈ d.operands, v.index < m.values.size) :
    f.Decides P (emit kind loc step) none fun a => ∃ m, a = handle m := by
  intro s sound opened holds
  have placed := (sound.places_iff places _ _).mpr
    ⟨full ▸ Catalogue.mem_full d.kind, opened, operands _ holds, rfl, rfl⟩
  rw [emit_run _ _ places.atomic, placed]
  exact ⟨_, _, rfl, s.module, rfl⟩

theorem resolve_decides (name : String) (loc : Location) :
    f.Decides (fun _ => True) (f.resolve name loc) none fun _ => True := by
  intro s sound opened _
  rw [resolve_run]
  cases s.scope.lookup name with
  | some cell => exact ⟨cell, s, rfl, trivial⟩
  | none =>
    have placed := (sound.places_iff (f.site.places_getOrAlloc loc name) _ _).mpr
      ⟨full ▸ Catalogue.mem_full _, opened, by simp, rfl, rfl⟩
    rw [placed]
    exact ⟨_, _, rfl, trivial⟩

theorem pack_decides {items : List Lowered} (last : ∀ item ∈ items.dropLast, item.isPack = false) (loc : Location) :
    f.Decides (fun m => ∀ item ∈ items, item.Valid m) (f.pack items loc) none fun _ => True := by
  rw [pack, (Lowered.misplacedPack?_eq_none_iff items).mpr last]
  refine (emit_decides full (f.site.places_concat loc _) ?_).weaken (fun _ holds => holds) fun _ _ => trivial
  intro m valid v member
  obtain ⟨item, listed, rfl⟩ := List.mem_map.mp member
  exact (valid item listed).lt

theorem unpack_decides (pack : Pack) (count : Nat) (loc : Location) :
    f.Decides (fun m => m.type? pack.id = some .pack) (f.unpack pack count loc) none
      fun values => values.length = count := by
  have exists_operand : ∀ m : Module, m.type? pack.id = some .pack → ∀ v ∈ [pack.id], v.index < m.values.size := by
    intro m typed v member
    rw [List.mem_singleton.mp member]
    exact Module.type?_lt typed
  refine Decides.bind (emit_safe (f.site.places_unpack loc pack count) rfl
    fun m typed => Draft.fits_unpack m loc typed count)
    (emit_decides full (f.site.places_unpack loc pack count) exists_operand) ?_
  rintro _ ⟨m, rfl⟩
  have counted : ((m.resultIds (List.replicate count .ref)).map Ref.mk).length = count := by
    simp [Module.resultIds]
  rw [if_pos counted]
  exact .pure counted

theorem adjustToOne_decides (item : Lowered) (loc : Location) :
    f.Decides (fun m => item.Valid m) (f.adjustToOne item loc) none fun _ => True := by
  cases item with
  | value v => exact .pure trivial
  | pack p =>
    have typed : ∀ m, (Lowered.pack p).Valid m → m.type? p.id = some .pack := fun m => Lowered.Valid.typed
    refine Decides.bind ((unpack_safe f p 1 loc).pre typed)
      ((unpack_decides full p 1 loc).weaken typed fun _ counted => counted) fun values counted => ?_
    obtain ⟨v, rfl⟩ := List.length_eq_one_iff.mp counted
    exact .pure trivial

theorem lowerVar_decides (v : Var) :
    f.Decides (fun _ => True) (f.lowerVar v) (v.problem? f.source) fun _ => True := by
  obtain ⟨root, suffixes, range⟩ := v
  cases root with
  | paren e => exact .throw _
  | name name =>
    cases suffixes with
    | cons first rest => exact .throw _
    | nil => exact resolve_decides full name _

theorem lowerNumeral_decides (n : Numeral) (range : Option TextRange) :
    f.Decides (fun _ => True) (f.lowerNumeral n range) (n.problem? f.source range)
      fun item => item.isPack = false := by
  rw [lowerNumeral, Numeral.problem?]
  cases n.constant? with
  | some c =>
    refine Decides.bind (emit_safe (f.site.places_number _ c) rfl fun m _ => Draft.fits_number m _ c)
      (emit_decides full (f.site.places_number _ c) fun _ _ _ member => by cases member) fun v _ => ?_
    exact .pure rfl
  | none => cases n.kind <;> exact .throw _

end Steps

variable {f : Frame}

mutual

theorem lowerExp_decides (full : f.site.catalogue = .full) : ∀ e : Exp,
    f.Decides (fun _ => True) (f.lowerExp e) (e.problem? f.source) fun item => item.isPack = e.isCall
  | ⟨.nil, range⟩ => by
    rw [lowerExp, Exp.problem?]
    refine Decides.bind (emit_safe (f.site.places_nil _) rfl fun m _ => Draft.fits_nil m _)
      (emit_decides full (f.site.places_nil _) fun _ _ _ member => by cases member) fun v _ => ?_
    exact .pure rfl
  | ⟨.number n, range⟩ => by
    rw [lowerExp, Exp.problem?]
    exact lowerNumeral_decides full n range
  | ⟨.prefixExp p, range⟩ => by
    rw [lowerExp, Exp.problem?]
    exact lowerPrefixExp_decides full p range
  | ⟨.false, _⟩ | ⟨.true, _⟩ | ⟨.varArgs, _⟩ | ⟨.str _, _⟩ | ⟨.function _, _⟩ | ⟨.table _, _⟩
  | ⟨.unary _ _, _⟩ | ⟨.binary _ _ _, _⟩ => by
    simp only [lowerExp, Exp.problem?]
    exact .throw _

theorem lowerExps_decides (full : f.site.catalogue = .full) : ∀ es : List Exp,
    f.Decides (fun _ => True) (f.lowerExps es) (expsProblem? f.source es) fun items =>
      items.map Lowered.isPack = es.map Exp.isCall ∧ ∀ item ∈ items.dropLast, item.isPack = false
  | [] => by
    rw [lowerExps, expsProblem?]
    exact .pure (by simp)
  | e :: es => by
    rw [lowerExps, expsProblem?]
    refine Decides.bind (lowerExp_safe f e) (lowerExp_decides full e) fun item kind => ?_
    rw [kind]
    split
    · exact .throw _
    · -- a call before the end has just been refused
      have single : item.isPack = false ∨ es = [] := by
        cases es <;> simp_all
      refine .bind_none ((lowerExps_safe f es).pre fun _ _ => trivial) (lowerExps_decides full es).always
        fun items result => .pure ?_
      refine ⟨by simp [kind, result.1], ?_⟩
      intro i member
      cases items with
      | nil => cases member
      | cons next rest =>
        rcases List.mem_cons.mp member with rfl | member
        · rcases single with single | rfl
          · exact single
          · simp at result
        · exact result.2 i member

theorem lowerPrefixExp_decides (full : f.site.catalogue = .full) : ∀ (p : PrefixExp) (range : Option TextRange),
    f.Decides (fun _ => True) (f.lowerPrefixExp p range) (p.problem? f.source) fun item => item.isPack = p.isCall
  | ⟨head, []⟩, range => by
    rw [lowerPrefixExp, PrefixExp.problem?]
    exact .bind_none (lowerHead_safe f head) (lowerHead_decides full head) fun callee _ => .pure rfl
  | ⟨head, [call]⟩, range => by
    rw [lowerPrefixExp, PrefixExp.problem?]
    refine Decides.bind (lowerHead_safe f head) (lowerHead_decides full head) fun callee _ => ?_
    exact .bind_none (lowerCall_safe f callee call _) (lowerCall_decides full callee call _) fun p _ => .pure rfl
  | ⟨head, _ :: second :: _⟩, range => by
    rw [lowerPrefixExp, PrefixExp.problem?]
    exact Decides.bind (lowerHead_safe f head) (lowerHead_decides full head) fun callee _ => .throw _

theorem lowerHead_decides (full : f.site.catalogue = .full) : ∀ head : Head,
    f.Decides (fun _ => True) (f.lowerHead head) (head.problem? f.source) fun _ => True
  | .var v => by
    rw [lowerHead, Head.problem?]
    exact lowerVar_decides full v
  | .paren e => by
    rw [lowerHead, Head.problem?]
    exact .bind_none (lowerExp_safe f e) (lowerExp_decides full e) fun item _ => adjustToOne_decides full item _

theorem lowerCall_decides (full : f.site.catalogue = .full) (callee : Ref) : ∀ (call : Call) (loc : Location),
    f.Decides (fun m => m.type? callee.id = some .ref) (f.lowerCall callee call loc) (call.problem? f.source)
      fun _ => True
  | ⟨some _, _, range⟩, loc => by
    rw [lowerCall, Call.problem?]
    exact .throw _
  | ⟨none, args, _⟩, loc => by
    rw [lowerCall, Call.problem?]
    have callable := Module.stable_type? callee.id .ref
    refine .bind_none ((lowerArgs_safe f args).keep callable) (lowerArgs_decides full args).always
      fun items last => ?_
    refine .bind_none (((pack_safe f items loc).keep callable).pre fun _ holds => holds.2)
      ((pack_decides full last loc).weaken (fun _ holds => holds.1) fun _ holds => holds) fun packed _ => ?_
    refine (emit_decides full (f.site.places_call loc callee packed) ?_).weaken (fun _ holds => holds)
      fun _ _ => trivial
    rintro m ⟨packed_type, callee_type⟩ v member
    simp only [List.mem_cons, List.not_mem_nil, or_false] at member
    rcases member with rfl | rfl
    · exact Module.type?_lt callee_type
    · exact Module.type?_lt packed_type

theorem lowerArgs_decides (full : f.site.catalogue = .full) : ∀ args : Args,
    f.Decides (fun _ => True) (f.lowerArgs args) (args.problem? f.source) fun items =>
      ∀ item ∈ items.dropLast, item.isPack = false
  | .list es => by
    rw [lowerArgs, Args.problem?]
    exact (lowerExps_decides full es).weaken (fun _ holds => holds) fun _ holds => holds.2
  | .table e | .str e => by
    rw [lowerArgs, Args.problem?]
    refine .bind_none (lowerExp_safe f e) (lowerExp_decides full e) fun item _ => ?_
    exact Decides.bind ((adjustToOne_safe f item _).pre fun _ => Lowered.Valid.typed) (adjustToOne_decides full item _)
      fun v _ => .pure (by simp)

end

section Statements
variable (full : f.site.catalogue = .full)
include full

theorem lowerVars_decides (targets : List Var) :
    f.Decides (fun _ => True) (targets.mapM f.lowerVar) (targets.findSome? (·.problem? f.source)) fun _ => True := by
  induction targets with
  | nil => exact .pure trivial
  | cons t rest ih =>
    rw [List.mapM_cons, findSome?_cons_or]
    refine Decides.bind (lowerVar_safe f t) (lowerVar_decides full t) fun cell _ => ?_
    exact .bind_none ((lowerVars_safe f rest).pre fun _ _ => trivial) ih.always fun cells _ => .pure trivial

theorem assignAll_decides (loc : Location) (pairs : List (Ref × Ref)) :
    f.Decides (fun m => Assignable m pairs)
      (pairs.forM fun (cell, value) => emit .assign loc (f.site.assign cell value loc)) none fun _ => True := by
  induction pairs with
  | nil => exact .pure trivial
  | cons pair rest ih =>
    obtain ⟨cell, value⟩ := pair
    refine Decides.bind_none (assign_safe f loc cell value rest)
      (emit_decides full (f.site.places_assign loc cell value) ?_) fun _ _ => ih
    intro m typed v member
    obtain ⟨⟨cell_type, value_type⟩, -⟩ := (assignable_cons m cell value rest).mp typed
    simp only [List.mem_cons, List.not_mem_nil, or_false] at member
    rcases member with rfl | rfl
    · exact Module.type?_lt cell_type
    · exact Module.type?_lt value_type

theorem store_decides (targets : List Var) (cells : List Ref) {items : List Lowered}
    (last : ∀ item ∈ items.dropLast, item.isPack = false) (loc : Location) :
    f.Decides (fun m => (∀ item ∈ items, item.Valid m) ∧ CellsOf m targets cells) (f.store cells items loc) none
      fun _ => True := by
  have kept := stable_cellsOf targets cells
  refine Decides.bind_none (((pack_safe f items loc).keep kept).pre fun _ holds => holds.2)
    ((pack_decides full last loc).weaken (fun _ holds => holds.1) fun _ holds => holds) fun packed _ => ?_
  refine Decides.bind_none ((unpack_safe f packed cells.length loc).frame kept)
    ((unpack_decides full packed cells.length loc).weaken (fun _ holds => holds.1) fun _ holds => holds)
    fun unpacked _ => ?_
  exact (assignAll_decides full loc (cells.zip unpacked)).weaken
    (fun m ⟨typed, cellsOf⟩ => cellsOf.assignable_zip typed) fun _ holds => holds

theorem lowerAssign_decides (targets : List Var) (values : List Exp) (loc : Location) :
    f.Decides (fun _ => True) (f.lowerAssign targets values loc)
      ((targets.findSome? (·.problem? f.source)).or (expsProblem? f.source values)) fun _ => True := by
  rw [lowerAssign_eq]
  refine Decides.bind (lowerVars_safe f targets) (lowerVars_decides full targets) fun cells _ => ?_
  refine Decides.bind_none ((lowerExps_safe f values).keep (stable_cellsOf targets cells))
    (lowerExps_decides full values).always fun items result => ?_
  split
  · exact store_decides full targets cells result.2 loc
  · exact .bind_none (Safe.note _) (.note _) fun _ _ => store_decides full targets cells result.2 loc

theorem lowerStat_decides (stat : Stat) :
    f.Decides (fun _ => True) (f.lowerStat stat) (stat.problem? f.source) fun _ => True := by
  obtain ⟨kind, range⟩ := stat
  have noted : f.Decides (fun _ => True) (note (.lowering kind.construct (f.startLoc range))) none fun _ => True :=
    .note _
  rw [lowerStat, ← Option.none_or (o := Stat.problem? f.source _)]
  refine Decides.bind (Safe.note _) noted fun _ _ => ?_
  unfold Stat.problem?
  cases kind with
  | assign targets values => exact lowerAssign_decides full targets values _
  | call p =>
    exact .bind_none (lowerPrefixExp_safe f p range) (lowerPrefixExp_decides full p range) fun _ _ => .pure trivial
  | _ => exact .throw _

theorem lowerStats_decides (stats : List Stat) :
    f.Decides (fun _ => True) (stats.forM f.lowerStat) (stats.findSome? (·.problem? f.source)) fun _ => True := by
  induction stats with
  | nil => exact .pure trivial
  | cons stat rest ih =>
    rw [findSome?_cons_or]
    exact Decides.bind (lowerStat_safe f stat) (lowerStat_decides full stat) fun _ _ => ih

theorem lowerBlock_decides (block : Syntax.Block) :
    f.Decides (fun _ => True) (f.lowerBlock block) (block.problem? f.source) fun _ => True := by
  rw [lowerBlock, Block.problem?]
  refine Decides.bind (lowerStats_safe f block.stats) (lowerStats_decides full block.stats) fun _ _ => ?_
  cases block.ret with
  | none => exact .pure trivial
  | some ret => exact .throw _

end Statements

end Frame

/-- A chunk without a problem is lowered. -/
theorem Syntax.Chunk.lower_of_problem?_eq_none {chunk : Chunk} {source : Source}
    (fine : chunk.problem? source = none) : ∃ m, chunk.lower source .full = .ok m := by
  have decided := Frame.lowerBlock_decides (f := .ofMain source .full) rfl chunk.block _
    (Frame.sound_ofMain source .full (source.startLoc chunk.range)) (Frame.open_ofMain _) trivial
  rw [Frame.ofMain, ← problem?, fine] at decided
  obtain ⟨_, s, success, -⟩ := decided
  rw [lower_full, Frame.ofMain, success]
  exact ⟨_, rfl⟩

/-- A chunk with a problem is refused with it. -/
theorem Syntax.Chunk.lower_of_problem?_eq_some {chunk : Chunk} {source : Source} {e : LowerError}
    (problem : chunk.problem? source = some e) : chunk.lower source .full = .error e := by
  have decided := Frame.lowerBlock_decides (f := .ofMain source .full) rfl chunk.block _
    (Frame.sound_ofMain source .full (source.startLoc chunk.range)) (Frame.open_ofMain _) trivial
  rw [Frame.ofMain, ← problem?, problem] at decided
  obtain ⟨s, failed⟩ := decided
  rw [lower_full, Frame.ofMain, failed]

/-- The outcome of lowering is decided by the first problem of the chunk. -/
theorem Syntax.Chunk.lower_decided (chunk : Chunk) (source : Source) :
    (∀ e, chunk.lower source .full = .error e ↔ chunk.problem? source = some e) ∧
      ((∃ m, chunk.lower source .full = .ok m) ↔ chunk.problem? source = none) := by
  cases problem : chunk.problem? source with
  | none =>
    obtain ⟨m, success⟩ := lower_of_problem?_eq_none problem
    simp [success]
  | some e =>
    have failed := lower_of_problem?_eq_some problem
    simp [failed]

end LuaLowering
