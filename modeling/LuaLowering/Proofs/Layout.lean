import LuaLowering.Proofs.Assignment
/-!
# Layout

Each construct of a chunk has its own stretch of operations in `main`: `LaidOut` says, by recursion over the tree,
which operations stand from one position to another and which values they take. A name adds an operation only where
no earlier one has placed its cell (`Module.Refers`). `laidOut_of_lower` says that every lowered chunk is laid out like
this, under every catalogue.
-/
namespace LuaLowering

namespace Module
variable {m : Module}

/-- The operation at a position of `main` is like the draft, and the value is its only result. -/
def GivesAt (m : Module) (i : Nat) (v : ValueId) (d : Draft) : Prop :=
  ∃ type, d.results = [type] ∧ m.value? v = some ⟨type, .result ⟨i⟩ 0⟩ ∧
    m.op? ⟨i⟩ = some ⟨d.kind, ⟨0⟩, d.operands, d.attributes, [v], d.loc⟩

theorem stable_givesAt (i : Nat) (v : ValueId) (d : Draft) : Stable fun m => m.GivesAt i v d := by
  rintro m b e ⟨type, one, value, found⟩
  exact ⟨type, one, value?_append_of_some value, op?_append_of_some found⟩

theorem givesAt_append (m : Module) {d : Draft} {type : ValueType} (one : d.results = [type]) :
    (m.append ⟨0⟩ d).GivesAt m.ops.size ⟨m.values.size⟩ d := by
  refine ⟨type, one, ?_, ?_⟩
  · simp [value?_append, one]
  · simp [op?_append, resultIds, one]

/-- The variables whose cells the first `n` operations place: their `var` attributes, in order. -/
def vars (m : Module) (n : Nat) : List (Option Attribute) :=
  ((m.ops.toList.take n).filter (·.kind = .getOrAlloc)).map (·.attribute? "var")

theorem vars_succ {n : Nat} {op : Operation} (found : m.op? ⟨n⟩ = some op) :
    m.vars (n + 1) = m.vars n ++ if op.kind = .getOrAlloc then [op.attribute? "var"] else [] := by
  have listed : m.ops.toList[n]? = some op := by simpa [op?] using found
  rw [vars, List.take_add_one, listed, List.filter_append, List.map_append, ← vars]
  by_cases cell : op.kind = .getOrAlloc <;> simp [cell]

theorem vars_append_of_le {n : Nat} (inside : n ≤ m.ops.size) (b : BlockId) (d : Draft) :
    (m.append b d).vars n = m.vars n := by
  have bound : n ≤ m.ops.toList.length := by simpa using inside
  rw [vars, append, Array.toList_push, List.take_append_of_le_length bound, ← vars]

theorem vars_append (m : Module) (b : BlockId) (d : Draft) : (m.append b d).vars (m.append b d).ops.size =
    m.vars m.ops.size ++ if d.kind = .getOrAlloc then [d.attributes.lookup "var"] else [] := by
  have last : (m.append b d).op? ⟨m.ops.size⟩ = _ := op?_append ..
  rw [if_pos rfl] at last
  rw [size_ops_append, vars_succ last, vars_append_of_le (Nat.le_refl _)]
  rfl

theorem stable_mem_vars (attr : Option Attribute) (n : Nat) : Stable fun m => attr ∈ m.vars n := by
  intro m b d listed
  simp only [vars, append, Array.toList_push, List.take_append, List.filter_append, List.map_append]
  exact List.mem_append_left _ listed

/-- A reference to a name after the first `lo` operations: one of them has placed its cell, or its cell is placed now
and `hi` is one more. -/
inductive Refers (m : Module) (name : String) (loc : Location) (lo : Nat) (cell : Ref) : (hi : Nat) → Prop where
  | again (placed : some (.str name) ∈ m.vars lo) (isCell : m.IsCell name cell) : Refers m name loc lo cell lo
  | first (fresh : some (.str name) ∉ m.vars lo)
      (gives : m.GivesAt lo cell.id ⟨.getOrAlloc, [], [("var", .str name)], [.ref], loc⟩) :
      Refers m name loc lo cell (lo + 1)

theorem stable_refers {name : String} {loc : Location} {lo hi : Nat} {cell : Ref} :
    Stable fun m => m.Refers name loc lo cell hi := by
  intro m b d refers
  cases refers with
  | again placed isCell =>
    exact .again (stable_mem_vars _ _ m b d placed) (stable_isCell name cell m b d isCell)
  | first fresh gives =>
    -- the operation at `lo` is there already, so what is appended stands after it
    have ⟨_, _, _, found⟩ := gives
    refine .first ?_ (stable_givesAt _ _ _ m b d gives)
    rwa [vars_append_of_le (Nat.le_of_lt (op?_lt found))]

/-- One value of an item: it is one, or the first of a pack. -/
inductive Adjusts (m : Module) (loc : Location) (lo : Nat) : Lowered → Ref → (hi : Nat) → Prop where
  | value (v : Ref) : Adjusts m loc lo (.value v) v lo
  | pack (p : Pack) (v : Ref) (gives : m.GivesAt lo v.id ⟨.unpack, [p.id], [], [.ref], loc⟩) :
      Adjusts m loc lo (.pack p) v (lo + 1)

end Module

namespace Syntax

section LaidOut
variable (source : Source) (m : Module)

/-- The operations of a variable stand from `lo` to `hi`, and `cell` is its cell. -/
def Var.LaidOut (v : Var) (lo : Nat) (cell : Ref) (hi : Nat) : Prop :=
  ∃ name, v.bareName? = some name ∧ m.Refers name (source.startLoc v.range) lo cell hi

def varsLaidOut : List Var → (lo : Nat) → List Ref → (hi : Nat) → Prop
  | [], lo, cells, hi => cells = [] ∧ hi = lo
  | v :: vs, lo, cells, hi => ∃ cell rest mid, cells = cell :: rest ∧
      v.LaidOut source m lo cell mid ∧ varsLaidOut vs mid rest hi

mutual

/-- The operations of an expression stand from `lo` to `hi`, and `item` is what it gives. -/
def Exp.LaidOut : Exp → (lo : Nat) → (item : Lowered) → (hi : Nat) → Prop
  | ⟨.nil, range⟩, lo, item, hi => ∃ v, item = .value v ∧
      m.GivesAt lo v.id ⟨.nil, [], [], [.ref], source.startLoc range⟩ ∧ hi = lo + 1
  | ⟨.number n, range⟩, lo, item, hi => ∃ c v, n.constant? = some c ∧ item = .value v ∧
      m.GivesAt lo v.id ⟨.number, [], [("value", c.attribute)], [.ref], source.startLoc range⟩ ∧ hi = lo + 1
  | ⟨.prefixExp p, range⟩, lo, item, hi => p.LaidOut range lo item hi
  | _, _, _, _ => False

/-- Only the last item may be a pack. -/
def expsLaidOut : List Exp → (lo : Nat) → (items : List Lowered) → (hi : Nat) → Prop
  | [], lo, items, hi => items = [] ∧ hi = lo
  | e :: es, lo, items, hi => ∃ item rest mid, items = item :: rest ∧ (item.isPack = true → es = []) ∧
      e.LaidOut lo item mid ∧ expsLaidOut es mid rest hi

def PrefixExp.LaidOut : PrefixExp → (range : Option TextRange) → (lo : Nat) → (item : Lowered) → (hi : Nat) → Prop
  | ⟨head, []⟩, _, lo, item, hi => ∃ v, item = .value v ∧ head.LaidOut lo v hi
  | ⟨head, [call]⟩, range, lo, item, hi => ∃ callee mid p, item = .pack p ∧ head.LaidOut lo callee mid ∧
      call.LaidOut callee (source.startLoc range) mid p hi
  | _, _, _, _, _ => False

def Head.LaidOut : Head → (lo : Nat) → (v : Ref) → (hi : Nat) → Prop
  | .var var, lo, cell, hi => var.LaidOut source m lo cell hi
  | .paren e, lo, v, hi => ∃ item mid, e.LaidOut lo item mid ∧ m.Adjusts (source.startLoc e.range) mid item v hi

/-- A concat of the arguments stands right before the call. -/
def Call.LaidOut : Call → (callee : Ref) → (loc : Location) → (lo : Nat) → (p : Pack) → (hi : Nat) → Prop
  | ⟨none, args, _⟩, callee, loc, lo, p, hi => ∃ items mid packed, args.LaidOut lo items mid ∧
      m.GivesAt mid packed ⟨.concat, items.map Lowered.id, [], [.pack], loc⟩ ∧
      m.GivesAt (mid + 1) p.id ⟨.call, [callee.id, packed], [], [.pack], loc⟩ ∧ hi = mid + 2
  | ⟨some _, _, _⟩, _, _, _, _, _ => False

def Args.LaidOut : Args → (lo : Nat) → (items : List Lowered) → (hi : Nat) → Prop
  | .list es, lo, items, hi => expsLaidOut es lo items hi
  | .table e, lo, items, hi | .str e, lo, items, hi => ∃ item mid v, items = [.value v] ∧ e.LaidOut lo item mid ∧
      m.Adjusts (source.startLoc e.range) mid item v hi

end

/-- The cells of an assignment come first, then its values, and then the operations that bring them together. -/
def Stat.LaidOut : Stat → (lo hi : Nat) → Prop
  | ⟨.assign targets values, range⟩, lo, hi => ∃ cells mid items first packed unpacked,
      varsLaidOut source m targets lo cells mid ∧ expsLaidOut source m values mid items first ∧
      m.Assigns first (cells.map Ref.id) (items.map Lowered.id) packed unpacked (source.startLoc range) ∧
      hi = first + 2 + cells.length
  | ⟨.call p, range⟩, lo, hi => ∃ item, p.LaidOut source m range lo item hi
  | _, _, _ => False

def statsLaidOut : List Stat → (lo hi : Nat) → Prop
  | [], lo, hi => hi = lo
  | stat :: rest, lo, hi => ∃ mid, stat.LaidOut source m lo mid ∧ statsLaidOut rest mid hi

/-- The operations of `main` are those of the statements, one after the other, and a return. -/
def Chunk.LaidOut (chunk : Chunk) : Prop :=
  ∃ n, statsLaidOut source m chunk.block.stats 0 n ∧ m.ops.size = n + 1 ∧
    m.op? ⟨n⟩ = some ⟨.ret, ⟨0⟩, [], [], [], source.endLoc chunk.block.range⟩

end LaidOut
end Syntax

namespace Frame
open LuaLowering.Module (Stable)
open Lowering Syntax

/-- The scope knows the cells of the module, in their order. -/
structure Traced (f : Frame) (s : LowerState) : Prop where
  main : f.site.block = ⟨0⟩
  vars : s.module.vars s.module.ops.size = s.scope.cells.map fun (name, _) => some (.str name)
  cells : ∀ name cell, s.scope.lookup name = some cell → s.module.IsCell name cell

theorem Traced.append {f : Frame} {s : LowerState} (traced : f.Traced s) {d : Draft} (other : d.kind ≠ .getOrAlloc)
    (log : Array Event) : f.Traced ⟨s.module.append ⟨0⟩ d, s.scope, log⟩ where
  main := traced.main
  vars := by
    rw [Module.vars_append, traced.vars, if_neg other, List.append_nil]
  cells name cell found := Module.stable_isCell name cell _ _ _ (traced.cells name cell found)

/-- A successful step appends operations, and `R` relates the position of the first of them, the result of the step
and the position after the last of them, in whatever the module grows into. -/
def Lays {α : Type} (f : Frame) (x : Lowering α) (R : Module → Nat → α → Nat → Prop) : Prop :=
  ∀ s a s', f.Traced s → x s = .ok a s' → f.Traced s' ∧
    (∃ drafts, s'.module = s.module.appendAll ⟨0⟩ drafts) ∧
    ∀ drafts, R (s'.module.appendAll ⟨0⟩ drafts) s.module.ops.size a s'.module.ops.size

namespace Lays
variable {α β : Type} {f : Frame} {R R' : Module → Nat → α → Nat → Prop}

theorem pure (a : α) : f.Lays (Pure.pure a) fun _ lo b hi => b = a ∧ hi = lo := by
  intro s b s' traced success
  cases success
  exact ⟨traced, ⟨[], rfl⟩, fun _ => ⟨rfl, rfl⟩⟩

theorem throw (e : LowerError) : f.Lays (MonadExcept.throw e) R := by
  intro s a s' _ success
  cases success

theorem bind_throw {x : Lowering β} (e : β → LowerError) : f.Lays (x >>= fun b => MonadExcept.throw (e b)) R := by
  intro s a s' _ success
  obtain ⟨b, t, -, never⟩ := bind_ok success
  cases never

theorem note (e : Event) : f.Lays (Lowering.note e) fun _ lo _ hi => hi = lo := by
  intro s _ s' traced success
  cases success
  exact ⟨⟨traced.main, traced.vars, traced.cells⟩, ⟨[], rfl⟩, fun _ => rfl⟩

theorem bind {T : α → Module → Nat → β → Nat → Prop} {x : Lowering α} {g : α → Lowering β} (first : f.Lays x R)
    (second : ∀ a, f.Lays (g a) (T a)) :
    f.Lays (x >>= g) fun m lo b hi => ∃ a mid, R m lo a mid ∧ T a m mid b hi := by
  intro s b s'' traced success
  obtain ⟨a, s', run, rest⟩ := bind_ok success
  obtain ⟨traced', ⟨ds, grown⟩, holds⟩ := first s a s' traced run
  obtain ⟨traced'', ⟨es, grown'⟩, holds'⟩ := second a s' b s'' traced' rest
  -- to the first step, the operations of the second are some of those that the module grows by
  refine ⟨traced'', ⟨ds ++ es, ?_⟩, fun drafts => ⟨a, _, ?_, holds' drafts⟩⟩
  · rw [Module.appendAll_append, ← grown, grown']
  · rw [grown', ← Module.appendAll_append]
    exact holds (es ++ drafts)

theorem post {x : Lowering α} (lays : f.Lays x R) (weaker : ∀ m lo a hi, R m lo a hi → R' m lo a hi) :
    f.Lays x R' := by
  intro s a s' traced success
  obtain ⟨traced', grown, holds⟩ := lays s a s' traced success
  exact ⟨traced', grown, fun drafts => weaker _ _ _ _ (holds drafts)⟩

/-- What is known of successful runs may take the place of what is related. -/
theorem of_ok {x : Lowering α} (lays : f.Lays x R) (success : ∀ s a s', f.Traced s → x s = .ok a s' →
    ∀ drafts, R' (s'.module.appendAll ⟨0⟩ drafts) s.module.ops.size a s'.module.ops.size) : f.Lays x R' := by
  intro s a s' traced run
  obtain ⟨traced', grown, -⟩ := lays s a s' traced run
  exact ⟨traced', grown, success s a s' traced run⟩

theorem emit {kind : OpKind} {loc : Location} {d : Draft} {step : Build α} {handle : Module → α}
    (places : f.site.Places d step handle) (other : d.kind ≠ .getOrAlloc)
    (leaves : ∀ m drafts, R ((m.append ⟨0⟩ d).appendAll ⟨0⟩ drafts) m.ops.size (handle m) (m.ops.size + 1)) :
    f.Lays (Lowering.emit kind loc step) R := by
  rintro s a ⟨m', scope', log'⟩ traced success
  obtain ⟨rfl, rfl, rfl⟩ := emit_ok traced.main places success
  refine ⟨traced.append other log', ⟨[d], rfl⟩, fun drafts => ?_⟩
  rw [Module.size_ops_append]
  exact leaves s.module drafts

/-- An operation with one result. -/
theorem emit_one {kind : OpKind} {loc : Location} {d : Draft} {step : Build α} {g : ValueId → α}
    (places : f.site.Places d step fun m => g ⟨m.values.size⟩) (other : d.kind ≠ .getOrAlloc) {type : ValueType}
    (one : d.results = [type]) :
    f.Lays (Lowering.emit kind loc step) fun m lo a hi => ∃ v, a = g v ∧ m.GivesAt lo v d ∧ hi = lo + 1 :=
  emit places other fun m drafts =>
    ⟨_, rfl, (Module.stable_givesAt _ _ _).appendAll ⟨0⟩ drafts (m.givesAt_append one), rfl⟩

end Lays

theorem Traced.mem_vars_iff {f : Frame} {s : LowerState} (traced : f.Traced s) (name : String) :
    some (.str name) ∈ s.module.vars s.module.ops.size ↔ s.scope.lookup name ≠ none := by
  rw [traced.vars, Scope.lookup, Ne, List.lookup_eq_none_iff]
  simp

/-- A name without a cell gets one, and the scope knows it. -/
theorem Traced.declare {f : Frame} {s : LowerState} (traced : f.Traced s) (name : String) (loc : Location)
    (log : Array Event) :
    f.Traced ⟨s.module.append ⟨0⟩ ⟨.getOrAlloc, [], [("var", .str name)], [.ref], loc⟩,
      s.scope.declare name ⟨⟨s.module.values.size⟩⟩, log⟩ where
  main := traced.main
  vars := by
    rw [Module.vars_append, traced.vars, if_pos rfl]
    simp [Scope.declare]
  cells name' cell found := by
    rcases Scope.lookup_declare_eq_some found with old | ⟨rfl, rfl⟩
    · exact Module.stable_isCell name' cell _ _ _ (traced.cells name' cell old)
    · exact ⟨loc, s.module.gives_append ⟨0⟩ rfl⟩

theorem resolve_lays (f : Frame) (name : String) (loc : Location) :
    f.Lays (f.resolve name loc) fun m lo cell hi => m.Refers name loc lo cell hi := by
  intro s cell s' traced success
  rw [resolve_run] at success
  cases known : s.scope.lookup name with
  | some bound =>
    rw [known] at success
    cases success
    have listed : some (.str name) ∈ s.module.vars s.module.ops.size := (traced.mem_vars_iff name).mpr (by simp [known])
    have refers : s.module.Refers name loc s.module.ops.size cell s.module.ops.size :=
      .again listed (traced.cells name cell known)
    exact ⟨traced, ⟨[], rfl⟩, fun drafts => Module.stable_refers.appendAll ⟨0⟩ drafts refers⟩
  | none =>
    rw [known] at success
    cases made : f.site.getOrAlloc name loc s.module with
    | error e =>
      rw [made] at success
      cases success
    | ok pair =>
      obtain ⟨given, m'⟩ := pair
      rw [made] at success
      cases success
      obtain ⟨-, -, -, rfl, rfl⟩ := ((f.site.places_getOrAlloc loc name).eq_ok_iff _ _ _).mp made
      rw [traced.main]
      have fresh : some (.str name) ∉ s.module.vars s.module.ops.size := by simp [traced.mem_vars_iff, known]
      rw [← Module.vars_append_of_le (Nat.le_refl _) ⟨0⟩ ⟨.getOrAlloc, [], [("var", .str name)], [.ref], loc⟩] at fresh
      have refers := Module.Refers.first fresh (s.module.givesAt_append rfl)
      refine ⟨traced.declare name loc _, ⟨[_], rfl⟩, fun drafts => ?_⟩
      rw [Module.size_ops_append]
      exact Module.stable_refers.appendAll ⟨0⟩ drafts refers

theorem pack_lays (f : Frame) (items : List Lowered) (loc : Location) :
    f.Lays (f.pack items loc) fun m lo p hi =>
      m.GivesAt lo p.id ⟨.concat, items.map Lowered.id, [], [.pack], loc⟩ ∧ hi = lo + 1 := by
  unfold pack
  split
  · exact .throw _
  · refine (Lays.emit_one (f.site.places_concat loc _) (by simp) rfl).post ?_
    rintro m lo _ hi ⟨v, rfl, gives, rfl⟩
    exact ⟨gives, rfl⟩

theorem unpack_lays {f : Frame} {p : Pack} {count : Nat} {loc : Location} {R : Module → Nat → List Ref → Nat → Prop}
    (leaves : ∀ (m : Module) drafts,
      R ((m.append ⟨0⟩ ⟨.unpack, [p.id], [], List.replicate count .ref, loc⟩).appendAll ⟨0⟩ drafts) m.ops.size
        ((m.resultIds (List.replicate count .ref)).map Ref.mk) (m.ops.size + 1)) :
    f.Lays (f.unpack p count loc) R := by
  refine (Lays.bind (T := fun values _ lo result hi => result = values ∧ hi = lo)
    (Lays.emit (f.site.places_unpack loc p count) (by simp) leaves) fun values => ?_).post ?_
  · split
    · exact .pure values
    · exact .throw _
  · rintro m lo _ _ ⟨values, hi, holds, rfl, rfl⟩
    exact holds

theorem adjustToOne_lays (f : Frame) (item : Lowered) (loc : Location) :
    f.Lays (f.adjustToOne item loc) fun m lo v hi => m.Adjusts loc lo item v hi := by
  cases item with
  | value v =>
    refine (Lays.pure v).post ?_
    rintro m lo _ _ ⟨rfl, rfl⟩
    exact .value _
  | pack p =>
    have one : f.Lays (f.unpack p 1 loc) fun m lo values hi => ∃ v, values = [v] ∧
        m.GivesAt lo v.id ⟨.unpack, [p.id], [], [.ref], loc⟩ ∧ hi = lo + 1 :=
      unpack_lays fun m drafts =>
        ⟨_, rfl, (Module.stable_givesAt _ _ _).appendAll ⟨0⟩ drafts (m.givesAt_append rfl), rfl⟩
    refine (Lays.bind (T := fun values _ lo v hi => values.head? = some v ∧ hi = lo) one fun values => ?_).post ?_
    · cases values with
      | nil => exact .throw _
      | cons v rest =>
        refine (Lays.pure v).post ?_
        rintro m lo _ _ ⟨rfl, rfl⟩
        exact ⟨rfl, rfl⟩
    · rintro m lo v _ ⟨_, _, ⟨w, rfl, gives, rfl⟩, same, rfl⟩
      cases same
      exact .pack p v gives

theorem lowerVar_lays (f : Frame) (v : Var) :
    f.Lays (f.lowerVar v) fun m lo cell hi => v.LaidOut f.source m lo cell hi := by
  unfold lowerVar
  cases bare : v.bareName? with
  | none => exact .throw _
  | some name => exact (resolve_lays f name _).post fun m lo cell hi refers => ⟨name, bare, refers⟩

theorem lowerVars_lays (f : Frame) (targets : List Var) :
    f.Lays (targets.mapM f.lowerVar) fun m lo cells hi => varsLaidOut f.source m targets lo cells hi := by
  induction targets with
  | nil => exact (Lays.pure []).post fun _ _ _ _ ended => ended
  | cons v vs ih =>
    rw [List.mapM_cons]
    refine (Lays.bind (lowerVar_lays f v) fun cell => Lays.bind ih fun rest => Lays.pure (cell :: rest)).post ?_
    rintro m lo _ _ ⟨cell, mid, first, rest, hi, others, rfl, rfl⟩
    exact ⟨cell, rest, mid, rfl, first, others⟩

theorem lowerNumeral_lays (f : Frame) (n : Numeral) (range : Option TextRange) :
    f.Lays (f.lowerNumeral n range) fun m lo item hi => Exp.LaidOut f.source m ⟨.number n, range⟩ lo item hi := by
  unfold lowerNumeral
  split
  · rename_i c found
    refine (Lays.bind (Lays.emit_one (f.site.places_number _ _) (by simp) rfl) fun v => Lays.pure _).post ?_
    rintro m lo _ _ ⟨_, _, ⟨v, rfl, gives, rfl⟩, rfl, rfl⟩
    rw [Exp.LaidOut]
    exact ⟨c, ⟨v⟩, found, rfl, gives, rfl⟩
  · exact .throw _
  · exact .throw _

mutual

theorem lowerExp_lays (f : Frame) : ∀ e : Exp,
    f.Lays (f.lowerExp e) fun m lo item hi => e.LaidOut f.source m lo item hi
  | ⟨.nil, range⟩ => by
    rw [lowerExp]
    refine (Lays.bind (Lays.emit_one (f.site.places_nil _) (by simp) rfl) fun v => Lays.pure _).post ?_
    rintro m lo _ _ ⟨_, _, ⟨v, rfl, gives, rfl⟩, rfl, rfl⟩
    rw [Exp.LaidOut]
    exact ⟨⟨v⟩, rfl, gives, rfl⟩
  | ⟨.number n, range⟩ => by
    rw [lowerExp]
    exact lowerNumeral_lays f n range
  | ⟨.prefixExp p, range⟩ => by
    rw [lowerExp]
    simp only [Exp.LaidOut]
    exact lowerPrefixExp_lays f p range
  | ⟨.false, _⟩ | ⟨.true, _⟩ | ⟨.varArgs, _⟩ | ⟨.str _, _⟩ | ⟨.function _, _⟩ | ⟨.table _, _⟩
  | ⟨.unary _ _, _⟩ | ⟨.binary _ _ _, _⟩ => by
    simp only [lowerExp]
    exact .throw _

theorem lowerExps_lays (f : Frame) : ∀ es : List Exp,
    f.Lays (f.lowerExps es) fun m lo items hi => expsLaidOut f.source m es lo items hi
  | [] => by
    rw [lowerExps]
    simp only [expsLaidOut]
    exact .pure []
  | e :: es => by
    rw [lowerExps]
    refine (Lays.bind (T := fun item m lo items hi => ∃ rest, items = item :: rest ∧ (item.isPack = true → es = []) ∧
      expsLaidOut f.source m es lo rest hi) (lowerExp_lays f e) fun item => ?_).post ?_
    · split
      · exact .throw _
      · rename_i last
        refine (Lays.bind (lowerExps_lays f es) fun items => Lays.pure _).post ?_
        rintro m lo _ _ ⟨items, hi, others, rfl, rfl⟩
        exact ⟨items, rfl, by simpa using last, others⟩
    · rintro m lo _ hi ⟨item, mid, first, items, rfl, last, others⟩
      rw [expsLaidOut]
      exact ⟨item, items, mid, rfl, last, first, others⟩

theorem lowerPrefixExp_lays (f : Frame) : ∀ (p : PrefixExp) (range : Option TextRange),
    f.Lays (f.lowerPrefixExp p range) fun m lo item hi => p.LaidOut f.source m range lo item hi
  | ⟨head, []⟩, range => by
    rw [lowerPrefixExp]
    refine (Lays.bind (lowerHead_lays f head) fun callee => Lays.pure _).post ?_
    rintro m lo _ _ ⟨v, hi, laid, rfl, rfl⟩
    rw [PrefixExp.LaidOut]
    exact ⟨v, rfl, laid⟩
  | ⟨head, [call]⟩, range => by
    rw [lowerPrefixExp]
    refine (Lays.bind (lowerHead_lays f head) fun callee =>
      Lays.bind (lowerCall_lays f callee call _) fun p => Lays.pure _).post ?_
    rintro m lo _ _ ⟨callee, mid, laid, p, hi, called, rfl, rfl⟩
    rw [PrefixExp.LaidOut]
    exact ⟨callee, mid, p, rfl, laid, called⟩
  | ⟨head, _ :: second :: _⟩, range => by
    rw [lowerPrefixExp]
    exact .bind_throw _

theorem lowerHead_lays (f : Frame) : ∀ head : Head,
    f.Lays (f.lowerHead head) fun m lo v hi => head.LaidOut f.source m lo v hi
  | .var v => by
    rw [lowerHead]
    simp only [Head.LaidOut]
    exact lowerVar_lays f v
  | .paren e => by
    rw [lowerHead]
    refine (Lays.bind (lowerExp_lays f e) fun item => adjustToOne_lays f item _).post ?_
    rintro m lo v hi ⟨item, mid, laid, adjusted⟩
    rw [Head.LaidOut]
    exact ⟨item, mid, laid, adjusted⟩

theorem lowerCall_lays (f : Frame) (callee : Ref) : ∀ (call : Call) (loc : Location),
    f.Lays (f.lowerCall callee call loc) fun m lo p hi => call.LaidOut f.source m callee loc lo p hi
  | ⟨some _, _, range⟩, loc => by
    rw [lowerCall]
    exact .throw _
  | ⟨none, args, _⟩, loc => by
    rw [lowerCall]
    refine (Lays.bind (lowerArgs_lays f args) fun items => Lays.bind (pack_lays f items loc) fun packed =>
      Lays.emit_one (f.site.places_call loc callee packed) (by simp) rfl).post ?_
    rintro m lo _ _ ⟨items, mid, laid, packed, _, ⟨concat, rfl⟩, v, rfl, call, rfl⟩
    rw [Call.LaidOut]
    exact ⟨items, mid, packed.id, laid, concat, call, rfl⟩

theorem lowerArgs_lays (f : Frame) : ∀ args : Args,
    f.Lays (f.lowerArgs args) fun m lo items hi => args.LaidOut f.source m lo items hi
  | .list es => by
    rw [lowerArgs]
    simp only [Args.LaidOut]
    exact lowerExps_lays f es
  | .table e | .str e => by
    rw [lowerArgs]
    refine (Lays.bind (lowerExp_lays f e) fun item =>
      Lays.bind (adjustToOne_lays f item _) fun v => Lays.pure _).post ?_
    rintro m lo _ _ ⟨item, mid, laid, v, hi, adjusted, rfl, rfl⟩
    rw [Args.LaidOut]
    exact ⟨item, mid, v, rfl, laid, adjusted⟩

end

theorem assignAll_lays (f : Frame) (loc : Location) (pairs : List (Ref × Ref)) :
    f.Lays (pairs.forM fun (cell, value) => emit .assign loc (f.site.assign cell value loc)) fun _ _ _ _ => True := by
  induction pairs with
  | nil => exact (Lays.pure ()).post fun _ _ _ _ _ => trivial
  | cons pair rest ih =>
    have first : f.Lays (emit .assign loc (f.site.assign pair.1 pair.2 loc)) fun _ _ _ _ => True :=
      .emit (f.site.places_assign loc pair.1 pair.2) (by simp) fun _ _ => trivial
    exact (Lays.bind first fun _ => ih).post fun _ _ _ _ _ => trivial

theorem store_lays (f : Frame) (cells : List Ref) (items : List Lowered) (loc : Location) :
    f.Lays (f.store cells items loc) fun m lo _ hi => ∃ packed unpacked,
      m.Assigns lo (cells.map Ref.id) (items.map Lowered.id) packed unpacked loc ∧ hi = lo + 2 + cells.length := by
  have values (packed : Pack) : f.Lays (f.unpack packed cells.length loc) fun _ _ _ _ => True :=
    unpack_lays fun _ _ => trivial
  refine (Lays.bind (pack_lays f items loc) fun packed => Lays.bind (values packed) fun unpacked =>
    assignAll_lays f loc (cells.zip unpacked)).of_ok fun s _ s' traced success drafts => ?_
  obtain ⟨size, packed, unpacked, assigns⟩ := store_ok traced.main success
  exact ⟨packed, unpacked, Module.Assigns.stable.appendAll ⟨0⟩ drafts assigns, size⟩

theorem lowerAssign_lays (f : Frame) (targets : List Var) (values : List Exp) (range : Option TextRange) :
    f.Lays (f.lowerAssign targets values (f.startLoc range)) fun m lo _ hi =>
      Stat.LaidOut f.source m ⟨.assign targets values, range⟩ lo hi := by
  rw [lowerAssign_eq]
  refine (Lays.bind (lowerVars_lays f targets) fun cells => Lays.bind (T := fun items m lo _ hi => ∃ packed unpacked,
    m.Assigns lo (cells.map Ref.id) (items.map Lowered.id) packed unpacked (f.startLoc range) ∧
    hi = lo + 2 + cells.length) (lowerExps_lays f values) fun items => ?_).post ?_
  · split
    · exact store_lays f cells items _
    · refine (Lays.bind (Lays.note _) fun _ => store_lays f cells items _).post ?_
      rintro m lo _ hi ⟨_, _, rfl, assigned⟩
      exact assigned
  · rintro m lo _ hi ⟨cells, mid, ofTargets, items, first, ofValues, packed, unpacked, assigns, ended⟩
    exact ⟨cells, mid, items, first, packed, unpacked, ofTargets, ofValues, assigns, ended⟩

theorem lowerStat_lays (f : Frame) (stat : Stat) :
    f.Lays (f.lowerStat stat) fun m lo _ hi => stat.LaidOut f.source m lo hi := by
  obtain ⟨kind, range⟩ := stat
  cases kind with
  | assign targets values =>
    refine (Lays.bind (Lays.note _) fun _ => lowerAssign_lays f targets values range).post ?_
    rintro m lo _ hi ⟨_, _, rfl, laid⟩
    exact laid
  | call p =>
    refine (Lays.bind (Lays.note _) fun _ => Lays.bind (lowerPrefixExp_lays f p range) fun _ => Lays.pure ()).post ?_
    rintro m lo _ _ ⟨_, _, rfl, item, hi, laid, -, rfl⟩
    exact ⟨item, laid⟩
  | _ => exact .bind_throw _

theorem lowerStats_lays (f : Frame) (stats : List Stat) :
    f.Lays (stats.forM f.lowerStat) fun m lo _ hi => statsLaidOut f.source m stats lo hi := by
  induction stats with
  | nil => exact (Lays.pure ()).post fun _ _ _ _ ended => ended.2
  | cons stat rest ih =>
    refine (Lays.bind (lowerStat_lays f stat) fun _ => ih).post ?_
    rintro m lo _ hi ⟨_, mid, first, others⟩
    exact ⟨mid, first, others⟩

theorem traced_ofMain (source : Source) (c : Catalogue) (loc : Location) :
    (ofMain source c).Traced (.ofMain loc) where
  main := rfl
  vars := rfl
  cells name cell found := by cases found

end Frame

namespace Syntax.Chunk
variable {chunk : Chunk} {source : Source} {c : Catalogue} {m : Module}

/-- The module of a chunk is laid out by the tree of the chunk. -/
theorem laidOut_of_lower (lowered : chunk.lower source c = .ok m) : chunk.LaidOut source m := by
  obtain ⟨s, run, rfl⟩ := run_of_lower lowered
  have start := Frame.traced_ofMain source c (source.startLoc chunk.range)
  obtain ⟨-, -, laid⟩ := Frame.lowerStats_lays _ chunk.block.stats _ _ s start run
  refine ⟨s.module.ops.size, laid [Frame.retDraft (source.endLoc chunk.block.range)], ?_, ?_⟩
  · exact s.module.size_ops_append ..
  · simp [Module.op?_append, Module.resultIds, Frame.retDraft]

/-- The module of a chunk grows out of an empty `main`. -/
theorem grown_of_lower (lowered : chunk.lower source c = .ok m) :
    ∃ drafts, m = (LowerState.ofMain (source.startLoc chunk.range)).module.appendAll ⟨0⟩ drafts := by
  obtain ⟨s, run, rfl⟩ := run_of_lower lowered
  have start := Frame.traced_ofMain source c (source.startLoc chunk.range)
  obtain ⟨-, ⟨drafts, grown⟩, -⟩ := Frame.lowerStats_lays _ chunk.block.stats _ _ s start run
  refine ⟨drafts ++ [Frame.retDraft (source.endLoc chunk.block.range)], ?_⟩
  rw [Module.appendAll_append, ← grown]
  rfl

/-- The variables of the module of a chunk have cells. -/
theorem isCell_of_lower (lowered : chunk.lower source c = .ok m) {name : String}
    (listed : some (.str name) ∈ m.vars m.ops.size) : ∃ cell, m.IsCell name cell := by
  obtain ⟨s, run, rfl⟩ := run_of_lower lowered
  have start := Frame.traced_ofMain source c (source.startLoc chunk.range)
  obtain ⟨traced, -, -⟩ := Frame.lowerStats_lays _ chunk.block.stats _ _ s start run
  have other : (Frame.retDraft (source.endLoc chunk.block.range)).kind ≠ .getOrAlloc := by simp [Frame.retDraft]
  rw [Module.vars_append, if_neg other, List.append_nil, traced.mem_vars_iff] at listed
  obtain ⟨cell, known⟩ := Option.ne_none_iff_exists'.mp listed
  exact ⟨cell, Module.stable_isCell name cell _ _ _ (traced.cells name cell known)⟩

end Syntax.Chunk
end LuaLowering
