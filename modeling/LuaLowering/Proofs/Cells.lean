import LuaLowering.Proofs.Layout
import Mathlib.Data.List.Nodup
/-!
# Cells of names

`Chunk.names` lists the references to names in a chunk, in the order in which they are lowered: the targets of an
assignment before its values, a callee before its arguments, and all of them from left to right. In the module of a
chunk a cell is placed for each name where it is first referred to, and for nothing else; all its references go to
that cell (`lower_cells`).
-/
namespace LuaLowering

namespace Syntax

mutual

/-- The references in an expression. What is not lowered counts as having none. -/
def Exp.names : Exp → List String
  | ⟨.prefixExp p, _⟩ => p.names
  | _ => []

def expsNames : List Exp → List String
  | [] => []
  | e :: es => e.names ++ expsNames es

def PrefixExp.names : PrefixExp → List String
  | ⟨head, calls⟩ => head.names ++ callsNames calls

def Head.names : Head → List String
  | .var v => v.bareName?.toList
  | .paren e => e.names

def callsNames : List Call → List String
  | [] => []
  | call :: calls => call.names ++ callsNames calls

def Call.names : Call → List String
  | ⟨_, args, _⟩ => args.names

def Args.names : Args → List String
  | .list es => expsNames es
  | .table e => e.names
  | .str e => e.names

end

def Stat.names (stat : Stat) : List String :=
  match stat.kind with
  | .assign targets values => targets.flatMap (·.bareName?.toList) ++ expsNames values
  | .call p => p.names
  | _ => []

/-- The references in a chunk, in the order in which they are lowered. -/
def Chunk.names (chunk : Chunk) : List String := chunk.block.stats.flatMap Stat.names

end Syntax

/-! ## First references -/

/-- The names after one more reference. -/
def declare (known : List String) (name : String) : List String := if name ∈ known then known else known ++ [name]

-- `eraseDups` keeps what it has seen in reverse order
theorem foldl_declare_eq_loop (names known : List String) :
    names.foldl declare known.reverse = List.eraseDupsBy.loop (· == ·) names known := by
  induction names generalizing known with
  | nil => rw [List.eraseDupsBy.loop, List.foldl_nil]
  | cons name rest ih =>
    rw [List.foldl_cons, List.eraseDupsBy.loop, declare, List.any_beq]
    by_cases listed : name ∈ known
    · simp [listed, ih]
    · simp [listed, ← ih]

/-- What is declared are the names, each where it occurs first. -/
theorem foldl_declare (names : List String) : names.foldl declare [] = names.eraseDups :=
  foldl_declare_eq_loop names []

theorem nodup_foldl_declare {known : List String} (distinct : known.Nodup) (names : List String) :
    (names.foldl declare known).Nodup := by
  induction names generalizing known with
  | nil => exact distinct
  | cons name rest ih =>
    rw [List.foldl_cons]
    refine ih ?_
    rw [declare]
    split
    · exact distinct
    · rename_i fresh
      exact distinct.append (List.nodup_singleton name) (by simpa using fresh)

namespace Module
variable {m : Module}

/-- Between two positions, the variables grow by the names that are new among those that are referred to. -/
def Introduces (m : Module) (lo : Nat) (names : List String) (hi : Nat) : Prop :=
  ∀ known : List String, m.vars lo = known.map (fun name => some (.str name)) →
    m.vars hi = (names.foldl declare known).map fun name => some (.str name)

theorem introduces_nil {lo hi : Nat} (same : m.vars hi = m.vars lo) : m.Introduces lo [] hi :=
  fun _ before => same.trans before

theorem Introduces.trans {lo mid hi : Nat} {names others : List String} (first : m.Introduces lo names mid)
    (second : m.Introduces mid others hi) : m.Introduces lo (names ++ others) hi := by
  intro known before
  rw [List.foldl_append]
  exact second _ (first known before)

theorem Introduces.trans_nil {lo mid hi : Nat} {names : List String} (first : m.Introduces lo names mid)
    (second : m.Introduces mid [] hi) : m.Introduces lo names hi :=
  fun known before => second _ (first known before)

theorem vars_succ_of_ne {n : Nat} {op : Operation} (found : m.op? ⟨n⟩ = some op) (other : op.kind ≠ .getOrAlloc) :
    m.vars (n + 1) = m.vars n := by
  rw [vars_succ found, if_neg other, List.append_nil]

theorem GivesAt.introduces {i : Nat} {v : ValueId} {d : Draft} (gives : m.GivesAt i v d)
    (other : d.kind ≠ .getOrAlloc) : m.Introduces i [] (i + 1) := by
  obtain ⟨-, -, -, found⟩ := gives
  exact introduces_nil (vars_succ_of_ne found other)

theorem Refers.introduces {name : String} {loc : Location} {lo hi : Nat} {cell : Ref}
    (refers : m.Refers name loc lo cell hi) : m.Introduces lo [name] hi := by
  intro known before
  rw [List.foldl_cons, List.foldl_nil, declare]
  cases refers with
  | again placed _ =>
    have listed : name ∈ known := by simpa [before] using placed
    rw [if_pos listed, before]
  | first fresh gives =>
    have unlisted : name ∉ known := by simpa [before] using fresh
    obtain ⟨-, -, -, found⟩ := gives
    rw [if_neg unlisted, vars_succ found, before, if_pos rfl]
    simp [Operation.attribute?]

theorem Adjusts.introduces {loc : Location} {lo hi : Nat} {item : Lowered} {v : Ref}
    (adjusts : m.Adjusts loc lo item v hi) : m.Introduces lo [] hi := by
  cases adjusts with
  | value => exact introduces_nil rfl
  | pack p _ gives => exact gives.introduces (by simp)

theorem Assigns.introduces {first : Nat} {cells items : List ValueId} {packed : ValueId} {unpacked : List ValueId}
    {loc : Location} (assigns : m.Assigns first cells items packed unpacked loc) :
    m.Introduces first [] (first + 2 + cells.length) := by
  have assigned (n : Nat) (bound : n ≤ cells.length) : m.vars (first + 2 + n) = m.vars (first + 2) := by
    induction n with
    | zero => rfl
    | succ n ih =>
      have counted : n < unpacked.length := assigns.count ▸ bound
      have placed := assigns.assign n _ _ (List.getElem?_eq_getElem bound) (List.getElem?_eq_getElem counted)
      exact (vars_succ_of_ne placed (by simp)).trans (ih (Nat.le_of_lt bound))
  refine introduces_nil ?_
  rw [assigned _ (Nat.le_refl _), vars_succ_of_ne assigns.unpack (by simp), vars_succ_of_ne assigns.concat (by simp)]

end Module

namespace Syntax
variable {source : Source} {m : Module}

theorem Var.LaidOut.introduces {v : Var} {lo hi : Nat} {cell : Ref} (laid : v.LaidOut source m lo cell hi) :
    m.Introduces lo v.bareName?.toList hi := by
  obtain ⟨name, bare, refers⟩ := laid
  rw [bare]
  exact refers.introduces

theorem varsLaidOut_introduces {vs : List Var} {lo hi : Nat} {cells : List Ref}
    (laid : varsLaidOut source m vs lo cells hi) : m.Introduces lo (vs.flatMap (·.bareName?.toList)) hi := by
  induction vs generalizing lo cells with
  | nil => exact Module.introduces_nil (congrArg m.vars laid.2)
  | cons v vs ih =>
    obtain ⟨cell, rest, mid, -, first, others⟩ := laid
    rw [List.flatMap_cons]
    exact first.introduces.trans (ih others)

mutual

theorem Exp.LaidOut.introduces : ∀ {e : Exp} {lo : Nat} {item : Lowered} {hi : Nat},
    e.LaidOut source m lo item hi → m.Introduces lo e.names hi
  | ⟨.nil, _⟩, _, _, _, laid => by
    rw [Exp.LaidOut] at laid
    obtain ⟨v, -, gives, rfl⟩ := laid
    simp only [Exp.names]
    exact gives.introduces (by simp)
  | ⟨.number n, _⟩, _, _, _, laid => by
    rw [Exp.LaidOut] at laid
    obtain ⟨c, v, -, -, gives, rfl⟩ := laid
    simp only [Exp.names]
    exact gives.introduces (by simp)
  | ⟨.prefixExp p, _⟩, _, _, _, laid => by
    rw [Exp.LaidOut] at laid
    rw [Exp.names]
    exact laid.introduces

theorem expsLaidOut_introduces : ∀ {es : List Exp} {lo : Nat} {items : List Lowered} {hi : Nat},
    expsLaidOut source m es lo items hi → m.Introduces lo (expsNames es) hi
  | [], _, _, _, laid => by
    rw [expsLaidOut] at laid
    rw [expsNames]
    exact Module.introduces_nil (congrArg m.vars laid.2)
  | e :: es, _, _, _, laid => by
    rw [expsLaidOut] at laid
    obtain ⟨item, rest, mid, -, -, first, others⟩ := laid
    rw [expsNames]
    exact first.introduces.trans (expsLaidOut_introduces others)

theorem PrefixExp.LaidOut.introduces : ∀ {p : PrefixExp} {range : Option TextRange} {lo : Nat} {item : Lowered}
    {hi : Nat}, p.LaidOut source m range lo item hi → m.Introduces lo p.names hi
  | ⟨head, []⟩, _, _, _, _, laid => by
    rw [PrefixExp.LaidOut] at laid
    obtain ⟨v, -, laid⟩ := laid
    rw [PrefixExp.names, callsNames, List.append_nil]
    exact laid.introduces
  | ⟨head, [call]⟩, _, _, _, _, laid => by
    rw [PrefixExp.LaidOut] at laid
    obtain ⟨callee, mid, p, -, laid, called⟩ := laid
    rw [PrefixExp.names, callsNames, callsNames, List.append_nil]
    exact laid.introduces.trans called.introduces

theorem Head.LaidOut.introduces : ∀ {head : Head} {lo : Nat} {v : Ref} {hi : Nat},
    head.LaidOut source m lo v hi → m.Introduces lo head.names hi
  | .var v, _, _, _, laid => by
    rw [Head.LaidOut] at laid
    rw [Head.names]
    exact laid.introduces
  | .paren e, _, _, _, laid => by
    rw [Head.LaidOut] at laid
    obtain ⟨item, mid, laid, adjusts⟩ := laid
    rw [Head.names]
    exact laid.introduces.trans_nil adjusts.introduces

theorem Call.LaidOut.introduces : ∀ {call : Call} {callee : Ref} {loc : Location} {lo : Nat} {p : Pack} {hi : Nat},
    call.LaidOut source m callee loc lo p hi → m.Introduces lo call.names hi
  | ⟨none, args, _⟩, _, _, _, _, _, laid => by
    rw [Call.LaidOut] at laid
    obtain ⟨items, mid, packed, laid, concat, call, rfl⟩ := laid
    rw [Call.names]
    exact (laid.introduces.trans_nil (concat.introduces (by simp))).trans_nil (call.introduces (by simp))

theorem Args.LaidOut.introduces : ∀ {args : Args} {lo : Nat} {items : List Lowered} {hi : Nat},
    args.LaidOut source m lo items hi → m.Introduces lo args.names hi
  | .list es, _, _, _, laid => by
    rw [Args.LaidOut] at laid
    rw [Args.names]
    exact expsLaidOut_introduces laid
  | .table e, _, _, _, laid | .str e, _, _, _, laid => by
    rw [Args.LaidOut] at laid
    obtain ⟨item, mid, v, -, laid, adjusts⟩ := laid
    rw [Args.names]
    exact laid.introduces.trans_nil adjusts.introduces

end

theorem Stat.LaidOut.introduces {stat : Stat} {lo hi : Nat} (laid : stat.LaidOut source m lo hi) :
    m.Introduces lo stat.names hi := by
  obtain ⟨kind, range⟩ := stat
  cases kind with
  | assign targets values =>
    obtain ⟨cells, mid, items, first, packed, unpacked, ofTargets, ofValues, assigns, rfl⟩ := laid
    have parts := (varsLaidOut_introduces ofTargets).trans (expsLaidOut_introduces ofValues)
    have stored := assigns.introduces
    rw [List.length_map] at stored
    exact parts.trans_nil stored
  | call p =>
    obtain ⟨item, laid⟩ := laid
    exact laid.introduces
  | _ => exact laid.elim

theorem statsLaidOut_introduces {stats : List Stat} {lo hi : Nat} (laid : statsLaidOut source m stats lo hi) :
    m.Introduces lo (stats.flatMap Stat.names) hi := by
  induction stats generalizing lo with
  | nil => exact Module.introduces_nil (congrArg m.vars laid)
  | cons stat rest ih =>
    obtain ⟨mid, first, others⟩ := laid
    rw [List.flatMap_cons]
    exact first.introduces.trans (ih others)

/-- A module that is laid out by a chunk has the names of the chunk as its variables, in the order of their first
references. -/
theorem Chunk.LaidOut.vars_eq {chunk : Chunk} (laid : chunk.LaidOut source m) :
    m.vars m.ops.size = chunk.names.eraseDups.map fun name => some (.str name) := by
  obtain ⟨n, stats, size, ended⟩ := laid
  have before : m.vars 0 = ([] : List String).map fun name => some (.str name) := rfl
  rw [size, Module.vars_succ_of_ne ended (by simp), statsLaidOut_introduces stats [] before, foldl_declare, names]

theorem Chunk.LaidOut.nodup_vars {chunk : Chunk} (laid : chunk.LaidOut source m) : (m.vars m.ops.size).Nodup := by
  rw [laid.vars_eq, ← foldl_declare]
  refine (nodup_foldl_declare List.nodup_nil chunk.names).map fun name other same => ?_
  cases same
  rfl

end Syntax

/-! ## One cell for each name -/

namespace Module
variable {m : Module} {name name' : String} {cell cell' : Ref}

theorem IsCell.op?_eq (isCell : m.IsCell name cell) : ∃ o b loc, m.value? cell.id = some ⟨.ref, .result o 0⟩ ∧
    m.op? o = some ⟨.getOrAlloc, b, [], [("var", .str name)], [cell.id], loc⟩ := by
  obtain ⟨loc, o, b, type, one, value, found⟩ := isCell
  cases one
  exact ⟨o, b, loc, value, found⟩

theorem IsCell.mem_vars (isCell : m.IsCell name cell) : some (.str name) ∈ m.vars m.ops.size := by
  obtain ⟨o, b, loc, -, found⟩ := isCell.op?_eq
  have listed := Array.mem_toList_iff.mpr (Array.mem_of_getElem? found)
  rw [vars, List.take_of_length_le (by simp)]
  exact List.mem_map.mpr ⟨_, List.mem_filter.mpr ⟨listed, by simp⟩, rfl⟩

theorem IsCell.name_eq (isCell : m.IsCell name cell) (isCell' : m.IsCell name' cell) : name = name' := by
  obtain ⟨o, b, loc, value, found⟩ := isCell.op?_eq
  obtain ⟨o', b', loc', value', found'⟩ := isCell'.op?_eq
  rw [value] at value'
  cases value'
  rw [found] at found'
  cases found'
  rfl

/-- Where the variables are distinct, two operations that place cells do so for different names. -/
theorem attribute?_ne_of_nodup (distinct : (m.vars m.ops.size).Nodup) {o o' : OpId} {op op' : Operation}
    (found : m.op? o = some op) (found' : m.op? o' = some op') (places : op.kind = .getOrAlloc)
    (places' : op'.kind = .getOrAlloc) (before : o.index < o'.index) :
    op.attribute? "var" ≠ op'.attribute? "var" := by
  rw [vars, List.take_of_length_le (by simp), List.Nodup, List.pairwise_map, List.pairwise_filter,
    List.pairwise_iff_getElem] at distinct
  obtain ⟨bound, rfl⟩ := Array.getElem?_eq_some_iff.mp found
  obtain ⟨bound', rfl⟩ := Array.getElem?_eq_some_iff.mp found'
  exact distinct o.index o'.index bound bound' before (by simpa using places) (by simpa using places')

theorem IsCell.cell_eq (distinct : (m.vars m.ops.size).Nodup) (isCell : m.IsCell name cell)
    (isCell' : m.IsCell name cell') : cell = cell' := by
  obtain ⟨o, b, loc, -, found⟩ := isCell.op?_eq
  obtain ⟨o', b', loc', -, found'⟩ := isCell'.op?_eq
  rcases Nat.lt_trichotomy o.index o'.index with before | same | after
  · exact (attribute?_ne_of_nodup distinct found found' rfl rfl before rfl).elim
  · have one : o = o' := congrArg OpId.mk same
    rw [one, found'] at found
    simp only [Option.some.injEq, Operation.mk.injEq, List.cons.injEq] at found
    exact (congrArg Ref.mk found.2.2.2.2.1.1).symm
  · exact (attribute?_ne_of_nodup distinct found' found rfl rfl after rfl).elim

end Module

namespace Syntax.Chunk

/-- In the module of a chunk, cells are placed for the names of the chunk and for nothing else, once for each name and
in the order of their first references. A name has one cell, and a cell one name. The module is laid out by the tree,
where every reference to a name goes to its cell. -/
theorem lower_cells {chunk : Chunk} {source : Source} {c : Catalogue} {m : Module}
    (lowered : chunk.lower source c = .ok m) :
    m.vars m.ops.size = chunk.names.eraseDups.map (fun name => some (.str name)) ∧ (m.vars m.ops.size).Nodup ∧
      (∀ name, name ∈ chunk.names ↔ ∃ cell, m.IsCell name cell) ∧
      (∀ name cell name' cell', m.IsCell name cell → m.IsCell name' cell' → (name = name' ↔ cell = cell')) ∧
      chunk.LaidOut source m := by
  have laid := laidOut_of_lower lowered
  have mem_vars_iff (name : String) : some (.str name) ∈ m.vars m.ops.size ↔ name ∈ chunk.names := by
    simp [laid.vars_eq]
  refine ⟨laid.vars_eq, laid.nodup_vars, fun name => ⟨fun listed => ?_, fun ⟨cell, isCell⟩ => ?_⟩,
    fun name cell name' cell' isCell isCell' => ⟨?_, ?_⟩, laid⟩
  · exact isCell_of_lower lowered ((mem_vars_iff name).mpr listed)
  · exact (mem_vars_iff name).mp isCell.mem_vars
  · rintro rfl
    exact isCell.cell_eq laid.nodup_vars isCell'
  · rintro rfl
    exact isCell.name_eq isCell'

/-- The chunk `a, b = b, f(a)`. -/
def exchange : Chunk :=
  ⟨⟨[⟨.assign [named "a", named "b"] [⟨.prefixExp ⟨.var (named "b"), []⟩, none⟩,
    ⟨.prefixExp ⟨.var (named "f"), [⟨none, .list [⟨.prefixExp ⟨.var (named "a"), []⟩, none⟩], none⟩]⟩, none⟩], none⟩],
    none, none⟩, none⟩

/-- Five references to three names are laid out over three cells. -/
theorem lower_cells_exchange : exchange.names = ["a", "b", "b", "f", "a"] ∧
    ∃ m : Module, exchange.lower ⟨"main.lua", ""⟩ .full = .ok m ∧
      m.vars m.ops.size = [some (.str "a"), some (.str "b"), some (.str "f")] ∧ exchange.LaidOut ⟨"main.lua", ""⟩ m ∧
      (∃ cell, m.IsCell "b" cell ∧ ∀ cell', m.IsCell "b" cell' → cell = cell') := by
  refine ⟨rfl, ?_⟩
  have fine : exchange.problem? ⟨"main.lua", ""⟩ = none := by rfl
  obtain ⟨m, lowered⟩ := lower_of_problem?_eq_none fine
  obtain ⟨vars, -, cells, same, laid⟩ := lower_cells lowered
  obtain ⟨cell, isCell⟩ := (cells "b").mp (by decide)
  exact ⟨m, lowered, vars, laid, cell, isCell, fun cell' isCell' => (same _ _ _ _ isCell isCell').mp rfl⟩

end Syntax.Chunk
end LuaLowering
