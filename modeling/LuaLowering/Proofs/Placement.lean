import LuaLowering.Proofs.Sketches
import LuaLowering.Proofs.Phrases
/-!
# Where the nodes of a script lie

The nodes of a script lie where the trees lie that they are made of. `Lays` follows the making of a node from left to
right: it says what is placed when some sketches are placed and some trees are left. It has a rule for each way in which
parts are put together, and by these rules every tree is `Laid`, whatever is made of it (`throughout_laid`).
-/
namespace LuaLowering

/-! ## Trees inside trees -/

namespace Peg.ParseTree
variable {ρ : Type}

def children : ParseTree ρ → List (ParseTree ρ)
  | .token .. => []
  | .phrase _ _ ts => ts

/-- A property of a tree and of all trees inside it. -/
inductive Throughout (P : ParseTree ρ → Prop) : ParseTree ρ → Prop where
  | intro {t : ParseTree ρ} (here : P t) (inner : ∀ u ∈ t.children, Throughout P u) : Throughout P t

theorem Throughout.here {P : ParseTree ρ → Prop} {t : ParseTree ρ} (throughout : t.Throughout P) : P t := by
  cases throughout with
  | intro here inner => exact here

theorem Throughout.inner {P : ParseTree ρ → Prop} {t : ParseTree ρ} (throughout : t.Throughout P) :
    ∀ u ∈ t.children, u.Throughout P := by
  cases throughout with
  | intro here inner => exact inner

theorem Throughout.mono {P Q : ParseTree ρ → Prop} {t : ParseTree ρ} (throughout : t.Throughout P)
    (weaker : ∀ t, P t → Q t) : t.Throughout Q := by
  induction throughout with
  | intro here _ ih => exact .intro (weaker _ here) ih

/-- A property that goes from the trees inside a tree to the tree holds throughout. -/
theorem throughout_of_step {P : ParseTree ρ → Prop} (step : ∀ t : ParseTree ρ, (∀ u ∈ t.children, u.Throughout P) → P t)
    (t : ParseTree ρ) : t.Throughout P := by
  have inner : ∀ u ∈ t.children, u.Throughout P := by
    cases t with
    | token r start text => nofun
    | phrase r range ts => exact fun u (member : u ∈ ts) => throughout_of_step step u
  exact .intro (step t inner) inner

end Peg.ParseTree

namespace Syntax
open Peg Lexeme

/-! ## Making nodes from trees -/

section Lays
variable {α β : Type} {places : Nat → Prop} {ps : List Piece} {done : List Sketch} {result : FromTree α}
  {next : α → FromTree β} {goal : Nat → Nat → α → Prop} {goal' : Nat → Nat → β → Prop} {sketches : α → List Sketch}
  {t : ParseTree Rule} {ts : List (ParseTree Rule)}

/-- With some sketches in place and some trees left behind them, what is made is as it should be. -/
def Lays (places : Nat → Prop) (ps : List Piece) (done : List Sketch) (result : FromTree α)
    (goal : Nat → Nat → α → Prop) (ts : List (ParseTree Rule)) : Prop :=
  ∀ a, result = .ok a → ∀ low middle high, Placed places ps low middle done → Row places ps middle high ts →
    goal low high a

/-- The sketches of what is made are placed where the trees are. -/
def LaysOut (places : Nat → Prop) (ps : List Piece) (result : FromTree α) (sketches : α → List Sketch)
    (ts : List (ParseTree Rule)) : Prop :=
  Lays places ps [] result (fun low high a => Placed places ps low high (sketches a)) ts

/-- What is made is one node with the given range, and the sketches inside it are placed. -/
def MakesNode (places : Nat → Prop) (ps : List Piece) (kind : NodeKind) (range : TextRange)
    (sketches : α → List Sketch) (low high : Nat) (a : α) : Prop :=
  ∃ children, sketches a = [.node kind (some range) children] ∧ kind.Holds children ∧ Placed places ps low high children

theorem Row.split (row : Row places ps low high (t :: ts)) :
    ∃ middle, Row places ps low middle [t] ∧ Row places ps middle high ts := by
  cases row with
  | token le fits rest => exact ⟨_, .token le fits (.nil (Nat.le_refl _)), rest⟩
  | phrase le ranged inner rest => exact ⟨_, .phrase le ranged inner (.nil (Nat.le_refl _)), rest⟩

namespace Lays

theorem ok {a : α} (here : ∀ low high, Placed places ps low high done → goal low high a) :
    Lays places ps done (.ok a) goal ts := by
  intro a made low middle high placed row
  cases made
  exact here low high (placed.weaken (Nat.le_refl _) row.le)

theorem error {e : TreeError} : Lays places ps done (.error e) goal ts := nofun

theorem bind (first : LaysOut places ps result sketches [t])
    (second : ∀ a, Lays places ps (done ++ sketches a) (next a) goal' ts) :
    Lays places ps done (result >>= next) goal' (t :: ts) := by
  intro b made low middle high placed row
  obtain ⟨a, made, rest⟩ := bind_ok made
  obtain ⟨between, front, back⟩ := row.split
  have placed' := first a made middle middle between (.nil (Nat.le_refl _)) front
  exact second a b rest low between high (placed.append placed') back

/-- All trees that are left go into one part. -/
theorem bindAll (first : LaysOut places ps result sketches ts)
    (second : ∀ a, Lays places ps (done ++ sketches a) (next a) goal' []) :
    Lays places ps done (result >>= next) goal' ts := by
  intro b made low middle high placed row
  obtain ⟨a, made, rest⟩ := bind_ok made
  have placed' := first a made middle middle high (.nil (Nat.le_refl _)) row
  exact second a b rest low high high (placed.append placed') (.nil (Nat.le_refl _))

/-- Something without nodes is made, as a name. -/
theorem ignore (second : ∀ a, Lays places ps done (next a) goal' ts) :
    Lays places ps done (result >>= next) goal' ts := by
  intro b made low middle high placed row
  obtain ⟨a, -, rest⟩ := bind_ok made
  exact second a b rest low middle high placed row

/-- Nothing is made of a tree. -/
theorem skip (later : Lays places ps done result goal ts) : Lays places ps done result goal (t :: ts) := by
  intro a made low middle high placed row
  obtain ⟨between, front, back⟩ := row.split
  exact later a made low between high (placed.weaken (Nat.le_refl _) front.le) back

/-- The trees inside a phrase are taken one by one. -/
theorem unwrap {r : Rule} {range : TextRange} {us : List (ParseTree Rule)}
    (later : Lays places ps done result goal (us ++ ts)) :
    Lays places ps done result goal (.phrase r range us :: ts) := by
  intro a made low middle high placed row
  cases row with
  | phrase le ranged inner rest =>
    exact later a made low middle high placed ((inner.weaken le (Nat.le_refl _)).append rest)

end Lays

namespace LaysOut

/-- A phrase that is no node of its own. -/
theorem inside {r : Rule} {range : TextRange} (inner : LaysOut places ps result sketches ts) :
    LaysOut places ps result sketches [.phrase r range ts] :=
  .unwrap (by rwa [List.append_nil])

/-- The trees after the first one do not matter. -/
theorem front (first : LaysOut places ps result sketches [t]) : LaysOut places ps result sketches (t :: ts) := by
  intro a made low middle high placed row
  obtain ⟨between, front, back⟩ := row.split
  exact (first a made low middle between placed front).weaken (Nat.le_refl _) back.le

/-- A phrase that is a node. -/
theorem node (kind : NodeKind) {r : Rule} {range : TextRange}
    (inner : Lays places ps [] result (MakesNode places ps kind range sketches) ts)
    (same : r.Ranged places ps range → kind.Ranged places ps range) :
    LaysOut places ps result sketches [.phrase r range ts] := by
  intro a made low middle high placed row
  cases row with
  | phrase le ranged row rest =>
    obtain ⟨children, isNode, holds, placed'⟩ := inner a made _ _ _ (.nil (Nat.le_refl _)) row
    simp only [isNode]
    exact .cons (Nat.le_trans placed.le le) (same ranged) holds placed' (.nil rest.le)

end LaysOut
end Lays

/-- The range of a phrase that is neither a block nor a clause fits. -/
theorem NodeKind.Ranged.of_phrase {places : Nat → Prop} {ps : List Piece} {r : Rule} {range : TextRange}
    {kind : NodeKind} (other : r ∉ ([.block, .elseifClause] : List Rule) ∧ r.opens = true)
    (ranged : r.Ranged places ps range) : kind.Ranged places ps range :=
  ranged.imp_right fun unlike => by simp_all

theorem NodeKind.Ranged.of_block {places : Nat → Prop} {ps : List Piece} {range : TextRange}
    (ranged : Rule.block.Ranged places ps range) :
    NodeKind.block.Ranged places ps range :=
  ranged.imp_right fun empty => ⟨rfl, (empty.resolve_right nofun).2⟩

/-- The nodes of a block. -/
def blockSketches (stats : List Stat) (ret : Option Ret) : List Sketch :=
  statsSketches stats ++ ret.toList.map Ret.sketch

theorem Block.sketch_eq (stats : List Stat) (ret : Option Ret) (range : Option TextRange) :
    Block.sketch ⟨stats, ret, range⟩ = .node .block range (blockSketches stats ret) := by
  cases ret <;> simp [Block.sketch, blockSketches]

theorem Stat.kind_sketch (s : Stat) : s.sketch.kind = .stat := by
  obtain ⟨kind, range⟩ := s
  rw [sketch, Sketch.kind]

theorem Ret.kind_sketch (ret : Ret) : ret.sketch.kind = .ret := by
  obtain ⟨values, range⟩ := ret
  rw [sketch, Sketch.kind]

theorem kind_of_statsSketches (stats : List Stat) : ∀ o ∈ statsSketches stats, o.kind = .stat := by
  induction stats with
  | nil => simp [statsSketches]
  | cons s stats ih => simpa [statsSketches, s.kind_sketch] using ih

theorem holds_blockSketches (stats : List Stat) (ret : Option Ret) :
    NodeKind.block.Holds (blockSketches stats ret) := by
  intro _ o member isBlock
  rcases List.mem_append.mp member with inStats | inRet
  · cases (kind_of_statsSketches stats o inStats).symm.trans isBlock
  · obtain ⟨values, -, rfl⟩ := List.mem_map.mp inRet
    cases values.kind_sketch.symm.trans isBlock

/-- The nodes of the further clauses of an `if` and of its `else`. -/
def chainSketches (clauses : List Clause) (otherwise : Option Block) : List Sketch :=
  clausesSketches clauses ++ otherwise.toList.map Block.sketch

theorem StatKind.sketches_ifChain (clauses : List Clause) (otherwise : Option Block) :
    StatKind.sketches (.ifChain clauses otherwise) = chainSketches clauses otherwise := by
  cases otherwise <;> simp [StatKind.sketches, chainSketches]

section Nodes
variable {places : Nat → Prop} {ps : List Piece} {range : TextRange} {low high : Nat}

theorem makesNode_exp {kind : ExpKind} (placed : Placed places ps low high kind.sketches) :
    MakesNode places ps .exp range (fun e => [Exp.sketch e]) low high ⟨kind, range⟩ :=
  ⟨_, by simp only [Exp.sketch], .of_ne (by decide), placed⟩

theorem makesNode_stat {kind : StatKind} (placed : Placed places ps low high kind.sketches) :
    MakesNode places ps .stat range (fun s => [Stat.sketch s]) low high ⟨kind, range⟩ :=
  ⟨_, by simp only [Stat.sketch], .of_ne (by decide), placed⟩

theorem makesNode_var {root : Root} {suffixes : List Suffix}
    (placed : Placed places ps low high (root.sketches ++ suffixesSketches suffixes)) :
    MakesNode places ps .var range (fun v => [Var.sketch v]) low high ⟨root, suffixes, range⟩ :=
  ⟨_, by simp only [Var.sketch], .of_ne (by decide), placed⟩

theorem makesNode_call {method : Option String} {args : Args} (placed : Placed places ps low high args.sketches) :
    MakesNode places ps .call range (fun c => [Call.sketch c]) low high ⟨method, args, range⟩ :=
  ⟨_, by simp only [Call.sketch], .of_ne (by decide), placed⟩

theorem makesNode_block {stats : List Stat} {ret : Option Ret}
    (placed : Placed places ps low high (blockSketches stats ret)) :
    MakesNode places ps .block range (fun b => [Block.sketch b]) low high ⟨stats, ret, range⟩ :=
  ⟨_, by simp only [Block.sketch_eq], holds_blockSketches stats ret, placed⟩

/-- A token that is a node. -/
theorem LaysOut.token {α : Type} {a : α} {sketches : α → List Sketch} (kind : NodeKind) {r : Rule} {start : Nat}
    {text : List Char} (isOpen : r.opens = true)
    (leaf : sketches a = [.node kind (some (ParseTree.tokenRange start text)) []]) :
    LaysOut places ps (.ok a) sketches [.token r start text] := by
  intro a made low middle high placed row
  cases made
  cases row with
  | token le fits rest =>
    rw [leaf]
    have fits := fits isOpen
    exact .cons (Nat.le_trans placed.le le) (.inl fits) (by simp [NodeKind.Holds]) (.nil fits.start_le) (.nil rest.le)

end Nodes

/-- A unary operator before a row of operands. -/
theorem placed_unary_row {places : Nat → Prop} {ps : List Piece} {low high start : Nat} {op : UnaryOp}
    {text : List Char} {e : FlatExp} (le : low ≤ start) (fits : Fits ps (ParseTree.tokenRange start text))
    (placed : Placed places ps (start + Text.byteSize text) high e.sketches) :
    Placed places ps low high
      (FlatExp.sketches ⟨⟨(op, ParseTree.tokenRange start text) :: e.first.unary, e.first.exp⟩, e.rest⟩) := by
  obtain ⟨middle, first, rest⟩ := Placed.split placed
  obtain ⟨stop, within, spans⟩ := Exp.spans_of_placed first
  have whole := Exp.spans_unary op le fits spans.le (spans.weaken (Nat.le_add_right ..))
  exact (whole.placed within).append rest

/-! ## Nodes of each kind -/

/-- What is made of a tree lies where the tree lies, whatever it is made into. -/
structure Laid (places : Nat → Prop) (ps : List Piece) (t : ParseTree Rule) : Prop where
  exp : LaysOut places ps (expOf t) (fun e => [e.sketch]) [t]
  primary : LaysOut places ps (primaryOf t) (fun e => [e.sketch]) [t]
  head : LaysOut places ps (headOf t) (fun head => [head.sketch]) [t]
  root : LaysOut places ps (rootOf t) Root.sketches [t]
  access : LaysOut places ps (accessOf t) Access.sketches [t]
  call : LaysOut places ps (callOf t) (fun c => [c.sketch]) [t]
  args : LaysOut places ps (argsOf t) Args.sketches [t]
  field : LaysOut places ps (fieldOf t) Field.sketches [t]
  funcBody : LaysOut places ps (funcBodyOf t) FuncBody.sketches [t]
  block : LaysOut places ps (blockOf t) (fun b => [b.sketch]) [t]
  stat : LaysOut places ps (statOf t) (fun s => [s.sketch]) [t]

section Lists
variable {places : Nat → Prop} {ps : List Piece} {ts : List (ParseTree Rule)}

theorem expsOf_lays (inner : ∀ t ∈ ts, t.Throughout (Laid places ps)) :
    LaysOut places ps (expsOf ts) expsSketches ts := by
  induction ts with
  | nil => exact .ok fun _ _ placed => by rwa [expsSketches]
  | cons t ts ih =>
    obtain ⟨first, rest⟩ := List.forall_mem_cons.mp inner
    refine .bind first.here.exp fun e => .bindAll (ih rest) fun es => .ok fun _ _ placed => ?_
    simpa [expsSketches] using placed

theorem flatExpOf_lays (range : TextRange) {ts : List (ParseTree Rule)}
    (inner : ∀ t ∈ ts, t.Throughout (Laid places ps)) :
    LaysOut places ps (flatExpOf range ts) FlatExp.sketches ts := by
  unfold flatExpOf
  split
  next op start text ts =>
    intro e made low middle high placed row
    obtain ⟨more, found, same⟩ := bind_ok made
    cases same
    have rest := flatExpOf_lays range (List.forall_mem_cons.mp inner).2
    cases row with
    | token le fits row =>
      exact placed_unary_row (Nat.le_trans placed.le le) (fits rfl) (rest more found _ _ _ (.nil (Nat.le_refl _)) row)
  next t _ => exact .bind (inner t (by simp)).here.primary fun e => .ok fun _ _ placed => placed
  next t op start text ts _ =>
    have rest := flatExpOf_lays range fun u (member : u ∈ ts) => inner u (by simp [member])
    exact .bind (inner t (by simp)).here.primary fun e => .skip (.bindAll rest fun more => .ok fun _ _ placed => placed)
  · exact .error
termination_by ts.length

theorem callsOf_lays (inner : ∀ t ∈ ts, t.Throughout (Laid places ps)) :
    LaysOut places ps (callsOf ts) callsSketches ts := by
  induction ts with
  | nil => exact .ok fun _ _ placed => by rwa [callsSketches]
  | cons t ts ih =>
    obtain ⟨first, rest⟩ := List.forall_mem_cons.mp inner
    refine .bind first.here.call fun c => .bindAll (ih rest) fun cs => .ok fun _ _ placed => ?_
    simpa [callsSketches] using placed

theorem prefixExpOf_lays (range : TextRange) (inner : ∀ t ∈ ts, t.Throughout (Laid places ps)) :
    LaysOut places ps (prefixExpOf range ts) PrefixExp.sketches ts := by
  cases ts with
  | nil => exact .error
  | cons t ts =>
    obtain ⟨first, rest⟩ := List.forall_mem_cons.mp inner
    refine .bind first.here.head fun head => .bindAll (callsOf_lays rest) fun calls => .ok fun _ _ placed => ?_
    simpa [PrefixExp.sketches] using placed

theorem suffixOf_lays (range : TextRange) (inner : ∀ t ∈ ts, t.Throughout (Laid places ps)) :
    LaysOut places ps (suffixOf range ts) Suffix.sketches ts := by
  induction ts with
  | nil => exact .error
  | cons t ts ih =>
    obtain ⟨first, rest⟩ := List.forall_mem_cons.mp inner
    unfold suffixOf
    split
    next t same =>
      cases same
      refine .bind first.here.access fun access => .ok fun _ _ placed => ?_
      simpa [Suffix.sketches, callsSketches] using placed
    next t' ts' _ same =>
      cases same
      refine .bind first.here.call fun c => .bindAll (ih rest) fun s => .ok fun _ _ placed => ?_
      obtain ⟨calls, access⟩ := s
      simpa [Suffix.sketches, callsSketches] using placed
    · exact .error

theorem suffixesOf_lays (inner : ∀ t ∈ ts, t.Throughout (Laid places ps)) :
    LaysOut places ps (suffixesOf ts) suffixesSketches ts := by
  induction ts with
  | nil => exact .ok fun _ _ placed => by rwa [suffixesSketches]
  | cons t ts ih =>
    obtain ⟨first, rest⟩ := List.forall_mem_cons.mp inner
    unfold suffixesOf
    split
    next same => cases same
    next range us us' same =>
      cases same
      refine .bind (.inside (suffixOf_lays range first.inner)) fun s => .bindAll (ih rest) fun ss =>
        .ok fun _ _ placed => ?_
      simpa [suffixesSketches] using placed
    · exact .error

theorem varOf_lays (range : TextRange) (inner : ∀ t ∈ ts, t.Throughout (Laid places ps)) :
    Lays places ps [] (varOf range ts) (MakesNode places ps .var range fun v => [v.sketch]) ts := by
  cases ts with
  | nil => exact .error
  | cons t ts =>
    obtain ⟨first, rest⟩ := List.forall_mem_cons.mp inner
    exact .bind first.here.root fun root => .bindAll (suffixesOf_lays rest) fun suffixes =>
      .ok fun _ _ placed => makesNode_var placed

theorem varsOf_lays (inner : ∀ t ∈ ts, t.Throughout (Laid places ps)) :
    LaysOut places ps (varsOf ts) varsSketches ts := by
  induction ts with
  | nil => exact .ok fun _ _ placed => by rwa [varsSketches]
  | cons t ts ih =>
    obtain ⟨first, rest⟩ := List.forall_mem_cons.mp inner
    unfold varsOf
    split
    next same => cases same
    next range us us' same =>
      cases same
      refine .bind (.node .var (varOf_lays range first.inner) (.of_phrase (by decide))) fun v =>
        .bindAll (ih rest) fun vs =>
        .ok fun _ _ placed => ?_
      simpa [varsSketches] using placed
    · exact .error

theorem fieldsOf_lays (inner : ∀ t ∈ ts, t.Throughout (Laid places ps)) :
    LaysOut places ps (fieldsOf ts) fieldsSketches ts := by
  induction ts with
  | nil => exact .ok fun _ _ placed => by rwa [fieldsSketches]
  | cons t ts ih =>
    obtain ⟨first, rest⟩ := List.forall_mem_cons.mp inner
    unfold fieldsOf
    split
    next same => cases same
    · exact .ok fun _ _ placed => by rwa [fieldsSketches]
    next t' ts' _ same =>
      cases same
      refine .bind first.here.field fun f => .bindAll (ih rest) fun fs => .ok fun _ _ placed => ?_
      simpa [fieldsSketches] using placed

theorem retValuesOf_lays (inner : ∀ t ∈ ts, t.Throughout (Laid places ps)) :
    LaysOut places ps (retValuesOf ts) expsSketches ts := by
  unfold retValuesOf
  split
  next range es rest => exact .front (.inside (expsOf_lays (List.forall_mem_cons.mp inner).1.inner))
  · exact .ok fun _ _ placed => by rwa [expsSketches]

theorem statsOf_lays (inner : ∀ t ∈ ts, t.Throughout (Laid places ps)) :
    LaysOut places ps (statsOf ts) (fun p => blockSketches p.1 p.2) ts := by
  induction ts with
  | nil => exact .ok fun _ _ placed => by simpa [blockSketches, statsSketches] using placed
  | cons t ts ih =>
    obtain ⟨first, rest⟩ := List.forall_mem_cons.mp inner
    unfold statsOf
    split
    next same => cases same
    next same =>
      cases same
      exact .skip (ih rest)
    next range us same =>
      cases same
      refine .node .ret (.bindAll (retValuesOf_lays first.inner) fun values => .ok fun _ _ placed =>
        ⟨expsSketches values, ?_, .of_ne (by decide), placed⟩) (.of_phrase (by decide))
      simp [blockSketches, statsSketches, Ret.sketch]
    next same =>
      cases same
      refine .bind first.here.stat fun s => .bindAll (ih rest) fun (ss, ret) => .ok fun _ _ placed => ?_
      simpa [blockSketches, statsSketches] using placed

theorem clausesOf_lays (range : TextRange) (inner : ∀ t ∈ ts, t.Throughout (Laid places ps)) :
    LaysOut places ps (clausesOf range ts) (fun p => chainSketches p.1 p.2) ts := by
  induction ts with
  | nil => exact .error
  | cons t ts ih =>
    obtain ⟨first, rest⟩ := List.forall_mem_cons.mp inner
    unfold clausesOf
    split
    · exact .ok fun _ _ placed => by simpa [chainSketches, clausesSketches] using placed
    next rangeE b start text same =>
      cases same
      refine .bind (.inside (first.inner b (by simp [ParseTree.children])).here.block) fun body =>
        .ok fun _ _ placed => ?_
      simpa [chainSketches, clausesSketches] using placed
    next rangeC c b ts' same =>
      cases same
      obtain ⟨cond, body, -⟩ : c.Throughout (Laid places ps) ∧ b.Throughout (Laid places ps) ∧ True := by
        simpa [ParseTree.children] using first.inner
      refine .unwrap (.bind cond.here.exp fun cond => .bind body.here.block fun body =>
        .bindAll (ih rest) fun (clauses, otherwise) => .ok fun _ _ placed => ?_)
      simpa [chainSketches, clausesSketches, Clause.sketches] using placed
    · exact .error

end Lists

section Trees
variable {places : Nat → Prop} {ps : List Piece} {t : ParseTree Rule}

theorem expOf_lays (inner : ∀ u ∈ t.children, u.Throughout (Laid places ps)) :
    LaysOut places ps (expOf t) (fun e => [e.sketch]) [t] := by
  unfold expOf
  split
  next range ts => exact .inside (.bindAll (flatExpOf_lays range inner) fun e => .ok fun _ _ => placed_assemble)
  · exact .error

theorem primaryOf_lays (inner : ∀ u ∈ t.children, u.Throughout (Laid places ps)) :
    LaysOut places ps (primaryOf t) (fun e => [e.sketch]) [t] := by
  unfold primaryOf
  split
  · exact .token .exp rfl (by simp [Exp.sketch, ExpKind.sketches])
  · exact .token .exp rfl (by simp [Exp.sketch, ExpKind.sketches])
  · exact .token .exp rfl (by simp [Exp.sketch, ExpKind.sketches])
  · exact .token .exp rfl (by simp [Exp.sketch, ExpKind.sketches])
  next range n =>
    refine .node .exp (.ignore fun numeral => .ok fun _ _ placed => makesNode_exp ?_) (.of_phrase (by decide))
    simpa [ExpKind.sketches] using placed
  next range ts =>
    refine .node .exp (.ignore fun value => .ok fun _ _ placed => makesNode_exp ?_) (.of_phrase (by decide))
    simpa [ExpKind.sketches] using placed
  next range b =>
    have body := inner b List.mem_cons_self
    refine .node .exp (.bind body.here.funcBody fun body => .ok fun _ _ placed => makesNode_exp ?_)
      (.of_phrase (by decide))
    simpa [ExpKind.sketches] using placed
  next range ts =>
    refine .node .exp (.bindAll (fieldsOf_lays inner) fun fields => .ok fun _ _ placed => makesNode_exp ?_)
      (.of_phrase (by decide))
    simpa [ExpKind.sketches] using placed
  next range ts =>
    refine .node .exp (.bindAll (prefixExpOf_lays range inner) fun p => .ok fun _ _ placed => makesNode_exp ?_)
      (.of_phrase (by decide))
    simpa [ExpKind.sketches] using placed
  · exact .error

theorem headOf_lays (inner : ∀ u ∈ t.children, u.Throughout (Laid places ps)) :
    LaysOut places ps (headOf t) (fun head => [head.sketch]) [t] := by
  unfold headOf
  split
  next range ts =>
    refine .bind (.node .var (varOf_lays range inner) (.of_phrase (by decide))) fun v => .ok fun _ _ placed => ?_
    simpa [Head.sketch] using placed
  next range e close =>
    refine .unwrap (.bind (inner e List.mem_cons_self).here.exp fun e => .ok fun _ _ placed => ?_)
    simpa [Head.sketch] using placed
  · exact .error

theorem rootOf_lays (inner : ∀ u ∈ t.children, u.Throughout (Laid places ps)) :
    LaysOut places ps (rootOf t) Root.sketches [t] := by
  unfold rootOf
  split
  · exact .ok fun _ _ placed => by rwa [Root.sketches]
  next range e close =>
    refine .unwrap (.bind (inner e List.mem_cons_self).here.exp fun e => .ok fun _ _ placed => ?_)
    simpa [Root.sketches] using placed
  · exact .error

theorem accessOf_lays (inner : ∀ u ∈ t.children, u.Throughout (Laid places ps)) :
    LaysOut places ps (accessOf t) Access.sketches [t] := by
  unfold accessOf
  split
  next range e close =>
    refine .unwrap (.bind (inner e List.mem_cons_self).here.exp fun e => .ok fun _ _ placed => ?_)
    simpa [Access.sketches] using placed
  next range n =>
    refine .ignore fun name => .ok fun _ _ placed => ?_
    rwa [Access.sketches]
  · exact .error

theorem callOf_lays (inner : ∀ u ∈ t.children, u.Throughout (Laid places ps)) :
    LaysOut places ps (callOf t) (fun c => [c.sketch]) [t] := by
  unfold callOf
  split
  next range a =>
    have args := inner a List.mem_cons_self
    exact .node .call (.bind args.here.args fun args => .ok fun _ _ placed => makesNode_call placed)
      (.of_phrase (by decide))
  next range rangeM m a =>
    have args := inner a (List.mem_cons_of_mem _ List.mem_cons_self)
    exact .node .call (.ignore fun method => .skip (.bind args.here.args fun args => .ok fun _ _ placed =>
      makesNode_call placed)) (.of_phrase (by decide))
  · exact .error

theorem argsOf_lays (inner : ∀ u ∈ t.children, u.Throughout (Laid places ps)) :
    LaysOut places ps (argsOf t) Args.sketches [t] := by
  unfold argsOf
  split
  · exact .ok fun _ _ placed => by rwa [Args.sketches, expsSketches]
  next range rangeE es close =>
    have exps := expsOf_lays (inner _ List.mem_cons_self).inner
    refine .unwrap (.bind (.inside exps) fun es => .ok fun _ _ placed => ?_)
    simpa [Args.sketches] using placed
  next range ts =>
    refine .node .exp (.bindAll (fieldsOf_lays inner) fun fields => .ok fun _ _ placed =>
      ⟨fieldsSketches fields, ?_, .of_ne (by decide), placed⟩) (.of_phrase (by decide))
    simp [Args.sketches, Exp.sketch, ExpKind.sketches]
  next range ts =>
    refine .node .exp (.ignore fun value => .ok fun _ _ placed => ⟨[], ?_, .of_ne (by decide), placed⟩)
      (.of_phrase (by decide))
    simp [Args.sketches, Exp.sketch, ExpKind.sketches]
  · exact .error

theorem fieldOf_lays (inner : ∀ u ∈ t.children, u.Throughout (Laid places ps)) :
    LaysOut places ps (fieldOf t) Field.sketches [t] := by
  unfold fieldOf
  split
  next range k v =>
    have key := inner k List.mem_cons_self
    have value := inner v (List.mem_cons_of_mem _ List.mem_cons_self)
    refine .unwrap (.bind key.here.exp fun key => .bind value.here.exp fun value => .ok fun _ _ placed => ?_)
    simpa [Field.sketches] using placed
  next range n v =>
    have value := inner v (List.mem_cons_of_mem _ List.mem_cons_self)
    refine .unwrap (.ignore fun name => .skip (.bind value.here.exp fun value => .ok fun _ _ placed => ?_))
    simpa [Field.sketches] using placed
  next range v =>
    refine .unwrap (.bind (inner v List.mem_cons_self).here.exp fun value => .ok fun _ _ placed => ?_)
    simpa [Field.sketches] using placed
  · exact .error

theorem funcBodyOf_lays (inner : ∀ u ∈ t.children, u.Throughout (Laid places ps)) :
    LaysOut places ps (funcBodyOf t) FuncBody.sketches [t] := by
  unfold funcBodyOf
  split
  next range b close =>
    refine .unwrap (.bind (inner b List.mem_cons_self).here.block fun body => .ok fun _ _ placed => ?_)
    simpa [FuncBody.sketches] using placed
  next range rangeP params b close =>
    have body := inner b (List.mem_cons_of_mem _ List.mem_cons_self)
    refine .unwrap (.ignore fun (names, isVararg) => .skip (.bind body.here.block fun body => .ok fun _ _ placed => ?_))
    simpa [FuncBody.sketches] using placed
  · exact .error

theorem blockOf_lays (inner : ∀ u ∈ t.children, u.Throughout (Laid places ps)) :
    LaysOut places ps (blockOf t) (fun b => [b.sketch]) [t] := by
  unfold blockOf
  split
  next range ts =>
    exact .node .block (.bindAll (statsOf_lays inner) fun (stats, ret) => .ok fun _ _ placed => makesNode_block placed)
      .of_block
  · exact .error

theorem statOf_lays (inner : ∀ u ∈ t.children, u.Throughout (Laid places ps)) :
    LaysOut places ps (statOf t) (fun s => [s.sketch]) [t] := by
  unfold statOf
  split
  next range rangeV vs rangeE es =>
    simp only [ParseTree.children, List.forall_mem_cons] at inner
    obtain ⟨vars, exps, -⟩ := inner
    refine .node .stat (.bind (.inside (varsOf_lays vars.inner)) fun targets =>
      .bind (.inside (expsOf_lays exps.inner)) fun values => .ok fun _ _ placed => makesNode_stat ?_)
      (.of_phrase (by decide))
    simpa [StatKind.sketches] using placed
  next range ts =>
    refine .node .stat (.bindAll (prefixExpOf_lays range inner) fun p => .ok fun _ _ placed => makesNode_stat ?_)
      (.of_phrase (by decide))
    simpa [StatKind.sketches] using placed
  next range n close =>
    refine .node .stat (.ignore fun name => .ok fun _ _ placed => makesNode_stat ?_) (.of_phrase (by decide))
    simpa [StatKind.sketches] using placed
  next start text => exact .token .stat rfl (by simp [Stat.sketch, StatKind.sketches])
  next range n =>
    refine .node .stat (.ignore fun name => .ok fun _ _ placed => makesNode_stat ?_) (.of_phrase (by decide))
    simpa [StatKind.sketches] using placed
  next range b close =>
    simp only [ParseTree.children, List.forall_mem_cons] at inner
    obtain ⟨body, -⟩ := inner
    refine .node .stat (.bind body.here.block fun body => .ok fun _ _ placed => makesNode_stat ?_)
      (.of_phrase (by decide))
    simpa [StatKind.sketches] using placed
  next range c b close =>
    simp only [ParseTree.children, List.forall_mem_cons] at inner
    obtain ⟨cond, body, -⟩ := inner
    refine .node .stat (.bind cond.here.exp fun cond => .bind body.here.block fun body =>
      .ok fun _ _ placed => makesNode_stat ?_) (.of_phrase (by decide))
    simpa [StatKind.sketches] using placed
  next range b c =>
    simp only [ParseTree.children, List.forall_mem_cons] at inner
    obtain ⟨body, cond, -⟩ := inner
    refine .node .stat (.bind body.here.block fun body => .bind cond.here.exp fun cond =>
      .ok fun _ _ placed => makesNode_stat ?_) (.of_phrase (by decide))
    simpa [StatKind.sketches] using placed
  next range c b ts =>
    simp only [ParseTree.children, List.forall_mem_cons] at inner
    obtain ⟨cond, body, rest⟩ := inner
    refine .node .stat (.bind cond.here.exp fun cond => .bind body.here.block fun body =>
      .bindAll (clausesOf_lays range rest) fun (clauses, otherwise) => .ok fun _ _ placed => makesNode_stat ?_)
      (.of_phrase (by decide))
    simpa [StatKind.sketches_ifChain, chainSketches, clausesSketches, Clause.sketches] using placed
  next range v a l b close =>
    simp only [ParseTree.children, List.forall_mem_cons] at inner
    obtain ⟨-, start, limit, body, -⟩ := inner
    refine .node .stat (.ignore fun var => .skip (.bind start.here.exp fun start => .bind limit.here.exp fun limit =>
      .bind body.here.block fun body => .ok fun _ _ placed => makesNode_stat ?_)) (.of_phrase (by decide))
    simpa [StatKind.sketches] using placed
  next range v a l s b close =>
    simp only [ParseTree.children, List.forall_mem_cons] at inner
    obtain ⟨-, start, limit, step, body, -⟩ := inner
    refine .node .stat (.ignore fun var => .skip (.bind start.here.exp fun start => .bind limit.here.exp fun limit =>
      .bind step.here.exp fun step => .bind body.here.block fun body => .ok fun _ _ placed => makesNode_stat ?_))
      (.of_phrase (by decide))
    simpa [StatKind.sketches] using placed
  next range rangeN ns rangeE es b close =>
    simp only [ParseTree.children, List.forall_mem_cons] at inner
    obtain ⟨-, exps, body, -⟩ := inner
    refine .node .stat (.ignore fun names => .skip (.bind (.inside (expsOf_lays exps.inner)) fun exps =>
      .bind body.here.block fun body => .ok fun _ _ placed => makesNode_stat ?_)) (.of_phrase (by decide))
    simpa [StatKind.sketches] using placed
  next range rangeN ns b =>
    simp only [ParseTree.children, List.forall_mem_cons] at inner
    obtain ⟨-, body, -⟩ := inner
    refine .node .stat (.ignore fun name => .skip (.bind body.here.funcBody fun body =>
      .ok fun _ _ placed => makesNode_stat ?_)) (.of_phrase (by decide))
    simpa [StatKind.sketches] using placed
  next range n b =>
    simp only [ParseTree.children, List.forall_mem_cons] at inner
    obtain ⟨-, body, -⟩ := inner
    refine .node .stat (.ignore fun name => .skip (.bind body.here.funcBody fun body =>
      .ok fun _ _ placed => makesNode_stat ?_)) (.of_phrase (by decide))
    simpa [StatKind.sketches] using placed
  next range rangeN ns =>
    refine .node .stat (.ignore fun names => .ok fun _ _ placed => makesNode_stat ?_) (.of_phrase (by decide))
    simpa [StatKind.sketches, expsSketches] using placed
  next range rangeN ns rangeE es =>
    simp only [ParseTree.children, List.forall_mem_cons] at inner
    obtain ⟨-, exps, -⟩ := inner
    refine .node .stat (.ignore fun names => .skip (.bind (.inside (expsOf_lays exps.inner)) fun values =>
      .ok fun _ _ placed => makesNode_stat ?_)) (.of_phrase (by decide))
    simpa [StatKind.sketches] using placed
  · exact .error

end Trees

/-- Every tree is laid. -/
theorem throughout_laid (places : Nat → Prop) (ps : List Piece) (t : ParseTree Rule) : t.Throughout (Laid places ps) :=
  ParseTree.throughout_of_step (fun _ inner => ⟨expOf_lays inner, primaryOf_lays inner, headOf_lays inner,
    rootOf_lays inner, accessOf_lays inner, callOf_lays inner, argsOf_lays inner, fieldOf_lays inner,
    funcBodyOf_lays inner, blockOf_lays inner, statOf_lays inner⟩) t

end Syntax
end LuaLowering
