import LuaLowering.Proofs.TokenRanges
/-!
# Nodes of a script

The sketch of a script is the tree of its nodes with nothing but their ranges. Sketches are `Placed` when they lie one
behind the other, each node inside the one around it, with ranges that fit the pieces of the text. Operators are
grouped without moving anything (`placed_assemble`).
-/
namespace LuaLowering.Syntax
open Lexeme

inductive NodeKind where
  | block | ret | stat | exp | var | call
  deriving DecidableEq

/-- A node and the nodes inside it, from left to right. -/
inductive Sketch where
  | node (kind : NodeKind) (range : Option TextRange) (children : List Sketch)

namespace Sketch

def kind : Sketch → NodeKind
  | .node kind _ _ => kind

def range : Sketch → Option TextRange
  | .node _ range _ => range

def children : Sketch → List Sketch
  | .node _ _ children => children

end Sketch

/-! ## Sketches of syntax trees -/

mutual

def Exp.sketch : Exp → Sketch
  | ⟨kind, range⟩ => .node .exp range kind.sketches

def expsSketches : List Exp → List Sketch
  | [] => []
  | e :: es => e.sketch :: expsSketches es

def ExpKind.sketches : ExpKind → List Sketch
  | .function body => body.sketches
  | .prefixExp p => p.sketches
  | .table fields => fieldsSketches fields
  | .unary _ operand => [operand.sketch]
  | .binary _ lhs rhs => [lhs.sketch, rhs.sketch]
  | _ => []

def PrefixExp.sketches : PrefixExp → List Sketch
  | ⟨head, calls⟩ => head.sketch :: callsSketches calls

def Head.sketch : Head → Sketch
  | .var v => v.sketch
  | .paren e => e.sketch

def Var.sketch : Var → Sketch
  | ⟨root, suffixes, range⟩ => .node .var range (root.sketches ++ suffixesSketches suffixes)

def varsSketches : List Var → List Sketch
  | [] => []
  | v :: vs => v.sketch :: varsSketches vs

def Root.sketches : Root → List Sketch
  | .name _ => []
  | .paren e => [e.sketch]

def Suffix.sketches : Suffix → List Sketch
  | ⟨calls, access⟩ => callsSketches calls ++ access.sketches

def suffixesSketches : List Suffix → List Sketch
  | [] => []
  | s :: ss => s.sketches ++ suffixesSketches ss

def Access.sketches : Access → List Sketch
  | .index key => [key.sketch]
  | .member _ => []

def Call.sketch : Call → Sketch
  | ⟨_, args, range⟩ => .node .call range args.sketches

def callsSketches : List Call → List Sketch
  | [] => []
  | c :: cs => c.sketch :: callsSketches cs

def Args.sketches : Args → List Sketch
  | .list es => expsSketches es
  | .table e => [e.sketch]
  | .str e => [e.sketch]

def Field.sketches : Field → List Sketch
  | .keyed key value => [key.sketch, value.sketch]
  | .named _ value => [value.sketch]
  | .positional value => [value.sketch]

def fieldsSketches : List Field → List Sketch
  | [] => []
  | f :: fs => f.sketches ++ fieldsSketches fs

def FuncBody.sketches : FuncBody → List Sketch
  | ⟨_, _, body⟩ => [body.sketch]

def Block.sketch : Block → Sketch
  | ⟨stats, none, range⟩ => .node .block range (statsSketches stats)
  | ⟨stats, some ret, range⟩ => .node .block range (statsSketches stats ++ [ret.sketch])

def Ret.sketch : Ret → Sketch
  | ⟨values, range⟩ => .node .ret range (expsSketches values)

def Stat.sketch : Stat → Sketch
  | ⟨kind, range⟩ => .node .stat range kind.sketches

def statsSketches : List Stat → List Sketch
  | [] => []
  | s :: ss => s.sketch :: statsSketches ss

def StatKind.sketches : StatKind → List Sketch
  | .assign targets values => varsSketches targets ++ expsSketches values
  | .call p => p.sketches
  | .enclosed body => [body.sketch]
  | .whileLoop cond body => [cond.sketch, body.sketch]
  | .repeatLoop body cond => [body.sketch, cond.sketch]
  | .ifChain clauses none => clausesSketches clauses
  | .ifChain clauses (some otherwise) => clausesSketches clauses ++ [otherwise.sketch]
  | .numericFor _ start limit none body => [start.sketch, limit.sketch, body.sketch]
  | .numericFor _ start limit (some step) body => [start.sketch, limit.sketch, step.sketch, body.sketch]
  | .genericFor _ exps body => expsSketches exps ++ [body.sketch]
  | .function _ body => body.sketches
  | .localFunction _ body => body.sketches
  | .localVars _ values => expsSketches values
  | _ => []

def Clause.sketches : Clause → List Sketch
  | ⟨cond, body⟩ => [cond.sketch, body.sketch]

def clausesSketches : List Clause → List Sketch
  | [] => []
  | c :: cs => c.sketches ++ clausesSketches cs

end

/-! ## Placed sketches -/

/-- The range fits the pieces, unless it is that of an empty block. -/
def NodeKind.Ranged (places : Nat → Prop) (ps : List Piece) (kind : NodeKind) (range : TextRange) : Prop :=
  Fits ps range ∨ kind = .block ∧ IsPlace places range

/-- A block holds other blocks only inside its statements. -/
def NodeKind.Holds (kind : NodeKind) (children : List Sketch) : Prop :=
  kind = .block → ∀ child ∈ children, child.kind ≠ .block

theorem NodeKind.Holds.of_ne {kind : NodeKind} {children : List Sketch} (other : kind ≠ .block) : kind.Holds children :=
  fun same => absurd same other

/-- The nodes lie one behind the other between two offsets, and so do the nodes inside each of them. -/
inductive Placed (places : Nat → Prop) (ps : List Piece) : Nat → Nat → List Sketch → Prop where
  | nil {low high : Nat} (le : low ≤ high) : Placed places ps low high []
  | cons {low high : Nat} {kind : NodeKind} {range : TextRange} {children os : List Sketch} (le : low ≤ range.start)
    (ranged : kind.Ranged places ps range) (holds : kind.Holds children)
    (inner : Placed places ps range.start range.stop children) (rest : Placed places ps range.stop high os) :
    Placed places ps low high (.node kind (some range) children :: os)

namespace Placed
variable {places : Nat → Prop} {ps : List Piece} {low low' middle high high' : Nat} {o : Sketch} {os os' : List Sketch}

theorem le (placed : Placed places ps low high os) : low ≤ high := by
  induction placed with
  | nil le => exact le
  | cons le ranged holds inner rest ihInner ihRest => omega

theorem weaken (placed : Placed places ps low high os) (front : low' ≤ low) (back : high ≤ high') :
    Placed places ps low' high' os := by
  induction placed generalizing low' with
  | nil le => exact .nil (by omega)
  | cons le ranged holds inner rest _ ihRest => exact .cons (by omega) ranged holds inner (ihRest (Nat.le_refl _) back)

theorem append (first : Placed places ps low middle os) (second : Placed places ps middle high os') :
    Placed places ps low high (os ++ os') := by
  induction first with
  | nil le => exact second.weaken le (Nat.le_refl _)
  | cons le ranged holds inner rest _ ihRest => exact .cons le ranged holds inner (ihRest second)

theorem split (placed : Placed places ps low high (o :: os)) :
    ∃ middle, Placed places ps low middle [o] ∧ Placed places ps middle high os := by
  cases placed with
  | @cons _ _ _ range _ _ le ranged holds inner rest =>
    exact ⟨range.stop, .cons le ranged holds inner (.nil (Nat.le_refl _)), rest⟩

end Placed

/-! ## Operators -/

theorem Fits.start_le {ps : List Piece} {range : TextRange} (fits : Fits ps range) : range.start ≤ range.stop := by
  obtain ⟨token, gaps, -, -, -, start, stop⟩ := fits.last
  have ordered := fits.ordered
  omega

theorem fits_join {ps : List Piece} {a b : TextRange} (first : Fits ps a) (second : Fits ps b)
    (start : a.start ≤ b.start) (stop : a.stop ≤ b.stop) :
    TextRange.join a b = some ⟨a.start, b.last, b.stop⟩ ∧ Fits ps ⟨a.start, b.last, b.stop⟩ := by
  refine ⟨?_, first.first, second.last, Nat.le_trans start second.ordered⟩
  simp only [TextRange.join, Nat.min_eq_left start, if_pos stop, Nat.max_eq_right stop]

/-- An expression that starts at an offset or later, and where it stops. -/
def Exp.Spans (places : Nat → Prop) (ps : List Piece) (low stop : Nat) (e : Exp) : Prop :=
  ∃ range, e.range = some range ∧ low ≤ range.start ∧ range.stop = stop ∧ Fits ps range ∧
    Placed places ps range.start range.stop e.kind.sketches

namespace Exp
variable {places : Nat → Prop} {ps : List Piece} {low middle stop high : Nat} {lhs rhs operand e : Exp}

theorem spans_of_placed (placed : Placed places ps low high [e.sketch]) :
    ∃ stop ≤ high, e.Spans places ps low stop := by
  obtain ⟨kind, range⟩ := e
  rw [sketch] at placed
  cases placed with
  | cons le ranged holds inner rest => exact ⟨_, rest.le, _, rfl, le, rfl, ranged.resolve_right nofun, inner⟩

theorem Spans.placed (spans : e.Spans places ps low stop) (le : stop ≤ high) :
    Placed places ps low high [e.sketch] := by
  obtain ⟨kind, range⟩ := e
  obtain ⟨range, rfl, start, rfl, fits, inner⟩ := spans
  rw [sketch]
  exact .cons start (.inl fits) (.of_ne (by decide)) inner (.nil le)

theorem Spans.le (spans : e.Spans places ps low stop) : low ≤ stop := by
  obtain ⟨range, -, start, rfl, fits, -⟩ := spans
  exact Nat.le_trans start fits.start_le

theorem Spans.weaken (spans : e.Spans places ps middle stop) (le : low ≤ middle) : e.Spans places ps low stop := by
  obtain ⟨range, same, start, rest⟩ := spans
  exact ⟨range, same, by omega, rest⟩

/-- An operator between two operands. -/
theorem spans_binary (op : BinaryOp) (left : lhs.Spans places ps low middle) (right : rhs.Spans places ps middle stop) :
    (binary op lhs rhs).Spans places ps low stop := by
  have placedRight := right.placed (Nat.le_refl _)
  obtain ⟨a, rangeA, startA, rfl, fitsA, innerA⟩ := left
  obtain ⟨b, rangeB, startB, rfl, fitsB, innerB⟩ := right
  have leA := fitsA.start_le
  have leB := fitsB.start_le
  obtain ⟨joined, fits⟩ := fits_join fitsA fitsB (by omega) (by omega)
  refine ⟨⟨a.start, b.last, b.stop⟩, ?_, startA, rfl, fits, ?_⟩
  · rw [← joined, ← rangeA, ← rangeB, binary]
  have placedLeft : Placed places ps a.start a.stop [lhs.sketch] :=
    Spans.placed ⟨a, rangeA, Nat.le_refl _, rfl, fitsA, innerA⟩ (Nat.le_refl _)
  rw [binary, ExpKind.sketches]
  exact placedLeft.append placedRight

/-- An operator before an operand. The range it has may go over a part of the operand. -/
theorem spans_unary (op : UnaryOp) {a : TextRange} (start : low ≤ a.start) (fitsA : Fits ps a) (le : a.stop ≤ stop)
    (inner : operand.Spans places ps a.start stop) : (unary op a operand).Spans places ps low stop := by
  have placed := inner.placed (Nat.le_refl _)
  obtain ⟨b, rangeB, startB, rfl, fitsB, -⟩ := inner
  obtain ⟨joined, fits⟩ := fits_join fitsA fitsB startB le
  refine ⟨⟨a.start, b.last, b.stop⟩, ?_, start, rfl, fits, ?_⟩
  · rw [← joined, ← rangeB, unary]
  rw [unary, ExpKind.sketches]
  exact placed

/-- An operator goes into the right edge of the tree before it. -/
theorem spans_graft (op : BinaryOp) (left : lhs.Spans places ps low middle) (right : rhs.Spans places ps middle stop) :
    (graft op rhs lhs).Spans places ps low stop := by
  fun_induction graft op rhs lhs generalizing low middle with
  | case1 o a b range yields ih =>
    obtain ⟨range, rfl, start, rfl, fits, inner⟩ := left
    rw [ExpKind.sketches] at inner
    obtain ⟨between, placedA, placedB⟩ := inner.split
    obtain ⟨stopA, leA, spansA⟩ := spans_of_placed placedA
    obtain ⟨stopB, leB, spansB⟩ := spans_of_placed placedB
    exact spans_binary o (spansA.weaken start) ((ih spansB (right.weaken leB)).weaken leA)
  | case3 o a range yields ih =>
    obtain ⟨range, rfl, start, rfl, fits, inner⟩ := left
    rw [ExpKind.sketches] at inner
    obtain ⟨stopA, leA, spansA⟩ := spans_of_placed inner
    exact spans_unary o start fits right.le (ih spansA (right.weaken leA))
  | case2 | case4 | case5 => exact spans_binary op left right

end Exp

/-- The operands of a row. -/
def FlatExp.sketches (e : FlatExp) : List Sketch := e.first.toExp.sketch :: e.rest.map (·.2.toExp.sketch)

theorem placed_foldl_graft {places : Nat → Prop} {ps : List Piece} {low high : Nat} (rest : List (BinaryOp × Operand)) :
    ∀ lhs : Exp, Placed places ps low high (lhs.sketch :: rest.map (·.2.toExp.sketch)) →
      Placed places ps low high
        [(rest.foldl (fun lhs (op, operand) => Exp.graft op operand.toExp lhs) lhs).sketch] := by
  induction rest with
  | nil => exact fun lhs placed => placed
  | cons pair rest ih =>
    intro lhs placed
    obtain ⟨middle, left, more⟩ := placed.split
    obtain ⟨middle', right, others⟩ := more.split
    obtain ⟨stop, le, spansLeft⟩ := Exp.spans_of_placed left
    obtain ⟨stop', le', spansRight⟩ := Exp.spans_of_placed right
    have grafted := Exp.spans_graft pair.1 spansLeft (spansRight.weaken le)
    exact ih _ ((grafted.placed le').append others)

/-- Grouping the operators of a row does not move anything. -/
theorem placed_assemble {places : Nat → Prop} {ps : List Piece} {low high : Nat} {e : FlatExp}
    (placed : Placed places ps low high e.sketches) :
    Placed places ps low high [e.assemble.sketch] :=
  placed_foldl_graft e.rest _ placed

end LuaLowering.Syntax
