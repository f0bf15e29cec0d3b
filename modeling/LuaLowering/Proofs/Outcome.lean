import LuaLowering.Compile
import LuaLowering.Proofs.FirstProblem
import LuaLowering.Proofs.NumeralText
/-!
# The outcome of compiling a script

No script breaks a rule of the lowering. The only broken rule that the first problem of a chunk can be is a
numeral without a constant, and the numerals that the grammar reads have constants, hexadecimal floats apart.
So a script that is read is compiled, or refused for a construct (`compile_outcome`).
-/
namespace LuaLowering

/-- The problem, if there is one, is a construct that is not lowered. -/
def Refusal (problem : Option LowerError) : Prop :=
  ∀ e, problem = some e → ∃ construct span, e = .unsupported construct span

namespace Refusal

theorem none : Refusal none := by
  intro e found
  cases found

theorem unsupported (construct : String) (span : Span) : Refusal (some (.unsupported construct span)) := by
  intro e found
  cases found
  exact ⟨construct, span, rfl⟩

theorem or {p q : Option LowerError} (first : Refusal p) (second : Refusal q) : Refusal (p.or q) := by
  cases p with
  | none => exact second
  | some e => exact first

theorem findSome? {α : Type} {g : α → Option LowerError} {l : List α} (each : ∀ a ∈ l, Refusal (g a)) :
    Refusal (l.findSome? g) := by
  intro e found
  obtain ⟨a, member, problem⟩ := List.exists_of_findSome?_eq_some found
  exact each a member e problem

end Refusal

namespace Syntax
open Peg

section Walk
variable (source : Source)

theorem Var.refusal (v : Var) : Refusal (v.problem? source) := by
  unfold Var.problem?
  split
  · exact .none
  · exact .unsupported _ _

theorem Numeral.refusal {n : Numeral} (known : n.constant?.isSome ∨ n.kind = .hexFloat) (range : Option TextRange) :
    Refusal (n.problem? source range) := by
  unfold Numeral.problem?
  split
  · exact .none
  · rename_i unknown
    rw [if_pos (known.resolve_left unknown)]
    exact .unsupported _ _

/-- Whether an expression is an operator with its operands. -/
def Exp.isOperation (e : Exp) : Bool :=
  match e.kind with
  | .unary .. | .binary .. => true
  | _ => false

theorem Exp.refusal_of_isOperation {e : Exp} (operation : e.isOperation = true) : Refusal (e.problem? source) := by
  obtain ⟨kind, range⟩ := e
  cases kind with
  | unary op operand => exact .unsupported _ _
  | binary op lhs rhs => exact .unsupported _ _
  | _ => cases operation

end Walk

theorem Exp.isOperation_graft (op : BinaryOp) (rhs lhs : Exp) : (graft op rhs lhs).isOperation = true := by
  unfold graft
  split
  · split <;> rfl
  · split <;> rfl
  · rfl

/-- A row of operands with an operator in it becomes an operation. -/
theorem FlatExp.isOperation_assemble {e : FlatExp} (operator : e.first.unary ≠ [] ∨ e.rest ≠ []) :
    e.assemble.isOperation = true := by
  obtain ⟨⟨unary, exp⟩, rest⟩ := e
  rcases List.eq_nil_or_concat' rest with rfl | ⟨front, ⟨op, operand⟩, rfl⟩
  · cases unary with
    | nil => simp at operator
    | cons first others => rfl
  · simp only [assemble, List.foldl_append, List.foldl_cons, List.foldl_nil]
    exact Exp.isOperation_graft _ _ _

theorem bind_ok {α β : Type} {x : FromTree α} {g : α → FromTree β} {b : β} (made : (x >>= g) = .ok b) :
    ∃ a, x = .ok a ∧ g a = .ok b := by
  cases x with
  | error e => cases made
  | ok a => exact ⟨a, rfl, made⟩

/-- The numerals of a parse tree have constants, hexadecimal floats apart. -/
theorem numeralOf_constant {t : ParseTree Rule} {n : Numeral} (lexed : t.Lexed grammar) (made : numeralOf t = .ok n) :
    n.constant?.isSome ∨ n.kind = .hexFloat := by
  cases lexed with
  | phrase inner => cases made
  | @token r scan start text rule reads =>
    cases r with
    | int =>
      cases rule
      cases made
      exact .inl (Numeral.isSome_constant?_int reads)
    | hexInt =>
      cases rule
      cases made
      exact .inl (Numeral.isSome_constant?_hex reads)
    | float =>
      cases rule
      cases made
      exact .inl (Numeral.isSome_constant?_float reads)
    | hexFloat =>
      cases made
      exact .inr rfl
    | _ => cases made

/-- Whatever is read from the tree can only be refused for a construct. -/
structure Tame (source : Source) (t : ParseTree Rule) : Prop where
  exp : ∀ e, expOf t = .ok e → Refusal (e.problem? source)
  primary : ∀ e, primaryOf t = .ok e → Refusal (e.problem? source)
  head : ∀ h, headOf t = .ok h → Refusal (h.problem? source)
  call : ∀ c, callOf t = .ok c → Refusal (c.problem? source)
  args : ∀ a, argsOf t = .ok a → Refusal (a.problem? source)
  exps : ∀ r range ts, t = .phrase r range ts → ∀ es, expsOf ts = .ok es → Refusal (expsProblem? source es)
  prefixExp : ∀ r range ts, t = .phrase r range ts → ∀ p, prefixExpOf range ts = .ok p → Refusal (p.problem? source)

section Lists
variable {source : Source} {ts : List (ParseTree Rule)} (inner : ∀ t ∈ ts, Tame source t)
include inner

theorem expsOf_refusal {es : List Exp} (made : expsOf ts = .ok es) : Refusal (expsProblem? source es) := by
  induction ts generalizing es with
  | nil =>
    cases made
    exact .none
  | cons t rest ih =>
    rw [expsOf] at made
    obtain ⟨e, first, made⟩ := bind_ok made
    obtain ⟨others, later, made⟩ := bind_ok made
    cases made
    rw [expsProblem?]
    refine ((inner t (by simp)).exp e first).or (.or ?_ (ih (fun u member => inner u (by simp [member])) later))
    split
    · exact .unsupported _ _
    · exact .none

theorem flatExpOf_refusal {range : TextRange} {flat : FlatExp} (made : flatExpOf range ts = .ok flat) :
    Refusal (flat.assemble.problem? source) := by
  unfold flatExpOf at made
  split at made
  · obtain ⟨more, -, made⟩ := bind_ok made
    cases made
    exact Exp.refusal_of_isOperation source (FlatExp.isOperation_assemble (.inl (by simp)))
  · obtain ⟨e, primary, made⟩ := bind_ok made
    cases made
    exact (inner _ (by simp)).primary e primary
  · obtain ⟨e, -, made⟩ := bind_ok made
    obtain ⟨more, -, made⟩ := bind_ok made
    cases made
    exact Exp.refusal_of_isOperation source (FlatExp.isOperation_assemble (.inr (by simp)))
  · cases made

theorem callsOf_refusal {calls : List Call} (made : callsOf ts = .ok calls) :
    ∀ c ∈ calls, Refusal (c.problem? source) := by
  induction ts generalizing calls with
  | nil =>
    cases made
    simp
  | cons t rest ih =>
    rw [callsOf] at made
    obtain ⟨c, first, made⟩ := bind_ok made
    obtain ⟨others, later, made⟩ := bind_ok made
    cases made
    intro d member
    rcases List.mem_cons.mp member with rfl | member
    · exact (inner t (by simp)).call d first
    · exact ih (fun u member => inner u (by simp [member])) later d member

theorem prefixExpOf_refusal {range : TextRange} {p : PrefixExp} (made : prefixExpOf range ts = .ok p) :
    Refusal (p.problem? source) := by
  cases ts with
  | nil => cases made
  | cons t rest =>
    rw [prefixExpOf] at made
    obtain ⟨head, first, made⟩ := bind_ok made
    obtain ⟨calls, later, made⟩ := bind_ok made
    cases made
    have head_refusal := (inner t (by simp)).head head first
    have calls_refusal := callsOf_refusal (fun u member => inner u (by simp [member])) later
    match calls with
    | [] => exact head_refusal
    | [call] => exact head_refusal.or (calls_refusal call (by simp))
    | _ :: second :: _ => exact head_refusal.or (.unsupported _ _)

end Lists

theorem tame_token (source : Source) (r : Rule) (start : Nat) (text : List Char) :
    Tame source (.token r start text) where
  exp e made := by cases made
  primary e made := by
    cases r with
    | nil =>
      cases made
      exact .none
    | false | true | varArgs =>
      cases made
      exact .unsupported _ _
    | _ => cases made
  head h made := by cases made
  call c made := by cases made
  args a made := by cases made
  exps r range ts same := by cases same
  prefixExp r range ts same := by cases same

/-- The step from the trees inside a phrase to the phrase. -/
theorem tame_phrase {source : Source} (r : Rule) (range : TextRange) {children : List (ParseTree Rule)}
    (lexed : ∀ t ∈ children, t.Lexed grammar) (inner : ∀ t ∈ children, Tame source t) :
    Tame source (.phrase r range children) where
  exp e made := by
    cases r with
    | exp =>
      rw [expOf] at made
      obtain ⟨flat, row, made⟩ := bind_ok made
      cases made
      exact flatExpOf_refusal inner row
    | _ => cases made
  primary e made := by
    cases r with
    | number =>
      rcases children with _ | ⟨n, _ | _⟩
      · cases made
      · rw [primaryOf] at made
        obtain ⟨numeral, literal, made⟩ := bind_ok made
        cases made
        exact Numeral.refusal source (numeralOf_constant (lexed n (by simp)) literal) _
      · cases made
    | prefixExp =>
      rw [primaryOf] at made
      obtain ⟨p, prefixed, made⟩ := bind_ok made
      cases made
      exact prefixExpOf_refusal inner prefixed
    | functionDef =>
      rcases children with _ | ⟨b, _ | _⟩
      · cases made
      · rw [primaryOf] at made
        obtain ⟨body, -, made⟩ := bind_ok made
        cases made
        exact .unsupported _ _
      · cases made
    | string | table =>
      rw [primaryOf] at made
      obtain ⟨_, -, made⟩ := bind_ok made
      cases made
      exact .unsupported _ _
    | _ => cases made
  head h made := by
    unfold headOf at made
    split at made
    · obtain ⟨v, -, made⟩ := bind_ok made
      cases made
      exact Var.refusal source v
    · rename_i same
      cases same
      obtain ⟨e, inside, made⟩ := bind_ok made
      cases made
      exact (inner _ (by simp)).exp e inside
    · cases made
  call c made := by
    unfold callOf at made
    split at made
    · rename_i same
      cases same
      obtain ⟨args, given, made⟩ := bind_ok made
      cases made
      exact (inner _ (by simp)).args args given
    · obtain ⟨method, -, made⟩ := bind_ok made
      obtain ⟨args, -, made⟩ := bind_ok made
      cases made
      exact .unsupported _ _
    · cases made
  args a made := by
    unfold argsOf at made
    split at made
    · cases made
      exact .none
    · rename_i same
      cases same
      obtain ⟨es, listed, made⟩ := bind_ok made
      cases made
      exact (inner _ List.mem_cons_self).exps _ _ _ rfl es listed
    · obtain ⟨fields, -, made⟩ := bind_ok made
      cases made
      exact .unsupported _ _
    · obtain ⟨value, -, made⟩ := bind_ok made
      cases made
      exact .unsupported _ _
    · cases made
  exps r range ts same := by
    cases same
    exact fun es => expsOf_refusal inner
  prefixExp r range ts same := by
    cases same
    exact fun p => prefixExpOf_refusal inner

theorem tame_of_lexed (source : Source) {t : ParseTree Rule} (lexed : t.Lexed grammar) : Tame source t := by
  induction lexed with
  | token rule reads => exact tame_token source _ _ _
  | phrase inner ih => exact tame_phrase _ _ inner ih

/-- A statement of a parse tree can only be refused for a construct. -/
theorem statOf_refusal (source : Source) {t : ParseTree Rule} (lexed : t.Lexed grammar) {s : Stat}
    (made : statOf t = .ok s) : Refusal (s.problem? source) := by
  unfold statOf at made
  split at made
  · obtain ⟨targets, -, made⟩ := bind_ok made
    obtain ⟨values, listed, made⟩ := bind_ok made
    cases made
    cases lexed with | phrase inner =>
    have tame := tame_of_lexed source (inner _ (List.mem_cons_of_mem _ List.mem_cons_self))
    exact (Refusal.findSome? fun v _ => Var.refusal source v).or (tame.exps _ _ _ rfl values listed)
  · obtain ⟨p, prefixed, made⟩ := bind_ok made
    cases made
    exact (tame_of_lexed source lexed).prefixExp _ _ _ rfl p prefixed
  all_goals
    repeat obtain ⟨_, -, made⟩ := bind_ok made
    cases made
  all_goals exact .unsupported _ _

/-! ## Statements of a script -/

theorem statsOf_mem {ts : List (ParseTree Rule)} {stats : List Stat} {ret : Option Ret}
    (made : statsOf ts = .ok (stats, ret)) : ∀ s ∈ stats, ∃ t ∈ ts, statOf t = .ok s := by
  induction ts generalizing stats ret with
  | nil =>
    cases made
    simp
  | cons t rest ih =>
    unfold statsOf at made
    split at made
    · cases made
      simp
    · rename_i same
      cases same
      intro s member
      obtain ⟨u, listed, read⟩ := ih made s member
      exact ⟨u, List.mem_cons_of_mem _ listed, read⟩
    · obtain ⟨values, -, made⟩ := bind_ok made
      cases made
      simp
    · rename_i same
      cases same
      obtain ⟨first, read, made⟩ := bind_ok made
      obtain ⟨⟨others, ret'⟩, later, made⟩ := bind_ok made
      cases made
      intro s member
      rcases List.mem_cons.mp member with rfl | member
      · exact ⟨t, List.mem_cons_self, read⟩
      · obtain ⟨u, listed, read⟩ := ih later s member
        exact ⟨u, List.mem_cons_of_mem _ listed, read⟩

theorem blockOf_mem {t : ParseTree Rule} {block : Block} (made : blockOf t = .ok block) :
    ∃ range ts, t = .phrase .block range ts ∧ ∀ s ∈ block.stats, ∃ u ∈ ts, statOf u = .ok s := by
  unfold blockOf at made
  split at made
  · rename_i range ts
    obtain ⟨⟨stats, ret⟩, read, made⟩ := bind_ok made
    cases made
    exact ⟨range, ts, rfl, statsOf_mem read⟩
  · cases made

theorem chunkOf_block {t : ParseTree Rule} {chunk : Chunk} (made : chunkOf t = .ok chunk) :
    ∃ range children b, t = .phrase .chunk range children ∧ b ∈ children ∧ blockOf b = .ok chunk.block := by
  unfold chunkOf at made
  split at made
  · obtain ⟨block, read, made⟩ := bind_ok made
    cases made
    exact ⟨_, _, _, rfl, List.mem_cons_self, read⟩
  · obtain ⟨block, read, made⟩ := bind_ok made
    cases made
    exact ⟨_, _, _, rfl, by simp, read⟩
  · cases made

/-- The block of a chunk that was read comes from a tree of the grammar. -/
theorem Chunk.block_of_parse {source : Source} {chunk : Chunk} (read : Chunk.parse source = .ok chunk) :
    ∃ range children b, matchChunk source.text.toList = some (.phrase .chunk range children) ∧ b ∈ children ∧
      blockOf b = .ok chunk.block := by
  unfold Chunk.parse at read
  simp only at read
  split at read
  · cases read
  · rename_i tree matched
    cases made : chunkOf tree with
    | error e =>
      rw [made] at read
      cases read
    | ok chunk' =>
      rw [made] at read
      cases read
      obtain ⟨range, children, b, rfl, listed, block⟩ := chunkOf_block made
      exact ⟨range, children, b, matched, listed, block⟩

/-- The statements of a chunk that was read come from the trees in the block of a tree of the grammar. -/
theorem Chunk.stats_of_parse {source : Source} {chunk : Chunk} (read : Chunk.parse source = .ok chunk) :
    ∃ range children r ts, matchChunk source.text.toList = some (.phrase .chunk range children) ∧
      .phrase .block r ts ∈ children ∧ ∀ s ∈ chunk.block.stats, ∃ u ∈ ts, statOf u = .ok s := by
  obtain ⟨range, children, b, matched, listed, block⟩ := block_of_parse read
  obtain ⟨r, ts, rfl, stats⟩ := blockOf_mem block
  exact ⟨range, children, r, ts, matched, listed, stats⟩

theorem matchChunk_lexed {text : List Char} {tree : ParseTree Rule} (matched : matchChunk text = some tree) :
    tree.Lexed grammar := by
  unfold matchChunk at matched
  split at matched
  · rename_i found
    cases matched
    exact grammar.parse_lexed _ _ _ _ _ found tree (by simp)
  · cases matched

/-- A chunk that was read can only be refused for a construct. -/
theorem Chunk.parse_refusal {source : Source} {chunk : Chunk} (read : Chunk.parse source = .ok chunk) :
    Refusal (chunk.problem? source) := by
  obtain ⟨range, children, r, ts, matched, listed, stats⟩ := stats_of_parse read
  have refusal (s : Stat) (member : s ∈ chunk.block.stats) : Refusal (s.problem? source) := by
    obtain ⟨u, inside, made⟩ := stats s member
    cases matchChunk_lexed matched with | phrase lexed =>
    cases lexed _ listed with | phrase lexed =>
    exact statOf_refusal source (lexed u inside) made
  refine (Refusal.findSome? refusal).or ?_
  cases chunk.block.ret with
  | none => exact .none
  | some ret => exact .unsupported _ _

end Syntax

open Syntax

theorem Source.compile_of_parse_error {source : Source} {e : SyntaxError} (failed : Chunk.parse source = .error e) :
    source.compile = .error (.parse e) := by
  simp [compile, compileWith, compileLogged, failed]

theorem Source.compile_of_parse_ok {source : Source} {chunk : Chunk} (read : Chunk.parse source = .ok chunk) :
    source.compile = (chunk.lower source .full).mapError .lower := by
  simp [compile, compileWith, compileLogged, read, Chunk.lower]

theorem Source.lower_of_compile {source : Source} {m : Module} (compiled : source.compile = .ok m) :
    ∃ chunk, Chunk.parse source = .ok chunk ∧ chunk.lower source .full = .ok m := by
  cases read : Chunk.parse source with
  | error e =>
    rw [compile_of_parse_error read] at compiled
    cases compiled
  | ok chunk =>
    rw [compile_of_parse_ok read] at compiled
    refine ⟨chunk, rfl, ?_⟩
    cases lowered : chunk.lower source .full with
    | error e =>
      rw [lowered] at compiled
      cases compiled
    | ok m' =>
      rw [lowered] at compiled
      cases compiled
      rfl

/-- Compiling a script gives a syntax error, a module, or the refusal of a construct; no rule of the lowering is
ever broken. Which of them it is, the reading of the script and the first problem of its chunk tell. -/
theorem Source.compile_outcome (source : Source) :
    (∃ e, Chunk.parse source = .error e ∧ source.compile = .error (.parse e)) ∨
    (∃ chunk m, Chunk.parse source = .ok chunk ∧ chunk.problem? source = none ∧ source.compile = .ok m) ∨
    (∃ chunk construct span, Chunk.parse source = .ok chunk ∧
      chunk.problem? source = some (.unsupported construct span) ∧
      source.compile = .error (.lower (.unsupported construct span))) := by
  cases read : Chunk.parse source with
  | error e => exact .inl ⟨e, rfl, compile_of_parse_error read⟩
  | ok chunk =>
    right
    have compiled := compile_of_parse_ok read
    cases problem : chunk.problem? source with
    | none =>
      obtain ⟨m, lowered⟩ := Chunk.lower_of_problem?_eq_none problem
      rw [lowered] at compiled
      exact .inl ⟨chunk, m, rfl, problem, compiled⟩
    | some e =>
      obtain ⟨construct, span, rfl⟩ := Chunk.parse_refusal read e problem
      rw [Chunk.lower_of_problem?_eq_some problem] at compiled
      exact .inr ⟨chunk, construct, span, rfl, problem, compiled⟩

end LuaLowering
