import LuaLowering.Proofs.Placement
/-!
# Ranges of the nodes of a script

A script is read as pieces (`piecesOf`), and every node of its tree is `WellPlaced` among them (`Chunk.parse_placed`).
The range of the node lies in the script and on the boundaries of characters. The nodes inside it lie inside its range,
one behind the other. Unless the node is an empty block, the range starts at a token and ends with one token and the
gaps behind it.
-/
namespace LuaLowering
namespace Syntax
open Peg Lexeme

/-! ## Ranges and the text -/

mutual

/-- The node and all nodes inside it. -/
def Sketch.nodes : Sketch → List Sketch
  | .node kind range children => .node kind range children :: nodesOf children

def nodesOf : List Sketch → List Sketch
  | [] => []
  | o :: os => o.nodes ++ nodesOf os

end

/-- The pieces that lie between two offsets. -/
def Between (ps : List Piece) (start stop : Nat) (inner : List Piece) : Prop :=
  ∃ before after, ps = before ++ inner ++ after ∧ Text.byteSize (spelled before) = start ∧
    Text.byteSize (spelled (before ++ inner)) = stop

/-- What the range of a node says about the script, which is cut into pieces. -/
structure WellPlaced (script : List Char) (ps : List Piece) (o : Sketch) (range : TextRange) : Prop where
  ordered : range.start ≤ range.last ∧ range.last ≤ range.stop ∧ range.stop ≤ Text.byteSize script
  boundaries : IsBoundary script range.start ∧ IsBoundary script range.last ∧ IsBoundary script range.stop
  inside : ∀ child ∈ o.children, ∃ r, child.range = some r ∧ range.start ≤ r.start ∧ r.stop ≤ range.stop
  apart : o.children.Pairwise fun a b => ∀ r s, a.range = some r → b.range = some s → r.stop ≤ s.start
  /-- An empty block is one place. Any other node starts with a token, and from `last` to `stop` there is one token
  with nothing but gaps behind it. -/
  tokens : (o.kind = .block ∧ o.children = [] ∧ range.start = range.last ∧ range.last = range.stop) ∨
    (∃ token stop, Between ps range.start stop [token] ∧ token.kind = .token) ∧ range.last < range.stop ∧
      ∃ token gaps, Between ps range.last range.stop (token :: gaps) ∧ token.kind = .token ∧ ∀ gap ∈ gaps, gap.IsGap

/-- A fresh token starts at the offset, or the script ends there. -/
def OpensAt (script : List Char) (ps : List Piece) (offset : Nat) : Prop :=
  FreshAt ps offset ∨ offset = Text.byteSize script

section Script
variable {script : List Char} {ps : List Piece} {low high : Nat} {range : TextRange} {children os : List Sketch}

theorem Placed.inside (placed : Placed (OpensAt script ps) ps low high os) :
    ∀ o ∈ os, ∃ r, o.range = some r ∧ low ≤ r.start ∧ r.stop ≤ high := by
  induction placed with
  | nil le => nofun
  | @cons low high kind range children os le ranged holds inner rest _ ihRest =>
    intro o member
    rcases List.mem_cons.mp member with rfl | later
    · exact ⟨range, rfl, le, rest.le⟩
    · obtain ⟨r, same, start, stop⟩ := ihRest o later
      have apart := inner.le
      exact ⟨r, same, by omega, stop⟩

theorem Placed.apart (placed : Placed (OpensAt script ps) ps low high os) :
    os.Pairwise fun a b => ∀ r s, a.range = some r → b.range = some s → r.stop ≤ s.start := by
  induction placed with
  | nil le => exact .nil
  | @cons low high kind range children os le ranged holds inner rest _ ihRest =>
    refine .cons (fun b member r s first second => ?_) ihRest
    cases first
    obtain ⟨r, same, start, -⟩ := rest.inside b member
    cases same.symm.trans second
    exact start

/-- What holds of a node that is placed holds of every node. -/
theorem Placed.forall_nodes {places : Nat → Prop} {Q : Sketch → TextRange → Prop}
    (each : ∀ kind range children, NodeKind.Ranged places ps kind range → kind.Holds children →
      Placed places ps range.start range.stop children → Q (.node kind (some range) children) range)
    (placed : Placed places ps low high os) : ∀ o ∈ nodesOf os, ∃ range, o.range = some range ∧ Q o range := by
  induction placed with
  | nil le => simp [nodesOf]
  | @cons low high kind range children os le ranged holds inner rest ihInner ihRest =>
    intro o member
    simp only [nodesOf, Sketch.nodes, List.cons_append, List.mem_cons, List.mem_append] at member
    rcases member with rfl | child | later
    · exact ⟨range, rfl, each kind range children ranged holds inner⟩
    · exact ihInner o child
    · exact ihRest o later

/-- A node starts with a fresh token, or it is an empty block at the end. -/
theorem Placed.opensAt_nodes {root : Sketch} (placed : Placed (OpensAt script ps) ps low high [root]) :
    ∀ o ∈ root.nodes, ∃ range, o.range = some range ∧ OpensAt script ps range.start := by
  intro o member
  refine placed.forall_nodes (Q := fun _ range => OpensAt script ps range.start)
    (fun kind range children ranged _ _ => ?_) o (List.mem_append_left _ member)
  rcases ranged with fits | ⟨-, isPlace⟩
  · exact .inl fits.first
  · exact isPlace.2.2

variable (path : Path ⟨0, script⟩ ps ⟨Text.byteSize script, []⟩)
include path

theorem spelled_eq : spelled ps = script := by
  have whole := path.rest_eq
  simpa using whole.symm

theorem between_of_infix {p : Piece} {inner : List Piece} (inside : p :: inner <:+: ps) :
    Between ps p.start (p.start + Text.byteSize (spelled (p :: inner))) (p :: inner) := by
  obtain ⟨before, after, rfl⟩ := inside
  rw [List.append_assoc] at path
  obtain ⟨middle, front, back⟩ := path.split
  have start : p.start = Text.byteSize (spelled before) := by
    rw [back.start_eq, front.offset_eq, Nat.zero_add]
  refine ⟨before, after, rfl, start.symm, ?_⟩
  rw [start]
  simp [spelled]

theorem Between.isBoundary {start stop : Nat} {inner : List Piece} (between : Between ps start stop inner) :
    IsBoundary script start ∧ IsBoundary script stop := by
  obtain ⟨before, after, rfl, rfl, rfl⟩ := between
  rw [← spelled_eq path]
  exact ⟨⟨spelled before, spelled (inner ++ after), by simp [spelled], rfl⟩,
    ⟨spelled (before ++ inner), spelled after, by simp [spelled], rfl⟩⟩

/-- The pieces are cut in two where a fresh token starts. -/
theorem OpensAt.cut {offset : Nat} (opens : OpensAt script ps offset) :
    ∃ before after, ps = before ++ after ∧ Text.byteSize (spelled before) = offset ∧ Fresh (spelled after) ∧
      ∀ p ∈ after.head?, p.kind = .token := by
  rcases opens with ⟨token, member, isToken, rfl, fresh⟩ | rfl
  · obtain ⟨before, after, rfl⟩ := List.append_of_mem member
    obtain ⟨middle, front, back⟩ := path.split
    obtain ⟨rest, reads⟩ := path.reads_of_mem member
    rw [isToken] at reads
    have fresh' : Fresh (spelled (token :: after)) := by simpa [spelled] using fresh.append reads.1.ne_nil _
    refine ⟨before, token :: after, rfl, ?_, fresh', by simpa using isToken⟩
    rw [back.start_eq, front.offset_eq, Nat.zero_add]
  · exact ⟨ps, [], by simp, by rw [spelled_eq path], fresh_of_isFresh rfl, by simp⟩

theorem Fits.last_lt (fits : Fits ps range) : range.last < range.stop := by
  obtain ⟨token, gaps, inside, isToken, -, -, stop⟩ := fits.last
  obtain ⟨rest, reads⟩ := path.reads_of_mem (inside.subset List.mem_cons_self)
  rw [isToken] at reads
  have positive := Text.byteSize_pos reads.1.ne_nil
  rw [← stop]
  simp only [spelled, List.flatMap_cons, Text.byteSize_append]
  omega

theorem IsPlace.wellPlaced (isPlace : IsPlace (OpensAt script ps) range) (holds : NodeKind.block.Holds children)
    (inner : Placed (OpensAt script ps) ps range.start range.stop children) :
    WellPlaced script ps (.node .block (some range) children) range := by
  obtain ⟨start, stop, opens⟩ := isPlace
  have boundary : IsBoundary script range.start := by
    obtain ⟨before, after, split, size, -⟩ := opens.cut path
    exact ⟨spelled before, spelled after, by simp [← spelled_eq path, split, spelled], size⟩
  have bound := boundary.le
  -- a statement would need room for a token
  have empty : children = [] := by
    cases inner with
    | nil le => rfl
    | cons le ranged _ within rest =>
      have fits := ranged.resolve_right fun unlike => holds rfl _ List.mem_cons_self unlike.1
      have further := fits.last_lt path
      have ordered := fits.ordered
      have room := rest.le
      omega
  refine ⟨⟨by omega, by omega, by omega⟩, ⟨boundary, ?_, ?_⟩, inner.inside, inner.apart, .inl ⟨rfl, empty, start, stop⟩⟩
  · rwa [← start]
  · rwa [← stop, ← start]

theorem Fits.wellPlaced {kind : NodeKind} (fits : Fits ps range)
    (inner : Placed (OpensAt script ps) ps range.start range.stop children) :
    WellPlaced script ps (.node kind (some range) children) range := by
  obtain ⟨first, member, isFirst, start, -⟩ := fits.first
  obtain ⟨last, gaps, inside, isLast, areGaps, startLast, stop⟩ := fits.last
  obtain ⟨before, after, split⟩ := List.append_of_mem member
  have betweenFirst : Between ps first.start _ [first] := between_of_infix path ⟨before, after, by simp [split]⟩
  have betweenLast := between_of_infix path inside
  rw [start] at betweenFirst
  rw [startLast, stop] at betweenLast
  obtain ⟨boundaryStart, -⟩ := betweenFirst.isBoundary path
  obtain ⟨boundaryLast, boundaryStop⟩ := betweenLast.isBoundary path
  have further := fits.last_lt path
  exact ⟨⟨fits.ordered, further.le, boundaryStop.le⟩, ⟨boundaryStart, boundaryLast, boundaryStop⟩,
    inner.inside, inner.apart,
    .inr ⟨⟨first, _, betweenFirst, isFirst⟩, further, last, gaps, betweenLast, isLast, areGaps⟩⟩

theorem Placed.wellPlaced_nodes {root : Sketch} (placed : Placed (OpensAt script ps) ps low high [root]) :
    ∀ o ∈ root.nodes, ∃ range, o.range = some range ∧ WellPlaced script ps o range := by
  intro o member
  refine placed.forall_nodes (Q := WellPlaced script ps) (fun kind range children ranged holds inner => ?_) o
    (List.mem_append_left _ member)
  rcases ranged with fits | ⟨rfl, isPlace⟩
  · exact fits.wellPlaced path inner
  · exact isPlace.wellPlaced path holds inner

end Script

/-! ## Scripts -/

/-- What stands before the block of a script, if anything, is one line. -/
theorem shebang_path {depth : Nat} {c d : Cursor} {ts : List (ParseTree Rule)} {ps : List Piece}
    (found : tracePattern (trace depth) (.opt (.rule .shebang)) c = some (ts, ps, d)) :
    Path c ps d ∧ ∀ t ∈ ts, t.rule = .shebang := by
  rw [tracePattern] at found
  split at found
  · cases found
    exact ⟨.nil c, by simp⟩
  · have body : grammar.body .shebang = .token (.seq (.literal ['#']) line) := rfl
    obtain ⟨text, rest, scanned, rfl, rfl, rfl⟩ := trace_token_eq_some body found
    have here := splits_token body _ _ _ scanned
    have reads : PieceKind.shebang.Reads text rest := by rwa [PieceKind.Reads, ← here]
    obtain ⟨x, y, whole, hash, -⟩ := Scanner.reads_seq ⟨_, _, scanned⟩
    have some_text : text ≠ [] := by simp [whole, Scanner.reads_literal hash]
    rw [pieceAt_of_ne_nil some_text]
    exact ⟨.single .shebang reads here, by simp [ParseTree.rule]⟩

theorem finish_eq {depth : Nat} {c d : Cursor} {ts : List (ParseTree Rule)} {ps : List Piece}
    (found : tracePattern (trace depth) (.rule .finish) c = some (ts, ps, d)) :
    c.rest = [] ∧ ps = [] ∧ ∀ t ∈ ts, t.rule = .finish := by
  have body : grammar.body .finish = .token .finish := rfl
  obtain ⟨text, rest, scanned, rfl, rfl, -⟩ := trace_token_eq_some body found
  unfold Scanner.finish at scanned
  split at scanned
  · rename_i isEnd
    cases scanned
    exact ⟨isEnd, rfl, by simp [ParseTree.rule]⟩
  · cases scanned

theorem trace_of_matchChunk {script : List Char} {range : TextRange} {children : List (ParseTree Rule)}
    (matched : matchChunk script = some (.phrase .chunk range children)) :
    ∃ depth ps d, piecesOf script = some ps ∧
      tracePattern (trace depth) (Pattern.all [.text "", .opt (.rule .shebang), .rule .block, .rule .finish])
        ⟨0, script⟩ = some (children, ps, d) := by
  unfold matchChunk at matched
  unfold piecesOf
  split at matched
  · rename_i found
    cases matched
    generalize depthBound script = depth at found ⊢
    rw [parse_eq_trace] at found
    cases depth with
    | zero => cases found
    | succ depth =>
      obtain ⟨traced, read, same⟩ := Option.map_eq_some_iff.mp found
      rw [read]
      rw [trace] at read
      obtain ⟨⟨ts, ps, d⟩, run, rfl⟩ := Option.map_eq_some_iff.mp read
      cases same
      exact ⟨depth, ps, d, rfl, run⟩
  · cases matched

/-- The parts of a script that was read: perhaps a first line, and the block. -/
theorem matchChunk_parts {script : List Char} {range : TextRange} {children : List (ParseTree Rule)}
    (matched : matchChunk script = some (.phrase .chunk range children)) :
    ∃ depth us line c vs inner d,
      piecesOf script = some (gaps ⟨0, script⟩ ++ line ++ gaps c ++ inner ++ gaps d) ∧
      tracePattern (trace depth) (.opt (.rule .shebang)) (grammar.skip ⟨0, script⟩) = some (us, line, c) ∧
      trace depth .block (grammar.skip c) = some (vs, inner, d) ∧ (grammar.skip d).rest = [] ∧
      ∀ b ∈ children, b.rule = .block → vs = [b] := by
  obtain ⟨depth, ps, final, pieces, run⟩ := trace_of_matchChunk matched
  obtain ⟨_, _, _, _, _, start, fromFront, rfl, rfl⟩ := tracePattern_seq_eq_some run
  obtain ⟨us, line, c, _, _, front, fromBlock, rfl, rfl⟩ := tracePattern_seq_eq_some fromFront
  obtain ⟨vs, inner, d, ws, none, block, finish, rfl, rfl⟩ := tracePattern_seq_eq_some fromBlock
  cases start
  obtain ⟨isEnd, rfl, isFinish⟩ := finish_eq finish
  refine ⟨depth, us, line, c, vs, inner, d, by simpa using pieces, front, block, isEnd, fun b member isBlock => ?_⟩
  simp only [List.nil_append, List.mem_append] at member
  rcases member with inFront | inBlock | inFinish
  · cases ((shebang_path front).2 b inFront).symm.trans isBlock
  · have ofBlock : grammar.parse depth .block (grammar.skip c) = some (vs, d) := by
      rw [parse_eq_trace]
      exact congrArg (Option.map Trace.outcome) block
    obtain ⟨t, rfl, -⟩ := List.map_eq_singleton_iff.mp (grammar.parse_rule depth ofBlock)
    obtain rfl := List.mem_singleton.mp inBlock
    rfl
  · cases (isFinish b inFinish).symm.trans isBlock

/-- The pieces that a script was read as lie end to end from its front to its end, and the block lies among them. -/
theorem matchChunk_row {script : List Char} {range : TextRange} {children : List (ParseTree Rule)}
    (matched : matchChunk script = some (.phrase .chunk range children)) :
    ∃ ps, piecesOf script = some ps ∧ Path ⟨0, script⟩ ps ⟨Text.byteSize script, []⟩ ∧
      ∀ b ∈ children, b.rule = .block → ∃ low high, Row (OpensAt script ps) ps low high [b] := by
  obtain ⟨depth, us, line, c, vs, inner, d, pieces, front, block, isEnd, isBlock⟩ := matchChunk_parts matched
  have before := (skip_path ⟨0, script⟩).1.trans (shebang_path front).1
  obtain ⟨e, -, read⟩ := trace_readAs depth .block rfl _ _ (ready_skip (before.standsIn ⟨[], rfl, rfl⟩)) block
  have path := ((before.trans (skip_path c).1).trans read.path).trans (skip_path d).1
  have within : inner <:+: gaps ⟨0, script⟩ ++ line ++ gaps c ++ inner ++ gaps d :=
    ⟨gaps ⟨0, script⟩ ++ line ++ gaps c, gaps d, rfl⟩
  have ended := path.ended isEnd
  refine ⟨_, pieces, ended ▸ path, fun b member ofBlock => ?_⟩
  obtain rfl := isBlock b member ofBlock
  refine ⟨_, _, read.row.mono within fun offset here => ?_⟩
  rcases here with fresh | ⟨-, rfl, settled⟩
  · exact .inl (fresh.mono within.subset)
  · rw [skip_settled settled] at ended
    exact .inr (congrArg Cursor.offset ended)

/-- The block of a script that was read lies among the pieces that the script was read as. -/
theorem Chunk.placed_of_parse {source : Source} {chunk : Chunk} (read : Chunk.parse source = .ok chunk) :
    ∃ ps low high, piecesOf source.text.toList = some ps ∧
      Path ⟨0, source.text.toList⟩ ps ⟨Text.byteSize source.text.toList, []⟩ ∧
      Placed (OpensAt source.text.toList ps) ps low high [chunk.block.sketch] := by
  obtain ⟨range, children, b, matched, listed, made⟩ := block_of_parse read
  obtain ⟨ps, pieces, path, rows⟩ := matchChunk_row matched
  obtain ⟨r, ts, rfl, -⟩ := blockOf_mem made
  obtain ⟨low, high, row⟩ := rows _ listed rfl
  have laid := (throughout_laid (OpensAt source.text.toList ps) ps (.phrase .block r ts)).here.block
  exact ⟨ps, low, high, pieces, path, laid _ made low low high (.nil (Nat.le_refl _)) row⟩

/-- Every node of a script that was read has a range, and the node is placed well among the pieces that the script was
read as. -/
theorem Chunk.parse_placed {source : Source} {chunk : Chunk} (read : Chunk.parse source = .ok chunk) :
    ∃ ps, piecesOf source.text.toList = some ps ∧
      Path ⟨0, source.text.toList⟩ ps ⟨Text.byteSize source.text.toList, []⟩ ∧
      ∀ o ∈ chunk.block.sketch.nodes, ∃ range, o.range = some range ∧ WellPlaced source.text.toList ps o range := by
  obtain ⟨ps, low, high, pieces, path, placed⟩ := placed_of_parse read
  exact ⟨ps, pieces, path, placed.wellPlaced_nodes path⟩

/-- A script with an empty block, operators, a name that begins with a reserved word, and comments that hold more than
ASCII or begin right behind a token. -/
def commented : Source := ⟨"main.lua", "do end --[[é]] x=-(1)+info[2]--y"⟩

/-- The ranges of its nodes. The empty block is the third. -/
def commentedRanges : List TextRange :=
  [⟨0, 29, 33⟩, ⟨0, 3, 6⟩, ⟨3, 3, 3⟩, ⟨16, 29, 33⟩, ⟨16, 16, 17⟩, ⟨18, 29, 33⟩, ⟨18, 21, 22⟩, ⟨19, 21, 22⟩,
    ⟨20, 20, 21⟩, ⟨23, 29, 33⟩, ⟨23, 29, 30⟩, ⟨28, 28, 29⟩]

/-- The pieces that it is read as. -/
def commentedPieces : List Piece :=
  [⟨.token, 0, "do".toList⟩, ⟨.blank, 2, " ".toList⟩, ⟨.token, 3, "end".toList⟩, ⟨.blank, 6, " ".toList⟩,
    ⟨.comment, 7, "--[[é]]".toList⟩, ⟨.blank, 15, " ".toList⟩, ⟨.token, 16, "x".toList⟩, ⟨.token, 17, "=".toList⟩,
    ⟨.token, 18, "-".toList⟩, ⟨.token, 19, "(".toList⟩, ⟨.token, 20, "1".toList⟩, ⟨.token, 21, ")".toList⟩,
    ⟨.token, 22, "+".toList⟩, ⟨.token, 23, "info".toList⟩, ⟨.token, 27, "[".toList⟩, ⟨.token, 28, "2".toList⟩,
    ⟨.token, 29, "]".toList⟩, ⟨.comment, 30, "--y".toList⟩]

theorem Chunk.parse_placed_commented : ∃ chunk, Chunk.parse commented = .ok chunk ∧
    chunk.block.sketch.nodes.map Sketch.range = commentedRanges.map some ∧
    piecesOf commented.text.toList = some commentedPieces ∧
    Path ⟨0, commented.text.toList⟩ commentedPieces ⟨33, []⟩ ∧
    ∀ o ∈ chunk.block.sketch.nodes, ∃ range, o.range = some range ∧
      WellPlaced commented.text.toList commentedPieces o range := by
  have ranges : (Chunk.parse commented).toOption.map (·.block.sketch.nodes.map Sketch.range) =
      some (commentedRanges.map some) := by
    decide +kernel
  have listed : piecesOf commented.text.toList = some commentedPieces := by decide +kernel
  cases read : Chunk.parse commented with
  | error e =>
    rw [read] at ranges
    cases ranges
  | ok chunk =>
    rw [read] at ranges
    obtain ⟨ps, pieces, path, placed⟩ := parse_placed read
    cases listed.symm.trans pieces
    exact ⟨chunk, rfl, Option.some.inj ranges, listed, path, placed⟩

end Syntax
end LuaLowering
