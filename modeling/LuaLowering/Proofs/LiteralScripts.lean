import LuaLowering.Proofs.WordEnds
/-!
# Scripts that assign a literal

A script `n = t`, where `t` is a single token that the grammar reads as an operand, is one assignment of that operand to
`n` and nothing else (`Chunk.parse_literal`).
-/
namespace LuaLowering.Syntax
open Peg Peg.Pattern Lexeme

/-- The token is an operand of its own: no operator is read from it, and at the end of a script it is read whole, as an
expression of this kind. -/
structure IsLiteral (t : String) (kind : ExpKind) : Prop where
  notUnary : Fails Grammar.unaryOp [t]
  read : Matches Grammar.primary [t] [] (One fun tree => Gives Exp.erase (primaryOf tree) ⟨kind, none⟩)

/-- A script with nothing but an assignment of one expression to one name. -/
def Chunk.assigning (n : String) (kind : ExpKind) : Chunk :=
  ⟨⟨[⟨.assign [⟨.name n, [], none⟩] [⟨kind, none⟩], none⟩], none, none⟩, none⟩

section
variable {n t : String} {kind : ExpKind}

theorem IsLiteral.matches_exp (literal : IsLiteral t kind) :
    Matches (.rule .exp) [t] [] (One fun tree => Gives Exp.erase (expOf tree) ⟨kind, none⟩) := by
  have operand : Matches Grammar.operand [t] [] _ := .seq_of_nil (.star_nil literal.notUnary) literal.read
  have noOperator : Fails (.seq Grammar.binaryOp Grammar.operand) [] := fails_nil (by decide)
  refine Matches.phrase (r := .exp) rfl (operand.seq_nil (.star_nil noOperator)) ?_
  rintro range ts ⟨tree, rfl, given⟩
  have single : IsOperand ⟨[], ⟨kind, none⟩⟩ [tree] := ⟨[], tree, rfl, .nil, given⟩
  have row := flatExpOf_row single .nil range
  rw [List.append_nil] at row
  refine row.bind fun f same => .ok ?_
  rw [FlatExp.erase_assemble, same]
  rfl

theorem IsLiteral.matches_exps (literal : IsLiteral t kind) : Matches (.rule .exps) [t] []
    (One fun tree => ∃ range ts, tree = .phrase .exps range ts ∧ Gives expsErase (expsOf ts) [⟨kind, none⟩]) := by
  have noOther : Fails (.seq (.text ",") (.rule .exp)) [] := fails_nil (by decide)
  refine Matches.phrase (r := .exps) rfl (literal.matches_exp.seq_nil (.star_nil noOther)) ?_
  rintro range ts ⟨tree, rfl, given⟩
  have rows : Rows (fun e => One fun t => Gives Exp.erase (expOf t) e) [⟨kind, none⟩] ([tree] ++ []) :=
    .cons ⟨tree, rfl, given⟩ .nil
  exact ⟨range, _, rfl, expsOf_rows rows⟩

theorem IsLiteral.matches_stat (literal : IsLiteral t kind) (identifier : isIdentifier n = true) :
    Matches Grammar.stat [n, "=", t] []
      (One fun tree => Gives Stat.erase (statOf tree) ⟨.assign [⟨.name n, [], none⟩] [⟨kind, none⟩], none⟩) := by
  have target : (Var.mk (.name n) [] none).Reads := Var.reads_name identifier (by simp) none
  have targets := Stat.matches_vars (List.cons_ne_nil _ []) (List.forall_mem_singleton.mpr target) [t]
  have inner := targets.seq (.text_seq (by decide) literal.matches_exps)
  refine .pick_of_opening [] (.inl ⟨n, _, rfl, identifier⟩) (by simp) (by rfl) (by rfl)
    (Matches.phrase (r := .assignStat) rfl inner ?_)
  rintro range ts ⟨us, vs, rfl, ⟨u, rfl, range₁, ws, rfl, first⟩, v, rfl, range₂, xs, rfl, second⟩
  exact first.bind fun x same => second.bind fun y same' => .ok (by simp [same, same'])

theorem IsLiteral.matches_block (literal : IsLiteral t kind) (identifier : isIdentifier n = true) :
    Matches (.rule .block) [n, "=", t] []
      (One fun tree => Gives Block.erase (blockOf tree) (Chunk.assigning n kind).block) := by
  have noStat : Fails Grammar.stat [] := fails_nil (by decide)
  have noRet : Fails (.rule .retStat) [] := fails_nil (by decide)
  have stats := Matches.star (literal.matches_stat identifier) (Rounds.done noStat)
  refine Matches.phrase (r := .block) rfl (stats.seq_nil (.opt_nil noRet)) ?_
  rintro range _ ⟨us, vs, rfl, ⟨tree, rfl, given⟩, rfl⟩
  -- a statement is no semicolon and no return
  have parts : Gives blockParts (statsOf [tree]) ((Chunk.assigning n kind).block.stats, none) := by
    rw [statsOf]
    · exact given.bind fun s same => .ok (by simp [blockParts, Chunk.assigning, same])
    · rintro start text rfl
      obtain ⟨x, made, -⟩ := given
      cases made
    · rintro range ts rfl
      obtain ⟨x, made, -⟩ := given
      cases made
  refine parts.bind fun pair same => .ok ?_
  obtain ⟨ss, ret⟩ := pair
  cases ret with
  | none =>
    simp only [blockParts, Prod.mk.injEq] at same
    simp [same, Chunk.assigning]
  | some ret => cases congrArg Prod.snd same

theorem IsLiteral.matches_chunk (literal : IsLiteral t kind) (identifier : isIdentifier n = true) :
    Matches (.rule .chunk) [n, "=", t] []
      (One fun tree => Gives Chunk.erase (chunkOf tree) (Chunk.assigning n kind)) := by
  have noShebang : Fails (.rule .shebang) ([n, "=", t] ++ []) := .of_shape (opens_name identifier _) (by rfl)
  have whole := (literal.matches_block identifier).seq matches_finish
  refine Matches.phrase (r := .chunk) rfl
    (.seq_of_nil (matches_nothing _) (.seq_of_nil (.opt_nil noShebang) whole)) ?_
  rintro range ts ⟨us, vs, rfl, ⟨tree, rfl, given⟩, e, rfl, -⟩
  obtain ⟨range', ts, rfl⟩ := eq_phrase_of_block given
  exact given.bind fun b same => .ok (by simp [Chunk.relabel, same])

/-- A script that assigns a literal is read as this assignment, up to ranges. -/
theorem Chunk.parse_literal (literal : IsLiteral t kind) (identifier : isIdentifier n = true) (file : String) :
    ∃ chunk, Chunk.parse ⟨file, n ++ " = " ++ t⟩ = .ok chunk ∧ chunk.erase = (assigning n kind).erase := by
  have text : (n ++ " = " ++ t).toList = joined ([n, "=", t] ++ []) := by
    simp [joined, spaced]
  obtain ⟨ts, d, found, -, tree, rfl, chunk, made, same⟩ :=
    (literal.matches_chunk identifier).found clean_nil ⟨0, (n ++ " = " ++ t).toList⟩ text
  rw [tries_rule] at found
  have matched : matchChunk (n ++ " = " ++ t).toList = some tree := by
    have parsed : grammar.parse (depthBound _) .chunk ⟨0, (n ++ " = " ++ t).toList⟩ = some ([tree], d) := found
    rw [matchChunk, parsed]
  exact ⟨chunk, parse_of_matchChunk matched made file, same⟩

end
end LuaLowering.Syntax
