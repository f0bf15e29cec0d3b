import LuaLowering.Proofs.StringLiterals
/-!
# Comments that open with a long bracket

Two hyphens and an opening bracket begin a long comment if the bracket is closed somewhere behind them. If it is not,
the comment ends with its line, like any other, and the lines below it are read (`Chunk.parse_longComment`). Either way
a script that begins with a comment is read as if it began with as many spaces as the comment has bytes.
-/
namespace LuaLowering

namespace Lexeme
open Peg LongBracket

/-! ## Comments and spaces -/

/-- What is skipped behind some blanks does not depend on them. -/
theorem trivia_eq_append {w : List Char} (blanks : ∀ c ∈ w, isBlank c = true) (s : List Char) :
    trivia (w ++ s) = (w ++ (trivia s).1, (trivia s).2) := by
  have front : (w ++ s).takeWhile isBlank = w ++ s.takeWhile isBlank := List.takeWhile_append_of_pos blanks
  have back : (w ++ s).dropWhile isBlank = s.dropWhile isBlank := List.dropWhile_append_of_pos blanks
  cases found : comment (s.dropWhile isBlank) with
  | none => rw [trivia_eq_of_none (back ▸ found), trivia_eq_of_none found, front, back]
  | some pair =>
    rw [trivia_eq_of_comment (back ▸ found), trivia_eq_of_comment found, front]
    simp

/-- As many spaces as the text has bytes. -/
def blanked (text : List Char) : List Char := List.replicate (Text.byteSize text) ' '

theorem byteSize_blanked (text : List Char) : Text.byteSize (blanked text) = Text.byteSize text := by
  have spaces (n : Nat) : Text.byteSize (List.replicate n ' ') = n := by
    induction n with
    | zero => rfl
    | succ n ih =>
      rw [List.replicate_succ, Text.byteSize_cons, ih, Nat.add_comm]
      rfl
  exact spaces _

theorem isBlank_blanked (text : List Char) : ∀ c ∈ blanked text, isBlank c = true := by
  intro c member
  rw [(List.mem_replicate.mp member).2]
  rfl

/-- A comment is skipped like spaces in its place. -/
theorem skip_comment {t x rest : List Char} (found : comment ('-' :: t) = some (x, rest)) (offset : Nat) :
    Syntax.grammar.skip ⟨offset, '-' :: t⟩ = Syntax.grammar.skip ⟨offset, blanked x ++ rest⟩ := by
  have skipped : trivia ('-' :: t) = (x ++ (trivia rest).1, (trivia rest).2) := trivia_eq_of_comment found
  have skipped' := trivia_eq_append (isBlank_blanked x) rest
  simp only [Peg.Grammar.skip, Syntax.grammar, skipped, skipped', Text.byteSize_append, byteSize_blanked]

/-! ## Opened and closed brackets -/

/-- A bracket that is not closed is no long comment, and the comment ends with the line. -/
theorem comment_of_unclosed {level : Nat} {b : List Char} (unclosed : ¬ closing level <:+: b) :
    comment ('-' :: '-' :: (opening level ++ b)) =
      some ('-' :: '-' :: (opening level ++ b.takeWhile (· != '\n')), b.dropWhile (· != '\n')) := by
  have noBracket : LongBracket.scan (opening level ++ b) = none := by
    rw [scan_opening, Option.map_eq_none_iff, ← Option.not_isSome_iff_eq_none,
      isSome_cut_iff (closing_ne_nil level)]
    exact unclosed
  have oneLine : ∀ c ∈ opening level, (c != '\n') = true := by
    intro c member
    simp only [opening, List.cons_append, List.mem_cons, List.mem_append, List.mem_replicate, List.not_mem_nil,
      or_false] at member
    rcases member with rfl | ⟨-, rfl⟩ | rfl <;> rfl
  have ended : line (opening level ++ b) =
      some (opening level ++ b.takeWhile (· != '\n'), b.dropWhile (· != '\n')) := by
    rw [line, Scanner.many, List.takeWhile_append_of_pos oneLine, List.dropWhile_append_of_pos oneLine]
  rw [Insertion.comment_dashes, Scanner.alt, noBracket]
  simp only [ended, Option.map_some]

/-- A long comment ends with the first bracket that closes it. -/
theorem comment_of_closed {level : Nat} {inner : List Char} (first : ClosesFirst level inner) (rest : List Char) :
    comment ('-' :: '-' :: (opening level ++ (inner ++ closing level ++ rest))) =
      some ('-' :: '-' :: (opening level ++ inner ++ closing level), rest) := by
  have bracket := scan_bracketed first rest
  rw [List.append_assoc, List.append_assoc, ← List.append_assoc inner] at bracket
  rw [Insertion.comment_dashes, Scanner.alt, bracket]
  rfl

end Lexeme

namespace Syntax
open Peg Peg.Pattern Lexeme LongBracket

/-- What is read of a script depends on what is skipped at its start only by the number of bytes. -/
theorem matchChunk_of_skip {s s' : List Char} (same : grammar.skip ⟨0, s⟩ = grammar.skip ⟨0, s'⟩) :
    matchChunk s = matchChunk s' := by
  have alike (depth : Nat) : grammar.parse depth .chunk ⟨0, s⟩ = grammar.parse depth .chunk ⟨0, s'⟩ := by
    cases depth with
    | zero => rfl
    | succ depth =>
      have body : grammar.body .chunk =
          .phrase (.seq (.lit []) (.seq (.opt (.rule .shebang)) (all [rule .block, rule .finish]))) := rfl
      rw [Peg.Grammar.parse, Peg.Grammar.parse, body]
      simp only [run_nothing, same]
  rw [matchChunk, matchChunk, parse_depthBound s (depthBound s'), parse_depthBound s' (depthBound s), alike,
    Nat.add_comm]

theorem Chunk.parse_of_skip {s s' : List Char} (same : grammar.skip ⟨0, s⟩ = grammar.skip ⟨0, s'⟩) (file : String) :
    (Chunk.parse ⟨file, String.ofList s⟩).toOption = (Chunk.parse ⟨file, String.ofList s'⟩).toOption := by
  rw [parse, parse, String.toList_ofList, String.toList_ofList, matchChunk_of_skip same]
  cases matchChunk s' <;> rfl

/-- A script that begins with two hyphens and an opening bracket is read as if the comment were spaces, or it is refused
like that. If the bracket is never closed, the comment is the rest of the line; otherwise it ends with the first bracket
that closes it. -/
theorem Chunk.parse_longComment (file : String) (level : Nat) (b : List Char) :
    (¬ closing level <:+: b →
      (Chunk.parse ⟨file, String.ofList ('-' :: '-' :: (opening level ++ b))⟩).toOption =
        (Chunk.parse ⟨file, String.ofList (blanked ('-' :: '-' :: (opening level ++ b.takeWhile (· != '\n'))) ++
          b.dropWhile (· != '\n'))⟩).toOption) ∧
    ∀ inner rest, b = inner ++ closing level ++ rest → ClosesFirst level inner →
      (Chunk.parse ⟨file, String.ofList ('-' :: '-' :: (opening level ++ b))⟩).toOption =
        (Chunk.parse ⟨file, String.ofList (blanked ('-' :: '-' :: (opening level ++ inner ++ closing level)) ++
          rest)⟩).toOption := by
  constructor
  · intro unclosed
    exact parse_of_skip (skip_comment (comment_of_unclosed unclosed) 0) file
  · rintro inner rest rfl first
    exact parse_of_skip (skip_comment (comment_of_closed first rest) 0) file

/-- The line below a bracket that is not closed is read, also where a bracket of another level closes; the lines inside
a closed one are not. -/
theorem Chunk.parse_longComment_levels :
    ¬ closing 1 <:+: " ]]\nx = 1".toList ∧
    (Chunk.parse ⟨"main.lua", "--[=[ ]]\nx = 1"⟩).toOption = (Chunk.parse ⟨"main.lua", "        \nx = 1"⟩).toOption ∧
    ClosesFirst 0 "\ny = 2 ".toList ∧
    (Chunk.parse ⟨"main.lua", "--[[\ny = 2 ]]x = 1"⟩).toOption =
      (Chunk.parse ⟨"main.lua", "             x = 1"⟩).toOption := by
  have unclosed : ¬ closing 1 <:+: " ]]\nx = 1".toList := by decide
  have first : ClosesFirst 0 "\ny = 2 ".toList := by decide
  have belowLine := (parse_longComment "main.lua" 1 " ]]\nx = 1".toList).1 unclosed
  have behind := (parse_longComment "main.lua" 0 "\ny = 2 ]]x = 1".toList).2 "\ny = 2 ".toList "x = 1".toList
    (by decide) first
  have texts : String.ofList ('-' :: '-' :: (opening 1 ++ " ]]\nx = 1".toList)) = "--[=[ ]]\nx = 1" ∧
      String.ofList ('-' :: '-' :: (opening 0 ++ "\ny = 2 ]]x = 1".toList)) = "--[[\ny = 2 ]]x = 1" := by
    decide +kernel
  rw [texts.1] at belowLine
  rw [texts.2] at behind
  refine ⟨unclosed, belowLine.trans ?_, first, behind.trans ?_⟩
  · exact congrArg (fun text => (Chunk.parse ⟨"main.lua", text⟩).toOption) (by decide +kernel)
  · exact congrArg (fun text => (Chunk.parse ⟨"main.lua", text⟩).toOption) (by decide +kernel)

/-- A script whose first line opens a comment that is never closed, and what is read of it. -/
theorem Chunk.parse_longComment_unclosed : ¬ closing 0 <:+: "\nx = 1".toList ∧
    (Chunk.parse ⟨"main.lua", "--[[\nx = 1"⟩).toOption.map (·.block.stats.length) = some 1 := by
  decide +kernel

end Syntax
end LuaLowering
