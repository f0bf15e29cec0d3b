import LuaLowering.Proofs.Matching
/-!
# Pieces of a text

A script is cut into pieces: tokens, blanks, comments, and perhaps a first line that is none of these. A `Path` from
one cursor to another lists the pieces between them. No token begins where a blank or a comment does. Skipping trivia
follows the `gaps` at a cursor (`skip_path`) and stops where there is nothing to skip (`settled_trivia`), and each text
that a rule reads is a token (`isToken_of_body`).
-/
namespace LuaLowering

theorem Text.byteSize_pos {text : List Char} (some_text : text ≠ []) : 0 < byteSize text := by
  cases text with
  | nil => exact absurd rfl some_text
  | cons c text =>
    have positive := c.utf8Size_pos
    rw [byteSize_cons]
    omega

namespace Lexeme
open Peg

/-- Reserved words and symbols. -/
def fixed : List String :=
  reservedWords ++ ["+", "-", "*", "/", "//", "%", "^", "#", "&", "|", "~", "<<", ">>", "==", "~=", "<=", ">=",
    "<", ">", "=", "(", ")", "[", "]", "\x7b", "\x7d", "::", ";", ":", ",", ".", "..", "..."]

def isFixed (text : List Char) : Bool := fixed.any (·.toList == text)

/-- The four classes of numerals, in the order in which they are tried. -/
def numeral : Scanner := .alt Numeral.hexFloat (.alt Numeral.hexInt (.alt Numeral.float Numeral.int))

/-- The scanners of names, numerals and strings. -/
def scanners : List Scanner := [name, numeral, LongBracket.scan, QuotedString.scan]

/-- The text is a token, where `rest` stands behind it. -/
def IsToken (text rest : List Char) : Prop :=
  isFixed text = true ∨ ∃ scan ∈ scanners, scan (text ++ rest) = some (text, rest)

inductive PieceKind where
  | token | blank | comment | shebang
  deriving DecidableEq

/-- What pieces of a kind look like, where `rest` stands behind them. -/
def PieceKind.Reads : PieceKind → (text rest : List Char) → Prop
  | .token, text, rest => IsToken text rest ∧ Syntax.Settled (text ++ rest)
  | .blank, text, _ => text ≠ [] ∧ ∀ c ∈ text, isBlank c = true
  | .comment, text, rest => Lexeme.comment (text ++ rest) = some (text, rest)
  | .shebang, text, rest => Scanner.seq (.literal ['#']) line (text ++ rest) = some (text, rest)

/-- A piece of a text and the byte offset at which it starts. -/
structure Piece where
  kind : PieceKind
  start : Nat
  text : List Char
  deriving DecidableEq

def Piece.IsGap (p : Piece) : Prop := p.kind = .blank ∨ p.kind = .comment

theorem Piece.IsGap.kind_ne {p : Piece} (isGap : p.IsGap) : p.kind ≠ .token ∧ p.kind ≠ .shebang := by
  rcases isGap with blank | comment
  · rw [blank]
    decide
  · rw [comment]
    decide

/-- The piece that a text is, if there is any text. -/
def pieceAt (kind : PieceKind) (start : Nat) (text : List Char) : List Piece :=
  if text.isEmpty then [] else [⟨kind, start, text⟩]

@[simp] theorem pieceAt_nil (kind : PieceKind) (start : Nat) : pieceAt kind start [] = [] := rfl

theorem pieceAt_of_ne_nil {text : List Char} (some_text : text ≠ []) (kind : PieceKind) (start : Nat) :
    pieceAt kind start text = [⟨kind, start, text⟩] := by
  rw [pieceAt, if_neg (by simpa using some_text)]

/-- The text of pieces that lie end to end. -/
def spelled (ps : List Piece) : List Char := ps.flatMap (·.text)

/-- The pieces lie end to end from one cursor to another. -/
inductive Path : Cursor → List Piece → Cursor → Prop where
  | nil (c : Cursor) : Path c [] c
  | cons {kind : PieceKind} {offset : Nat} {text rest : List Char} {ps : List Piece} {d : Cursor}
    (reads : kind.Reads text rest) (tail : Path ⟨offset + Text.byteSize text, rest⟩ ps d) :
    Path ⟨offset, text ++ rest⟩ (⟨kind, offset, text⟩ :: ps) d

/-- A character of the script starts at the offset, or the script ends there. -/
def IsBoundary (script : List Char) (offset : Nat) : Prop :=
  ∃ before after, script = before ++ after ∧ Text.byteSize before = offset

/-- The signs that are the second half of a pair. -/
def secondSigns : List Char := ['=', '<', '>', '/']

/-- The text begins neither with a blank nor with the second half of a pair of signs. -/
def Fresh (text : List Char) : Prop := ∀ c ∈ text.head?, isBlank c = false ∧ c ∉ secondSigns

def isFresh : List Char → Bool
  | [] => true
  | c :: _ => !isBlank c && !secondSigns.contains c

theorem fresh_of_isFresh {text : List Char} (fresh : isFresh text = true) : Fresh text := by
  cases text with
  | nil => exact nofun
  | cons c text =>
    rintro _ ⟨⟩
    simpa [isFresh] using fresh

theorem Fresh.append {text : List Char} (fresh : Fresh text) (some_text : text ≠ []) (rest : List Char) :
    Fresh (text ++ rest) := by
  cases text with
  | nil => exact absurd rfl some_text
  | cons c text => exact fresh

/-- A fresh token starts at the offset. -/
def FreshAt (ps : List Piece) (offset : Nat) : Prop :=
  ∃ token ∈ ps, token.kind = .token ∧ token.start = offset ∧ Fresh token.text

theorem FreshAt.mono {ps qs : List Piece} {offset : Nat} (fresh : FreshAt ps offset) (inside : ps ⊆ qs) :
    FreshAt qs offset := by
  obtain ⟨token, member, found⟩ := fresh
  exact ⟨token, inside member, found⟩

theorem IsBoundary.le {script : List Char} {offset : Nat} (boundary : IsBoundary script offset) :
    offset ≤ Text.byteSize script := by
  obtain ⟨before, after, rfl, rfl⟩ := boundary
  simp

/-- The cursor stands in the script. -/
def StandsIn (script : List Char) (c : Cursor) : Prop :=
  ∃ before, script = before ++ c.rest ∧ Text.byteSize before = c.offset

namespace Path
variable {c d e : Cursor} {ps qs : List Piece} {p : Piece}

theorem rest_eq (path : Path c ps d) : c.rest = spelled ps ++ d.rest := by
  induction path with
  | nil c => rfl
  | cons reads tail ih => simpa [spelled] using ih

theorem offset_eq (path : Path c ps d) : d.offset = c.offset + Text.byteSize (spelled ps) := by
  induction path with
  | nil c => rfl
  | cons reads tail ih => simpa [spelled, Nat.add_assoc] using ih

theorem trans (first : Path c ps d) (second : Path d qs e) : Path c (ps ++ qs) e := by
  induction first with
  | nil c => exact second
  | cons reads tail ih => exact .cons reads (ih second)

theorem split (path : Path c (ps ++ qs) e) : ∃ d, Path c ps d ∧ Path d qs e := by
  induction ps generalizing c with
  | nil => exact ⟨c, .nil c, path⟩
  | cons p ps ih =>
    cases path with
    | cons reads tail =>
      obtain ⟨d, front, back⟩ := ih tail
      exact ⟨d, .cons reads front, back⟩

theorem standsIn {script : List Char} (path : Path c ps d) (stands : StandsIn script c) : StandsIn script d := by
  obtain ⟨before, whole, size⟩ := stands
  refine ⟨before ++ spelled ps, ?_, ?_⟩
  · rw [whole, path.rest_eq, List.append_assoc]
  · rw [Text.byteSize_append, size, path.offset_eq]

theorem ended {script : List Char} (path : Path ⟨0, script⟩ ps d) (isEnd : d.rest = []) :
    d = ⟨Text.byteSize script, []⟩ := by
  have whole : script = spelled ps := by simpa [isEnd] using path.rest_eq
  have size : d.offset = Text.byteSize script := by simpa [← whole] using path.offset_eq
  rw [← isEnd, ← size]

theorem reads_of_mem (path : Path c ps d) (member : p ∈ ps) : ∃ rest, p.kind.Reads p.text rest := by
  induction path with
  | nil c => cases member
  | cons reads tail ih =>
    rcases List.mem_cons.mp member with rfl | later
    · exact ⟨_, reads⟩
    · exact ih later

theorem start_eq (path : Path c (p :: ps) d) : p.start = c.offset := by
  cases path with
  | cons reads tail => rfl

theorem single (kind : PieceKind) {text rest : List Char} (reads : kind.Reads text rest)
    (here : c.rest = text ++ rest) :
    Path c [⟨kind, c.offset, text⟩] ⟨c.offset + Text.byteSize text, rest⟩ := by
  obtain ⟨offset, unread⟩ := c
  cases here
  exact .cons reads (.nil _)

end Path

/-! ## Gaps -/

theorem trivia_eq_of_none {s : List Char} (none : comment (s.dropWhile isBlank) = none) :
    trivia s = (s.takeWhile isBlank, s.dropWhile isBlank) := by
  rw [trivia]
  split
  · rfl
  · rename_i found
    rw [none] at found
    cases found

theorem trivia_eq_of_comment {s x rest : List Char} (found : comment (s.dropWhile isBlank) = some (x, rest)) :
    trivia s = (s.takeWhile isBlank ++ x ++ (trivia rest).1, (trivia rest).2) := by
  rw [trivia]
  split
  · rename_i none
    rw [none] at found
    cases found
  · rename_i found'
    rw [found] at found'
    cases found'
    rfl

theorem settled_trivia (s : List Char) : Syntax.Settled (trivia s).2 := by
  fun_induction trivia s with
  | case1 s none => exact ⟨List.dropWhile_eq_self_iff.mpr (List.dropWhile_get_zero_not isBlank s), none⟩
  | case2 s text after found more rest split ih =>
    rw [split] at ih
    exact ih

/-- The blanks and comments in front of a text that starts at an offset. Blanks that lie side by side are one piece. -/
def gapsAt (offset : Nat) (s : List Char) : List Piece :=
  let blanks := s.takeWhile isBlank
  match _ : comment (s.dropWhile isBlank) with
  | none => pieceAt .blank offset blanks
  | some (text, after) =>
    let start := offset + Text.byteSize blanks
    pieceAt .blank offset blanks ++ ⟨.comment, start, text⟩ :: gapsAt (start + Text.byteSize text) after
termination_by s.length
decreasing_by
  exact Nat.lt_of_lt_of_le (comment_length ‹_›) (List.dropWhile_sublist isBlank).length_le

/-- The gaps that are skipped at a cursor. -/
def gaps (c : Cursor) : List Piece := gapsAt c.offset c.rest

theorem blank_path (offset : Nat) (s : List Char) :
    Path ⟨offset, s⟩ (pieceAt .blank offset (s.takeWhile isBlank))
      ⟨offset + Text.byteSize (s.takeWhile isBlank), s.dropWhile isBlank⟩ := by
  have whole := (List.takeWhile_append_dropWhile (p := isBlank) (l := s)).symm
  by_cases none : s.takeWhile isBlank = []
  · rw [none, List.nil_append] at whole
    rw [none, ← whole]
    exact .nil _
  · rw [pieceAt_of_ne_nil none]
    exact .single .blank ⟨none, fun _ => List.mem_takeWhile_imp⟩ whole

theorem isGap_of_blank {offset : Nat} {text : List Char} {p : Piece} (member : p ∈ pieceAt .blank offset text) :
    p.IsGap := by
  rw [pieceAt] at member
  split at member
  · cases member
  · rw [List.mem_singleton.mp member]
    exact .inl rfl

theorem splits_comment : Scanner.Splits comment :=
  (Scanner.splits_literal _).seq (LongBracket.splits_scan.alt splits_line)

theorem gapsAt_path (offset : Nat) (s : List Char) :
    Path ⟨offset, s⟩ (gapsAt offset s) ⟨offset + Text.byteSize (trivia s).1, (trivia s).2⟩ ∧
      ∀ p ∈ gapsAt offset s, p.IsGap := by
  fun_induction gapsAt offset s with
  | case1 offset s blanks none =>
    rw [trivia_eq_of_none none]
    exact ⟨blank_path offset s, fun _ => isGap_of_blank⟩
  | case2 offset s blanks text after found start ih =>
    have here := splits_comment _ _ _ found
    have reads : PieceKind.comment.Reads text after := by rwa [PieceKind.Reads, ← here]
    have middle := Path.single (c := ⟨start, s.dropWhile isBlank⟩) .comment reads here
    obtain ⟨back, areGaps⟩ := ih
    constructor
    · simpa [trivia_eq_of_comment found, Nat.add_assoc, blanks, start] using
        (blank_path offset s).trans (middle.trans back)
    · exact List.forall_mem_append.mpr ⟨fun _ => isGap_of_blank, List.forall_mem_cons.mpr ⟨.inr rfl, areGaps⟩⟩

/-- Skipping trivia follows the gaps. -/
theorem skip_path (c : Cursor) : Path c (gaps c) (Syntax.grammar.skip c) ∧ ∀ p ∈ gaps c, p.IsGap :=
  gapsAt_path c.offset c.rest

theorem gaps_settled {c : Cursor} (settled : Syntax.Settled c.rest) : gaps c = [] := by
  have none : comment (c.rest.dropWhile isBlank) = none := by rw [settled.1, settled.2]
  have blanks : c.rest.takeWhile isBlank = [] := by
    have whole := List.takeWhile_append_dropWhile (p := isBlank) (l := c.rest)
    rwa [settled.1, List.append_left_eq_self] at whole
  rw [gaps, gapsAt]
  split
  · rw [blanks]
    rfl
  · rename_i found
    cases none.symm.trans found

/-! ## Tokens -/

theorem advances_alt {a b : Scanner} (first : a.Advances) (second : b.Advances) : (Scanner.alt a b).Advances := by
  intro s text rest found
  unfold Scanner.alt at found
  split at found
  · exact second s text rest found
  · exact first s text rest found

theorem advances_numeral : Scanner.Advances numeral := by
  refine advances_alt ?_ (advances_alt ?_ (advances_alt ?_ ?_))
  · exact Syntax.advances_token (r := .hexFloat) rfl rfl
  · exact Syntax.advances_token (r := .hexInt) rfl rfl
  · exact Syntax.advances_token (r := .float) rfl rfl
  · exact Syntax.advances_token (r := .int) rfl rfl

theorem IsToken.ne_nil {text rest : List Char} (isToken : IsToken text rest) : text ≠ [] := by
  rintro rfl
  rcases isToken with isFixed | ⟨scan, member, found⟩
  · exact absurd isFixed (by decide)
  · have advances : ∀ scan ∈ scanners, scan.Advances := by
      simp [scanners, advances_name, advances_numeral, LongBracket.advances_scan, QuotedString.advances_scan]
    exact Nat.lt_irrefl _ (advances scan member _ _ _ found)

theorem reads_word {word : String} {text : List Char} (reads : (Lexeme.word word).Reads text) : text = word.toList := by
  obtain ⟨x, y, rfl, first, second⟩ := Scanner.reads_seq reads
  rw [Scanner.reads_literal first, Scanner.reads_absent second, List.append_nil]

theorem isFixed_of_unary {op : Syntax.UnaryOp} {text : List Char} (reads : op.scan.Reads text) :
    isFixed text = true := by
  cases op with
  | not => rw [reads_word reads]; decide
  | _ => rw [Scanner.reads_literal reads]; decide

theorem isFixed_of_binary {op : Syntax.BinaryOp} {text : List Char} (reads : op.scan.Reads text) :
    isFixed text = true := by
  cases op with
  | or | and => rw [reads_word reads]; decide
  | concat =>
    obtain ⟨x, y, rfl, first, second⟩ := Scanner.reads_seq reads
    rw [Scanner.reads_absent first, Scanner.reads_literal second]
    decide
  | _ => rw [Scanner.reads_literal reads]; decide

end Lexeme

namespace Syntax
open Peg Lexeme

/-- The rules that lie inside blocks, but for the classes of numerals. -/
def Rule.isInner (r : Rule) : Bool :=
  !([.finish, .chunk, .shebang, .hexFloat, .hexInt, .float, .int] : List Rule).contains r

theorem isToken_of_body {r : Rule} {scan : Scanner} (body : grammar.body r = .token scan) (inner : r.isInner = true)
    {s text rest : List Char} (found : scan s = some (text, rest)) : IsToken text rest := by
  have here := splits_token body s text rest found
  have reads : scan.Reads text := ⟨s, rest, found⟩
  cases r <;> cases body
  case finish | shebang | hexFloat | hexInt | float | int => cases inner
  case nil | false | true | endWord =>
    rw [reads_word reads]
    exact .inl (by decide)
  case unary op => exact .inl (isFixed_of_unary reads)
  case binary op => exact .inl (isFixed_of_binary reads)
  case longString | quotedString | name => exact .inr ⟨_, by simp [scanners], here ▸ found⟩
  all_goals
    rw [Scanner.reads_literal reads]
    exact .inl (by decide)

end Syntax
end LuaLowering
