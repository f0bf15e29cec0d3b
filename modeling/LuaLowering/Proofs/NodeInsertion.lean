import LuaLowering.Proofs.TokenEnds
/-!
# Blanks in front of nodes

Each node of a script that was read starts where the pieces of the script can be cut in two, and what stands in front
of the cut is a row of lexemes, perhaps behind a first line, when its tokens are `Clear`. So blanks may be put in front
of the node (`Chunk.parse_insert_node`). A token is clear unless the grammar may read it in another way: a word that
runs on behind an open word, a bracket that opens a long string, or a long string behind whose first bracket an operand
stands.
-/
namespace LuaLowering.Syntax
open Peg Peg.Scanner Lexeme

/-- There is one way to read the token. -/
structure Clear (text rest : List Char) : Prop where
  word : text ∈ openWords → Stops isWordChar rest
  name : Unglued rest text
  bracket : text = ['['] → LongBracket.scan ('[' :: rest) = none
  long : ∀ x, x ≠ [] → text = '[' :: x → OpensNoOperand (x ++ rest)

/-- A test for clear tokens. It leaves out names such as `in1`. -/
def isClear (text rest : List Char) : Bool :=
  (!openWords.contains text || rest.head?.all (!isWordChar ·)) &&
    (text.all (!·.isDigit) || openWords.all (!·.isPrefixOf text)) &&
    match text with
    | ['['] => (LongBracket.scan ('[' :: rest)).isNone
    | '[' :: c :: x => c == '=' || c == '[' && (LongBracket.scan (c :: x ++ rest)).isNone
    | _ => true

theorem unglued_of_openWords {word : List Char} (none : openWords.all (!·.isPrefixOf word) = true) (rest : List Char) :
    Unglued rest word := by
  rintro parts digit tail some_part areOpen - rfl
  obtain ⟨part, parts, rfl⟩ := List.exists_cons_of_ne_nil some_part
  have other : (!part.isPrefixOf ((part :: parts).flatten ++ digit :: tail)) = true :=
    List.all_eq_true.mp none part (areOpen part List.mem_cons_self)
  have begins : part.isPrefixOf ((part :: parts).flatten ++ digit :: tail) = true := by
    rw [List.isPrefixOf_iff_prefix, List.flatten_cons, List.append_assoc]
    exact List.prefix_append ..
  rw [begins] at other
  cases other

theorem clear_of_isClear {text rest : List Char} (clear : isClear text rest = true) : Clear text rest := by
  simp only [isClear, Bool.and_eq_true, Bool.or_eq_true] at clear
  obtain ⟨⟨word, name⟩, brackets⟩ := clear
  refine ⟨fun isOpen => ?_, ?_, ?_, ?_⟩
  · rcases word with other | ends
    · simp [isOpen] at other
    · intro c first
      simpa [Option.mem_def.mp first] using ends
  · rcases name with letters | none
    · exact unglued_of_all letters rest
    · exact unglued_of_openWords none rest
  · rintro rfl
    exact Option.isNone_iff_eq_none.mp brackets
  · rintro x longer rfl
    cases x with
    | nil => exact absurd rfl longer
    | cons c x =>
      refine ⟨c, x ++ rest, rfl, ?_⟩
      simpa using brackets

/-- The test of all tokens among pieces. -/
def areClear : List Piece → (rest : List Char) → Bool
  | [], _ => true
  | p :: ps, rest => (p.kind != .token || isClear p.text (spelled ps ++ rest)) && areClear ps rest

theorem clear_of_areClear {ps : List Piece} {rest : List Char} (clear : areClear ps rest = true) :
    EachToken Clear ps rest := by
  induction ps with
  | nil => trivial
  | cons p ps ih =>
    simp only [areClear, Bool.and_eq_true, Bool.or_eq_true, bne_iff_ne] at clear
    exact ⟨fun isToken => clear_of_isClear (clear.1.resolve_left fun other => other isToken), ih clear.2⟩

/-! ## Rows of pieces -/

/-- Reserved words, single signs and pairs of signs, and the symbols that may begin longer ones. -/
theorem cases_of_isFixed {text : List Char} (isFixed : isFixed text = true) :
    isReserved text = true ∨ (∃ c ∈ signs, text = [c]) ∨
      (∃ a b, a ∈ signs ∧ b ∈ signs ∧ a ≠ '-' ∧ b ≠ '-' ∧ text = [a, b]) ∨
      text ∈ ([['['], ['.'], ['.', '.'], ['.', '.', '.'], [':'], [':', ':']] : List (List Char)) := by
  obtain ⟨word, listed, same⟩ := List.any_eq_true.mp isFixed
  obtain rfl := beq_iff_eq.mp same
  rcases List.mem_append.mp listed with reserved | symbol
  · exact .inl (List.any_eq_true.mpr ⟨word, reserved, beq_self_eq_true _⟩)
  · refine .inr ?_
    simp only [List.mem_cons, List.not_mem_nil, or_false] at symbol
    rcases symbol with rfl | rfl | rfl | rfl | rfl | rfl | rfl | rfl | rfl | rfl | rfl | rfl | rfl | rfl | rfl | rfl |
      rfl | rfl | rfl | rfl | rfl | rfl | rfl | rfl | rfl | rfl | rfl | rfl | rfl | rfl | rfl | rfl | rfl
    all_goals first
      | exact .inl ⟨_, by decide, rfl⟩
      | exact .inr (.inl ⟨_, _, by decide, by decide, by decide, by decide, rfl⟩)
      | exact .inr (.inr (by decide))

section
variable {v s text : List Char}

theorem lexemes_of_isReserved (reserved : isReserved text = true) (ends : Stops isWordChar (s ++ v))
    (row : Lexemes v s) : Lexemes v (text ++ s) := by
  obtain ⟨c, x, rfl, starts⟩ := isWordStart_of_isReserved reserved
  have each : (reservedWords.all fun word => word.toList.all fun d => isWordChar d && !d.isDigit) = true := rfl
  obtain ⟨word, listed, same⟩ := List.any_eq_true.mp reserved
  have letters : ∀ d ∈ c :: x, isWordChar d = true ∧ (!d.isDigit) = true := by
    intro d member
    rw [← beq_iff_eq.mp same] at member
    exact Bool.and_eq_true_iff.mp (List.all_eq_true.mp (List.all_eq_true.mp each word listed) d member)
  exact .word starts (fun d member => (letters d (List.mem_cons_of_mem _ member)).1) ends
    (unglued_of_all (List.all_eq_true.mpr fun d member => (letters d member).2) _) row

theorem lexemes_of_name (unglued : Unglued (s ++ v) text) (found : name (text ++ (s ++ v)) = some (text, s ++ v))
    (row : Lexemes v s) : Lexemes v (text ++ s) := by
  have ends := halts_name _ _ _ found
  cases text with
  | nil => exact row
  | cons c x =>
    rw [List.cons_append, name] at found
    split at found
    · rename_i starts
      simp only at found
      split at found
      · cases found
      · have same : (x ++ (s ++ v)).takeWhile isWordChar = x :=
          (List.cons.inj (Prod.mk.inj (Option.some.inj found)).1).2
        refine .word starts (fun d member => ?_) ends unglued row
        rw [← same] at member
        exact List.mem_takeWhile_imp member
    · cases found

theorem lexemes_of_numeral (found : numeral (text ++ (s ++ v)) = some (text, s ++ v)) (row : Lexemes v s) :
    Lexemes v (text ++ s) := by
  obtain ⟨k, scanned, -⟩ := NumeralClass.exists_of_numeral found
  obtain ⟨c, x, rfl, digit | rfl⟩ := NumeralClass.first_of_reads ⟨_, _, scanned⟩
  · exact (IsLexeme.numeral digit found).lexemes rfl row
  · exact (IsLexeme.fraction found).lexemes rfl row

theorem lexemes_of_long (clear : Clear text (s ++ v))
    (found : LongBracket.scan (text ++ (s ++ v)) = some (text, s ++ v)) (row : Lexemes v s) :
    Lexemes v (text ++ s) := by
  cases text with
  | nil => exact row
  | cons c x =>
    by_cases bracket : c = '['
    · subst bracket
      refine .long found (fun opened => absurd (clear.long x ?_ rfl) opened) row
      rintro rfl
      cases (clear.bracket rfl).symm.trans found
    · cases (longString_none bracket _).symm.trans found

theorem lexemes_of_quoted (found : QuotedString.scan (text ++ (s ++ v)) = some (text, s ++ v)) (row : Lexemes v s) :
    Lexemes v (text ++ s) := by
  cases text with
  | nil => exact row
  | cons c x => exact (IsLexeme.quoted found).lexemes rfl row

/-- A minus sign that is not the first one of a comment. -/
theorem stops_of_settled {rest : List Char} (settled : Settled ('-' :: rest)) : Stops (· == '-') rest := by
  rintro c first
  refine beq_false_of_ne ?_
  rintro rfl
  obtain ⟨rest, rfl⟩ := List.head?_eq_some_iff.mp first
  have none := settled.2
  rw [Insertion.comment_dashes, Option.map_eq_none_iff, alt] at none
  split at none
  · cases none
  · rename_i long
    exact long none

theorem stops_of_closed {rest : List Char} (reserved : isReserved text = true) (closed : text ∉ openWords)
    (ends : Stops (goesOn text) rest) : Stops isWordChar rest := by
  have word {symbol : List Char} (other : isReserved symbol = false) : text ≠ symbol := by
    rintro rfl
    cases other.symm.trans reserved
  intro d first
  have ends := ends d first
  rw [goesOn, if_neg (word (by decide)), if_neg (word (by decide)), if_neg (word (by decide))] at ends
  simpa [reserved, closed] using ends

/-- A token in front of a row begins a row. -/
theorem Clear.lexemes (clear : Clear text (s ++ v)) (bounded : Bounded text (s ++ v))
    (settled : Settled (text ++ (s ++ v))) (row : Lexemes v s) : Lexemes v (text ++ s) := by
  rcases bounded with ⟨scan, listed, found⟩ | ⟨isFixed, ends⟩
  · simp only [scanners, List.mem_cons, List.not_mem_nil, or_false] at listed
    rcases listed with rfl | rfl | rfl | rfl
    · exact lexemes_of_name clear.name found row
    · exact lexemes_of_numeral found row
    · exact lexemes_of_long clear found row
    · exact lexemes_of_quoted found row
  rcases cases_of_isFixed isFixed with
    reserved | ⟨c, isSign, rfl⟩ | ⟨a, b, first, second, notDash, notDash', rfl⟩ | symbol
  · refine lexemes_of_isReserved reserved ?_ row
    by_cases isOpen : text ∈ openWords
    · exact clear.word isOpen
    · exact stops_of_closed reserved isOpen ends
  · refine (IsLexeme.sign isSign ?_).lexemes rfl row
    rintro rfl
    exact stops_of_settled settled
  · exact .sign first notDash (.sign second notDash' row)
  · simp only [List.mem_cons, List.not_mem_nil, or_false] at symbol
    rcases symbol with rfl | rfl | rfl | rfl | rfl | rfl
    · exact .bracket (clear.bracket rfl) row
    · exact (IsLexeme.dot ends).lexemes rfl row
    · exact (IsLexeme.concat ends).lexemes rfl row
    · exact IsLexeme.varArgs.lexemes rfl row
    · exact (IsLexeme.colon ends).lexemes rfl row
    · exact IsLexeme.colons.lexemes rfl row

theorem lexemes_of_blanks {w : List Char} (blanks : ∀ c ∈ w, isBlank c = true) (row : Lexemes v s) :
    Lexemes v (w ++ s) := by
  induction w with
  | nil => exact row
  | cons c w ih =>
    obtain ⟨blank, blanks⟩ := List.forall_mem_cons.mp blanks
    exact (IsLexeme.blank blank).lexemes rfl (ih blanks)

end

theorem dashes_of_comment {s text rest : List Char} (found : comment s = some (text, rest)) :
    ∃ x, text = '-' :: '-' :: x := by
  obtain ⟨dashes, x, rfl, first, -⟩ := Scanner.reads_seq ⟨_, _, found⟩
  exact ⟨x, by rw [Scanner.reads_literal first]; rfl⟩

/-- Clear tokens, with blanks and comments between them, are a row of lexemes. -/
theorem lexemes_of_path {c d : Cursor} {ps : List Piece} (path : Path c ps d) (plain : ∀ p ∈ ps, p.kind ≠ .shebang)
    (bounded : EachToken Bounded ps d.rest) (clear : EachToken Clear ps d.rest) : Lexemes d.rest (spelled ps) := by
  induction path with
  | nil c => exact .nil
  | @cons kind offset text rest ps d reads tail ih =>
    obtain ⟨notHash, plain⟩ := List.forall_mem_cons.mp plain
    have row := ih plain bounded.2 clear.2
    have here := tail.rest_eq
    simp only at here
    subst here
    change Lexemes d.rest (text ++ spelled ps)
    cases kind with
    | token => exact (clear.1 rfl).lexemes (bounded.1 rfl) reads.2 row
    | blank => exact lexemes_of_blanks reads.2 row
    | comment =>
      obtain ⟨x, rfl⟩ := dashes_of_comment reads
      exact (IsLexeme.comment reads).lexemes rfl row
    | shebang => exact absurd rfl notHash

/-! ## Scripts -/

/-- Gaps are skipped with and without the insertion. -/
theorem trivia_gaps {i : Insertion} {z : List Char} (follows : i.Follows z) {c d : Cursor} {ps : List Piece}
    (path : Path c ps d) (areGaps : ∀ p ∈ ps, p.IsGap) {s : List Char} (here : d.rest = s ++ i.behind) :
    (trivia (spelled ps ++ (s ++ z))).2 = (trivia (s ++ z)).2 := by
  induction path with
  | nil c => rfl
  | @cons kind offset text rest ps d reads tail ih =>
    obtain ⟨isGap, areGaps⟩ := List.forall_mem_cons.mp areGaps
    have rest_eq : rest = spelled ps ++ s ++ i.behind := by simpa [here] using tail.rest_eq
    have split : spelled (⟨kind, offset, text⟩ :: ps) ++ (s ++ z) = text ++ (spelled ps ++ s ++ z) := by simp [spelled]
    have others : (trivia (spelled ps ++ s ++ z)).2 = (trivia (s ++ z)).2 := by
      rw [List.append_assoc]
      exact ih areGaps here
    rw [split, ← others]
    rcases isGap with blank | isComment
    · obtain rfl : kind = .blank := blank
      exact trivia_append reads.2 _
    · obtain rfl : kind = .comment := isComment
      obtain ⟨x, rfl⟩ := dashes_of_comment reads
      subst rest_eq
      exact follows.trivia_comment reads

theorem hashLine_hash (s : List Char) :
    hashLine ('#' :: s) = some ('#' :: s.takeWhile (· != '\n'), s.dropWhile (· != '\n')) :=
  hashLine_append List.not_mem_nil s

theorem stops_of_hashLine {s : List Char} (none : hashLine s = none) : Stops (· == '#') s := by
  rintro c first
  refine beq_false_of_ne ?_
  rintro rfl
  obtain ⟨rest, rfl⟩ := List.head?_eq_some_iff.mp first
  cases none.symm.trans (hashLine_hash rest)

theorem hashLine_eq_some {s text rest : List Char} (found : hashLine s = some (text, rest)) :
    ∃ line, text = '#' :: line ∧ '\n' ∉ line ∧ Stops (· != '\n') rest ∧ s = '#' :: (line ++ rest) := by
  cases s with
  | nil => cases found
  | cons c s =>
    by_cases hash : c = '#'
    · subst hash
      cases (hashLine_hash s).symm.trans found
      refine ⟨_, rfl, fun feed => ?_, stops_dropWhile _ s, by rw [List.takeWhile_append_dropWhile]⟩
      cases List.mem_takeWhile_imp (p := (· != '\n')) feed
    · have stops : Stops (· == '#') (c :: s) := stops_cons.mpr (beq_false_of_ne hash)
      cases (hashLine_of_stops stops).symm.trans found

/-- The first line of a script that was read, if there is one. -/
theorem shebang_cases {depth : Nat} {c d : Cursor} {us : List (ParseTree Rule)} {line : List Piece}
    (found : tracePattern (trace (depth + 1)) (.opt (.rule .shebang)) c = some (us, line, d)) :
    (hashLine c.rest = none ∧ line = []) ∨
      ∃ text, hashLine c.rest = some (text, d.rest) ∧ line = [⟨.shebang, c.offset, text⟩] := by
  have body : grammar.body .shebang = .token hashLine := rfl
  rw [tracePattern] at found
  split at found
  · rename_i unread
    cases found
    refine .inl ⟨?_, rfl⟩
    simpa [tracePattern, trace, body, Cursor.read] using unread
  · obtain ⟨text, rest, scanned, -, rfl, rfl⟩ := trace_token_eq_some body found
    obtain ⟨line, rfl, -⟩ := hashLine_eq_some scanned
    exact .inr ⟨_, scanned, rfl⟩

/-- A script without a first line is a row up to the insertion. -/
theorem script_of_plain {i : Insertion} {script : List Char} {ps : List Piece} {d : Cursor}
    (path : Path ⟨0, script⟩ ps d) (row : Lexemes d.rest (spelled ps)) (here : d.rest = i.behind)
    (none : hashLine (trivia script).2 = none) : Script i (spelled ps) := by
  have whole : script = spelled ps ++ d.rest := path.rest_eq
  rw [here] at row whole
  exact .plain row (whole ▸ stops_of_hashLine none)

theorem script_of_headed {i : Insertion} {front c d c₀ : Cursor} {gaps ps : List Piece} {text : List Char}
    (toLine : Path c₀ gaps front) (areGaps : ∀ p ∈ gaps, p.IsGap) (hash : hashLine front.rest = some (text, c.rest))
    (path : Path c ps d) (row : Lexemes d.rest (spelled ps)) (here : d.rest = i.behind) :
    Script i (spelled gaps ++ (text ++ spelled ps)) := by
  obtain ⟨line, rfl, oneLine, ends, whole⟩ := hashLine_eq_some hash
  have rest : c.rest = spelled ps ++ i.behind := here ▸ path.rest_eq
  rw [rest] at ends whole
  refine .headed (fun z follows => ?_) oneLine ends (here ▸ row)
  have skipped := trivia_gaps follows toLine areGaps (s := '#' :: (line ++ spelled ps)) (by simpa using whole)
  rw [List.cons_append, List.append_assoc, trivia_settled (settled_cons rfl (by decide) _)] at skipped
  exact skipped

/-- The pieces of the block of a script and the gaps around it. -/
theorem block_pieces {script : List Char} {depth : Nat} {c d : Cursor} {vs : List (ParseTree Rule)} {inner : List Piece}
    (stands : StandsIn script c) (block : trace depth .block (grammar.skip c) = some (vs, inner, d))
    (isEnd : (grammar.skip d).rest = []) :
    Path c (gaps c ++ inner ++ gaps d) (grammar.skip d) ∧ (∀ p ∈ gaps c ++ inner ++ gaps d, p.kind ≠ .shebang) ∧
      EachToken Bounded (gaps c ++ inner ++ gaps d) [] := by
  obtain ⟨toBlock, areGaps⟩ := skip_path c
  obtain ⟨toEnd, areGaps'⟩ := skip_path d
  obtain ⟨e, -, read⟩ := trace_readAs depth .block rfl _ _ (ready_skip stands) block
  have bounded := trace_bounded depth .block rfl _ _ (ready_skip stands) block
  have rest : d.rest = spelled (gaps d) := by simpa [isEnd] using toEnd.rest_eq
  refine ⟨(toBlock.trans read.path).trans toEnd, ?_, ?_⟩
  · exact List.forall_mem_append.mpr ⟨List.forall_mem_append.mpr ⟨fun p member => (areGaps p member).kind_ne.2,
      read.plain⟩, fun p member => (areGaps' p member).kind_ne.2⟩
  · rw [eachToken_append, eachToken_append, List.append_nil, ← rest]
    exact ⟨⟨eachToken_of_none (fun p member => (areGaps p member).kind_ne.1) _, bounded⟩,
      eachToken_of_none (fun p member => (areGaps' p member).kind_ne.1) _⟩

/-- What stands in front of the first token belongs to the front of a cut at a token. -/
theorem append_of_cut {front tail before after : List Piece} (whole : front ++ tail = before ++ after)
    (none : ∀ p ∈ front, p.kind ≠ .token) (first : ∀ p ∈ after.head?, p.kind = .token) :
    ∃ x, before = front ++ x ∧ tail = x ++ after := by
  rcases List.append_eq_append_iff.mp whole with ⟨x, rfl, rfl⟩ | ⟨x, rfl, rfl⟩
  · exact ⟨x, rfl, rfl⟩
  · cases x with
    | nil => exact ⟨[], by simp, by simp⟩
    | cons p x => exact absurd (first p rfl) (none p (by simp))

/-- What stands in front of a token of a script that was read. -/
theorem script_of_cut {script : List Char} {range : TextRange} {children : List (ParseTree Rule)}
    (matched : matchChunk script = some (.phrase .chunk range children)) {before after : List Piece}
    (pieces : piecesOf script = some (before ++ after)) (first : ∀ p ∈ after.head?, p.kind = .token)
    (clear : EachToken Clear before (spelled after)) {i : Insertion} (behind : i.behind = spelled after) :
    Script i (spelled before) := by
  obtain ⟨depth, us, line, c, vs, inner, d, listed, front, block, isEnd, -⟩ := matchChunk_parts matched
  obtain ⟨toFront, areGaps⟩ := skip_path ⟨0, script⟩
  have toLine := toFront.trans (shebang_path front).1
  obtain ⟨path, plain, bounded⟩ := block_pieces (toLine.standsIn ⟨[], rfl, rfl⟩) block isEnd
  have whole : gaps ⟨0, script⟩ ++ line ++ (gaps c ++ inner ++ gaps d) = before ++ after := by
    simpa using listed.symm.trans pieces
  obtain ⟨depth, rfl⟩ : ∃ k, depth = k + 1 := by
    cases depth with
    | zero => cases block
    | succ k => exact ⟨k, rfl⟩
  have first_line := shebang_cases front
  have notToken : ∀ p ∈ gaps ⟨0, script⟩ ++ line, p.kind ≠ .token := by
    refine List.forall_mem_append.mpr ⟨fun p member => (areGaps p member).kind_ne.1, ?_⟩
    rcases first_line with ⟨-, rfl⟩ | ⟨text, -, rfl⟩ <;> simp
  obtain ⟨x, rfl, split⟩ := append_of_cut whole notToken first
  rw [split] at path plain bounded
  obtain ⟨middle, toNode, toEnd⟩ := path.split
  have rest : middle.rest = i.behind := by simpa [isEnd, behind] using toEnd.rest_eq
  have plain := (List.forall_mem_append.mp plain).1
  have bounded : EachToken Bounded x middle.rest := by simpa [rest, behind] using (eachToken_append.mp bounded).1
  rw [← behind, ← rest] at clear
  rcases first_line with ⟨none, rfl⟩ | ⟨text, hash, rfl⟩
  · have row := lexemes_of_path (toLine.trans toNode) (List.forall_mem_append.mpr ⟨?_, plain⟩)
      (eachToken_append.mpr ⟨eachToken_of_none notToken _, bounded⟩) clear
    · exact script_of_plain (toLine.trans toNode) row rest none
    · simpa using fun p member => (areGaps p member).kind_ne.2
  · have row := lexemes_of_path toNode plain bounded (eachToken_append.mp clear).2
    simpa [spelled] using script_of_headed toFront areGaps hash toNode row rest

/-- Each node of a script that was read starts where the pieces can be cut. Blanks that are put there leave the chunk
the same up to ranges, when the tokens in front are clear. -/
theorem Chunk.parse_insert_node {source : Source} {chunk : Chunk} (read : Chunk.parse source = .ok chunk) {o : Sketch}
    (node : o ∈ chunk.block.sketch.nodes) :
    ∃ range before after, o.range = some range ∧ piecesOf source.text.toList = some (before ++ after) ∧
      Text.byteSize (spelled before) = range.start ∧
      (EachToken Clear before (spelled after) → ∀ blanks, (∀ c ∈ blanks, isBlank c = true) → ∀ source' : Source,
        source'.text.toList = spelled before ++ (blanks ++ spelled after) →
          ∃ chunk', Chunk.parse source' = .ok chunk' ∧ chunk'.erase = chunk.erase) := by
  obtain ⟨ps, low, high, pieces, path, placed⟩ := placed_of_parse read
  obtain ⟨range, hasRange, opens⟩ := placed.opensAt_nodes o node
  obtain ⟨before, after, rfl, size, fresh, first⟩ := opens.cut path
  refine ⟨range, before, after, hasRange, pieces, size, fun clear blanks areBlank source' here' => ?_⟩
  obtain ⟨_, children, _, matched, -⟩ := block_of_parse read
  let i : Insertion := ⟨blanks, spelled after, areBlank, fresh⟩
  have script : Script i (spelled before) := script_of_cut matched pieces first clear rfl
  have here : source.text.toList = spelled before ++ spelled after := by
    rw [← spelled_eq path]
    simp [spelled]
  have same : (Chunk.parse source').toOption.map Chunk.erase = (Chunk.parse source).toOption.map Chunk.erase := by
    rw [erase_parse, erase_parse, here, here']
    exact script.chunkIn_depthBound.symm
  rw [read] at same
  cases found : Chunk.parse source' with
  | error e =>
    rw [found] at same
    cases same
  | ok chunk' =>
    rw [found] at same
    exact ⟨chunk', rfl, Option.some.inj same⟩

example : EachToken Clear
    [⟨.token, 0, "return".toList⟩, ⟨.blank, 6, [' ']⟩, ⟨.token, 7, "x1".toList⟩, ⟨.token, 9, ['[']⟩] "2]".toList :=
  clear_of_areClear (by decide)

end LuaLowering.Syntax
