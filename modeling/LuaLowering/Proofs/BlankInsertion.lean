import LuaLowering.Proofs.NodeRanges
import LuaLowering.Proofs.RowTokens
import LuaLowering.Proofs.TreeConversion
/-!
# Blanks between lexemes

Blanks may be put between lexemes: a script is read as before, but for places (`Chunk.parse_insert`). They may not be
put in front of every node: a field of a table that opens with `[[` is a long string or has a key that opens with one,
and a line feed far behind it can decide between the two (`Chunk.parse_insert_keyed`).
-/
namespace LuaLowering.Syntax
open Peg Peg.Pattern Lexeme

/-! ## Patterns that are matched alike -/

/-- A literal that agrees with itself at every row of lexemes. -/
def isSteadyText (text : List Char) : Bool :=
  openWords.contains text || text == [':', ':'] || signs.any (text == [·])

/-- The rules that are tried at rows of lexemes. The classes of numerals are tried in their order only. -/
def Rule.isSteady (r : Rule) : Bool :=
  !([.chunk, .shebang, .hexFloat, .hexInt, .float, .int] : List Rule).contains r

/-- Behind a point or a colon a name has to stand, and behind a bracket an expression. -/
def isGuarded : Pattern Rule → Pattern Rule → Bool
  | .lit [c], .rule .name => c == '.' || c == ':'
  | .lit [c], .seq (.rule .exp) _ => c == '['
  | _, _ => false

def isSteady : Pattern Rule → Bool
  | .lit text => isSteadyText text
  | .rule r => r.isSteady
  | .seq p q => isSteady q && (isSteady p || isGuarded p q)
  | .alt p q => isSteady p && isSteady q
  | .opt p => isSteady p
  | .star p => isSteady p && !p.mayBeEmpty Rule.empty

theorem isSteady_body {r : Rule} {p : Pattern Rule} (body : grammar.body r = .phrase p) (steady : r.isSteady = true)
    (notNumber : r ≠ .number) : isSteady p = true := by
  cases r <;> cases body
  case chunk => cases steady
  case number => exact absurd rfl notNumber
  all_goals rfl

/-! ## Dead ends -/

/-- The pattern fails here, however deep its rules may nest. -/
def Dead (p : Pattern Rule) (c : Cursor) : Prop := ∀ depth, p.run grammar (grammar.parse depth) c = none

section
variable {p q : Pattern Rule} {c : Cursor}

theorem dead_lit {text : List Char} (fails : Scanner.literal text c.rest = none) : Dead (.lit text) c := by
  intro depth
  rw [run, Cursor.read, fails]
  rfl

theorem dead_token {r : Rule} {scan : Scanner} (body : grammar.body r = .token scan) (fails : scan c.rest = none) :
    Dead (.rule r) c := by
  intro depth
  rw [run]
  cases depth with
  | zero => rfl
  | succ depth =>
    rw [Peg.Grammar.parse, body]
    simp only [Cursor.read, fails, Option.map_none]

theorem dead_phrase {r : Rule} (body : grammar.body r = .phrase p) (dead : Dead p c) : Dead (.rule r) c := by
  intro depth
  rw [run]
  cases depth with
  | zero => rfl
  | succ depth =>
    rw [Peg.Grammar.parse, body]
    simp only [dead depth, Option.map_none]

theorem Dead.seq (dead : Dead p c) : Dead (.seq p q) c := by
  intro depth
  rw [run, dead depth]

theorem Dead.alt (first : Dead p c) (second : Dead q c) : Dead (.alt p q) c := by
  intro depth
  rw [run, first depth, second depth]

/-- A repetition without rounds is passed over. -/
theorem Dead.star_seq (first : Dead p c) (settled : Settled c.rest) (second : Dead q c) :
    Dead (.seq (.star p) q) c := by
  intro depth
  rw [run, run, first depth]
  simp only [skip_settled settled, second depth, Option.map_none]

/-- No expression begins with an equals sign, or with a bracket that opens no long string. -/
theorem dead_exp (opensNone : OpensNoOperand c.rest) : Dead (.rule .exp) c := by
  have settled := opensNone.settled
  obtain ⟨d, rest, here, kind⟩ := opensNone
  have first : d = '=' ∨ d = '[' := kind.imp id And.left
  have literals {a : Char} (word : List Char) (differ : a ≠ '=' ∧ a ≠ '[') :
      Scanner.literal (a :: word) c.rest = none := by
    rw [here]
    refine literal_none ?_ word rest
    rcases first with rfl | rfl
    · exact differ.1
    · exact differ.2
  have words (r : Rule) (text : String) (body : grammar.body r = .token (Lexeme.word text)) {a : Char}
      {word : List Char} (letters : text.toList = a :: word) (differ : a ≠ '=' ∧ a ≠ '[') : Dead (.rule r) c := by
    refine dead_token body ?_
    rw [Lexeme.word, Scanner.seq, letters, literals word differ]
    rfl
  have name : Dead (.rule .name) c := by
    refine dead_token (r := .name) rfl ?_
    rw [here]
    exact name_none (by rcases first with rfl | rfl <;> rfl) rest
  have numeral (k : NumeralClass) : Dead (.rule k.rule) c := by
    refine dead_token k.body_rule ?_
    rw [here]
    exact numeral_none k (by rcases first with rfl | rfl <;> rfl) (by rcases first with rfl | rfl <;> decide) rest
  have longString : Dead (.rule .longString) c := by
    refine dead_token (r := .longString) rfl ?_
    rcases kind with rfl | ⟨-, unread⟩
    · rw [here]
      exact longString_none (by decide) rest
    · exact unread
  have quotedString : Dead (.rule .quotedString) c := by
    refine dead_token (r := .quotedString) rfl ?_
    rw [here]
    rcases first with rfl | rfl <;> exact quotedString_none (by decide) (by decide) rest
  have parenExp : Dead (.rule .parenExp) c :=
    dead_phrase (r := .parenExp) rfl (dead_lit (literals [] (by decide))).seq
  have number : Dead (.rule .number) c :=
    dead_phrase (r := .number) rfl ((numeral .hexFloat).alt ((numeral .hex).alt ((numeral .float).alt (numeral .int))))
  have string : Dead (.rule .string) c := dead_phrase (r := .string) rfl (longString.alt quotedString)
  have var : Dead (.rule .var) c := dead_phrase (r := .var) rfl (name.alt parenExp.seq).seq
  have prefixExp : Dead (.rule .prefixExp) c := dead_phrase (r := .prefixExp) rfl (var.alt parenExp).seq
  have table : Dead (.rule .table) c := dead_phrase (r := .table) rfl (dead_lit (literals [] (by decide))).seq
  have functionDef : Dead (.rule .functionDef) c :=
    dead_phrase (r := .functionDef) rfl (dead_lit (literals _ (by decide))).seq
  have varArgs : Dead (.rule .varArgs) c := dead_token (r := .varArgs) rfl (literals _ (by decide))
  have primary : Dead Grammar.primary c :=
    (words .nil "nil" rfl rfl (by decide)).alt <| (words .false "false" rfl rfl (by decide)).alt <|
      (words .true "true" rfl rfl (by decide)).alt <| number.alt <| string.alt <| varArgs.alt <|
      functionDef.alt <| table.alt prefixExp
  have unary : Dead Grammar.unaryOp c :=
    (words (.unary .not) "not" rfl rfl (by decide)).alt <|
      (dead_token (r := .unary .neg) rfl (literals [] (by decide))).alt <|
      (dead_token (r := .unary .len) rfl (literals [] (by decide))).alt <|
      dead_token (r := .unary .bnot) rfl (literals [] (by decide))
  exact dead_phrase (r := .exp) rfl (unary.star_seq settled primary).seq

end

section
variable {i : Insertion}

theorem reads_token {r : Rule} {scan : Scanner} (body : grammar.body r = .token scan) (steady : r.isSteady = true) :
    i.sideBySide.Reads scan := by
  refine Insertion.reads_of_agrees fun u solid => ?_
  cases r <;> cases body
  case shebang | hexFloat | hexInt | float | int => cases steady
  case finish => exact Insertion.agrees_finish solid
  case breakStat => exact Insertion.agrees_openWord (by decide) solid
  case nil | false | true | endWord => exact Insertion.agrees_word rfl solid
  case varArgs => exact Insertion.agrees_varArgs solid
  case longString => exact Insertion.agrees_longString solid
  case quotedString => exact Insertion.agrees_quotedString solid
  case closeLabel => exact Insertion.agrees_colons solid
  case name => exact Insertion.agrees_name solid
  case unary op =>
    cases op with
    | not => exact Insertion.agrees_word rfl solid
    | _ => exact Insertion.agrees_sign (by decide) solid
  case binary op =>
    cases op with
    | or | and => exact Insertion.agrees_word rfl solid
    | concat => exact Insertion.agrees_concat solid
    | le | ge | eq | ne | shl | shr | idiv => exact Insertion.agrees_pair (by decide) (by decide) solid
    | _ => exact Insertion.agrees_sign (by decide) solid
  all_goals exact Insertion.agrees_sign (by decide) solid

theorem reads_text {text : List Char} (steady : isSteadyText text = true) : i.sideBySide.Reads (.literal text) := by
  refine Insertion.reads_of_agrees fun u solid => ?_
  simp only [isSteadyText, Bool.or_eq_true, List.contains_iff_mem, beq_iff_eq, List.any_eq_true] at steady
  rcases steady with (isOpen | rfl) | ⟨c, isSign, rfl⟩
  · exact Insertion.agrees_openWord isOpen solid
  · exact Insertion.agrees_colons solid
  · exact Insertion.agrees_sign isSign solid

/-- Where both runs read the first character of a longer lexeme and what follows cannot go on, both fail. -/
theorem seq_dead {a : Char} {q : Pattern Rule} {c : Cursor} {t : List Char} (here : c.rest = a :: t)
    (settled : Settled t) (dead : ∀ d : Cursor, d.rest = t → Dead q d) : Dead (.seq (.lit [a]) q) c := by
  intro depth
  have read : Scanner.literal [a] c.rest = some ([a], t) := by simp [Scanner.literal, here]
  rw [run, run, Cursor.read, read]
  simp only [Option.map_some]
  rw [skip_settled settled, dead _ rfl depth]
  rfl

/-- Inside a longer lexeme, nothing matches that has to stand behind its first character. -/
theorem exists_of_isGuarded {p q : Pattern Rule} (guarded : isGuarded p q = true) :
    ∃ a, p = .lit [a] ∧ ∀ x s, IsLexeme (s ++ i.behind) (CharClass.of a) (a :: x) → x ≠ [] →
      (a = '[' → OpensNoOperand (x ++ (s ++ i.behind))) → ∀ z, i.Follows z →
        Settled (x ++ (s ++ z)) ∧ ∀ d : Cursor, d.rest = x ++ (s ++ z) → Dead q d := by
  unfold isGuarded at guarded
  split at guarded
  · rename_i a
    have pointed : a = '.' ∨ a = ':' := by simpa using guarded
    refine ⟨a, rfl, fun x s lexeme longer _ z _ => ?_⟩
    obtain ⟨settled, fails⟩ := Insertion.name_inside pointed lexeme longer (s ++ z)
    exact ⟨settled, fun d here => dead_token (r := .name) rfl (here ▸ fails)⟩
  · rename_i a q
    obtain rfl : a = '[' := by simpa using guarded
    refine ⟨'[', rfl, fun x s _ longer closed z follows => ?_⟩
    have opensNone := follows.opensNoOperand longer (closed rfl)
    exact ⟨opensNone.settled, fun d here => (dead_exp (here ▸ opensNone)).seq⟩
  · cases guarded

theorem keeps_guarded {depth : Nat} {p q : Pattern Rule} (guarded : isGuarded p q = true)
    (second : i.sideBySide.Keeps (q.run grammar (grammar.parse depth)) (q.run grammar (grammar.parse depth))) :
    i.sideBySide.Keeps ((Pattern.seq p q).run grammar (grammar.parse depth))
      ((Pattern.seq p q).run grammar (grammar.parse depth)) := by
  obtain ⟨a, rfl, deadEnd⟩ := exists_of_isGuarded (i := i) guarded
  rintro c c' (same | ⟨u, solid, here, here'⟩)
  · refine SideBySide.corresponds_seq (SideBySide.corresponds_lit ?_) second
    rw [← same]
    exact Scanner.alikeAt_self _ (fun _ => .inl rfl) c.rest
  · rcases Insertion.agrees_or_inside (a := a) solid with agrees | ⟨x, s, rfl, lexeme, longer, closed⟩
    · refine SideBySide.corresponds_seq (SideBySide.corresponds_lit ?_) second
      rw [here, here']
      exact agrees.alikeAt
    · rw [List.cons_append, List.append_assoc] at here here'
      have dead z (follows : i.Follows z) := deadEnd x s lexeme longer closed z follows
      have before := dead _ (.inl rfl)
      have after := dead _ (.inr rfl)
      exact .inl ⟨seq_dead here before.1 before.2 depth, seq_dead here' after.1 after.2 depth⟩

/-- Steady patterns match alike where steady rules do. -/
theorem keeps_pattern {depth : Nat}
    (calls : ∀ r : Rule, r.isSteady = true → i.sideBySide.Keeps (grammar.parse depth r) (grammar.parse depth r))
    {p : Pattern Rule} (steady : isSteady p = true) :
    i.sideBySide.Keeps (p.run grammar (grammar.parse depth)) (p.run grammar (grammar.parse depth)) := by
  induction p with
  | lit text => exact fun c c' ready => SideBySide.corresponds_lit (reads_text steady _ _ ready)
  | rule r => exact calls r steady
  | seq p q first second =>
    simp only [isSteady, Bool.and_eq_true, Bool.or_eq_true] at steady
    rcases steady.2 with steady' | guarded
    · exact fun c c' ready => SideBySide.corresponds_seq (first steady' c c' ready) (second steady.1)
    · exact keeps_guarded guarded (second steady.1)
  | alt p q first second =>
    simp only [isSteady, Bool.and_eq_true] at steady
    exact fun c c' ready => SideBySide.corresponds_alt (first steady.1 c c' ready) fun _ => second steady.2 c c' ready
  | opt p ih =>
    exact fun c c' ready => SideBySide.corresponds_opt (ih steady c c' ready) fun _ => i.sideBySide.stay ready
  | star p ih =>
    simp only [isSteady, Bool.and_eq_true, Bool.not_eq_true'] at steady
    have advances c ts d (found : p.run grammar (grammar.parse depth) c = some (ts, d)) :
        d.rest.length < c.rest.length :=
      (Pattern.run_reaches layered_grammar (Peg.Grammar.parse_reaches layered_grammar depth) p c ts d found).lt steady.2
    exact SideBySide.keeps_star (ih steady.1) layered_grammar.trivia advances advances

theorem scan_of_parse_none {r : Rule} {scan : Scanner} {c : Cursor} {depth : Nat} (body : grammar.body r = .token scan)
    (fails : grammar.parse (depth + 1) r c = none) : scan c.rest = none := by
  rw [Peg.Grammar.parse, body] at fails
  simpa [Cursor.read] using fails

theorem keeps_number (depth : Nat) :
    i.sideBySide.Keeps (grammar.parse (depth + 1) .number) (grammar.parse (depth + 1) .number) := by
  intro c c' ready
  refine SideBySide.corresponds_phrase (r := Rule.number) rfl ?_
  cases depth with
  | zero => exact .inl ⟨rfl, rfl⟩
  | succ depth =>
    have tried (k : NumeralClass) (failed : ∀ other ∈ k.earlier, other.scan c.rest = none) :
        Corresponds i.Ends (grammar.parse (depth + 1) k.rule c) (grammar.parse (depth + 1) k.rule c') :=
      SideBySide.corresponds_token (b := i.sideBySide) k.body_rule (Insertion.alikeAt_numeral ready k failed) _
    have fails (k : NumeralClass) (none : grammar.parse (depth + 1) k.rule c = none) : k.scan c.rest = Option.none :=
      scan_of_parse_none k.body_rule none
    refine SideBySide.corresponds_alt (tried .hexFloat (by simp [NumeralClass.earlier])) fun none => ?_
    have first := fails .hexFloat none
    refine SideBySide.corresponds_alt (tried .hex (by simpa [NumeralClass.earlier] using first)) fun none => ?_
    have second := fails .hex none
    refine SideBySide.corresponds_alt (tried .float (by simp [NumeralClass.earlier, first, second])) fun none => ?_
    exact tried .int (by simp [NumeralClass.earlier, first, second, fails .float none])

/-- Rules match alike, before and after the insertion. -/
theorem keeps_rule (depth : Nat) (r : Rule) (steady : r.isSteady = true) :
    i.sideBySide.Keeps (grammar.parse depth r) (grammar.parse depth r) := by
  induction depth generalizing r with
  | zero => exact fun c c' _ => .inl ⟨rfl, rfl⟩
  | succ depth ih =>
    cases body : grammar.body r with
    | token scan => exact fun c c' ready => SideBySide.corresponds_token body (reads_token body steady _ _ ready) _
    | phrase p =>
      by_cases isNumber : r = .number
      · subst isNumber
        exact keeps_number depth
      · have inner := keeps_pattern ih (isSteady_body body steady isNumber)
        exact fun c c' ready => SideBySide.corresponds_phrase body (inner c c' ready)

end

/-! ## Scripts -/

/-- What stands in front of the insertion in a script: a row of lexemes, perhaps behind a first line that begins with a
hash sign. Only blanks and comments stand before that line. -/
inductive Script (i : Insertion) : List Char → Prop where
  | plain {u : List Char} (row : Lexemes i.behind u) (first : Stops (· == '#') (trivia (u ++ i.behind)).2) : Script i u
  | headed {gap line u : List Char}
    (skipped : ∀ z, i.Follows z → (trivia (gap ++ '#' :: (line ++ (u ++ z)))).2 = '#' :: (line ++ (u ++ z)))
    (oneLine : '\n' ∉ line) (ends : Stops (· != '\n') (u ++ i.behind)) (row : Lexemes i.behind u) :
    Script i (gap ++ '#' :: (line ++ u))

section
variable {i : Insertion} {before : List Char}

theorem run_nothing (q : Pattern Rule) (call : Rule → Cursor → Outcome Rule) (c : Cursor) :
    (Pattern.seq (.lit []) q).run grammar call c = q.run grammar call (grammar.skip c) := by
  have read : Scanner.literal [] c.rest = some ([], c.rest) := by simp [Scanner.literal]
  rw [run, run, Cursor.read, read]
  simp only [Option.map_some, Text.byteSize_nil, Nat.add_zero, List.nil_append]
  cases found : q.run grammar call (grammar.skip c) with
  | none => rfl
  | some pair => rfl

/-- The scanner of a first line with a hash sign. -/
def hashLine : Scanner := .seq (.literal ['#']) line

theorem hashLine_of_stops {t : List Char} (stops : Stops (· == '#') t) : hashLine t = none := by
  have none : Scanner.literal ['#'] t = none := Insertion.literal_of_stops stops [] []
  rw [hashLine, Scanner.seq, none]
  rfl

theorem hashLine_append {first : List Char} (oneLine : '\n' ∉ first) (t : List Char) :
    hashLine ('#' :: (first ++ t)) = some ('#' :: (first ++ t.takeWhile (· != '\n')), t.dropWhile (· != '\n')) := by
  have inside : ∀ c ∈ first, (c != '\n') = true := by
    intro c member
    exact bne_iff_ne.mpr fun same => oneLine (same ▸ member)
  have read : line (first ++ t) = some (first ++ t.takeWhile (· != '\n'), t.dropWhile (· != '\n')) := by
    rw [line, Scanner.many, List.takeWhile_append_of_pos inside, List.dropWhile_append_of_pos inside]
  simp [hashLine, Scanner.seq, Scanner.literal, read]

/-- Behind the first line the same row is read on both sides. -/
theorem ends_of_line {u : List Char} (ends : Stops (· != '\n') (u ++ i.behind)) (row : Lexemes i.behind u) :
    i.Ends ((u ++ i.behind).dropWhile (· != '\n')) ((u ++ (i.blanks ++ i.behind)).dropWhile (· != '\n')) := by
  cases u with
  | nil =>
    refine .inl ?_
    rw [Insertion.Follows.trivia_line (.inl rfl) ends, Insertion.Follows.trivia_line (.inr rfl) ends]
    exact (trivia_append i.areBlank _).symm
  | cons c u =>
    obtain rfl : c = '\n' := by simpa using ends c rfl
    exact .inr ⟨'\n' :: u, row, rfl, rfl⟩

/-! ## Chunks -/

/-- The block of a script and its end. -/
def blockToEnd : Pattern Rule := all [rule .block, rule .finish]

theorem keeps_blockToEnd (depth : Nat) :
    i.sideBySide.Keeps (blockToEnd.run grammar (grammar.parse depth)) (blockToEnd.run grammar (grammar.parse depth)) :=
  keeps_pattern (keeps_rule depth) rfl

theorem body_chunk :
    grammar.body .chunk = .phrase (.seq (.lit []) (.seq (.opt (.rule .shebang)) blockToEnd)) := rfl

/-- The chunk that an outcome gives, up to ranges. -/
def chunkIn : Outcome Rule → Option Chunk
  | some ([t], _) => (chunkOf t).toOption.map Chunk.erase
  | _ => none

theorem erase_parse (source : Source) :
    (Chunk.parse source).toOption.map Chunk.erase =
      chunkIn (grammar.parse (depthBound source.text.toList) .chunk ⟨0, source.text.toList⟩) := by
  have forget (t : ParseTree Rule) : ((chunkOf t).mapError SyntaxError.tree).toOption = (chunkOf t).toOption := by
    cases chunkOf t <;> rfl
  simp only [Chunk.parse, matchChunk]
  generalize grammar.parse _ _ _ = o
  rcases o with _ | ⟨_ | ⟨t, _ | ⟨u, ts⟩⟩, d⟩
  · rfl
  · rfl
  · exact congrArg (Option.map Chunk.erase) (forget t)
  · rfl

theorem chunkIn_of_corresponds {rests : List Char → List Char → Prop} {o o' : Outcome Rule}
    (both : Corresponds rests o o') : chunkIn o = chunkIn o' := by
  rcases both with ⟨rfl, rfl⟩ | ⟨ts, d, ts', d', rfl, rfl, trees, -⟩
  · rfl
  · cases trees with
    | nil => rfl
    | cons first others =>
      cases others with
      | nil => exact erase_chunkOf first
      | cons => rfl

/-- Where no first line with a hash sign stands, the block is read alike. -/
theorem corresponds_plain {u : List Char} (row : Lexemes i.behind u)
    (first : Stops (· == '#') (trivia (u ++ i.behind)).2) (depth : Nat) :
    Corresponds i.Ends (grammar.parse (depth + 2) .chunk ⟨0, u ++ i.behind⟩)
      (grammar.parse (depth + 2) .chunk ⟨0, u ++ (i.blanks ++ i.behind)⟩) := by
  have ready := Insertion.ready_of_row row
  have first' : Stops (· == '#') (trivia (u ++ (i.blanks ++ i.behind))).2 := by
    rcases ready with same | ⟨u, solid, here, here'⟩
    · rwa [← same]
    · obtain ⟨c, x, s, rfl, -, -⟩ := solid.front
      rw [here] at first
      have other : (c == '#') = false := by simpa [Stops] using first
      rw [here']
      exact stops_cons.mpr other
  refine SideBySide.corresponds_phrase (b := i.sideBySide) body_chunk ?_
  rw [run_nothing, run_nothing]
  refine SideBySide.corresponds_seq (SideBySide.corresponds_opt ?_ fun _ => Insertion.ends_of_ready ready)
    (keeps_blockToEnd (depth + 1))
  exact SideBySide.corresponds_token (b := i.sideBySide) (r := Rule.shebang) rfl
    (.inl ⟨hashLine_of_stops first, hashLine_of_stops first'⟩) (depth + 1)

/-- The tree of a script with a first line. -/
theorem parse_hashLine {s x rest : List Char} {c : Cursor} (start : grammar.skip ⟨0, s⟩ = c)
    (found : hashLine c.rest = some (x, rest)) (depth : Nat) :
    grammar.parse (depth + 2) .chunk ⟨0, s⟩ =
      (blockToEnd.run grammar (grammar.parse (depth + 1)) (grammar.skip ⟨c.offset + Text.byteSize x, rest⟩)).map
        fun (us, d) => ([.phrase .chunk ⟨0, ParseTree.lastToken 0 (.token .shebang c.offset x :: us), d.offset⟩
          (.token .shebang c.offset x :: us)], d) := by
  have first : (Pattern.opt (.rule .shebang)).run grammar (grammar.parse (depth + 1)) c =
      some ([.token .shebang c.offset x], ⟨c.offset + Text.byteSize x, rest⟩) := by
    have body : grammar.body .shebang = .token hashLine := rfl
    rw [Pattern.run, Pattern.run, Grammar.parse, body]
    simp only [Cursor.read, found, Option.map_some]
  rw [Grammar.parse, body_chunk]
  simp only [run_nothing]
  rw [start, Pattern.run, first]
  simp only [Option.map_map]
  rfl

/-- The text of the first line does not matter. -/
theorem erase_chunkOf_headed {r : Rule} {n n' : Nat} {x x' : List Char} {range range' : TextRange}
    {us us' : List (ParseTree Rule)} (trees : List.Forall₂ ParseTree.Alike us us') :
    (chunkOf (.phrase .chunk range (.token r n x :: us))).toOption.map Chunk.erase =
      (chunkOf (.phrase .chunk range' (.token r n' x' :: us'))).toOption.map Chunk.erase := by
  have alike : (ParseTree.phrase Rule.chunk range (.token r n x :: us)).Alike
      (.phrase .chunk range' (.token r n' x :: us')) := .phrase _ _ _ (.cons (.token ..) trees)
  have same : (chunkOf (.phrase .chunk range' (.token r n' x :: us'))).toOption =
      (chunkOf (.phrase .chunk range' (.token r n' x' :: us'))).toOption := by
    rcases us' with _ | ⟨a, _ | ⟨b, _ | ⟨c, us'⟩⟩⟩ <;> rfl
  rw [erase_chunkOf alike, same]

theorem chunkIn_headed {s s' x x' rest rest' : List Char} (found : hashLine (trivia s).2 = some (x, rest))
    (found' : hashLine (trivia s').2 = some (x', rest')) (ends : i.Ends rest rest') (depth : Nat) :
    chunkIn (grammar.parse (depth + 2) .chunk ⟨0, s⟩) = chunkIn (grammar.parse (depth + 2) .chunk ⟨0, s'⟩) := by
  rw [parse_hashLine rfl found, parse_hashLine rfl found']
  rcases keeps_blockToEnd (depth + 1) (grammar.skip ⟨_, rest⟩) (grammar.skip ⟨_, rest'⟩)
    (Insertion.ready_of_ends ends) with ⟨none, none'⟩ | ⟨us, d, us', d', run, run', trees, -⟩
  · rw [none, none']
    rfl
  · rw [run, run']
    exact erase_chunkOf_headed trees

theorem Script.chunkIn_eq (script : Script i before) (depth : Nat) :
    chunkIn (grammar.parse (depth + 2) .chunk ⟨0, before ++ i.behind⟩) =
      chunkIn (grammar.parse (depth + 2) .chunk ⟨0, before ++ (i.blanks ++ i.behind)⟩) := by
  cases script with
  | plain row first => exact chunkIn_of_corresponds (corresponds_plain row first depth)
  | @headed gap first u skipped oneLine ends row =>
    have found z (follows : i.Follows z) : hashLine (trivia (gap ++ '#' :: (first ++ u) ++ z)).2 =
        some ('#' :: (first ++ (u ++ z).takeWhile (· != '\n')), (u ++ z).dropWhile (· != '\n')) := by
      rw [List.append_assoc, List.cons_append, List.append_assoc, skipped z follows, hashLine_append oneLine]
    exact chunkIn_headed (found _ (.inl rfl)) (found _ (.inr rfl)) (ends_of_line ends row) depth

theorem parse_depthBound (text : List Char) (extra : Nat) :
    grammar.parse (depthBound text) .chunk ⟨0, text⟩ = grammar.parse (depthBound text + extra) .chunk ⟨0, text⟩ := by
  have enough : 16 * text.length + Rule.rank .chunk < depthBound text := by
    simp only [depthBound, Rule.rank]
    omega
  exact Peg.Grammar.parse_stable layered_grammar .chunk ⟨0, text⟩ enough (Nat.lt_add_right extra enough)

/-- A script gives the same chunk up to ranges before and after the insertion, or none. -/
theorem Script.chunkIn_depthBound (script : Script i before) :
    chunkIn (grammar.parse (depthBound (before ++ i.behind)) .chunk ⟨0, before ++ i.behind⟩) =
      chunkIn (grammar.parse (depthBound (before ++ (i.blanks ++ i.behind))) .chunk
        ⟨0, before ++ (i.blanks ++ i.behind)⟩) := by
  have both := script.chunkIn_eq (depthBound (before ++ i.behind) + depthBound (before ++ (i.blanks ++ i.behind)) - 2)
  have deep : depthBound (before ++ i.behind) + depthBound (before ++ (i.blanks ++ i.behind)) - 2 + 2 =
      depthBound (before ++ i.behind) + depthBound (before ++ (i.blanks ++ i.behind)) := by
    simp only [depthBound]
    omega
  rwa [deep, ← parse_depthBound, Nat.add_comm, ← parse_depthBound] at both

/-- Blanks between lexemes leave a script the same up to ranges, or refused. -/
theorem Chunk.parse_insert (script : Script i before) {source source' : Source}
    (here : source.text.toList = before ++ i.behind) (here' : source'.text.toList = before ++ (i.blanks ++ i.behind)) :
    (Chunk.parse source').toOption.map Chunk.erase = (Chunk.parse source).toOption.map Chunk.erase := by
  rw [erase_parse, erase_parse, here, here']
  exact script.chunkIn_depthBound.symm

end

/-- The operand of a minus sign goes to a line of its own. -/
def operandBelow : Insertion where
  blanks := ['\n', '\t']
  behind := ['-', 'y', '\x7d']
  areBlank := List.all_eq_true.mp rfl
  fresh := by
    rintro c ⟨⟩
    exact ⟨rfl, by decide⟩

/-- A name that begins with a reserved word, a string that begins with a bracket and a numeral right before a word. -/
def doubtful : List Char := "return in1+f\x7b[[[]],[1]=1or".toList

theorem lexemes_doubtful : Lexemes operandBelow.behind doubtful := by
  have value : Lexemes operandBelow.behind (['1'] ++ ("or".toList ++ [])) :=
    (IsLexeme.numeral rfl rfl).lexemes rfl <|
      .word rfl (List.all_eq_true.mp rfl) (stops_cons.mpr rfl) (unglued_of_all rfl _) .nil
  have key : Lexemes operandBelow.behind (['['] ++ (['1'] ++ ([']'] ++ (['='] ++ "1or".toList)))) :=
    .bracket rfl <| (IsLexeme.numeral rfl rfl).lexemes rfl <| .sign (by decide) (by decide) <|
      .sign (by decide) (by decide) value
  have fields : Lexemes operandBelow.behind ([','] ++ "[1]=1or".toList) := .sign (by decide) (by decide) key
  -- behind the first bracket stands another long string, and behind the second one none
  have inner : Lexemes operandBelow.behind ("[[]]".toList ++ ",[1]=1or".toList) :=
    .long rfl (fun opened => absurd ⟨_, _, rfl, .inr ⟨rfl, rfl⟩⟩ opened) fields
  have table : Lexemes operandBelow.behind (['\x7b'] ++ ("[[[]]".toList ++ ",[1]=1or".toList)) :=
    .sign (by decide) (by decide) <| .long rfl (fun _ => inner) fields
  have call : Lexemes operandBelow.behind (['+'] ++ (['f'] ++ "\x7b[[[]],[1]=1or".toList)) :=
    .sign (by decide) (by decide) <| .word rfl (by simp) (stops_cons.mpr rfl) (unglued_of_all rfl _) table
  have name : Unglued ("+f\x7b[[[]],[1]=1or".toList ++ operandBelow.behind) "in1".toList :=
    (unglued_of_numeral rfl rfl rfl : Unglued _ (['i', 'n'] ++ '1' :: []))
  have row : Lexemes operandBelow.behind
      ("return".toList ++ ([' '] ++ ("in1".toList ++ "+f\x7b[[[]],[1]=1or".toList))) :=
    .word rfl (List.all_eq_true.mp rfl) (stops_cons.mpr rfl) (unglued_of_all rfl _) <|
      (IsLexeme.blank rfl).lexemes rfl <| .word rfl (List.all_eq_true.mp rfl) (stops_cons.mpr rfl) name call
  exact row

theorem Chunk.parse_insert_doubtful :
    ((Chunk.parse ⟨"main.lua", "return in1+f\x7b[[[]],[1]=1or-y\x7d"⟩).toOption.map Chunk.erase).isSome = true ∧
    (Chunk.parse ⟨"main.lua", "return in1+f\x7b[[[]],[1]=1or\n\t-y\x7d"⟩).toOption.map Chunk.erase =
      (Chunk.parse ⟨"main.lua", "return in1+f\x7b[[[]],[1]=1or-y\x7d"⟩).toOption.map Chunk.erase := by
  refine ⟨by decide +kernel, parse_insert (.plain lexemes_doubtful ?_) rfl rfl⟩
  rw [trivia_of_none rfl]
  exact stops_cons.mpr rfl

/-- A table of two fields: a long string, and a key with its value. -/
def doubledBracket : String := "f\x7b[[=[]],[\"]=]..\"+\"--\"+-\ny]=1\x7d"

theorem Chunk.parse_insert_keyed :
    (∃ chunk, Chunk.parse ⟨"main.lua", doubledBracket⟩ = .ok chunk ∧
      some 23 ∈ chunk.block.sketch.nodes.map fun o => o.range.map TextRange.start) ∧
    (Chunk.parse ⟨"main.lua", String.ofList (doubledBracket.toList.insertIdx 23 '\n')⟩).toOption.map Chunk.erase ≠
      (Chunk.parse ⟨"main.lua", doubledBracket⟩).toOption.map Chunk.erase := by
  have starts : (Chunk.parse ⟨"main.lua", doubledBracket⟩).toOption.map
      (fun chunk => (chunk.block.sketch.nodes.map fun o => o.range.map TextRange.start).contains (some 23)) =
      some true := by
    decide +kernel
  constructor
  · cases read : Chunk.parse ⟨"main.lua", doubledBracket⟩ with
    | error e =>
      rw [read] at starts
      cases starts
    | ok chunk =>
      rw [read] at starts
      exact ⟨chunk, rfl, List.contains_iff_mem.mp (Option.some.inj starts)⟩
  · intro same
    have counts := congrArg (Option.map fun chunk => chunk.block.sketch.nodes.length) same
    revert counts
    decide +kernel

end LuaLowering.Syntax
