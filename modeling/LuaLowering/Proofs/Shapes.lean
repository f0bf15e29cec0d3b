import LuaLowering.Proofs.Matching
/-!
# Failure at the first token

Which alternatives of a choice fail is often plain from what the text begins with: `Shape.rejects` computes it
(`Fails.of_shape`), and `Shape.pick` the rule of a choice that is left (`Matches.pick`).
-/
namespace LuaLowering.Syntax
open Peg Peg.Pattern Lexeme

/-! ## Shapes -/

/-- What a text begins with: a token and then a space or nothing, a name, a numeral, or a double quote. -/
inductive Shape where
  | token (text : List Char)
  | name
  | numeral
  | quote

def Shape.Opens : Shape → List Char → Prop
  | .token text, s => ∃ rest, s = text ++ rest ∧ Ends rest
  | .name, s => ∃ n rest, s = String.toList n ++ rest ∧ Ends rest ∧ isIdentifier n = true
  | .numeral, s => ∃ c rest, s = c :: rest ∧ (c.isDigit = true ∨ c = '.')
  | .quote, s => ∃ rest, s = '"' :: rest

/-- No character of the class begins the text. -/
def opensOutside (isFirst : Char → Bool) : List Char → Bool
  | [] => false
  | c :: _ => !isFirst c

/-- The literal does not match a text of this shape. -/
def Shape.refusesText : Shape → List Char → Bool
  | .token text, literal => !literal.contains ' ' && !literal.isPrefixOf text
  | .name, literal => opensOutside isWordStart literal
  | .numeral, literal => opensOutside (fun c => c.isDigit || c == '.') literal
  | .quote, literal => opensOutside (· == '"') literal

/-- The rule does not match a text that begins with this token and then a space or nothing. -/
def Rule.refuses (text : List Char) (r : Rule) : Bool :=
  match r with
  | .finish => !text.isEmpty
  | .shebang => text.head? != some '#'
  | .longString => text.head? != some '[' || text == ['[']
  | .quotedString => text.head? != some '"' && text.head? != some '\''
  | .member => text == ['.', '.']
  | r =>
    match grammar.body r with
    | .token scan => (scan text).isNone
    | .phrase _ => Bool.false

/-- The operators and words that may stand before or in place of an operand. -/
def Rule.isPlain : Rule → Bool
  | .nil | .false | .true | .unary _ => Bool.true
  | _ => Bool.false

def NumeralClass.rule : NumeralClass → Rule
  | .int => .int
  | .hex => .hexInt
  | .float => .float
  | .hexFloat => .hexFloat

def numeralClasses : List NumeralClass := [.hexFloat, .hex, .float, .int]

def Rule.isNumeral (r : Rule) : Bool := numeralClasses.any (·.rule == r)

/-- The rule does not match a text of this shape. -/
def Shape.refuses (shape : Shape) (r : Rule) : Bool :=
  match shape with
  | .token text => r.refuses text
  | .name =>
    r.isPlain || r.isNumeral ||
      ([.shebang, .semicolon, .longString, .quotedString, .varArgs, .functionDef] : List Rule).contains r
  | .numeral => r.isPlain || r == .name
  | .quote => r.isPlain || r.isNumeral || ([.name, .longString] : List Rule).contains r

theorem Rule.eq_of_isPlain {r : Rule} (plain : r.isPlain = Bool.true) :
    r = .nil ∨ r = .false ∨ r = .true ∨ ∃ op, r = .unary op := by
  cases r <;> simp_all [isPlain]

theorem Rule.eq_of_isNumeral {r : Rule} (numeral : r.isNumeral = Bool.true) : ∃ k : NumeralClass, r = k.rule := by
  obtain ⟨k, -, same⟩ := List.any_eq_true.mp numeral
  exact ⟨k, (beq_iff_eq.mp same).symm⟩

theorem NumeralClass.body_rule (k : NumeralClass) : grammar.body k.rule = .token k.scan := by
  cases k <;> rfl

/-! ## Scanners by their first character -/

theorem literal_none {c d : Char} (differ : c ≠ d) (word s : List Char) :
    Scanner.literal (c :: word) (d :: s) = none := by
  rw [Scanner.literal, if_neg]
  simp [List.isPrefixOf, differ]

theorem word_none {text : String} {c d : Char} {word : List Char} (letters : text.toList = c :: word) (differ : c ≠ d)
    (s : List Char) : Lexeme.word text (d :: s) = none := by
  rw [Lexeme.word, Scanner.seq, letters, literal_none differ]
  rfl

theorem name_none {c : Char} (outside : isWordStart c = false) (s : List Char) : Lexeme.name (c :: s) = none := by
  rw [Lexeme.name, if_neg (by simp [outside])]

theorem numeral_none (k : NumeralClass) {c : Char} (digit : c.isDigit = false) (point : c ≠ '.') (s : List Char) :
    k.scan (c :: s) = none := by
  cases found : k.scan (c :: s) with
  | none => rfl
  | some pair =>
    obtain ⟨read, rest⟩ := pair
    obtain ⟨d, more, rfl, kind⟩ := NumeralClass.first_of_reads ⟨_, _, found⟩
    cases k.splits_scan _ _ _ found
    rcases kind with isDigit | rfl
    · rw [digit] at isDigit
      cases isDigit
    · exact absurd rfl point

theorem longString_none {c : Char} (bracket : c ≠ '[') (s : List Char) : LongBracket.scan (c :: s) = none := by
  rw [LongBracket.scan, LongBracket.parts?]
  · rfl
  · rintro s ⟨⟩
    exact bracket rfl

theorem quotedString_none {c : Char} (double : c ≠ '"') (single : c ≠ '\'') (s : List Char) :
    QuotedString.scan (c :: s) = none := by
  rw [QuotedString.scan, if_neg]
  simp [double, single]

theorem ne_of_isWordStart {c d : Char} (outside : isWordStart c = false) (starts : isWordStart d = true) : c ≠ d := by
  rintro rfl
  rw [outside] at starts
  cases starts

theorem isIdentifier_iff {n : String} : isIdentifier n = true ↔
    ∃ c s, n.toList = c :: s ∧ isWordStart c = true ∧ (∀ d ∈ s, isWordChar d = true) ∧ isReserved (c :: s) = false := by
  unfold isIdentifier
  cases letters : n.toList with
  | nil => simp
  | cons c s => simp [and_assoc]

/-- A name runs on behind a reserved word that it begins with. -/
theorem run_on_of_identifier {n : String} (identifier : isIdentifier n = true) {word after : List Char}
    (reserved : isReserved word = true) (some_text : word ≠ []) (split : word ++ after = n.toList) :
    ∃ c s, after = c :: s ∧ ∀ d ∈ after, isWordChar d = true := by
  obtain ⟨c, s, letters, -, inside, free⟩ := isIdentifier_iff.mp identifier
  rw [letters] at split
  cases word with
  | nil => exact absurd rfl some_text
  | cons e word =>
    rw [List.cons_append, List.cons.injEq] at split
    obtain ⟨rfl, rfl⟩ := split
    cases after with
    | nil =>
      rw [List.append_nil, reserved] at free
      cases free
    | cons d after => exact ⟨d, after, rfl, fun x member => inside x (List.mem_append_right _ member)⟩

/-- A name does not begin with a reserved word that ends there. -/
theorem word_none_of_identifier {n text : String} (identifier : isIdentifier n = true)
    (reserved : isReserved text.toList = true) (some_text : text.toList ≠ []) : Lexeme.word text n.toList = none := by
  rw [Lexeme.word, Scanner.seq, Scanner.literal]
  split
  · rename_i matched
    obtain ⟨after, split⟩ := List.isPrefixOf_iff_prefix.mp matched
    obtain ⟨d, s, rfl, inside⟩ := run_on_of_identifier identifier reserved some_text split
    rw [← split, List.drop_left]
    simp [Scanner.absent, Scanner.one, inside d List.mem_cons_self]
  · rfl

/-! ## Refusals are sound -/

theorem Shape.literal_none {shape : Shape} {s literal : List Char} (opens : shape.Opens s)
    (refuses : shape.refusesText literal = true) : Scanner.literal literal s = none := by
  cases shape with
  | token text =>
    obtain ⟨rest, rfl, ends⟩ := opens
    simp only [refusesText, Bool.and_eq_true, Bool.not_eq_true', List.contains_eq_mem, decide_eq_false_iff_not]
      at refuses
    rw [Scanner.blind_literal refuses.1 text rest ends, Scanner.literal, if_neg (by simp [refuses.2])]
    rfl
  | name =>
    obtain ⟨n, rest, rfl, ends, identifier⟩ := opens
    obtain ⟨c, s, letters, starts, -, -⟩ := isIdentifier_iff.mp identifier
    cases literal with
    | nil => cases refuses
    | cons d word =>
      simp only [refusesText, opensOutside, Bool.not_eq_true'] at refuses
      rw [letters]
      exact Syntax.literal_none (ne_of_isWordStart refuses starts) _ _
  | numeral =>
    obtain ⟨c, rest, rfl, kind⟩ := opens
    cases literal with
    | nil => cases refuses
    | cons d word =>
      simp only [refusesText, opensOutside, Bool.not_eq_true', Bool.or_eq_false_iff, beq_eq_false_iff_ne] at refuses
      refine Syntax.literal_none ?_ _ _
      rintro rfl
      rcases kind with digit | point
      · rw [refuses.1] at digit
        cases digit
      · exact refuses.2 point
  | quote =>
    obtain ⟨rest, rfl⟩ := opens
    cases literal with
    | nil => cases refuses
    | cons d word =>
      simp only [refusesText, opensOutside, Bool.not_eq_true', beq_eq_false_iff_ne] at refuses
      exact Syntax.literal_none refuses _ _

theorem blind_token {r : Rule} {scan : Scanner} (body : grammar.body r = .token scan) (finish : r ≠ .finish)
    (shebang : r ≠ .shebang) (long : r ≠ .longString) (quoted : r ≠ .quotedString) : scan.Blind := by
  cases r <;> cases body
  case finish => exact absurd rfl finish
  case shebang => exact absurd rfl shebang
  case longString => exact absurd rfl long
  case quotedString => exact absurd rfl quoted
  case nil | false | true | endWord => exact blind_word (by decide)
  case hexFloat => exact Numeral.blind_hexFloat
  case hexInt => exact Numeral.blind_hexInt
  case float => exact Numeral.blind_float
  case int => exact Numeral.blind_int
  case name => exact blind_name
  case unary op =>
    cases op with
    | not => exact blind_word (by decide)
    | _ => exact Scanner.blind_literal (by decide)
  case binary op =>
    cases op with
    | or | and => exact blind_word (by decide)
    | concat => exact (Scanner.blind_literal (by decide)).absent.seq (Scanner.blind_literal (by decide))
    | _ => exact Scanner.blind_literal (by decide)
  all_goals exact Scanner.blind_literal (by decide)

/-- The first character of a text in front of a space or nothing. -/
theorem first_of_ends (text : List Char) {rest : List Char} (ends : Ends rest) :
    text ++ rest = [] ∨ ∃ c s, text ++ rest = c :: s ∧ (c = ' ' ∨ text.head? = some c) := by
  cases text with
  | nil =>
    rcases ends with rfl | ⟨s, rfl⟩
    · exact .inl rfl
    · exact .inr ⟨' ', s, rfl, .inl rfl⟩
  | cons c text => exact .inr ⟨c, text ++ rest, rfl, .inr rfl⟩

theorem settled_cons {c : Char} (visible : isBlank c = false) (dash : c ≠ '-') (s : List Char) : Settled (c :: s) := by
  refine ⟨by simp [visible], ?_⟩
  rw [comment, Scanner.seq, Syntax.literal_none dash.symm]
  rfl

/-- A point in front of something else than a name is no access. -/
theorem read_member_points {c : Cursor} {s : List Char} (here : c.rest = '.' :: '.' :: s) :
    grammar.read 16 .member c = none := by
  have body : grammar.body .member = .phrase (.seq (.text ".") (.rule .name)) := rfl
  have dots : c.rest = ".".toList ++ '.' :: s := here
  refine read_phrase_none body ?_
  rw [tries_seq_of_some (tries_text dots), skip_settled (settled_cons (by decide) (by decide) s), tries_rule,
    read_token_none rfl (name_none (by decide) s)]
  rfl

theorem read_none_of_refuses {r : Rule} {text rest : List Char} (ends : Ends rest) (refuses : r.refuses text = true)
    {c : Cursor} (here : c.rest = text ++ rest) : grammar.read 16 r c = none := by
  have first := first_of_ends text ends
  unfold Rule.refuses at refuses
  split at refuses
  · refine read_token_none (r := .finish) rfl ?_
    cases text with
    | nil => cases refuses
    | cons d text =>
      rw [here]
      rfl
  · refine read_token_none (r := .shebang) rfl ?_
    rw [here]
    rcases first with nothing | ⟨d, s, split, space | head⟩
    · rw [nothing]
      rfl
    · rw [split, space]
      rfl
    · rw [head] at refuses
      rw [split, Scanner.seq, Syntax.literal_none (by simpa using Ne.symm (bne_iff_ne.mp refuses))]
      rfl
  · refine read_token_none (r := .longString) rfl ?_
    rw [here]
    rcases Bool.or_eq_true_iff.mp refuses with other | bracket
    · rcases first with nothing | ⟨d, s, split, space | head⟩
      · rw [nothing]
        rfl
      · rw [split, space]
        rfl
      · rw [head] at other
        rw [split, longString_none (by simpa using other)]
    · rw [beq_iff_eq.mp bracket]
      rcases ends with rfl | ⟨s, rfl⟩ <;> rfl
  · refine read_token_none (r := .quotedString) rfl ?_
    rw [here]
    rcases first with nothing | ⟨d, s, split, space | head⟩
    · rw [nothing]
      rfl
    · rw [split, space]
      rfl
    · simp only [head, Bool.and_eq_true, bne_iff_ne, ne_eq, Option.some.injEq] at refuses
      rw [split, quotedString_none refuses.1 refuses.2]
  · rw [beq_iff_eq.mp refuses] at here
    exact read_member_points here
  · rename_i finish shebang long quoted _
    split at refuses
    · rename_i scan body
      refine read_token_none body ?_
      rw [here, blind_token body finish shebang long quoted text rest ends, Option.isNone_iff_eq_none.mp refuses]
      rfl
    · cases refuses

theorem isWordChar_visible {c : Char} (char : isWordChar c = true) : isBlank c = false ∧ c ≠ '-' ∧ '(' ≠ c := by
  have other (d : Char) (outside : isWordChar d = false) : c ≠ d := by
    rintro rfl
    rw [outside] at char
    cases char
  refine ⟨?_, other '-' (by decide), (other '(' (by decide)).symm⟩
  simp [isBlank, other ' ' (by decide), other '\t' (by decide), other '\r' (by decide), other '\n' (by decide),
    other '\x0b' (by decide), other '\x0c' (by decide)]

/-- A reserved word is read from the front of a name only if the name runs on behind it. -/
theorem tries_text_name (word : String) {n : String} (reserved : isReserved word.toList = true)
    (solid : ' ' ∉ word.toList) (some_text : word.toList ≠ []) (identifier : isIdentifier n = true) {rest : List Char}
    (ends : Ends rest) {c : Cursor} (here : c.rest = n.toList ++ rest) : tries (.text word) c = none ∨
      ∃ d s offset, tries (.text word) c = some ([], ⟨offset, d :: s ++ rest⟩) ∧ ∀ e ∈ d :: s, isWordChar e = true := by
  by_cases matched : word.toList.isPrefixOf n.toList = true
  · obtain ⟨after, split⟩ := List.isPrefixOf_iff_prefix.mp matched
    obtain ⟨d, s, rfl, inside⟩ := run_on_of_identifier identifier reserved some_text split
    rw [← split, List.append_assoc] at here
    exact .inr ⟨d, s, _, tries_text here, inside⟩
  · refine .inl (tries_lit_none ?_)
    rw [here, Scanner.blind_literal solid _ _ ends, Scanner.literal, if_neg matched]
    rfl

/-- A name that begins with the word `function` is not a function. -/
theorem read_functionDef_name {n : String} {rest : List Char} (ends : Ends rest) (identifier : isIdentifier n = true)
    {c : Cursor} (here : c.rest = n.toList ++ rest) : grammar.read 16 .functionDef c = none := by
  have body : grammar.body .functionDef = .phrase (.seq (.text "function") (.rule .funcBody)) := rfl
  refine read_phrase_none body ?_
  rcases tries_text_name "function" (by decide) (by decide) (by decide) identifier ends here with
    failed | ⟨d, s, offset, word, inside⟩
  · exact tries_seq_of_none failed
  · obtain ⟨visible, dash, paren⟩ := isWordChar_visible (inside d List.mem_cons_self)
    rw [tries_seq_of_some word, skip_settled (settled_cons visible dash _), tries_rule,
      read_phrase_none rfl (tries_seq_of_none (tries_lit_none (Syntax.literal_none paren _ _)))]
    rfl

section
variable {c : Cursor} {d : Char} {s : List Char} {r : Rule}

theorem read_literal_none {word : List Char} {e : Char} (body : grammar.body r = .token (.literal (e :: word)))
    (here : c.rest = d :: s) (differ : e ≠ d) : grammar.read 16 r c = none :=
  read_token_none body (by rw [here]; exact literal_none differ _ _)

theorem read_unary_none {op : UnaryOp} (symbol : op ≠ .not) (here : c.rest = d :: s)
    (differ : ∀ e ∈ ['-', '#', '~'], e ≠ d) : grammar.read 16 (.unary op) c = none := by
  cases op with
  | not => exact absurd rfl symbol
  | neg => exact read_literal_none rfl here (differ '-' (by decide))
  | len => exact read_literal_none rfl here (differ '#' (by decide))
  | bnot => exact read_literal_none rfl here (differ '~' (by decide))

theorem read_plain_none (here : c.rest = d :: s) (outside : isWordStart d = false)
    (differ : ∀ e ∈ ['-', '#', '~'], e ≠ d) (plain : r.isPlain = true) : grammar.read 16 r c = none := by
  have words {text : String} {e : Char} {word : List Char} (letters : text.toList = e :: word)
      (starts : isWordStart e = true) : Lexeme.word text c.rest = none := by
    rw [here]
    exact word_none letters (ne_of_isWordStart outside starts).symm _
  rcases r.eq_of_isPlain plain with rfl | rfl | rfl | ⟨op, rfl⟩
  · exact read_token_none rfl (words rfl (by decide))
  · exact read_token_none rfl (words rfl (by decide))
  · exact read_token_none rfl (words rfl (by decide))
  · by_cases word : op = .not
    · subst word
      exact read_token_none rfl (words rfl (by decide))
    · exact read_unary_none word here differ

theorem read_numeral_none (here : c.rest = d :: s) (digit : d.isDigit = false) (point : d ≠ '.')
    (numeral : r.isNumeral = true) : grammar.read 16 r c = none := by
  obtain ⟨k, rfl⟩ := r.eq_of_isNumeral numeral
  refine read_token_none k.body_rule ?_
  rw [here]
  exact numeral_none k digit point s

end

theorem isDigit_of_isWordStart {c : Char} (starts : isWordStart c = true) : c.isDigit = false := by
  by_contra digit
  rw [Bool.not_eq_false] at digit
  unfold isWordStart Char.isAlpha Char.isUpper Char.isLower at starts
  unfold Char.isDigit at digit
  simp only [Bool.or_eq_true, Bool.and_eq_true, decide_eq_true_eq, beq_iff_eq, UInt32.le_iff_toNat_le, ge_iff_le]
    at starts digit
  have capitals : '9'.val.toNat < 'A'.val.toNat := by decide
  have letters : '9'.val.toNat < 'a'.val.toNat := by decide
  rcases starts with (upper | lower) | rfl
  · omega
  · omega
  · revert digit
    decide

theorem read_none_of_name {n : String} {rest : List Char} (ends : Ends rest) (identifier : isIdentifier n = true)
    {r : Rule} (refuses : Shape.name.refuses r = true) {c : Cursor} (here : c.rest = n.toList ++ rest) :
    grammar.read 16 r c = none := by
  obtain ⟨d, s, letters, starts, -, -⟩ := isIdentifier_iff.mp identifier
  have first : c.rest = d :: (s ++ rest) := by rw [here, letters, List.cons_append]
  have other (e : Char) (outside : isWordStart e = false) : e ≠ d := ne_of_isWordStart outside starts
  have words {text : String} (reserved : isReserved text.toList = true) (solid : ' ' ∉ text.toList)
      (some_text : text.toList ≠ []) : Lexeme.word text c.rest = none := by
    rw [here, blind_word solid _ _ ends, word_none_of_identifier identifier reserved some_text]
    rfl
  simp only [Shape.refuses, Bool.or_eq_true] at refuses
  rcases refuses with (plain | numeral) | listed
  · rcases r.eq_of_isPlain plain with rfl | rfl | rfl | ⟨op, rfl⟩
    · exact read_token_none rfl (words (by decide) (by decide) (by decide))
    · exact read_token_none rfl (words (by decide) (by decide) (by decide))
    · exact read_token_none rfl (words (by decide) (by decide) (by decide))
    · by_cases word : op = .not
      · subst word
        exact read_token_none rfl (words (by decide) (by decide) (by decide))
      · refine read_unary_none word first ?_
        simp [other '-' (by decide), other '#' (by decide), other '~' (by decide)]
  · exact read_numeral_none first (isDigit_of_isWordStart starts) (other '.' (by decide)).symm numeral
  · simp only [List.contains_eq_mem, decide_eq_true_eq, List.mem_cons, List.not_mem_nil, or_false] at listed
    rcases listed with rfl | rfl | rfl | rfl | rfl | rfl
    · refine read_token_none rfl ?_
      rw [first, Scanner.seq, literal_none (other '#' (by decide))]
      rfl
    · exact read_literal_none rfl first (other ';' (by decide))
    · refine read_token_none rfl ?_
      rw [first]
      exact longString_none (other '[' (by decide)).symm _
    · refine read_token_none rfl ?_
      rw [first]
      exact quotedString_none (other '"' (by decide)).symm (other '\'' (by decide)).symm _
    · exact read_literal_none rfl first (other '.' (by decide))
    · exact read_functionDef_name ends identifier here

theorem Shape.read_none {shape : Shape} {r : Rule} {c : Cursor} (opens : shape.Opens c.rest)
    (refuses : shape.refuses r = true) : grammar.read 16 r c = none := by
  cases shape with
  | token text =>
    obtain ⟨rest, here, ends⟩ := opens
    exact read_none_of_refuses ends refuses here
  | name =>
    obtain ⟨n, rest, here, ends, identifier⟩ := opens
    exact read_none_of_name ends identifier refuses here
  | numeral =>
    obtain ⟨d, rest, here, kind⟩ := opens
    have outside : isWordStart d = false := by
      by_contra starts
      rw [Bool.not_eq_false] at starts
      rcases kind with digit | rfl
      · rw [isDigit_of_isWordStart starts] at digit
        cases digit
      · cases starts
    have symbols : ∀ e ∈ ['-', '#', '~'], e ≠ d := by
      have plain : ∀ e ∈ ['-', '#', '~'], e.isDigit = false ∧ e ≠ '.' := by
        simp only [List.forall_mem_cons, List.not_mem_nil, false_imp_iff, implies_true]
        decide
      rintro e member rfl
      rcases kind with digit | point
      · rw [(plain e member).1] at digit
        cases digit
      · exact (plain e member).2 point
    simp only [Shape.refuses, Bool.or_eq_true, beq_iff_eq] at refuses
    rcases refuses with plain | rfl
    · exact read_plain_none here outside symbols plain
    · refine read_token_none rfl ?_
      rw [here]
      exact name_none outside rest
  | quote =>
    obtain ⟨rest, here⟩ := opens
    simp only [Shape.refuses, Bool.or_eq_true] at refuses
    rcases refuses with (plain | numeral) | listed
    · exact read_plain_none here (by decide) (by simp) plain
    · exact read_numeral_none here (by decide) (by decide) numeral
    · simp only [List.contains_eq_mem, decide_eq_true_eq, List.mem_cons, List.not_mem_nil, or_false] at listed
      rcases listed with rfl | rfl
      · refine read_token_none rfl ?_
        rw [here]
        exact name_none (by decide) rest
      · refine read_token_none rfl ?_
        rw [here]
        exact longString_none (by decide) rest

/-! ## Verdicts -/

/-- What is known of a match before it is tried. -/
inductive Verdict where
  | fails
  | nothing
  | unsure
  deriving DecidableEq

def Verdict.Holds (c : Cursor) (outcome : Outcome Rule) : Verdict → Prop
  | .fails => outcome = none
  | .nothing => outcome = some ([], c)
  | .unsure => True

namespace Shape

/-- What is known of a pattern at a text of this shape, given what is known of rules. -/
def verdict (shape : Shape) (rules : Rule → Verdict) : Pattern Rule → Verdict
  | .lit text => if text = [] then .nothing else if shape.refusesText text then .fails else .unsure
  | .rule r => rules r
  | .seq p q =>
    match shape.verdict rules p with
    | .nothing => shape.verdict rules q
    | v => v
  | .alt p q =>
    match shape.verdict rules p with
    | .fails => shape.verdict rules q
    | v => v
  | .opt p => if shape.verdict rules p = .fails then .nothing else .unsure
  | .star p => if shape.verdict rules p = .fails then .nothing else .unsure

/-- What is known of a rule, from the patterns of at most `depth` rules inside one another. -/
def ruleVerdict (shape : Shape) : (depth : Nat) → Rule → Verdict
  | 0, r => if shape.refuses r then .fails else .unsure
  | depth + 1, r =>
    if shape.refuses r then .fails
    else
      match grammar.body r with
      | .token _ => .unsure
      | .phrase p => if shape.verdict (shape.ruleVerdict depth) p = .fails then .fails else .unsure

/-- The pattern surely fails at a text of this shape. -/
def rejects (shape : Shape) (p : Pattern Rule) : Bool := shape.verdict (shape.ruleVerdict 8) p == .fails

/-- The first rule of a choice that does not surely fail, given some rules that fail. -/
def pick (shape : Shape) (failing : List Rule) : Pattern Rule → Option Rule
  | .rule r => some r
  | .alt (.rule r) q =>
    if failing.contains r || shape.rejects (.rule r) then shape.pick failing q else some r
  | _ => none

variable {shape : Shape} {c : Cursor}

theorem verdict_holds (opens : shape.Opens c.rest) (settled : Settled c.rest) {rules : Rule → Verdict}
    (each : ∀ r, (rules r).Holds c (grammar.read 16 r c)) (p : Pattern Rule) :
    (shape.verdict rules p).Holds c (tries p c) := by
  induction p with
  | lit text =>
    rw [verdict]
    split
    · subst text
      rfl
    · split
      · rename_i refuses
        exact tries_lit_none (literal_none opens refuses)
      · trivial
  | rule r =>
    rw [tries_rule]
    exact each r
  | seq p q first second =>
    rw [verdict]
    cases known : shape.verdict rules p <;> rw [known] at first
    · exact tries_seq_of_none first
    · have whole : tries (.seq p q) c = tries q c := by
        rw [tries_seq_of_some first, skip_settled settled]
        cases tries q c <;> rfl
      rw [whole]
      exact second
    · trivial
  | alt p q first second =>
    rw [verdict]
    cases known : shape.verdict rules p <;> rw [known] at first
    · have whole : tries (.alt p q) c = tries q c := by
        have failed : tries p c = none := first
        rw [tries] at failed ⊢
        rw [run, failed]
        rfl
      rw [whole]
      exact second
    · have found : tries p c = some ([], c) := first
      show tries (.alt p q) c = some ([], c)
      rw [tries] at found ⊢
      rw [run, found]
    · trivial
  | opt p ih =>
    rw [verdict]
    split
    · rename_i known
      rw [known] at ih
      have failed : tries p c = none := ih
      show tries (.opt p) c = some ([], c)
      rw [tries] at failed ⊢
      rw [run, failed]
    · trivial
  | star p ih =>
    rw [verdict]
    split
    · rename_i known
      rw [known] at ih
      have failed : tries p c = none := ih
      show tries (.star p) c = some ([], c)
      rw [tries] at failed ⊢
      rw [run, failed]
    · trivial

theorem ruleVerdict_holds (opens : shape.Opens c.rest) (settled : Settled c.rest) (depth : Nat) :
    ∀ r, (shape.ruleVerdict depth r).Holds c (grammar.read 16 r c) := by
  induction depth with
  | zero =>
    intro r
    rw [ruleVerdict]
    split
    · exact read_none opens ‹_›
    · trivial
  | succ depth ih =>
    intro r
    rw [ruleVerdict]
    split
    · exact read_none opens ‹_›
    · split
      · trivial
      · rename_i p body
        split
        · rename_i known
          have inner := verdict_holds opens settled ih p
          rw [known] at inner
          exact read_phrase_none body inner
        · trivial

end Shape

theorem Fails.of_shape {shape : Shape} {p : Pattern Rule} {tokens : List String} (opens : shape.Opens (joined tokens))
    (rejects : shape.rejects p = true) : Fails p tokens := by
  intro clean c here
  rw [← here] at opens
  have settled : Settled c.rest := here ▸ settled_joined clean
  have known := Shape.verdict_holds opens settled (Shape.ruleVerdict_holds opens settled 8) p
  rw [beq_iff_eq.mp rejects] at known
  exact known

theorem Matches.pick_of_fails {shape : Shape} {failing : List Rule} {p : Pattern Rule} {r : Rule}
    {xs more : List String} {Q : List (ParseTree Rule) → Prop} (opens : shape.Opens (joined (xs ++ more)))
    (fails : ∀ other ∈ failing, Fails (.rule other) (xs ++ more)) (picks : shape.pick failing p = some r)
    (matched : Matches (.rule r) xs more Q) : Matches p xs more Q := by
  fun_induction Shape.pick shape failing p with
  | case1 s =>
    cases picks
    exact matched
  | case2 s q skipped ih =>
    refine .second ?_ (ih picks)
    rcases Bool.or_eq_true_iff.mp skipped with known | rejects
    · exact fails s (by simpa using known)
    · exact .of_shape opens rejects
  | case3 s q stays =>
    cases picks
    exact matched.first
  | case4 => cases picks

theorem Matches.pick {shape : Shape} {p : Pattern Rule} {r : Rule} {xs more : List String}
    {Q : List (ParseTree Rule) → Prop} (opens : shape.Opens (joined (xs ++ more))) (picks : shape.pick [] p = some r)
    (matched : Matches (.rule r) xs more Q) : Matches p xs more Q :=
  .pick_of_fails opens (fun _ member => by cases member) picks matched

/-! ## What tokens begin with -/

theorem opens_token (t : String) (more : List String) : (Shape.token t.toList).Opens (joined (t :: more)) :=
  ⟨spaced more, rfl, ends_spaced more⟩

theorem opens_nothing : (Shape.token []).Opens (joined []) := ⟨[], rfl, .inl rfl⟩

theorem opens_name {n : String} (identifier : isIdentifier n = true) (more : List String) :
    Shape.name.Opens (joined (n :: more)) :=
  ⟨n, spaced more, rfl, ends_spaced more, identifier⟩

theorem opens_numeral {n : Numeral} (inClass : n.inClass = true) (more : List String) :
    Shape.numeral.Opens (joined (n.text :: more)) := by
  obtain ⟨c, rest, letters, kind⟩ := NumeralClass.first_of_reads ⟨_, _, Numeral.scan_of_inClass inClass⟩
  exact ⟨c, rest ++ spaced more, by rw [joined, letters, List.cons_append], kind⟩

theorem opens_string (value : String) (more : List String) :
    Shape.quote.Opens (joined (stringToken value :: more)) := by
  refine ⟨value.toList.flatMap QuotedString.escape ++ ['"'] ++ spaced more, ?_⟩
  rw [joined, stringToken, String.toList_ofList, QuotedString.encode, List.cons_append]

end LuaLowering.Syntax
