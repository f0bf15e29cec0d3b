import LuaLowering.Proofs.Delimiters
import LuaLowering.Proofs.IntegerConstants
import LuaLowering.Proofs.LiteralScripts
/-!
# String literals

Every string has literals, and each is read back as the string it was written for (`StringLiteral`). Between quotes,
each character may be written as it is, as a scalar value, as a byte in hexadecimal or as a byte in decimal, whatever the
others are written as (`stringLiteral_spelled`). Between long brackets it stands as it is, as long as no closing bracket
comes about too early (`stringLiteral_verbatim`).
-/
namespace LuaLowering

/-! ## Literals -/

namespace Syntax
open Peg Peg.Pattern Lexeme

/-- The text is a literal of the rule and has this value: wherever it stands and whatever follows, it is read whole, as
one token of a string; the value is what this string stands for, and what a script assigns that assigns the literal. -/
structure StringLiteral (r : Rule) (literal value : List Char) : Prop where
  token : ∀ depth offset rest, grammar.parse (depth + 2) .string ⟨offset, literal ++ rest⟩ =
    some ([.phrase .string (ParseTree.tokenRange offset literal) [.token r offset literal]],
      ⟨offset + Text.byteSize literal, rest⟩)
  denotes : ∀ range offset, primaryOf (.phrase .string range [.token r offset literal]) =
    .ok ⟨.str (String.ofList value), range⟩
  assigned : ∀ file n, isIdentifier n = true → ∃ chunk,
    Chunk.parse ⟨file, n ++ " = " ++ String.ofList literal⟩ = .ok chunk ∧
      chunk.erase = Chunk.assigning n (.str (String.ofList value))

/-- The characters that string literals begin with. -/
def isStringStart (q : Char) : Bool := q == '"' || q == '\'' || q == '['

section
variable {t : String} {q : Char} {s : List Char}

theorem eq_of_isStringStart (starts : isStringStart q = true) : q = '"' ∨ q = '\'' ∨ q = '[' := by
  simpa [isStringStart, or_assoc] using starts

theorem isClean_of_isStringStart (starts : isStringStart q = true) (letters : t.toList = q :: s) :
    isClean t = true := by
  rw [isClean, letters]
  rcases eq_of_isStringStart starts with rfl | rfl | rfl <;> rfl

/-- No word and no operator begins like a string. -/
theorem fails_plain (starts : isStringStart q = true) (letters : t.toList = q :: s) {r : Rule}
    (plain : r.isPlain = true) (more : List String) : Fails (.rule r) (t :: more) := by
  intro _ c here
  have first : c.rest = q :: (s ++ spaced more) := by rw [here, joined, letters, List.cons_append]
  rw [tries_rule]
  rcases eq_of_isStringStart starts with rfl | rfl | rfl
  all_goals exact read_plain_none first (by decide) (by simp) plain

/-- No numeral begins like a string. -/
theorem fails_numeral (starts : isStringStart q = true) (letters : t.toList = q :: s) {r : Rule}
    (numeral : r.isNumeral = true) (more : List String) : Fails (.rule r) (t :: more) := by
  intro _ c here
  have first : c.rest = q :: (s ++ spaced more) := by rw [here, joined, letters, List.cons_append]
  rw [tries_rule]
  rcases eq_of_isStringStart starts with rfl | rfl | rfl
  all_goals exact read_numeral_none first (by decide) (by decide) numeral

theorem isLiteral_string {value : String} (starts : isStringStart q = true) (letters : t.toList = q :: s)
    (string : Matches (.rule .string) [t] []
      (One fun tree => Gives Exp.erase (primaryOf tree) ⟨.str value, none⟩)) : IsLiteral t (.str value) := by
  have plain {r : Rule} (plain : r.isPlain = true) := fails_plain starts letters plain []
  have numeral {r : Rule} (numeral : r.isNumeral = true) := fails_numeral starts letters numeral []
  have noNumber : Fails (.rule .number) [t] :=
    .phrase rfl (.alt (numeral rfl) (.alt (numeral rfl) (.alt (numeral rfl) (numeral rfl))))
  constructor
  · exact .alt (plain rfl) (.alt (plain rfl) (.alt (plain rfl) (plain rfl)))
  · exact .second (plain rfl) (.second (plain rfl) (.second (plain rfl) (.second noNumber string.first)))

end

/-- What is left to show of a literal: that one of the two rules reads it, and what is made of it. -/
theorem stringLiteral_of_choice {r : Rule} {q : Char} {s value : List Char} (starts : isStringStart q = true)
    (choice : ∀ depth offset rest,
      (any [.rule .longString, .rule .quotedString]).run grammar (grammar.parse (depth + 1)) ⟨offset, q :: s ++ rest⟩ =
        some ([.token r offset (q :: s)], ⟨offset + Text.byteSize (q :: s), rest⟩))
    (decoded : ∀ range offset, stringOf range [.token r offset (q :: s)] = .ok (String.ofList value)) :
    StringLiteral r (q :: s) value := by
  have token (depth offset : Nat) (rest : List Char) : grammar.parse (depth + 2) .string ⟨offset, q :: s ++ rest⟩ =
      some ([.phrase .string (ParseTree.tokenRange offset (q :: s)) [.token r offset (q :: s)]],
        ⟨offset + Text.byteSize (q :: s), rest⟩) := by
    have last : ParseTree.lastToken offset [.token r offset (q :: s)] = offset := by
      unfold ParseTree.lastToken
      split
      · rename_i found
        rw [List.mem_singleton.mp (List.mem_of_mem_filter (List.mem_of_getLast? found))]
        rfl
      · rfl
    have body : grammar.body .string = .phrase (any [.rule .longString, .rule .quotedString]) := rfl
    rw [Peg.Grammar.parse, body]
    simp only [choice, Option.map_some, last]
    rfl
  have denotes (range : TextRange) (offset : Nat) : primaryOf (.phrase .string range [.token r offset (q :: s)]) =
      .ok ⟨.str (String.ofList value), range⟩ := by
    rw [primaryOf, decoded]
    rfl
  refine ⟨token, denotes, fun file n identifier => ?_⟩
  have letters : (String.ofList (q :: s)).toList = q :: s := String.toList_ofList
  have string : Matches (.rule .string) [String.ofList (q :: s)] []
      (One fun tree => Gives Exp.erase (primaryOf tree) ⟨.str (String.ofList value), none⟩) := by
    refine ⟨clean_cons (isClean_of_isStringStart starts letters) clean_nil, fun _ c here => ?_⟩
    obtain ⟨offset, rest⟩ := c
    obtain rfl : rest = q :: s ++ [] := by
      rw [← letters]
      exact here
    have enough : 16 * ((q :: s ++ []).length + 1) = 16 * (q :: s ++ []).length + 14 + 2 := by omega
    have read := token (16 * (q :: s ++ []).length + 14) offset []
    rw [← enough] at read
    exact ⟨_, _, (tries_rule _ _).trans read, .inl rfl, _, rfl, _, denotes _ offset, rfl⟩
  have literal := isLiteral_string starts letters string
  obtain ⟨chunk, parsed, same⟩ := Chunk.parse_literal literal identifier file
  exact ⟨chunk, parsed, by simpa [Chunk.assigning, Chunk.relabel] using same⟩

theorem parse_of_scan {r : Rule} {scan : Scanner} (body : grammar.body r = .token scan) {offset : Nat}
    {s text rest : List Char} (scanned : scan s = some (text, rest)) (depth : Nat) :
    grammar.parse (depth + 1) r ⟨offset, s⟩ = some ([.token r offset text], ⟨offset + Text.byteSize text, rest⟩) := by
  simp [Peg.Grammar.parse, body, Cursor.read, scanned]

theorem parse_of_scan_none {r : Rule} {scan : Scanner} (body : grammar.body r = .token scan) {offset : Nat}
    {s : List Char} (scanned : scan s = none) (depth : Nat) : grammar.parse (depth + 1) r ⟨offset, s⟩ = none := by
  simp [Peg.Grammar.parse, body, Cursor.read, scanned]

end Syntax

/-! ## Quotes -/

namespace Lexeme.QuotedString
open Text

/-- The ways to write a character between quotes. -/
inductive Manner where
  | raw
  | scalar
  | byte
  | decimal

/-- A character that stands for itself between these quotes. -/
def isPlain (quote c : Char) : Bool := c != quote && c != '\\' && c != '\n'

/-- Whether a character may be written in a manner. -/
def Manner.allows (quote c : Char) : Manner → Bool
  | .raw => isPlain quote c
  | .scalar => true
  | .byte | .decimal => c.toNat ≤ 255

/-- The texts that write a character in a manner. -/
inductive Manner.Writes (c : Char) : Manner → List Char → Prop where
  | raw : Writes c .raw [c]
  | scalar {digits : List Char} (hex : HexDigits digits) (number : placeValue 16 digits = c.toNat) :
      Writes c .scalar ('\\' :: 'u' :: '\x7b' :: (digits ++ ['\x7d']))
  | byte {a b : Char} (first : isHexDigit a = true) (second : isHexDigit b = true)
      (number : placeValue 16 [a, b] = c.toNat) : Writes c .byte ['\\', 'x', a, b]
  | decimal {digits : List Char} (each : ∀ d ∈ digits, d.isDigit = true) (three : digits.length = 3)
      (number : placeValue 10 digits = c.toNat) : Writes c .decimal ('\\' :: digits)

/-- A text writes a character in one of the manners that are allowed for it. -/
def WritesIn (quote c : Char) (text : List Char) : Prop :=
  ∃ manner : Manner, manner.allows quote c = true ∧ manner.Writes c text

section
variable {quote c : Char} {manner : Manner} {text : List Char}

/-! ### Every manner has a text -/

theorem isHexDigit_digitChar {n : Nat} (small : n < 16) : isHexDigit n.digitChar = true :=
  (by decide : ∀ n < 16, isHexDigit n.digitChar = true) n small

theorem hexDigits_toDigits (n : Nat) : HexDigits (Nat.toDigits 16 n) := by
  refine ⟨Nat.toDigits_ne_nil, fun c member => ?_⟩
  obtain ⟨d, small, rfl⟩ := mem_toDigits (by decide) member
  exact isHexDigit_digitChar small

theorem Manner.exists_writes (allowed : manner.allows quote c = true) : ∃ text, manner.Writes c text := by
  cases manner with
  | raw => exact ⟨_, .raw⟩
  | scalar =>
    have hex := hexDigits_toDigits c.toNat
    refine ⟨_, .scalar hex ?_⟩
    rw [← natOfDigits_eq_placeValue 16 hex.each, natOfDigits_toDigits (by decide) (by decide)]
  | byte =>
    have small : c.toNat ≤ 255 := of_decide_eq_true allowed
    have first := isHexDigit_digitChar (n := c.toNat / 16) (by omega)
    have second := isHexDigit_digitChar (n := c.toNat % 16) (by omega)
    refine ⟨_, .byte first second ?_⟩
    rw [← natOfDigits_eq_placeValue 16 (by simp [first, second])]
    simp only [natOfDigits, List.foldl_cons, List.foldl_nil]
    rw [digitValue_digitChar (by omega), digitValue_digitChar (by omega)]
    omega
  | decimal =>
    have small : c.toNat ≤ 255 := of_decide_eq_true allowed
    have digit {n : Nat} (small : n < 10) : n.digitChar.isDigit = true :=
      (by decide : ∀ n < 10, n.digitChar.isDigit = true) n small
    have each : ∀ d ∈ [(c.toNat / 100).digitChar, (c.toNat / 10 % 10).digitChar, (c.toNat % 10).digitChar],
        d.isDigit = true := by
      simp only [List.forall_mem_cons]
      exact ⟨digit (by omega), digit (by omega), digit (by omega), by simp⟩
    refine ⟨_, .decimal each rfl ?_⟩
    rw [← natOfDigits_eq_placeValue 10 fun d member => Numeral.isHexDigit_of_isDigit _ (each d member)]
    simp only [natOfDigits, List.foldl_cons, List.foldl_nil]
    rw [digitValue_digitChar (by omega), digitValue_digitChar (by omega), digitValue_digitChar (by omega)]
    omega

/-! ### The end of the string -/

/-- The scanner passes over a text in front of whatever ends the string. -/
def Transparent (quote : Char) (text : List Char) : Prop :=
  ∀ s read rest, scanTail quote false s = some (read, rest) →
    scanTail quote false (text ++ s) = some (text ++ read, rest)

theorem transparent_nil : Transparent quote [] := fun _ _ _ found => found

theorem Transparent.append {text' : List Char} (first : Transparent quote text) (second : Transparent quote text') :
    Transparent quote (text ++ text') := by
  intro s read rest found
  rw [List.append_assoc, List.append_assoc]
  exact first _ _ _ (second _ _ _ found)

theorem transparent_plain (plain : isPlain quote c = true) : Transparent quote [c] := by
  simp only [isPlain, Bool.and_eq_true, bne_iff_ne] at plain
  obtain ⟨⟨notQuote, notBackslash⟩, notFeed⟩ := plain
  intro s read rest found
  rw [List.singleton_append, scanTail.eq_def]
  simp [notQuote, notBackslash, notFeed, found, scanTail.cons]

theorem transparent_of_plain (plain : ∀ c ∈ text, isPlain quote c = true) : Transparent quote text := by
  induction text with
  | nil => exact transparent_nil
  | cons c text ih =>
    rw [List.forall_mem_cons] at plain
    exact (transparent_plain plain.1).append (ih plain.2)

/-- Of an escape, the scanner knows only the character behind the backslash. -/
theorem transparent_escape (notGap : c ≠ 'z') (notReturn : c ≠ '\r') (notFeed : c ≠ '\n')
    (plain : ∀ d ∈ text, isPlain quote d = true) : Transparent quote ('\\' :: c :: text) := by
  have pair : Transparent quote ['\\', c] := by
    intro s read rest found
    rw [List.cons_append, List.cons_append, List.nil_append, scanTail.eq_def]
    simp [notReturn, notFeed, found, scanTail.cons]
  exact pair.append (transparent_of_plain plain)

/-- No digit ends a string or hides anything. -/
theorem isPlain_of_isHexDigit (either : quote = '"' ∨ quote = '\'') (digit : isHexDigit c = true) :
    isPlain quote c = true := by
  have other (d : Char) (none : isHexDigit d = false) : c ≠ d := ne_of_apply_ne isHexDigit (by simp [digit, none])
  have notQuote : c ≠ quote := by
    rcases either with rfl | rfl
    · exact other _ (by decide)
    · exact other _ (by decide)
  simp [isPlain, notQuote, other '\\' (by decide), other '\n' (by decide)]

theorem transparent_of_writesIn (either : quote = '"' ∨ quote = '\'') (written : WritesIn quote c text) :
    Transparent quote text := by
  obtain ⟨manner, allowed, writes⟩ := written
  have digits {s : List Char} (each : ∀ d ∈ s, isHexDigit d = true) : ∀ d ∈ s, isPlain quote d = true :=
    fun d member => isPlain_of_isHexDigit either (each d member)
  cases writes with
  | raw => exact transparent_plain allowed
  | scalar hex _ =>
    refine transparent_escape (by decide) (by decide) (by decide) ?_
    have braces : isPlain quote '\x7b' = true ∧ isPlain quote '\x7d' = true := by
      rcases either with rfl | rfl <;> decide
    simpa [or_imp, forall_and, braces] using digits hex.each
  | byte first second _ =>
    exact transparent_escape (by decide) (by decide) (by decide) (digits (by simp [first, second]))
  | @decimal written each three _ =>
    cases written with
    | nil => cases three
    | cons d more =>
      have digit := each d List.mem_cons_self
      have other (c : Char) (none : c.isDigit = false) : d ≠ c := ne_of_apply_ne Char.isDigit (by simp [digit, none])
      refine transparent_escape (other _ (by decide)) (other _ (by decide)) (other _ (by decide)) ?_
      exact digits fun c member => Numeral.isHexDigit_of_isDigit _ (each c (List.mem_cons_of_mem d member))

/-- The scanner finds the quote behind the last character, whatever each one is written as. -/
theorem scan_of_writesIn (either : quote = '"' ∨ quote = '\'') {value : List Char} {texts : List (List Char)}
    (written : List.Forall₂ (WritesIn quote) value texts) (rest : List Char) :
    scan (quote :: (texts.flatten ++ [quote]) ++ rest) = some (quote :: (texts.flatten ++ [quote]), rest) := by
  have inside : Transparent quote texts.flatten := by
    induction written with
    | nil => exact transparent_nil
    | cons first _ ih => exact (transparent_of_writesIn either first).append ih
  have last : scanTail quote false (quote :: rest) = some ([quote], rest) := by
    rw [scanTail.eq_def]
    rcases either with rfl | rfl <;> simp
  have tail := inside _ _ _ last
  rw [List.cons_append, List.append_assoc, List.singleton_append, scan, if_pos (by simpa using either), tail]
  rfl

/-! ### The value of the string -/

/-- What follows a character does not matter, since each text has its own end. -/
theorem luaPart_of_writesIn (written : WritesIn quote c text) (rest : List Char) : LuaPart rest text [c] := by
  obtain ⟨manner, allowed, writes⟩ := written
  cases writes with
  | raw =>
    simp only [Manner.allows, isPlain, Bool.and_eq_true, bne_iff_ne] at allowed
    exact .ordinary allowed.1.2
  | scalar hex number =>
    rw [← natOfDigits_eq_placeValue 16 hex.each] at number
    exact .scalar hex number.symm
  | byte first second number =>
    rw [← natOfDigits_eq_placeValue 16 (by simp [first, second])] at number
    exact .byte first second number.symm
  | @decimal digits each three number =>
    rw [← natOfDigits_eq_placeValue 10 fun d member => Numeral.isHexDigit_of_isDigit _ (each d member)] at number
    have small : c.toNat ≤ 255 := of_decide_eq_true allowed
    have some_digit : digits ≠ [] := by
      rintro rfl
      cases three
    exact .decimal some_digit each three.le (.inl three) (number ▸ small) number.symm

theorem decode_of_writesIn {value : List Char} {texts : List (List Char)}
    (written : List.Forall₂ (WritesIn quote) value texts) : decode texts.flatten = .ok value := by
  have spells : Spells LuaPart texts.flatten value := by
    induction written with
    | nil => exact .nil
    | cons first _ ih => exact .cons (luaPart_of_writesIn first _) ih
  exact decode_of_spells (spells.mono fun _ _ _ part => .inl part)

end
end Lexeme.QuotedString

namespace Syntax
open Peg Peg.Pattern Lexeme QuotedString Text

/-- Between either quotes, each character of a string may be written in any of the manners that are allowed for it,
whatever the others are written in, and there is always a text that does so. The value of each such literal is the
string. -/
theorem stringLiteral_spelled {quote : Char} (either : quote = '"' ∨ quote = '\'') :
    (∀ c (manner : Manner), manner.allows quote c = true → ∃ text, manner.Writes c text) ∧
    ∀ value texts, List.Forall₂ (WritesIn quote) value texts →
      StringLiteral .quotedString (quote :: (texts.flatten ++ [quote])) value := by
  refine ⟨fun c manner allowed => Manner.exists_writes allowed, fun value texts written => ?_⟩
  have starts : isStringStart quote = true := by
    rcases either with rfl | rfl <;> decide
  have noBracket (s : List Char) : LongBracket.scan (quote :: s) = none := by
    rcases either with rfl | rfl <;> rfl
  refine stringLiteral_of_choice starts (fun depth offset rest => ?_) fun range offset => ?_
  · have long : grammar.parse (depth + 1) .longString ⟨offset, quote :: (texts.flatten ++ [quote]) ++ rest⟩ = none :=
      parse_of_scan_none rfl (noBracket _) depth
    have quoted : grammar.parse (depth + 1) .quotedString ⟨offset, quote :: (texts.flatten ++ [quote]) ++ rest⟩ = _ :=
      parse_of_scan rfl (scan_of_writesIn either written rest) depth
    simp only [any, run, long, quoted]
  · have inside : body (quote :: (texts.flatten ++ [quote])) = texts.flatten := by simp [body]
    rw [stringOf, inside, decode_of_writesIn written]

/-- A string with both quotes and a line feed, one character in each manner next to digits. -/
theorem stringLiteral_spelled_mixed :
    StringLiteral .quotedString "'1\\0101\\x272\\u\x7b0020Ac\x7d\"'".toList ['1', '\n', '1', '\'', '2', '€', '"'] := by
  have raw {c : Char} (plain : isPlain '\'' c = true) : WritesIn '\'' c [c] := ⟨.raw, plain, .raw⟩
  have hex : HexDigits ['0', '0', '2', '0', 'A', 'c'] := ⟨by simp, List.all_eq_true.mp rfl⟩
  have feed : WritesIn '\'' '\n' ['\\', '0', '1', '0'] :=
    ⟨.decimal, rfl, .decimal (List.all_eq_true.mp rfl) rfl rfl⟩
  have quote : WritesIn '\'' '\'' ['\\', 'x', '2', '7'] := ⟨.byte, rfl, .byte rfl rfl rfl⟩
  have euro : WritesIn '\'' '€' ('\\' :: 'u' :: '\x7b' :: (['0', '0', '2', '0', 'A', 'c'] ++ ['\x7d'])) :=
    ⟨.scalar, rfl, .scalar hex rfl⟩
  exact (stringLiteral_spelled (.inr rfl)).2 _ _
    (.cons (raw rfl) (.cons feed (.cons (raw rfl) (.cons quote (.cons (raw rfl) (.cons euro (.cons (raw rfl) .nil)))))))

end Syntax

/-! ## Long brackets -/

namespace Lexeme.LongBracket
variable {level : Nat} {s : List Char}

/-- Followed by a closing bracket, the text has none that begins earlier. -/
def ClosesFirst (level : Nat) (s : List Char) : Prop :=
  ∀ before after, s ++ closing level = before ++ closing level ++ after → s.length ≤ before.length

theorem closesFirst_iff : ClosesFirst level s ↔
    ∀ n < s.length, ¬ closing level <+: (s ++ closing level).drop n := by
  constructor
  · rintro first n less ⟨after, here⟩
    have length : ((s ++ closing level).take n).length = n := by
      rw [List.length_take, List.length_append]
      omega
    have later := first ((s ++ closing level).take n) after (by rw [List.append_assoc, here, List.take_append_drop])
    omega
  · intro nowhere before after whole
    by_contra early
    refine nowhere before.length (Nat.lt_of_not_le early) ⟨after, ?_⟩
    rw [whole, List.append_assoc, List.drop_left]

instance (level : Nat) (s : List Char) : Decidable (ClosesFirst level s) := decidable_of_iff' _ closesFirst_iff

theorem ClosesFirst.tail {c : Char} (first : ClosesFirst level (c :: s)) : ClosesFirst level s := by
  intro before after whole
  have later := first (c :: before) after (by rw [List.cons_append, whole]; rfl)
  exact Nat.le_of_succ_le_succ later

/-- No closing bracket begins with a line feed. -/
theorem ClosesFirst.lineFeed (first : ClosesFirst level s) : ClosesFirst level ('\n' :: s) := by
  intro before after whole
  cases before with
  | nil => simp [closing] at whole
  | cons c before =>
    rw [List.cons_append, List.cons_append, List.cons_append, List.cons.injEq] at whole
    exact Nat.succ_le_succ (first before after whole.2)

/-- The text is cut off at the bracket behind it. -/
theorem cut_of_closesFirst (first : ClosesFirst level s) (rest : List Char) :
    cut (closing level) (s ++ closing level ++ rest) = some (s, rest) := by
  have found : cut (closing level) (s ++ closing level) = some (s, []) := by
    induction s with
    | nil =>
      obtain ⟨c, stop, split⟩ := List.exists_cons_of_ne_nil (closing_ne_nil level)
      rw [List.nil_append, split, cut, if_pos (by simp)]
      simp
    | cons c s ih =>
      have notHere : ¬ (closing level).isPrefixOf (c :: (s ++ closing level)) = true := by
        intro isPrefix
        obtain ⟨after, whole⟩ := List.isPrefixOf_iff_prefix.mp isPrefix
        exact absurd (first [] after whole.symm) (by simp)
      rw [List.cons_append, cut, if_neg notHere, ih first.tail]
      rfl
  exact cut_append (closing_ne_nil level) found rest

theorem scan_bracketed (first : ClosesFirst level s) (rest : List Char) :
    scan (opening level ++ s ++ closing level ++ rest) = some (opening level ++ s ++ closing level, rest) := by
  rw [List.append_assoc, List.append_assoc, scan_opening, ← List.append_assoc s, cut_of_closesFirst first]
  rfl

/-- Counting the equals signs finds the brackets again. -/
theorem content_bracketed (level : Nat) (s : List Char) :
    content (opening level ++ s ++ closing level) = dropBreak s := by
  have front : (opening level ++ s ++ closing level).drop 1 =
      List.replicate level '=' ++ '[' :: (s ++ closing level) := by
    simp [opening]
  have bracket : (opening level).length = level + 2 := by simp [opening]
  have other : (closing level).length = level + 2 := by simp [closing]
  have inner : (opening level ++ s ++ closing level).length - 2 * (level + 2) = s.length := by
    simp only [List.length_append, bracket, other]
    omega
  simp only [content, front, takeWhile_marks, List.length_replicate, inner]
  rw [← bracket, List.append_assoc, List.drop_left, List.take_left]

theorem dropBreak_lineFeed (noCarriage : s.head? ≠ some '\r') : dropBreak ('\n' :: s) = s := by
  cases s with
  | nil => rfl
  | cons c s =>
    rw [dropBreak]
    rintro s ⟨⟩
    exact noCarriage rfl

theorem dropBreak_of_ne (noCarriage : s.head? ≠ some '\r') (noFeed : s.head? ≠ some '\n') : dropBreak s = s := by
  cases s with
  | nil => rfl
  | cons c s =>
    simp only [List.head?_cons, ne_eq, Option.some.injEq] at noCarriage noFeed
    unfold dropBreak
    split <;> simp_all

end Lexeme.LongBracket

namespace Syntax
open Peg Peg.Pattern Lexeme LongBracket

theorem stringLiteral_bracketed {level : Nat} {s : List Char} (first : ClosesFirst level s) :
    StringLiteral .longString (opening level ++ s ++ closing level) (dropBreak s) := by
  have split : opening level ++ s ++ closing level =
      '[' :: (List.replicate level '=' ++ '[' :: (s ++ closing level)) := by
    simp [opening]
  rw [split]
  refine stringLiteral_of_choice (by decide) (fun depth offset rest => ?_) fun range offset => ?_
  · have read := scan_bracketed first rest
    rw [split] at read
    have long : grammar.parse (depth + 1) .longString ⟨offset, _⟩ = _ := parse_of_scan rfl read depth
    simp only [any, run, long]
  · rw [stringOf, ← split, content_bracketed]

/-- A text stands for itself between long brackets: behind a line feed, which is dropped, unless it begins with a
carriage return, and without one unless it begins with a line break. All that is asked of it is that the bracket behind
it is the first one that closes. -/
theorem stringLiteral_verbatim {level : Nat} {s : List Char} (first : ClosesFirst level s)
    (noCarriage : s.head? ≠ some '\r') :
    StringLiteral .longString (opening level ++ '\n' :: s ++ closing level) s ∧
    (s.head? ≠ some '\n' → StringLiteral .longString (opening level ++ s ++ closing level) s) := by
  refine ⟨?_, fun noFeed => ?_⟩
  · have literal := stringLiteral_bracketed first.lineFeed
    rwa [dropBreak_lineFeed noCarriage] at literal
  · have literal := stringLiteral_bracketed first
    rwa [dropBreak_of_ne noCarriage noFeed] at literal

/-- A line feed at the front, brackets of other levels inside, and at the end what a bracket could begin with. -/
theorem stringLiteral_verbatim_brackets :
    StringLiteral .longString "[=[\n\n]]a]==]]]=]".toList "\n]]a]==]]".toList ∧
    StringLiteral .longString "[[]=]]".toList "]=".toList := by
  have first : ClosesFirst 1 "\n]]a]==]]".toList := by decide
  have first' : ClosesFirst 0 "]=".toList := by decide
  exact ⟨(stringLiteral_verbatim first (by decide)).1, (stringLiteral_verbatim first' (by decide)).2 (by decide)⟩

end Syntax
end LuaLowering
