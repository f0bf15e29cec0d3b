import LuaLowering.Proofs.Escapes
/-!
# Finished escapes

A string literal is read twice: the scanner looks for the closing quote and takes a backslash and the character behind
it for a pair; the decoder reads escapes of many lengths, and some of them take whatever stands there. Still the decoder
never comes to a backslash with nothing behind it (`quotedString_finished`). Between the quotes, each backslash hides a
character (`Paired`), and this holds of what is left after each step of the decoder, because behind the hidden character
an escape that is read has no other backslash.
-/
namespace LuaLowering
namespace Lexeme.QuotedString
open Peg Text

/-- Each backslash that is not hidden itself hides the character behind it. -/
inductive Paired : List Char → Prop where
  | nil : Paired []
  | plain {c : Char} {s : List Char} (plain : c ≠ '\\') (rest : Paired s) : Paired (c :: s)
  | hidden (c : Char) {s : List Char} (rest : Paired s) : Paired ('\\' :: c :: s)

/-- Decoding the text leads to the front of `rest`, past any number of characters and escapes. -/
inductive Passes (s : List Char) : (rest : List Char) → Prop where
  | start : Passes s s
  | plain {c : Char} {rest : List Char} (before : Passes s (c :: rest)) (plain : c ≠ '\\') : Passes s rest
  | escape {text value rest : List Char} (before : Passes s ('\\' :: text))
      (read : readEscape text = .ok (value, rest)) : Passes s rest

/-! ## What the decoder comes to -/

theorem Passes.trans {s t u : List Char} (first : Passes s t) (second : Passes t u) : Passes s u := by
  induction second with
  | start => exact first
  | plain _ plain ih => exact .plain ih plain
  | escape _ read ih => exact .escape ih read

/-- What is decoded up to there stands in front of what is decoded from there on. -/
theorem Passes.decode_eq {s rest : List Char} (passes : Passes s rest) :
    ∃ front, decode s = (front ++ ·) <$> decode rest := by
  induction passes with
  | start =>
    refine ⟨[], ?_⟩
    cases decode s <;> rfl
  | @plain c rest _ plain ih =>
    obtain ⟨front, same⟩ := ih
    refine ⟨front ++ [c], ?_⟩
    rw [same, decode, if_neg plain]
    cases decode rest <;> simp
  | @escape text value rest _ read ih =>
    obtain ⟨front, same⟩ := ih
    refine ⟨front ++ value, ?_⟩
    rw [same, decode_of_readEscape read]
    cases decode rest <;> simp

/-- With a character behind the backslash, whatever is wrong is called otherwise. -/
theorem readEscape_eq_unfinished_iff {s : List Char} : readEscape s = .error .unfinished ↔ s = [] := by
  constructor
  · intro failed
    unfold readEscape at failed
    split at failed
    case h_1 => rfl
    case h_17 =>
      unfold readByte at failed
      split at failed <;> cases failed
    case h_18 =>
      unfold readScalar at failed
      split at failed
      · split at failed <;> cases failed
      · cases failed
    case h_19 =>
      split at failed
      · simp only [readDecimal] at failed
        split at failed <;> cases failed
      · cases failed
    all_goals cases failed
  · rintro rfl
    rfl

theorem error_of_map_error {change : List Char → List Char} {found : Except EscapeError (List Char)} {e : EscapeError}
    (failed : change <$> found = .error e) : found = .error e := by
  cases found with
  | error e' =>
    cases failed
    rfl
  | ok value => cases failed

/-- The decoder finds an escape unfinished exactly if it comes to a backslash that is the last character. -/
theorem decode_eq_unfinished_iff {s : List Char} : decode s = .error .unfinished ↔ Passes s ['\\'] := by
  constructor
  · intro failed
    fun_induction decode s with
    | case1 => cases failed
    | case2 s e wrong =>
      cases failed
      rw [readEscape_eq_unfinished_iff.mp wrong]
      exact .start
    | case3 s text rest read ih =>
      have past : Passes ('\\' :: s) rest := .escape .start read
      exact past.trans (ih (error_of_map_error failed))
    | case4 c s plain ih =>
      have past : Passes (c :: s) s := .plain .start plain
      exact past.trans (ih (error_of_map_error failed))
  · intro passes
    obtain ⟨front, same⟩ := passes.decode_eq
    have last : decode ['\\'] = .error .unfinished := by simp [decode, readEscape]
    rw [same, last]
    rfl

/-! ## Hidden characters -/

theorem not_paired_backslash : ¬ Paired ['\\'] := by
  intro paired
  cases paired with
  | plain plain => exact plain rfl

theorem Paired.tail {c : Char} {s : List Char} (paired : Paired (c :: s)) (plain : c ≠ '\\') : Paired s := by
  cases paired with
  | plain _ rest => exact rest
  | hidden => exact absurd rfl plain

/-- Text without a backslash may be left out in front. -/
theorem Paired.of_append {front rest : List Char} (paired : Paired (front ++ rest)) (free : '\\' ∉ front) :
    Paired rest := by
  induction front with
  | nil => exact paired
  | cons c front ih =>
    rw [List.mem_cons, not_or] at free
    exact ih (paired.tail (Ne.symm free.1)) free.2

theorem hexDigits_free {digits : List Char} (hex : HexDigits digits) : '\\' ∉ digits := by
  intro member
  exact absurd (hex.each '\\' member) (by decide)

/-- Behind the character that its backslash hides, an escape has no backslash. -/
theorem Part.free_behind {rest text value : List Char} (part : Part rest ('\\' :: text) value) :
    ∃ c more, text = c :: more ∧ '\\' ∉ more := by
  rcases part with lua | lax
  · cases lua with
    | ordinary ordinary => exact absurd rfl ordinary
    | letter _ => exact ⟨_, [], rfl, by simp⟩
    | lineBreak listed _ =>
      simp only [lineBreaks, List.mem_cons, List.not_mem_nil, or_false] at listed
      rcases listed with rfl | rfl | rfl | rfl <;> exact ⟨_, _, rfl, by decide⟩
    | @gap blanks blank _ =>
      refine ⟨'z', blanks, rfl, fun member => ?_⟩
      exact absurd (blank '\\' member) (by decide)
    | @byte a b _ first second _ =>
      have hex : HexDigits [a, b] := ⟨by simp, by simp [first, second]⟩
      exact ⟨'x', [a, b], rfl, hexDigits_free hex⟩
    | decimal some_digit each _ _ _ _ =>
      cases text with
      | nil => exact absurd rfl some_digit
      | cons c more =>
        refine ⟨c, more, rfl, fun member => ?_⟩
        exact absurd (each '\\' (List.mem_cons_of_mem c member)) (by decide)
    | @scalar digits _ hex _ => exact ⟨'u', _, rfl, by simp [hexDigits_free hex]⟩
  · cases lax with
    | @signedByte a _ digit _ =>
      have hex : HexDigits [a] := ⟨by simp, by simp [digit]⟩
      exact ⟨'x', ['+', a], rfl, by simpa using hexDigits_free hex⟩
    | @shortByte a _ _ digit _ =>
      have hex : HexDigits [a] := ⟨by simp, by simp [digit]⟩
      exact ⟨'x', [a], rfl, hexDigits_free hex⟩
    | signedScalar hex _ => exact ⟨'u', _, rfl, by simp [hexDigits_free hex]⟩
    | openScalar _ signed hex _ =>
      refine ⟨'u', _, rfl, ?_⟩
      rcases signed with rfl | rfl <;> simp [hexDigits_free hex]

/-- One escape: the text behind it is as well paired as the text that begins with it. -/
theorem Paired.of_readEscape {s value rest : List Char} (paired : Paired ('\\' :: s))
    (read : readEscape s = .ok (value, rest)) : Paired rest := by
  obtain ⟨text, rfl, part⟩ := readEscape_part read
  obtain ⟨c, more, rfl, free⟩ := part.free_behind
  cases paired with
  | plain plain => exact absurd rfl plain
  | hidden _ paired => exact paired.of_append free

/-- Any number of characters and escapes. -/
theorem Passes.paired {s rest : List Char} (passes : Passes s rest) (paired : Paired s) : Paired rest := by
  induction passes with
  | start => exact paired
  | plain _ plain ih => exact ih.tail plain
  | escape _ read ih => exact ih.of_readEscape read

/-- What the scanner reads up to the quote is paired. -/
theorem paired_of_scanTail {quote : Char} {gap : Bool} {s text rest : List Char}
    (read : scanTail quote gap s = some (text, rest)) : ∃ inner, text = inner ++ [quote] ∧ Paired inner := by
  fun_induction scanTail quote gap s generalizing text with
  | case1 | case3 | case9 => cases read
  | case2 gap c s blank ih =>
    obtain ⟨_, rfl, tail⟩ := cons_eq_some read
    obtain ⟨inner, rfl, paired⟩ := ih tail
    refine ⟨c :: inner, rfl, .plain ?_ paired⟩
    rintro rfl
    simp [isBlank] at blank
  | case4 gap s notBlank ih | case7 gap d s _ _ _ notBlank ih =>
    obtain ⟨_, rfl, escaped⟩ := cons_eq_some read
    obtain ⟨_, rfl, tail⟩ := cons_eq_some escaped
    obtain ⟨inner, rfl, paired⟩ := ih tail
    exact ⟨_, rfl, .hidden _ paired⟩
  | case5 gap s notBlank ih | case6 gap s notBlank ih =>
    obtain ⟨_, rfl, escaped⟩ := cons_eq_some read
    obtain ⟨_, rfl, second⟩ := cons_eq_some escaped
    obtain ⟨_, rfl, tail⟩ := cons_eq_some second
    obtain ⟨inner, rfl, paired⟩ := ih tail
    -- the scanner takes the second half of the line break along, which is a plain character
    exact ⟨_, rfl, .hidden _ (.plain (by decide) paired)⟩
  | case8 =>
    cases read
    exact ⟨[], rfl, .nil⟩
  | case10 gap c s notBlank notEscape notQuote notFeed ih =>
    obtain ⟨_, rfl, tail⟩ := cons_eq_some read
    obtain ⟨inner, rfl, paired⟩ := ih tail
    exact ⟨c :: inner, rfl, .plain notEscape paired⟩

theorem paired_body {s literal rest : List Char} (read : scan s = some (literal, rest)) : Paired (body literal) := by
  obtain ⟨quote, _, _, rfl, rfl, found⟩ := scan_eq_some read
  obtain ⟨inner, rfl, paired⟩ := paired_of_scanTail found
  have same : body (quote :: (inner ++ [quote])) = inner := by simp [body]
  rw [same]
  exact paired

/-- In a literal, the decoder never comes to a backslash that is the last character. -/
theorem Passes.ne_backslash {s literal rest behind : List Char} (passes : Passes (body literal) behind)
    (read : scan s = some (literal, rest)) : behind ≠ ['\\'] := by
  rintro rfl
  exact not_paired_backslash (passes.paired (paired_body read))

theorem decode_body_ne_unfinished {s literal rest : List Char} (read : scan s = some (literal, rest)) :
    decode (body literal) ≠ .error .unfinished := by
  intro failed
  exact (decode_eq_unfinished_iff.mp failed).ne_backslash read rfl

end Lexeme.QuotedString

namespace Syntax
open Peg Lexeme QuotedString

/-- Wherever the grammar matches a string between quotes, decoding it never comes to a backslash that is the last
character between the quotes, however many escapes it has read, so no escape is ever found unfinished. -/
theorem quotedString_finished {depth : Nat} {c after : Cursor} {trees : List (ParseTree Rule)}
    (matched : grammar.parse depth .quotedString c = some (trees, after)) :
    ∃ literal, c.rest = literal ++ after.rest ∧ trees = [.token .quotedString c.offset literal] ∧
      (∀ rest, Passes (body literal) rest → rest ≠ ['\\']) ∧ decode (body literal) ≠ .error .unfinished ∧
      ∀ range, stringOf range trees ≠ .error (.escape .unfinished range) := by
  cases depth with
  | zero => cases matched
  | succ depth =>
    obtain ⟨⟨literal, behind⟩, read, made⟩ := Option.map_eq_some_iff.mp matched
    obtain ⟨⟨text, rest⟩, scanned, same⟩ := Option.map_eq_some_iff.mp read
    cases same
    cases made
    have finished := decode_body_ne_unfinished scanned
    refine ⟨literal, QuotedString.splits_scan _ _ _ scanned, rfl, ?_, finished, ?_⟩
    · intro behind passes
      exact passes.ne_backslash scanned
    · intro range failed
      rw [stringOf] at failed
      split at failed
      · cases failed
      · rename_i wrong
        cases failed
        exact finished wrong

/-- Escapes of many kinds, the last of them a hidden backslash in front of the closing quote. -/
def mixedEscapes : List Char :=
  ['"', '\\', '\\', '\\', 'x', '+', 'f', '\\', 'z', ' ', '\n', '\\', '\r', '\n', '\\', 'u', '\x7b', '1', 'F', '\x7d',
    '\\', '\\', '"']

theorem quotedString_finished_mixedEscapes :
    grammar.parse 1 .quotedString ⟨0, mixedEscapes⟩ = some ([.token .quotedString 0 mixedEscapes], ⟨23, []⟩) ∧
      (∀ rest, Passes (body mixedEscapes) rest → rest ≠ ['\\']) ∧ decode (body mixedEscapes) ≠ .error .unfinished := by
  have matched : grammar.parse 1 .quotedString ⟨0, mixedEscapes⟩ =
      some ([.token .quotedString 0 mixedEscapes], ⟨23, []⟩) := by
    have scanned : QuotedString.scan mixedEscapes = some (mixedEscapes, []) := by decide
    have size : Text.byteSize mixedEscapes = 23 := by decide
    simp [Peg.Grammar.parse, grammar, Grammar.body, Cursor.read, scanned, size]
  obtain ⟨literal, -, same, aligned, finished, -⟩ := quotedString_finished matched
  cases same
  exact ⟨matched, aligned, finished⟩

end Syntax
end LuaLowering
