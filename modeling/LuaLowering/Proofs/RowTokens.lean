import LuaLowering.Proofs.LexemeRows
/-!
# Tokens in rows of lexemes

What each scanner of the grammar does at the beginning of a row of lexemes does not depend on blanks that are put behind
the row: the scanner `Agrees` with itself. A point, a colon or a bracket may be read from the front of a longer lexeme.
Behind a point or a colon no name follows then (`name_inside`), and behind a bracket no operand, or a row goes on
(`agrees_or_inside`).
-/
namespace LuaLowering.Lexeme
open Peg Peg.Scanner Syntax

namespace Insertion
variable {i : Insertion} {s z : List Char}

/-! ## Agreement -/

variable (i) in
/-- From the row the scanner reads the same before and after the insertion, and leaves a row, or it fails on both. -/
def Agrees (scan : Scanner) (u : List Char) : Prop :=
  (∀ z, i.Follows z → scan (u ++ z) = none) ∨
    ∃ x u', Lexemes i.behind u' ∧ ∀ z, i.Follows z → scan (u ++ z) = some (x, u' ++ z)

theorem Agrees.alikeAt {scan : Scanner} {u : List Char} (agrees : i.Agrees scan u) :
    scan.AlikeAt i.Ends (u ++ i.behind) (u ++ (i.blanks ++ i.behind)) := by
  rcases agrees with fails | ⟨x, u', row, found⟩
  · exact .inl ⟨fails _ (.inl rfl), fails _ (.inr rfl)⟩
  · exact .inr ⟨x, _, _, found _ (.inl rfl), found _ (.inr rfl), .inr ⟨u', row, rfl, rfl⟩⟩

theorem reads_of_agrees {scan : Scanner} (agrees : ∀ u, i.Solid u → i.Agrees scan u) : i.sideBySide.Reads scan := by
  rintro s s' (rfl | ⟨u, solid, rfl, rfl⟩)
  · exact alikeAt_self scan (fun _ => .inl rfl) s
  · exact (agrees u solid).alikeAt

/-- The lexeme that a solid row begins with. -/
theorem Solid.front {u : List Char} (solid : i.Solid u) :
    ∃ c x s, u = c :: (x ++ s) ∧ IsLexeme (s ++ i.behind) (CharClass.of c) (c :: x) ∧ Lexemes i.behind s ∧
      LeavesRows i.behind (CharClass.of c) (c :: x) s := by
  obtain ⟨some_text, row, -⟩ := solid
  cases u with
  | nil => exact absurd rfl some_text
  | cons c u =>
    obtain ⟨x, s, rfl, first, rest, left⟩ := row.front
    exact ⟨c, x, s, rfl, first, rest, left⟩

/-- Behind a sign, the row goes on. -/
theorem Solid.rest_of_sign {c : Char} {u : List Char} (solid : i.Solid (c :: u)) (isSign : c ∈ signs) :
    Lexemes i.behind u := by
  obtain ⟨x, s, rfl, first, rest, -⟩ := solid.row.front
  rw [CharClass.of_sign isSign] at first
  cases first with
  | sign => exact rest
  | comment reads =>
    have settled := (solid.settled _ (.inl rfl)).2
    simp only [List.cons_append, List.append_assoc] at settled
    rw [reads] at settled
    cases settled

/-- A literal is not read where the text goes on in another way. -/
theorem literal_of_stops {b : Char} {t : List Char} (stops : Stops (· == b) t) (front word : List Char) :
    literal (front ++ b :: word) (front ++ t) = none := by
  rw [literal, if_neg]
  rw [List.isPrefixOf_iff_prefix, List.prefix_append_right_inj]
  rintro ⟨rest, rfl⟩
  cases stops_cons.mp stops ▸ beq_self_eq_true b

/-- Only where a row begins with the first character of a literal is there something to show. -/
theorem agrees_of_front {a : Char} {word u : List Char} (solid : i.Solid u)
    (front : ∀ v, u = a :: v → i.Agrees (literal (a :: word)) u) : i.Agrees (literal (a :: word)) u := by
  obtain ⟨c, x, s, rfl, -, -⟩ := solid.front
  by_cases same : a = c
  · exact front (x ++ s) (by rw [same])
  · exact .inl fun z _ => literal_none same word _

theorem agrees_sign {a : Char} (isSign : a ∈ signs) {u : List Char} (solid : i.Solid u) :
    i.Agrees (literal [a]) u := by
  refine agrees_of_front solid ?_
  rintro v rfl
  exact .inr ⟨[a], v, solid.rest_of_sign isSign, fun z _ => by simp [literal]⟩

theorem rest_of_secondSign {v u : List Char} {c : Char} (row : Lexemes v (c :: u)) (second : c ∈ secondSigns) :
    Lexemes v u := by
  have facts : (secondSigns.all fun d => CharClass.of d == .sign && d != '-') = true := rfl
  have each := List.all_eq_true.mp facts c second
  simp only [Bool.and_eq_true, beq_iff_eq, bne_iff_ne] at each
  obtain ⟨x, s, rfl, first, rest, -⟩ := row.front
  rw [each.1] at first
  cases first with
  | sign => exact rest
  | comment => exact absurd rfl each.2

theorem Follows.ne_secondSign {c : Char} (follows : i.Follows z) (second : c ∈ secondSigns) : Stops (· == c) z := by
  have facts : (secondSigns.all fun d => [' ', '\t', '\r', '\n', '\x0b', '\x0c'].all fun e => !(e == d)) = true := rfl
  refine follows.stops (s := []) (List.all_eq_true.mp facts c second) fun d member => ?_
  rw [beq_eq_false_iff_ne]
  rintro rfl
  exact (i.fresh d member).2 second

theorem agrees_pair {a b : Char} (isSign : a ∈ signs) (second : b ∈ secondSigns) {u : List Char} (solid : i.Solid u) :
    i.Agrees (literal [a, b]) u := by
  refine agrees_of_front solid ?_
  rintro v rfl
  have rest := solid.rest_of_sign isSign
  cases v with
  | nil => exact .inl fun z follows => literal_of_stops (follows.ne_secondSign second) [a] []
  | cons d v =>
    by_cases same : b = d
    · subst same
      exact .inr ⟨[a, b], v, rest_of_secondSign rest second, fun z _ => by simp [literal]⟩
    · exact .inl fun z _ => by simp [literal, same]

theorem agrees_colons {u : List Char} (solid : i.Solid u) : i.Agrees (literal [':', ':']) u := by
  refine agrees_of_front solid ?_
  rintro v rfl
  obtain ⟨x, s, rfl, first, rest, -⟩ := solid.row.front
  cases first with
  | colons => exact .inr ⟨[':', ':'], s, rest, fun z _ => by simp [literal]⟩
  | colon ends => exact .inl fun z follows => literal_of_stops (follows.stops rfl ends) [':'] []

/-- Where a numeral begins with a point, no other point follows. -/
theorem literal_fraction {x rest : List Char} (reads : numeral ('.' :: (x ++ rest)) = some ('.' :: x, rest))
    (word t : List Char) : literal ('.' :: '.' :: word) ('.' :: (x ++ t)) = none := by
  obtain ⟨k, found, -⟩ := NumeralClass.exists_of_numeral reads
  obtain ⟨d, y, rfl, digit⟩ := NumeralClass.digit_of_point ⟨_, _, found⟩
  refine literal_of_stops (t := d :: (y ++ t)) (stops_cons.mpr ?_) ['.'] word
  rw [beq_eq_false_iff_ne]
  rintro rfl
  cases digit

theorem stops_point {t : List Char} (stops : Stops (fun d => d == '.' || d.isDigit) t) : Stops (· == '.') t :=
  stops_mono (fun d isPoint => by simp [isPoint]) stops

theorem agrees_varArgs {u : List Char} (solid : i.Solid u) : i.Agrees (literal ['.', '.', '.']) u := by
  refine agrees_of_front solid ?_
  rintro v rfl
  obtain ⟨x, s, rfl, first, rest, -⟩ := solid.row.front
  cases first with
  | varArgs => exact .inr ⟨['.', '.', '.'], s, rest, fun z _ => by simp [literal]⟩
  | fraction reads =>
    refine .inl fun z _ => ?_
    rw [List.cons_append, List.append_assoc]
    exact literal_fraction reads _ _
  | dot ends => exact .inl fun z follows => literal_of_stops (stops_point (follows.stops rfl ends)) ['.'] ['.']
  | concat ends => exact .inl fun z follows => literal_of_stops (follows.stops rfl ends) ['.', '.'] []

theorem Agrees.absent_seq {a b : Scanner} {u : List Char} (first : i.Agrees a u)
    (second : (∀ z, i.Follows z → a (u ++ z) = none) → i.Agrees b u) : i.Agrees (Scanner.seq (absent a) b) u := by
  rcases first with fails | ⟨x, u', -, found⟩
  · have passes z (follows : i.Follows z) : Scanner.seq (absent a) b (u ++ z) = b (u ++ z) := by
      rw [Scanner.seq, absent, fails z follows]
      cases found : b (u ++ z) <;> simp [found]
    rcases second fails with fails' | ⟨y, u', row, found'⟩
    · exact .inl fun z follows => (passes z follows).trans (fails' z follows)
    · exact .inr ⟨y, u', row, fun z follows => (passes z follows).trans (found' z follows)⟩
  · refine .inl fun z follows => ?_
    rw [Scanner.seq, absent, found z follows]
    rfl

theorem agrees_concat {u : List Char} (solid : i.Solid u) : i.Agrees BinaryOp.concat.scan u := by
  refine (agrees_varArgs solid).absent_seq fun shorter => ?_
  refine agrees_of_front solid ?_
  rintro v rfl
  obtain ⟨x, s, rfl, first, rest, -⟩ := solid.row.front
  cases first with
  | concat => exact .inr ⟨['.', '.'], s, rest, fun z _ => by simp [literal]⟩
  | varArgs => cases shorter _ (.inl rfl)
  | fraction reads =>
    refine .inl fun z _ => ?_
    rw [List.cons_append, List.append_assoc]
    exact literal_fraction reads _ _
  | dot ends => exact .inl fun z follows => literal_of_stops (stops_point (follows.stops rfl ends)) ['.'] []

/-! ### Words -/

theorem name_append {c : Char} {x t : List Char} (starts : isWordStart c = true) (inside : ∀ d ∈ x, isWordChar d = true)
    (stops : Stops isWordChar t) :
    name (c :: (x ++ t)) = if isReserved (c :: x) then none else some (c :: x, t) := by
  have word : x.takeWhile isWordChar = x := List.takeWhile_eq_self_iff.mpr inside
  have nothing : x.dropWhile isWordChar = [] := List.dropWhile_eq_nil_iff.mpr inside
  rw [name, if_pos starts, takeWhile_append_of_stops stops, dropWhile_append_of_stops stops, word, nothing]
  rfl

theorem agrees_name {u : List Char} (solid : i.Solid u) : i.Agrees name u := by
  obtain ⟨c, x, s, rfl, first, rest, -⟩ := solid.front
  by_cases starts : isWordStart c = true
  · rw [CharClass.of_letter starts] at first
    cases first with
    | word starts inside ends =>
      have read z (follows : i.Follows z) := name_append starts inside (follows.stops rfl ends)
      by_cases reserved : isReserved (c :: x) = true
      · refine .inl fun z follows => ?_
        rw [List.cons_append, List.append_assoc, read z follows, if_pos reserved]
      · refine .inr ⟨c :: x, s, rest, fun z follows => ?_⟩
        rw [List.cons_append, List.append_assoc, read z follows, if_neg reserved]
  · exact .inl fun z _ => name_none (by simpa using starts) _

/-- From a word, letters are read whatever stands behind the word. -/
theorem literal_letters (text : List Char) {t letters : List Char} (stops : Stops isWordChar t)
    (areLetters : ∀ d ∈ letters, isWordChar d = true) :
    literal letters (text ++ t) = (literal letters text).map fun (read, rest) => (read, rest ++ t) := by
  rw [literal, literal, isPrefixOf_append_of_stops areLetters stops]
  split
  · rename_i isPrefix
    rw [List.drop_append_of_le_length (List.isPrefixOf_iff_prefix.mp isPrefix).length_le]
    rfl
  · rfl

/-- The letters of a reserved word: all of them belong to a word, and the first may begin one. -/
def isWordText (word : List Char) : Bool := word.all isWordChar && word.head?.any isWordStart

theorem isWordChar_of_isWordText {word : List Char} (isWord : isWordText word = true) :
    ∀ c ∈ word, isWordChar c = true :=
  List.all_eq_true.mp (Bool.and_eq_true_iff.mp isWord).1

theorem literal_none_of_isWordText {word : List Char} (isWord : isWordText word = true) {c : Char}
    (other : isWordStart c = false) (t : List Char) : literal word (c :: t) = none := by
  cases word with
  | nil => cases isWord
  | cons e word =>
    have starts : isWordStart e = true := (Bool.and_eq_true_iff.mp isWord).2
    exact literal_none (ne_of_isWordStart other starts).symm word t

theorem not_opensNoOperand_of_isWordChar {c : Char} (inside : isWordChar c = true) (t : List Char) :
    ¬ OpensNoOperand (c :: t) := by
  rintro ⟨d, r, here, rfl | ⟨rfl, -⟩⟩
  · cases (List.cons.inj here).1
    cases inside
  · cases (List.cons.inj here).1
    cases inside

theorem agrees_openWord {word : List Char} (isOpen : word ∈ openWords) {u : List Char} (solid : i.Solid u) :
    i.Agrees (literal word) u := by
  have each : openWords.all isWordText = true := rfl
  have isWord := List.all_eq_true.mp each word isOpen
  obtain ⟨c, x, s, rfl, first, rest, left⟩ := solid.front
  by_cases starts : isWordStart c = true
  · rw [CharClass.of_letter starts] at first left
    cases first with
    | word starts inside ends =>
      have read z (follows : i.Follows z) : literal word (c :: (x ++ s) ++ z) =
          (literal word (c :: x)).map fun (read, rest) => (read, rest ++ (s ++ z)) := by
        rw [← literal_letters (c :: x) (follows.stops rfl ends) (isWordChar_of_isWordText isWord)]
        simp
      cases found : literal word (c :: x) with
      | none => exact .inl fun z follows => by rw [read z follows, found]; rfl
      | some pair =>
        obtain ⟨r, y⟩ := pair
        have row : Lexemes i.behind (y ++ s) := by
          have split := splits_literal word _ _ _ found
          rw [reads_literal ⟨_, _, found⟩] at split
          cases y with
          | nil => exact rest
          | cons d y =>
            have letters : ∀ e ∈ c :: x, isWordChar e = true :=
              List.forall_mem_cons.mpr ⟨isWordChar_of_isWordStart starts, inside⟩
            refine left word isOpen (d :: y) (List.cons_ne_nil d y) split ?_
            exact not_opensNoOperand_of_isWordChar (letters d (by simp [split])) _
        refine .inr ⟨r, y ++ s, row, fun z follows => ?_⟩
        rw [read z follows, found, List.append_assoc]
        rfl
  · exact .inl fun z _ => literal_none_of_isWordText isWord (by simpa using starts) _

/-- A word that does not run on is read from a word only if it is that word. -/
theorem word_append {text : String} {letters t : List Char} (inside : ∀ c ∈ letters, isWordChar c = true)
    (stops : Stops isWordChar t) (isWord : isWordText text.toList = true) :
    word text (letters ++ t) = if text.toList = letters then some (letters, t) else none := by
  rw [Lexeme.word, Scanner.seq, literal_letters letters stops (isWordChar_of_isWordText isWord)]
  cases found : literal text.toList letters with
  | none =>
    have differ : text.toList ≠ letters := by
      rintro same
      rw [same, literal, if_pos (List.isPrefixOf_iff_prefix.mpr (List.prefix_refl _))] at found
      cases found
    rw [if_neg differ]
    rfl
  | some pair =>
    obtain ⟨r, y⟩ := pair
    have split := splits_literal text.toList _ _ _ found
    rw [reads_literal ⟨_, _, found⟩] at split ⊢
    cases y with
    | nil =>
      rw [List.append_nil] at split
      rw [if_pos split.symm, ← split]
      simp [absent, one_of_stops stops]
    | cons d y =>
      have differ : text.toList ≠ letters := by simp [split]
      have goesOn : isWordChar d = true := inside d (by simp [split])
      rw [if_neg differ]
      simp [absent, one, goesOn]

theorem agrees_word {text : String} (isWord : isWordText text.toList = true) {u : List Char} (solid : i.Solid u) :
    i.Agrees (word text) u := by
  obtain ⟨c, x, s, rfl, first, rest, -⟩ := solid.front
  by_cases starts : isWordStart c = true
  · rw [CharClass.of_letter starts] at first
    cases first with
    | word starts inside ends =>
      have letters : ∀ d ∈ c :: x, isWordChar d = true :=
        List.forall_mem_cons.mpr ⟨isWordChar_of_isWordStart starts, inside⟩
      have read z (follows : i.Follows z) : word text (c :: (x ++ s) ++ z) =
          if text.toList = c :: x then some (c :: x, s ++ z) else none := by
        rw [← word_append letters (follows.stops rfl ends) isWord]
        simp
      by_cases same : text.toList = c :: x
      · exact .inr ⟨c :: x, s, rest, fun z follows => by rw [read z follows, if_pos same]⟩
      · exact .inl fun z follows => by rw [read z follows, if_neg same]
  · refine .inl fun z _ => ?_
    rw [Lexeme.word, Scanner.seq, List.cons_append, literal_none_of_isWordText isWord (by simpa using starts)]
    rfl

/-! ### Strings and numerals -/

theorem agrees_longString {u : List Char} (solid : i.Solid u) : i.Agrees LongBracket.scan u := by
  obtain ⟨c, x, s, rfl, first, rest, -⟩ := solid.front
  by_cases bracket : c = '['
  · subst bracket
    cases first with
    | long reads =>
      refine .inr ⟨'[' :: x, s, rest, fun z _ => ?_⟩
      rw [List.cons_append, List.append_assoc]
      exact LongBracket.scan_append reads (s ++ z)
    | bracket unopened => exact .inl fun z follows => follows.scan_none (s := '[' :: s) unopened
  · exact .inl fun z _ => longString_none bracket _

theorem agrees_quotedString {u : List Char} (solid : i.Solid u) : i.Agrees QuotedString.scan u := by
  obtain ⟨c, x, s, rfl, first, rest, -⟩ := solid.front
  by_cases isQuote : CharClass.of c = .quote
  · rw [isQuote] at first
    cases first with
    | quoted reads =>
      refine .inr ⟨c :: x, s, rest, fun z _ => ?_⟩
      rw [List.cons_append, List.append_assoc]
      exact QuotedString.scan_append reads (s ++ z)
  · refine .inl fun z _ => quotedString_none ?_ ?_ _
    · rintro rfl
      exact isQuote rfl
    · rintro rfl
      exact isQuote rfl

theorem agrees_finish {u : List Char} (solid : i.Solid u) : i.Agrees finish u := by
  obtain ⟨c, x, s, rfl, -, -⟩ := solid.front
  exact .inl fun z _ => rfl

theorem scan_point_none (k : NumeralClass) {t : List Char} (stops : Stops Char.isDigit t) :
    k.scan ('.' :: t) = none := by
  cases found : k.scan ('.' :: t) with
  | none => rfl
  | some pair =>
    obtain ⟨r, rest⟩ := pair
    have split := k.splits_scan _ _ _ found
    obtain ⟨c, x, rfl, -⟩ := NumeralClass.first_of_reads ⟨_, _, found⟩
    cases split
    obtain ⟨d, y, rfl, digit⟩ := NumeralClass.digit_of_point ⟨_, _, found⟩
    have notDigit := stops_cons.mp stops
    rw [digit] at notDigit
    cases notDigit

/-- Behind a row that is a single point no other point stands. -/
theorem stops_of_point {v : List Char} (row : Lexemes v ['.']) : Stops (· == '.') v := by
  obtain ⟨x, s, whole, first, -, -⟩ := row.front
  obtain ⟨rfl, rfl⟩ := List.append_eq_nil_iff.mp whole.symm
  cases first with
  | dot ends => exact stops_point ends
  | fraction reads =>
    obtain ⟨k, found, -⟩ := NumeralClass.exists_of_numeral reads
    obtain ⟨d, y, none, -⟩ := NumeralClass.digit_of_point ⟨_, _, found⟩
    cases none

/-- From a row all classes of numerals fail, or one reads the first lexeme and those before it fail. -/
theorem agrees_numeral {u : List Char} (solid : i.Solid u) :
    (∀ (k : NumeralClass) z, i.Follows z → k.scan (u ++ z) = none) ∨
      ∃ (k : NumeralClass) (x s : List Char), Lexemes i.behind s ∧
        ∀ z, i.Follows z → k.scan (u ++ z) = some (x, s ++ z) ∧ ∀ other ∈ k.earlier, other.scan (u ++ z) = none := by
  obtain ⟨c, x, s, rfl, first, rest, -⟩ := solid.front
  have reads (reads : numeral (c :: (x ++ (s ++ i.behind))) = some (c :: x, s ++ i.behind)) :
      ∃ k : NumeralClass, ∀ z, i.Follows z → k.scan (c :: (x ++ s) ++ z) = some (c :: x, s ++ z) ∧
        ∀ other ∈ k.earlier, other.scan (c :: (x ++ s) ++ z) = none := by
    have single : s = ['.'] → Stops (· == '.') i.behind := by
      rintro rfl
      exact stops_of_point rest
    simp only [List.cons_append, List.append_assoc]
    cases blanks : i.blanks with
    | nil =>
      obtain ⟨k, found⟩ := NumeralClass.exists_behind (z := []) (by simp) (x := c :: x) reads single
      exact ⟨k, fun z follows => found z (.inl (by simpa [Follows, blanks] using follows))⟩
    | cons d w =>
      have blank : ∀ e ∈ (i.blanks ++ i.behind).head?, isBlank e = true := by
        simpa [blanks] using i.areBlank d (by simp [blanks])
      obtain ⟨k, found⟩ := NumeralClass.exists_behind blank (x := c :: x) reads single
      exact ⟨k, fun z follows => found z follows⟩
  by_cases digit : c.isDigit = true
  · rw [CharClass.of_digit digit] at first
    cases first with
    | numeral _ read =>
      obtain ⟨k, found⟩ := reads read
      exact .inr ⟨k, c :: x, s, rest, found⟩
  · by_cases point : c = '.'
    · subst point
      cases first with
      | fraction read =>
        obtain ⟨k, found⟩ := reads read
        exact .inr ⟨k, '.' :: x, s, rest, found⟩
      | dot ends =>
        refine .inl fun k z follows => scan_point_none k ?_
        exact stops_mono (fun d isDigit => by simp [isDigit]) (follows.stops rfl ends)
      | concat | varArgs => exact .inl fun k z _ => scan_point_none k (stops_cons.mpr rfl)
    · exact .inl fun k z _ => numeral_none k (by simpa using digit) point _

/-- A class of numerals that is tried after those before it have failed. -/
theorem alikeAt_numeral {s s' : List Char} (ready : i.Ready s s') (k : NumeralClass)
    (failed : ∀ other ∈ k.earlier, other.scan s = none) : k.scan.AlikeAt i.Ends s s' := by
  rcases ready with rfl | ⟨u, solid, rfl, rfl⟩
  · exact alikeAt_self _ (fun _ => .inl rfl) s
  · rcases agrees_numeral solid with fails | ⟨first, x, t, row, found⟩
    · exact .inl ⟨fails k _ (.inl rfl), fails k _ (.inr rfl)⟩
    · obtain ⟨here, before⟩ := found _ (.inl rfl)
      obtain ⟨here', before'⟩ := found _ (.inr rfl)
      have order : k ∈ first.earlier ∨ k = first ∨ first ∈ k.earlier := by cases k <;> cases first <;> decide
      rcases order with earlier | rfl | later
      · exact .inl ⟨before k earlier, before' k earlier⟩
      · exact .inr ⟨x, _, _, here, here', .inr ⟨t, row, rfl, rfl⟩⟩
      · rw [failed first later] at here
        cases here

/-! ### Symbols that are part of a longer lexeme -/

/-- A scanner for one character agrees on the row, or it reads the first character of a longer lexeme on both sides. If
that is a bracket, no operand stands behind it. -/
theorem agrees_or_inside {a : Char} {u : List Char} (solid : i.Solid u) :
    i.Agrees (literal [a]) u ∨
      ∃ x s, u = a :: (x ++ s) ∧ IsLexeme (s ++ i.behind) (CharClass.of a) (a :: x) ∧ x ≠ [] ∧
        (a = '[' → OpensNoOperand (x ++ (s ++ i.behind))) := by
  obtain ⟨c, x, s, rfl, first, rest, left⟩ := solid.front
  by_cases same : a = c
  · subst same
    have read (row : Lexemes i.behind (x ++ s)) : i.Agrees (literal [a]) (a :: (x ++ s)) :=
      .inr ⟨[a], x ++ s, row, fun z _ => by simp [literal]⟩
    by_cases none : x = []
    · subst none
      exact .inl (read rest)
    · by_cases bracket : a = '['
      · subst bracket
        by_cases closed : OpensNoOperand (x ++ (s ++ i.behind))
        · exact .inr ⟨x, s, rfl, first, none, fun _ => closed⟩
        · exact .inl (read (left ['['] (List.mem_singleton_self _) x none rfl closed))
      · exact .inr ⟨x, s, rfl, first, none, fun isBracket => absurd isBracket bracket⟩
  · exact .inl (.inl fun z _ => literal_none same [] _)

/-- No name stands behind a point or a colon that is part of a longer lexeme. -/
theorem name_inside {a : Char} (pointed : a = '.' ∨ a = ':') {rest x : List Char}
    (lexeme : IsLexeme rest (CharClass.of a) (a :: x)) (longer : x ≠ []) (t : List Char) :
    Settled (x ++ t) ∧ name (x ++ t) = none := by
  rcases pointed with rfl | rfl
  · cases lexeme with
    | fraction reads =>
      obtain ⟨k, found, -⟩ := NumeralClass.exists_of_numeral reads
      obtain ⟨d, y, rfl, digit⟩ := NumeralClass.digit_of_point ⟨_, _, found⟩
      have visible := isWordChar_visible (c := d) (by simp [isWordChar, Char.isAlphanum, digit])
      exact ⟨settled_cons visible.1 visible.2.1 _, name_none (isWordStart_of_isDigit digit) _⟩
    | dot => exact absurd rfl longer
    | concat | varArgs => exact ⟨settled_cons rfl (by decide) _, name_none rfl _⟩
  · cases lexeme with
    | colon => exact absurd rfl longer
    | colons => exact ⟨settled_cons rfl (by decide) _, name_none rfl _⟩

/-- Where no operand stands, none stands after the insertion. -/
theorem Follows.opensNoOperand {x : List Char} (follows : i.Follows z) (some_text : x ≠ [])
    (opensNone : OpensNoOperand (x ++ (s ++ i.behind))) : OpensNoOperand (x ++ (s ++ z)) := by
  obtain ⟨c, r, here, kind⟩ := opensNone
  cases x with
  | nil => exact absurd rfl some_text
  | cons d x =>
    obtain ⟨rfl, -⟩ := List.cons.inj here
    refine ⟨d, x ++ (s ++ z), rfl, kind.imp id fun ⟨isBracket, unread⟩ => ⟨isBracket, ?_⟩⟩
    have still := follows.scan_none (s := d :: x ++ s) (by rwa [List.append_assoc])
    rwa [List.append_assoc] at still

end Insertion
end LuaLowering.Lexeme
