import LuaLowering.Proofs.Nesting
import LuaLowering.Proofs.NumeralText
import LuaLowering.Proofs.Printing
/-!
# Tokens between spaces

What stands behind a space does not change how a token is read: most scanners are `Blind` to it. So a token of a printed
script is read as if it stood alone: names (`name_of_isIdentifier`), numerals (`none_of_earlier`), and strings,
which are decoded to what they were made from (`QuotedString.decode_body_encode`).
-/
namespace LuaLowering

/-! ## Scanners that stop at a space -/

namespace Peg

/-- Nothing, or a text that begins with a space. -/
def Ends (s : List Char) : Prop := s = [] ∨ ∃ rest, s = ' ' :: rest

/-- No character of the class stands in front. -/
def Stops (p : Char → Bool) (s : List Char) : Prop := ∀ c ∈ s.head?, p c = false

section
variable {p : Char → Bool} {s : List Char}

theorem stops_nil (p : Char → Bool) : Stops p [] := by simp [Stops]

theorem stops_cons {c : Char} : Stops p (c :: s) ↔ p c = false := by simp [Stops]

theorem stops_dropWhile (p : Char → Bool) (s : List Char) : Stops p (s.dropWhile p) := by
  intro c member
  have head := List.head?_dropWhile_not p s
  rw [Option.mem_def.mp member] at head
  simpa using head

theorem stops_mono {q : Char → Bool} (inside : ∀ c, p c = true → q c = true) (stops : Stops q s) : Stops p s := by
  intro c member
  have outside := stops c member
  cases isIn : p c with
  | false => rfl
  | true =>
    rw [inside c isIn] at outside
    cases outside

theorem Ends.stops (ends : Ends s) (solid : p ' ' = false) : Stops p s := by
  rcases ends with rfl | ⟨rest, rfl⟩
  · exact stops_nil p
  · exact stops_cons.mpr solid

theorem takeWhile_append_of_stops (stops : Stops p s) (t : List Char) : (t ++ s).takeWhile p = t.takeWhile p := by
  induction t with
  | nil =>
    cases s with
    | nil => rfl
    | cons c s => simp [stops_cons.mp stops]
  | cons c t ih => simp only [List.cons_append, List.takeWhile_cons, ih]

theorem dropWhile_append_of_stops (stops : Stops p s) (t : List Char) : (t ++ s).dropWhile p = t.dropWhile p ++ s := by
  induction t with
  | nil =>
    cases s with
    | nil => rfl
    | cons c s => simp [stops_cons.mp stops]
  | cons c t ih =>
    simp only [List.cons_append, List.dropWhile_cons, ih]
    split <;> rfl

theorem isPrefixOf_append_of_stops {word : List Char} (inside : ∀ c ∈ word, p c = true) (stops : Stops p s)
    (t : List Char) : word.isPrefixOf (t ++ s) = word.isPrefixOf t := by
  induction word generalizing t with
  | nil => simp
  | cons c word ih =>
    have rest : ∀ d ∈ word, p d = true := fun d member => inside d (List.mem_cons_of_mem _ member)
    cases t with
    | nil =>
      cases s with
      | nil => rfl
      | cons d s =>
        have differ : c ≠ d := by
          rintro rfl
          have outside := stops_cons.mp stops
          rw [inside c List.mem_cons_self] at outside
          cases outside
        simp [List.isPrefixOf, differ]
    | cons d t => rw [List.cons_append, List.isPrefixOf, List.isPrefixOf, ih rest]

theorem isPrefixOf_append_of_ends {word : List Char} (solid : ' ' ∉ word) (ends : Ends s) (t : List Char) :
    word.isPrefixOf (t ++ s) = word.isPrefixOf t := by
  have inside : ∀ c ∈ word, (c != ' ') = true := by
    intro c member
    exact bne_iff_ne.mpr fun same => solid (same ▸ member)
  exact isPrefixOf_append_of_stops inside (ends.stops rfl) t

end

namespace Scanner
variable {a b : Scanner} {p : Char → Bool}

section
variable {s t digits : List Char}

theorem many_eq_some (each : ∀ c ∈ digits, p c = true) (stops : Stops p t) :
    many p (digits ++ t) = some (digits, t) := by
  rw [many, takeWhile_append_of_stops stops, dropWhile_append_of_stops stops, List.takeWhile_eq_self_iff.mpr each,
    List.dropWhile_eq_nil_iff.mpr each]
  rfl

theorem many1_eq_some (some_digit : digits ≠ []) (each : ∀ c ∈ digits, p c = true) (stops : Stops p t) :
    many1 p (digits ++ t) = some (digits, t) := by
  have found := many_eq_some each stops
  rw [many, Option.some.injEq, Prod.mk.injEq] at found
  rw [many1, found.1, found.2]
  cases digits with
  | nil => exact absurd rfl some_digit
  | cons c digits => rfl

theorem many1_eq_none (stops : Stops p s) : many1 p s = none := by
  cases s with
  | nil => rfl
  | cons c s => simp [many1, stops_cons.mp stops]

end

/-- What stands behind a space does not change what is read before it. -/
def Blind (scan : Scanner) : Prop :=
  ∀ t s, Ends s → scan (t ++ s) = (scan t).map fun (read, rest) => (read, rest ++ s)

theorem blind_literal {word : List Char} (solid : ' ' ∉ word) : (literal word).Blind := by
  intro t s ends
  rw [literal, literal, isPrefixOf_append_of_ends solid ends]
  split
  · rename_i isPrefix
    have short := (List.isPrefixOf_iff_prefix.mp isPrefix).length_le
    rw [List.drop_append_of_le_length short]
    rfl
  · rfl

theorem blind_one (stops : p ' ' = false) : (one p).Blind := by
  intro t s ends
  cases t with
  | nil => rcases ends with rfl | ⟨rest, rfl⟩ <;> simp [one, stops]
  | cons c t =>
    rw [List.cons_append, one, one]
    split <;> rfl

theorem blind_many (stops : p ' ' = false) : (many p).Blind := by
  intro t s ends
  simp [many, takeWhile_append_of_stops (ends.stops stops), dropWhile_append_of_stops (ends.stops stops)]

theorem blind_many1 (stops : p ' ' = false) : (many1 p).Blind := by
  intro t s ends
  rw [many1, many1, takeWhile_append_of_stops (ends.stops stops), dropWhile_append_of_stops (ends.stops stops)]
  split <;> rfl

theorem Blind.seq (first : a.Blind) (second : b.Blind) : (seq a b).Blind := by
  intro t s ends
  rw [Scanner.seq, Scanner.seq, first t s ends]
  cases a t with
  | none => rfl
  | some found =>
    obtain ⟨x, rest⟩ := found
    simp only [Option.map_some, Option.bind_eq_bind, Option.bind_some, second rest s ends]
    cases b rest with
    | none => rfl
    | some found => rfl

theorem Blind.alt (first : a.Blind) (second : b.Blind) : (alt a b).Blind := by
  intro t s ends
  rw [Scanner.alt, Scanner.alt, first t s ends]
  cases a t with
  | none => exact second t s ends
  | some found => rfl

theorem Blind.opt (blind : a.Blind) : (opt a).Blind := by
  intro t s ends
  rw [Scanner.opt, Scanner.opt, blind t s ends]
  cases a t with
  | none => rfl
  | some found => rfl

theorem Blind.absent (blind : a.Blind) : (absent a).Blind := by
  intro t s ends
  rw [Scanner.absent, Scanner.absent, blind t s ends]
  cases a t with
  | none => rfl
  | some found => rfl

theorem blind_all {parts : List Scanner} (each : ∀ part ∈ parts, part.Blind) : (all parts).Blind := by
  induction parts with
  | nil =>
    intro t s _
    rfl
  | cons part parts ih =>
    exact (each part List.mem_cons_self).seq (ih fun other member => each other (List.mem_cons_of_mem _ member))

end Scanner
end Peg

namespace Lexeme
open Peg Peg.Scanner

theorem blind_name : Blind name := by
  intro t s ends
  cases t with
  | nil => rcases ends with rfl | ⟨rest, rfl⟩ <;> rfl
  | cons c t =>
    have stops : isWordChar ' ' = false := by decide
    have stopped : Stops isWordChar s := ends.stops stops
    rw [List.cons_append, name, name, takeWhile_append_of_stops stopped, dropWhile_append_of_stops stopped]
    split
    · simp only
      split <;> rfl
    · rfl

theorem blind_word {text : String} (solid : ' ' ∉ text.toList) : (word text).Blind :=
  (blind_literal solid).seq (blind_one (by decide)).absent

namespace Numeral

theorem blind_digits : Blind digits := blind_many1 (by decide)

theorem blind_hexDigits : Blind hexDigits := blind_many1 (by decide)

theorem blind_point : Blind point := blind_literal (by decide)

theorem blind_exponent {letter : Char} (solid : letter ≠ ' ') : (exponent letter).Blind :=
  blind_all (by
    simp only [List.mem_cons, List.not_mem_nil, or_false, forall_eq_or_imp, forall_eq]
    have space : ' '.toLower = ' ' := by decide
    refine ⟨blind_one ?_, (blind_one (by decide)).opt, blind_digits⟩
    simpa [space] using solid.symm)

theorem blind_hexMark : Blind hexMark :=
  blind_all (by
    simp only [List.mem_cons, List.not_mem_nil, or_false, forall_eq_or_imp, forall_eq]
    exact ⟨blind_literal (by decide), blind_one (by decide)⟩)

theorem blind_pointed : Blind pointed :=
  (blind_all (by simp [blind_digits, blind_point, blind_point.absent, blind_many])).alt
    (blind_all (by simp [blind_digits, blind_point]))

theorem blind_hexPointed : Blind hexPointed :=
  (blind_all (by
      simp only [List.mem_cons, List.not_mem_nil, or_false, forall_eq_or_imp, forall_eq]
      exact ⟨blind_hexDigits, blind_point, blind_many (by decide)⟩)).alt
    (blind_all (by simp [blind_hexDigits, blind_point]))

theorem blind_int : Blind int := blind_digits

theorem blind_hexInt : Blind hexInt := blind_all (by simp [blind_hexMark, blind_hexDigits])

theorem blind_float : Blind float :=
  (blind_all (by simp [blind_pointed, (blind_exponent _).opt])).alt
    (blind_all (by simp [blind_exponent, blind_digits]))

theorem blind_hexFloat : Blind hexFloat :=
  blind_all (by
    simp only [List.mem_cons, List.not_mem_nil, or_false, forall_eq_or_imp, forall_eq]
    exact ⟨blind_hexMark, (blind_all (by simp [blind_hexPointed, (blind_exponent _).opt])).alt
      (blind_all (by simp [blind_exponent, blind_hexDigits]))⟩)

/-! ## Classes of numerals -/

variable {text : List Char}

theorem mark_of_hexMark {parts : List Scanner} (reads : (all (hexMark :: parts)).Reads text) :
    ∃ c ∈ text, c = 'x' ∨ c = 'X' := by
  obtain ⟨mark, rest, rfl, isMark, -⟩ := reads_all_cons reads
  obtain ⟨zero, letter, rfl, -, isLetter⟩ := reads_all_cons isMark
  obtain ⟨c, rfl, small⟩ := reads_one (reads_all_singleton isLetter)
  exact ⟨c, by simp, eq_of_toLower (beq_iff_eq.mp small) rfl⟩

theorem mark_of_exponent {letter : Char} (capital : Char) (letters : capital.toNat + 32 = letter.toNat)
    (reads : (exponent letter).Reads text) : ∃ c ∈ text, c = letter ∨ c = capital := by
  obtain ⟨mark, rest, rfl, isMark, -⟩ := reads_all_cons reads
  obtain ⟨c, rfl, small⟩ := reads_one isMark
  exact ⟨c, by simp, eq_of_toLower (beq_iff_eq.mp small) letters⟩

/-- Digits on one side of a point or on both. -/
theorem point_of_sides {before after : Scanner} {parts : List Scanner}
    (reads : (alt (all (before :: point :: parts)) (all [point, after])).Reads text) : '.' ∈ text := by
  rcases reads_alt reads with digitsFirst | pointFirst
  · obtain ⟨_, others, rfl, -, more⟩ := reads_all_cons digitsFirst
    obtain ⟨dot, _, rfl, isPoint, -⟩ := reads_all_cons more
    simp [reads_literal isPoint]
  · obtain ⟨dot, _, rfl, isPoint, -⟩ := reads_all_cons pointFirst
    simp [reads_literal isPoint]

theorem mark_of_float (reads : float.Reads text) : ∃ c ∈ text, c = '.' ∨ c = 'e' ∨ c = 'E' := by
  rcases reads_alt reads with withPoint | withExponent
  · obtain ⟨front, rest, rfl, isPointed, -⟩ := reads_all_cons withPoint
    exact ⟨'.', List.mem_append_left _ (point_of_sides isPointed), .inl rfl⟩
  · obtain ⟨front, rest, rfl, -, isExponent⟩ := reads_all_cons withExponent
    obtain ⟨c, member, letter⟩ := mark_of_exponent 'E' rfl (reads_all_singleton isExponent)
    exact ⟨c, List.mem_append_right _ member, .inr letter⟩

theorem mark_of_hexFloat (reads : hexFloat.Reads text) : ∃ c ∈ text, c = '.' ∨ c = 'p' ∨ c = 'P' := by
  obtain ⟨mark, part, rfl, -, rest⟩ := reads_all_cons reads
  rcases reads_alt (reads_all_singleton rest) with withPoint | withExponent
  · obtain ⟨front, _, rfl, isPointed, -⟩ := reads_all_cons withPoint
    exact ⟨'.', by simp [point_of_sides isPointed], .inl rfl⟩
  · obtain ⟨front, back, rfl, -, isExponent⟩ := reads_all_cons withExponent
    obtain ⟨c, member, letter⟩ := mark_of_exponent 'P' rfl (reads_all_singleton isExponent)
    exact ⟨c, by simp [member], .inr letter⟩

theorem forall_of_hexInt (reads : hexInt.Reads text) : ∀ c ∈ text, Text.isHexDigit c = true ∨ c = 'x' ∨ c = 'X' := by
  obtain ⟨mark, ds, rfl, isMark, last⟩ := reads_all_cons reads
  obtain ⟨zero, letter, rfl, isZero, isLetter⟩ := reads_all_cons isMark
  obtain ⟨x, rfl, small⟩ := reads_one (reads_all_singleton isLetter)
  have written := (reads_many1 (reads_all_singleton last)).2
  rw [reads_literal isZero]
  intro c member
  rcases List.mem_append.mp member with inMark | inDigits
  · rcases List.mem_cons.mp inMark with rfl | inLetter
    · exact .inl rfl
    · rw [List.mem_singleton.mp inLetter]
      exact .inr (eq_of_toLower (beq_iff_eq.mp small) rfl)
  · exact .inl (written c inDigits)

theorem first_of_digits (reads : digits.Reads text) : ∃ c rest, text = c :: rest ∧ (c.isDigit = true ∨ c = '.') := by
  obtain ⟨some_digit, all_digits⟩ := reads_many1 reads
  cases text with
  | nil => exact absurd rfl some_digit
  | cons c rest => exact ⟨c, rest, rfl, .inl (all_digits c List.mem_cons_self)⟩

theorem first_of_append {x y : List Char} (first : ∃ c rest, x = c :: rest ∧ (c.isDigit = true ∨ c = '.')) :
    ∃ c rest, x ++ y = c :: rest ∧ (c.isDigit = true ∨ c = '.') := by
  obtain ⟨c, rest, rfl, kind⟩ := first
  exact ⟨c, rest ++ y, rfl, kind⟩

theorem first_of_hexMark {parts : List Scanner} (reads : (all (hexMark :: parts)).Reads text) :
    ∃ c rest, text = c :: rest ∧ (c.isDigit = true ∨ c = '.') := by
  obtain ⟨mark, rest, rfl, isMark, -⟩ := reads_all_cons reads
  obtain ⟨zero, letter, rfl, isZero, -⟩ := reads_all_cons isMark
  exact ⟨'0', letter ++ rest, by rw [reads_literal isZero]; rfl, .inl rfl⟩

theorem first_of_float (reads : float.Reads text) : ∃ c rest, text = c :: rest ∧ (c.isDigit = true ∨ c = '.') := by
  rcases reads_alt reads with withPoint | withExponent
  · obtain ⟨front, rest, rfl, isPointed, -⟩ := reads_all_cons withPoint
    refine first_of_append ?_
    rcases reads_alt isPointed with digitsFirst | pointFirst
    · obtain ⟨_, others, rfl, isDigits, -⟩ := reads_all_cons digitsFirst
      exact first_of_append (first_of_digits isDigits)
    · obtain ⟨dot, others, rfl, isPoint, -⟩ := reads_all_cons pointFirst
      exact ⟨'.', others, by rw [reads_literal isPoint]; rfl, .inr rfl⟩
  · obtain ⟨front, rest, rfl, isDigits, -⟩ := reads_all_cons withExponent
    exact first_of_append (first_of_digits isDigits)

end Numeral
end Lexeme

namespace Decimal
variable {text tail : List Char}

theorem Tail.ne_hexMark (ending : Tail tail) {c : Char} (member : c ∈ tail) : ¬ (c = 'x' ∨ c = 'X') := by
  cases ending with
  | nil => cases member
  | exponent letter signed written =>
    rcases List.mem_cons.mp member with rfl | further
    · rcases letter with rfl | rfl <;> decide
    · rcases List.mem_append.mp further with inSign | inDigits
      · rcases signed with rfl | rfl | rfl <;> simp_all
      · have digit := written.2 c inDigits
        rintro (rfl | rfl) <;> cases digit

theorem Unsigned.ne_hexMark (unsigned : Unsigned text) {c : Char} (member : c ∈ text) : ¬ (c = 'x' ∨ c = 'X') := by
  have digits {ds : List Char} (written : ∀ d ∈ ds, d.isDigit = true) (inside : c ∈ ds) : ¬ (c = 'x' ∨ c = 'X') := by
    have digit := written c inside
    rintro (rfl | rfl) <;> cases digit
  cases unsigned with
  | whole written ending =>
    rcases List.mem_append.mp member with before | after
    · exact digits written.2 before
    · exact ending.ne_hexMark after
  | point written ending =>
    rcases List.mem_append.mp member with before | after
    · exact digits written.2 (List.mem_append_left _ before)
    · rcases List.mem_cons.mp after with rfl | further
      · decide
      · rcases List.mem_append.mp further with part | last
        · exact digits written.2 (List.mem_append_right _ part)
        · exact ending.ne_hexMark last

end Decimal

namespace Syntax
open Peg Peg.Scanner Lexeme

namespace NumeralClass

/-- The classes that are tried before this one. -/
def earlier : NumeralClass → List NumeralClass
  | .hexFloat => []
  | .hex => [.hexFloat]
  | .float => [.hexFloat, .hex]
  | .int => [.hexFloat, .hex, .float]

theorem splits_scan (k : NumeralClass) : k.scan.Splits := by
  cases k with
  | int => exact Numeral.splits_int
  | hex => exact Numeral.splits_hexInt
  | float => exact Numeral.splits_float
  | hexFloat => exact Numeral.splits_hexFloat

theorem blind_scan (k : NumeralClass) : k.scan.Blind := by
  cases k with
  | int => exact Numeral.blind_int
  | hex => exact Numeral.blind_hexInt
  | float => exact Numeral.blind_float
  | hexFloat => exact Numeral.blind_hexFloat

theorem first_of_reads {k : NumeralClass} {text : List Char} (reads : k.scan.Reads text) :
    ∃ c rest, text = c :: rest ∧ (c.isDigit = true ∨ c = '.') := by
  cases k with
  | int => exact Numeral.first_of_digits reads
  | hex => exact Numeral.first_of_hexMark reads
  | float => exact Numeral.first_of_float reads
  | hexFloat => exact Numeral.first_of_hexMark reads

/-- A scanner that needs a mark reads nothing from a text that has none. -/
theorem none_of_mark {scan : Scanner} {isMark : Char → Prop} {text : List Char} (splits : scan.Splits)
    (marked : ∀ read, scan.Reads read → ∃ c ∈ read, isMark c) (plain : ∀ c ∈ text, ¬ isMark c) : scan text = none := by
  cases found : scan text with
  | none => rfl
  | some pair =>
    obtain ⟨read, rest⟩ := pair
    obtain ⟨c, member, mark⟩ := marked read ⟨text, rest, found⟩
    have inside : c ∈ text := splits text read rest found ▸ List.mem_append_left _ member
    exact (plain c inside mark).elim

theorem ne_hexMark_of_reads {k : NumeralClass} {text : List Char} (reads : k.scan.Reads text)
    (decimal : k = .int ∨ k = .float) : ∀ c ∈ text, ¬ (c = 'x' ∨ c = 'X') := by
  intro c member
  rcases decimal with rfl | rfl
  · exact (Numeral.unsigned_of_int reads).ne_hexMark member
  · exact (Numeral.unsigned_of_float reads).ne_hexMark member

/-- A numeral is not read, not even in part, as one of a class that is tried before its own. -/
theorem none_of_earlier {k other : NumeralClass} {text : List Char} (reads : k.scan.Reads text)
    (before : other ∈ k.earlier) : other.scan text = none := by
  cases k with
  | hexFloat => cases before
  | hex =>
    obtain rfl := List.mem_singleton.mp before
    refine none_of_mark (splits_scan .hexFloat) (fun read => Numeral.mark_of_hexFloat) fun c member => ?_
    rcases Numeral.forall_of_hexInt reads c member with digit | letter
    · rintro (rfl | rfl | rfl) <;> revert digit <;> decide
    · rcases letter with rfl | rfl <;> decide
  | float =>
    have plain := ne_hexMark_of_reads reads (.inr rfl)
    rcases List.mem_cons.mp before with rfl | further
    · exact none_of_mark (splits_scan .hexFloat) (fun read => Numeral.mark_of_hexMark) plain
    · obtain rfl := List.mem_singleton.mp further
      exact none_of_mark (splits_scan .hex) (fun read => Numeral.mark_of_hexMark) plain
  | int =>
    have plain := ne_hexMark_of_reads reads (.inl rfl)
    rcases List.mem_cons.mp before with rfl | further
    · exact none_of_mark (splits_scan .hexFloat) (fun read => Numeral.mark_of_hexMark) plain
    · rcases List.mem_cons.mp further with rfl | last
      · exact none_of_mark (splits_scan .hex) (fun read => Numeral.mark_of_hexMark) plain
      · obtain rfl := List.mem_singleton.mp last
        refine none_of_mark (splits_scan .float) (fun read => Numeral.mark_of_float) fun c member => ?_
        have digit := (reads_many1 reads).2 c member
        rintro (rfl | rfl | rfl) <;> cases digit

end NumeralClass

theorem Numeral.scan_of_inClass {n : Numeral} (inClass : n.inClass = true) :
    n.kind.scan n.text.toList = some (n.text.toList, []) := by
  simpa [Numeral.inClass] using inClass

theorem name_of_isIdentifier {n : String} (identifier : isIdentifier n = true) :
    name n.toList = some (n.toList, []) := by
  unfold isIdentifier at identifier
  cases letters : n.toList with
  | nil =>
    rw [letters] at identifier
    cases identifier
  | cons c s =>
    rw [letters] at identifier
    simp only [Bool.and_eq_true, Bool.not_eq_true', List.all_eq_true] at identifier
    obtain ⟨⟨starts, inside⟩, free⟩ := identifier
    have word : s.takeWhile isWordChar = s := List.takeWhile_eq_self_iff.mpr inside
    have nothing : s.dropWhile isWordChar = [] := List.dropWhile_eq_nil_iff.mpr inside
    rw [name, if_pos starts]
    simp only [word, nothing, free]
    rfl

end Syntax

/-! ## Strings -/

namespace Lexeme.QuotedString

theorem scanTail_escape (c : Char) (s : List Char) :
    scanTail '"' false (escape c ++ s) = (scanTail '"' false s).map fun (text, rest) => (escape c ++ text, rest) := by
  have pair (d : Char) (named : d ≠ 'z') (carriage : d ≠ '\r') (feed : d ≠ '\n') :
      scanTail '"' false ('\\' :: d :: s) =
        (scanTail '"' false s).map fun (text, rest) => ('\\' :: d :: text, rest) := by
    rw [scanTail.eq_def]
    simp [scanTail.cons, carriage, feed]
    rfl
  unfold escape
  split
  · exact pair '"' (by decide) (by decide) (by decide)
  split
  · exact pair '\\' (by decide) (by decide) (by decide)
  split
  · exact pair 'n' (by decide) (by decide) (by decide)
  split
  · exact pair 'r' (by decide) (by decide) (by decide)
  · rename_i quote backslash feed carriage
    rw [List.singleton_append, scanTail.eq_def]
    simp [quote, backslash, feed, scanTail.cons]

theorem scanTail_escapes (value s : List Char) :
    scanTail '"' false (value.flatMap escape ++ '"' :: s) = some (value.flatMap escape ++ ['"'], s) := by
  induction value with
  | nil =>
    rw [scanTail.eq_def]
    simp
  | cons c value ih =>
    rw [List.flatMap_cons, List.append_assoc, scanTail_escape, ih, Option.map_some, List.append_assoc]

/-- The literal of some characters is read whole, whatever stands behind it. -/
theorem scan_encode (value s : List Char) : scan (encode value ++ s) = some (encode value, s) := by
  have tail := scanTail_escapes value s
  simp [encode, scan, tail]

theorem decode_escape (c : Char) (s : List Char) : decode (escape c ++ s) = (c :: ·) <$> decode s := by
  have pair (d : Char) (read : readEscape (d :: s) = .ok ([c], s)) :
      decode ('\\' :: d :: s) = (c :: ·) <$> decode s := by
    rw [decode, if_pos rfl]
    split
    · rename_i failed
      rw [read] at failed
      cases failed
    · rename_i found
      rw [read] at found
      cases found
      rfl
  unfold escape
  split
  · subst c
    exact pair '"' rfl
  split
  · subst c
    exact pair '\\' rfl
  split
  · subst c
    exact pair 'n' rfl
  split
  · subst c
    exact pair 'r' rfl
  · rename_i backslash _ _
    rw [List.singleton_append, decode, if_neg backslash]

theorem decode_body_encode (value : List Char) : decode (body (encode value)) = .ok value := by
  have inner : body (encode value) = value.flatMap escape := by simp [body, encode]
  rw [inner]
  induction value with
  | nil => simp [decode]
  | cons c value ih =>
    rw [List.flatMap_cons, decode_escape, ih (by simp [body, encode])]
    rfl

end Lexeme.QuotedString
end LuaLowering
