import LuaLowering.Proofs.Segmentation
/-!
# Numerals in their context

A numeral ends where its class cannot go on: `1` is a numeral in `1end`, in `1..x` and in `1e+y`, but not in `1.5`. When
blanks are put somewhere behind it, it is still the same numeral (`NumeralClass.exists_behind`). `StillReads` and
`StillFails` say this of any scanner, with one rule for each way to build one. A scanner that looks for a second point
needs care, since blanks between two points part them.
-/
namespace LuaLowering

/-! ## Scanners when something else stands behind the text -/

namespace Peg.Scanner
variable {a b : Scanner} {p : Char → Bool} {v z t : List Char}

/-- What the scanner reads from the text alone when `v` stands behind it, it reads when `z` does. -/
def StillReads (scan : Scanner) (v z t : List Char) : Prop :=
  ∀ x s, t = x ++ s → scan (t ++ v) = some (x, s ++ v) → scan (t ++ z) = some (x, s ++ z)

/-- Where the scanner fails when `v` stands behind the text, it fails when `z` does. -/
def StillFails (scan : Scanner) (v z t : List Char) : Prop := scan (t ++ v) = none → scan (t ++ z) = none

theorem stops_behind {s : List Char} (stops : Stops p (s ++ v)) (ends : Stops p z) : Stops p (s ++ z) := by
  cases s with
  | nil => exact ends
  | cons c s => exact stops_cons.mpr (stops_cons.mp stops)

theorem one_of_stops {s : List Char} (stops : Stops p s) : one p s = none := by
  cases s with
  | nil => rfl
  | cons c s => simp [one, stops_cons.mp stops]

theorem literal_singleton (c : Char) : literal [c] = one (· == c) := by
  funext s
  cases s with
  | nil => rfl
  | cons d s =>
    by_cases same : d = c
    · simp [literal, one, same]
    · simp [literal, one, same, Ne.symm same]

theorem many_of_many1 {s x rest : List Char} (found : many1 p s = some (x, rest)) : many p s = some (x, rest) := by
  unfold many1 at found
  split at found
  · cases found
  · exact found

theorem stops_of_many {s x rest : List Char} (found : many p s = some (x, rest)) : Stops p rest := by
  cases found
  exact stops_dropWhile p s

theorem stops_of_many1 {s : List Char} (fails : many1 p s = none) : Stops p s := by
  cases s with
  | nil => exact stops_nil p
  | cons c s =>
    cases isIn : p c with
    | false => exact stops_cons.mpr isIn
    | true => simp [many1, isIn] at fails

theorem stillReads_one : (one p).StillReads v z t := by
  rintro x s rfl found
  obtain ⟨c, rfl, isIn⟩ := reads_one ⟨_, _, found⟩
  simp [one, isIn]

theorem stillFails_one (ends : Stops p z) : (one p).StillFails v z t := by
  intro fails
  cases t with
  | nil => exact one_of_stops ends
  | cons c t =>
    cases isIn : p c with
    | false => exact one_of_stops (stops_cons.mpr isIn)
    | true => simp [one, isIn] at fails

theorem stillReads_many (ends : Stops p z) : (many p).StillReads v z t := by
  rintro x s rfl found
  rw [List.append_assoc]
  exact many_eq_some (reads_many ⟨_, _, found⟩) (stops_behind (stops_of_many found) ends)

theorem stillReads_many1 (ends : Stops p z) : (many1 p).StillReads v z t := by
  rintro x s rfl found
  obtain ⟨some_read, each⟩ := reads_many1 ⟨_, _, found⟩
  rw [List.append_assoc]
  exact many1_eq_some some_read each (stops_behind (stops_of_many (many_of_many1 found)) ends)

theorem stillFails_many1 (ends : Stops p z) : (many1 p).StillFails v z t :=
  fun fails => many1_eq_none (stops_behind (stops_of_many1 fails) ends)

theorem StillReads.seq (first : a.StillReads v z t) (second : ∀ s, b.StillReads v z s) (splits : b.Splits) :
    (seq a b).StillReads v z t := by
  intro x s whole found
  obtain ⟨⟨x, between⟩, front, found⟩ := Option.bind_eq_some_iff.mp found
  obtain ⟨⟨y, final⟩, back, found⟩ := Option.bind_eq_some_iff.mp found
  obtain ⟨rfl, rfl⟩ := Prod.mk.inj (Option.some.inj found)
  have middle : between = y ++ s ++ v := by rw [splits _ _ _ back, List.append_assoc]
  subst middle
  have split : t = x ++ (y ++ s) := by rw [whole, List.append_assoc]
  exact seq_eq_some (first x (y ++ s) split front) (second (y ++ s) y s rfl back)

theorem StillReads.alt (first : a.StillReads v z t) (second : b.StillReads v z t)
    (order : ∀ x s, t = x ++ s → a (t ++ v) = none → b (t ++ v) = some (x, s ++ v) → a (t ++ z) = none) :
    (alt a b).StillReads v z t := by
  intro x s whole found
  unfold Scanner.alt at found
  split at found
  · rename_i none
    rw [alt_of_none (order x s whole none found)]
    exact second x s whole found
  · exact alt_of_some (first x s whole found)

theorem StillReads.opt (first : a.StillReads v z t) (fails : a.StillFails v z t) : (opt a).StillReads v z t := by
  intro x s whole found
  unfold Scanner.opt at found ⊢
  split at found
  · rename_i none
    obtain ⟨rfl, same⟩ := Prod.mk.inj (Option.some.inj found)
    rw [fails none, whole]
    rfl
  · rw [first x s whole found]

theorem StillFails.absent (fails : a.StillFails v z t) : (absent a).StillReads v z t := by
  intro x s whole found
  unfold Scanner.absent at found ⊢
  split at found
  · rename_i none
    obtain ⟨rfl, same⟩ := Prod.mk.inj (Option.some.inj found)
    rw [fails none, whole]
    rfl
  · cases found

theorem seq_assoc (a b c : Scanner) : seq (seq a b) c = seq a (seq b c) := by
  funext s
  cases front : a s with
  | none => simp [seq, front]
  | some found =>
    cases middle : b found.2 with
    | none => simp [seq, front, middle]
    | some found' => cases back : c found'.2 <;> simp [seq, front, middle, back]

theorem StillFails.alt (first : a.StillFails v z t) (second : b.StillFails v z t) : (alt a b).StillFails v z t := by
  intro fails
  cases none : a (t ++ v) with
  | none =>
    rw [alt_of_none none] at fails
    rw [alt_of_none (first none)]
    exact second fails
  | some found =>
    rw [alt_of_some none] at fails
    cases fails

/-- One character decides whether the second scanner is tried. -/
theorem stillFails_one_seq (ends : Stops p z) (second : ∀ c s, t = c :: s → p c = true → b.StillFails v z s) :
    (seq (one p) b).StillFails v z t := by
  intro fails
  cases t with
  | nil => exact seq_eq_none (one_of_stops ends)
  | cons c s =>
    cases isIn : p c with
    | false => exact seq_eq_none (one_of_stops (stops_cons.mpr isIn))
    | true =>
      have read (r : List Char) : one p (c :: s ++ r) = some ([c], s ++ r) := by simp [one, isIn]
      refine seq_eq_none_of_some (read z) (second c s rfl isIn ?_)
      cases back : b (s ++ v) with
      | none => rfl
      | some found =>
        rw [seq_eq_some (read v) back] at fails
        cases fails

theorem stillFails_opt_seq (ends : Stops p z) (stuck : b z = none) (second : ∀ s, b.StillFails v z s) :
    (seq (opt (one p)) b).StillFails v z t := by
  have passes {r : List Char} (stops : Stops p r) : seq (opt (one p)) b r = b r := by
    rw [seq, opt, one_of_stops stops]
    cases found : b r <;> simp [found]
  intro fails
  cases t with
  | nil => exact (passes ends).trans stuck
  | cons c s =>
    cases isIn : p c with
    | false =>
      have stops (r : List Char) : Stops p (c :: s ++ r) := stops_cons.mpr isIn
      rw [passes (stops v)] at fails
      exact (passes (stops z)).trans (second (c :: s) fails)
    | true =>
      have read (r : List Char) : opt (one p) (c :: s ++ r) = some ([c], s ++ r) := by simp [opt, one, isIn]
      refine seq_eq_none_of_some (read z) (second s ?_)
      cases back : b (s ++ v) with
      | none => rfl
      | some found =>
        rw [seq_eq_some (read v) back] at fails
        cases fails

theorem StillFails.seq_opt (first : a.StillFails v z t) : (seq a (opt b)).StillFails v z t := by
  intro fails
  refine seq_eq_none (first ?_)
  cases front : a (t ++ v) with
  | none => rfl
  | some found =>
    cases back : b found.2 <;> simp [seq, opt, front, back] at fails

/-- Where the first scanner goes over the end of the text, the second one is not tried in the text. -/
theorem stillFails_many1_seq (ends : Stops p z) (stuck : b z = none)
    (second : ∀ x s, t = x ++ s → (∀ c ∈ x, p c = true) → b.StillFails v z s) :
    (seq (many1 p) b).StillFails v z t := by
  intro fails
  have split := (List.takeWhile_append_dropWhile (p := p) (l := t)).symm
  have each : ∀ c ∈ t.takeWhile p, p c = true := fun c => List.mem_takeWhile_imp
  have stops := stops_dropWhile p t
  generalize t.takeWhile p = x at split each
  generalize t.dropWhile p = s at split stops
  have stops' : Stops p (s ++ z) := stops_behind (v := []) (by rwa [List.append_nil]) ends
  rw [split, List.append_assoc] at fails ⊢
  by_cases none : x = []
  · rw [none]
    exact seq_eq_none (many1_eq_none stops')
  · refine seq_eq_none_of_some (many1_eq_some none each stops') ?_
    cases s with
    | nil => exact stuck
    | cons c s =>
      have stopsHere : Stops p (c :: s ++ v) := stops_cons.mpr (stops_cons.mp stops)
      refine second x (c :: s) split each ?_
      cases back : b (c :: s ++ v) with
      | none => rfl
      | some found =>
        rw [seq_eq_some (many1_eq_some none each stopsHere) back] at fails
        cases fails

end Peg.Scanner

/-! ## Numerals -/

namespace Lexeme
open Peg Peg.Scanner

theorem outside_of_isBlank {p : Char → Bool} {c : Char} (blank : isBlank c = true)
    (outside : ([' ', '\t', '\r', '\n', '\x0b', '\x0c'].all fun d => !p d) = true) : p c = false := by
  have member : c ∈ [' ', '\t', '\r', '\n', '\x0b', '\x0c'] := by
    simpa [isBlank, or_assoc] using blank
  simpa using List.all_eq_true.mp outside c member

namespace Numeral
variable {p : Char → Bool} {behind : Scanner} {letter : Char} {digits tail v z t : List Char}

theorem point_none (stops : Stops (· == '.') tail) : point tail = none := by
  rw [point, literal_singleton]
  exact one_of_stops stops

theorem stops_point_of_digits (dot : p '.' = false) (each : ∀ c ∈ digits, p c = true) (stops : Stops (· == '.') tail) :
    Stops (· == '.') (digits ++ tail) := by
  cases digits with
  | nil => exact stops
  | cons c digits =>
    have digit := each c List.mem_cons_self
    exact stops_cons.mpr (beq_eq_false_iff_ne.mpr (ne_of_apply_ne p (by simp [digit, dot])))

/-- Digits on at least one side of a point. What is tried behind a point that has digits before it differs. -/
def sides (p : Char → Bool) (behind : Scanner) : Scanner :=
  alt (seq (many1 p) (seq point behind)) (seq point (many1 p))

/-- A point and perhaps an exponent, or an exponent alone. -/
def fractional (p : Char → Bool) (behind : Scanner) (letter : Char) : Scanner :=
  alt (seq (sides p behind) (opt (exponent letter))) (seq (many1 p) (exponent letter))

theorem float_eq_fractional :
    float = fractional Char.isDigit (seq (absent point) (many Char.isDigit)) 'e' := by
  rw [float, pointed, all_pair, all_pair, all_pair, all_cons, all_cons, all_pair]
  rfl

theorem hexFloat_eq_fractional :
    hexFloat = seq hexMark (fractional Text.isHexDigit (many Text.isHexDigit) 'p') := by
  rw [hexFloat, hexPointed, all_pair, all_pair, all_pair, all_pair, all_cons, all_pair]
  rfl

theorem sides_eq_none (dot : p '.' = false) (some_digit : digits ≠ []) (each : ∀ c ∈ digits, p c = true)
    (stops : Stops p tail) (noPoint : Stops (· == '.') tail) : sides p behind (digits ++ tail) = none := by
  have first : seq (many1 p) (seq point behind) (digits ++ tail) = none :=
    seq_eq_none_of_some (many1_eq_some some_digit each stops) (seq_eq_none (point_none noPoint))
  rw [sides, alt_of_none first]
  exact seq_eq_none (point_none (stops_point_of_digits dot each noPoint))

theorem splits_fractional (splits : behind.Splits) : (fractional p behind letter).Splits := by
  have splitsSides : (sides p behind).Splits :=
    ((splits_many1 p).seq ((splits_literal _).seq splits)).alt ((splits_literal _).seq (splits_many1 p))
  exact (splitsSides.seq (splits_exponent letter).opt).alt ((splits_many1 p).seq (splits_exponent letter))

theorem stillReads_hexMark : hexMark.StillReads v z t := by
  rw [hexMark, all_pair, literal_singleton]
  exact stillReads_one.seq (fun t => stillReads_one) (splits_one _)

theorem stillReads_sides (dot : p '.' = false) (ends : Stops p z) (splits : behind.Splits)
    (reads : ∀ t, behind.StillReads v z t) : (sides p behind).StillReads v z t := by
  have point (t : List Char) : Numeral.point.StillReads v z t := by
    rw [Numeral.point, literal_singleton]
    exact stillReads_one
  have first := (stillReads_many1 (v := v) (t := t) ends).seq (fun t => (point t).seq reads splits)
    ((splits_literal _).seq splits)
  refine first.alt ((point t).seq (fun t => stillReads_many1 ends) (splits_many1 p)) ?_
  -- the second form begins with a point, and the first does not
  rintro x s rfl - found
  obtain ⟨mark, ds, rfl, isPoint, -⟩ := reads_seq ⟨_, _, found⟩
  rw [reads_literal isPoint]
  exact seq_eq_none (many1_eq_none (stops_cons.mpr dot))

/-! ### Blanks behind a numeral -/

variable (blank : ∀ c ∈ z.head?, isBlank c = true)
include blank

theorem stops_blank (outside : ([' ', '\t', '\r', '\n', '\x0b', '\x0c'].all fun d => !p d) = true) : Stops p z :=
  fun c member => outside_of_isBlank (blank c member) outside

theorem stillReads_exponent : (exponent letter).StillReads v z t := by
  have number (t : List Char) : Numeral.digits.StillReads v z t := stillReads_many1 (stops_blank blank rfl)
  have signed (t : List Char) : (opt (one fun c => c == '+' || c == '-')).StillReads v z t :=
    stillReads_one.opt (stillFails_one (stops_blank blank rfl))
  have splits : Numeral.digits.Splits := splits_many1 _
  rw [exponent, all_cons, all_pair]
  exact stillReads_one.seq (fun t => (signed t).seq number splits) ((splits_one _).opt.seq splits)

theorem stillFails_exponent (ends : Stops (·.toLower == letter) z) : (exponent letter).StillFails v z t := by
  have stops : Stops Char.isDigit z := stops_blank blank rfl
  rw [exponent, all_cons, all_pair]
  refine stillFails_one_seq ends fun c s _ _ => ?_
  exact stillFails_opt_seq (stops_blank blank rfl) (many1_eq_none stops) fun s => stillFails_many1 stops

theorem stillFails_sides (ends : Stops p z)
    (fails : ∀ ds s, (∀ c ∈ ds, p c = true) → t = ds ++ '.' :: s → behind.StillFails v z s) :
    (sides p behind).StillFails v z t := by
  have noPoint : Stops (· == '.') z := stops_blank blank rfl
  refine StillFails.alt ?_ ?_
  · refine stillFails_many1_seq ends (seq_eq_none (point_none noPoint)) fun ds s split each => ?_
    rw [point, literal_singleton]
    refine stillFails_one_seq noPoint fun c r here isPoint => ?_
    obtain rfl : c = '.' := by simpa using isPoint
    exact fails ds r each (here ▸ split)
  · rw [point, literal_singleton]
    exact stillFails_one_seq noPoint fun c s _ _ => stillFails_many1 ends

theorem stillReads_fractional (dot : p '.' = false) (ends : Stops p z) (marks : Stops (·.toLower == letter) z)
    (notPoint : letter ≠ '.') (splits : behind.Splits) (reads : ∀ t, behind.StillReads v z t) :
    (fractional p behind letter).StillReads v z t := by
  have marked (t : List Char) : (exponent letter).StillReads v z t := stillReads_exponent blank
  have optional (t : List Char) := (marked t).opt (stillFails_exponent blank marks)
  refine ((stillReads_sides dot ends splits reads).seq optional (splits_exponent letter).opt).alt
    ((stillReads_many1 ends).seq marked (splits_exponent letter)) ?_
  -- a mark follows the digits of the second form, and a point those of the first
  rintro x s rfl - found
  obtain ⟨⟨ds, between⟩, front, found⟩ := Option.bind_eq_some_iff.mp found
  obtain ⟨⟨e, final⟩, back, found⟩ := Option.bind_eq_some_iff.mp found
  obtain ⟨rfl, rfl⟩ := Prod.mk.inj (Option.some.inj found)
  obtain ⟨some_digit, each⟩ := reads_many1 ⟨_, _, front⟩
  have stops := stops_of_many (many_of_many1 front)
  rw [splits_exponent letter _ _ _ back] at stops
  obtain ⟨mark, more, rfl, isMark, -⟩ := reads_all_cons ⟨_, _, back⟩
  obtain ⟨c, rfl, small⟩ := reads_one isMark
  have noPoint : (c == '.') = false := by
    rw [beq_eq_false_iff_ne]
    rintro rfl
    exact notPoint (beq_iff_eq.mp small).symm
  refine seq_eq_none ?_
  rw [List.append_assoc, List.append_assoc]
  exact sides_eq_none dot some_digit each (stops_cons.mpr (stops_cons.mp stops)) (stops_cons.mpr noPoint)

theorem stillFails_fractional (ends : Stops p z) (marks : Stops (·.toLower == letter) z)
    (fails : ∀ ds s, (∀ c ∈ ds, p c = true) → t = ds ++ '.' :: s → behind.StillFails v z s) :
    (fractional p behind letter).StillFails v z t := by
  refine (stillFails_sides blank ends fails).seq_opt.alt ?_
  refine stillFails_many1_seq ends ?_ fun _ _ _ _ => stillFails_exponent blank marks
  rw [exponent, all_cons]
  exact seq_eq_none (one_of_stops marks)

/-- The mark of a hexadecimal numeral is followed by what is tried behind it. -/
theorem stillFails_hexMark_seq {b : Scanner} (second : ∀ s, b.StillFails v z s) : (seq hexMark b).StillFails v z t := by
  have same : seq hexMark b = seq (one (· == '0')) (seq (one (·.toLower == 'x')) b) := by
    rw [hexMark, all_pair, literal_singleton, seq_assoc]
  rw [same]
  exact stillFails_one_seq (stops_blank blank rfl) fun _ _ _ _ =>
    stillFails_one_seq (stops_blank blank rfl) fun _ s _ _ => second s

end Numeral
end Lexeme

namespace Syntax.NumeralClass
open Peg Peg.Scanner Lexeme Lexeme.Numeral
variable {v z t : List Char}

theorem stillReads (k : NumeralClass) (blank : ∀ c ∈ z.head?, isBlank c = true) : k.scan.StillReads v z t := by
  have point (t : List Char) : point.StillFails v z t := by
    rw [Numeral.point, literal_singleton]
    exact stillFails_one (stops_blank blank rfl)
  cases k with
  | int => exact stillReads_many1 (stops_blank blank rfl)
  | hex =>
    rw [scan, hexInt, all_pair]
    exact stillReads_hexMark.seq (fun t => stillReads_many1 (stops_blank blank rfl)) (splits_many1 _)
  | float =>
    rw [scan, float_eq_fractional]
    exact stillReads_fractional blank rfl (stops_blank blank rfl) (stops_blank blank rfl) (by decide)
      ((splits_absent _).seq (splits_many _)) fun t =>
        (point t).absent.seq (fun t => stillReads_many (stops_blank blank rfl)) (splits_many _)
  | hexFloat =>
    rw [scan, hexFloat_eq_fractional]
    refine stillReads_hexMark.seq (fun t => ?_) (splits_fractional (splits_many _))
    exact stillReads_fractional blank rfl (stops_blank blank rfl) (stops_blank blank rfl) (by decide) (splits_many _)
      fun t => stillReads_many (stops_blank blank rfl)

/-- A float is not read where digits and a point are followed by another point. -/
theorem stillFails (k : NumeralClass) (blank : ∀ c ∈ z.head?, isBlank c = true)
    (single : k = .float → ∀ ds, (∀ c ∈ ds, c.isDigit = true) → t = ds ++ ['.'] → Stops (· == '.') v) :
    k.scan.StillFails v z t := by
  have digits (s : List Char) : (many1 Char.isDigit).StillFails v z s := stillFails_many1 (stops_blank blank rfl)
  cases k with
  | int => exact digits t
  | hex =>
    rw [scan, hexInt, all_pair]
    exact stillFails_hexMark_seq blank fun s => stillFails_many1 (stops_blank blank rfl)
  | float =>
    rw [scan, float_eq_fractional]
    refine stillFails_fractional blank (stops_blank blank rfl) (stops_blank blank rfl) fun ds s each split => ?_
    intro fails
    have second : absent Numeral.point (s ++ v) = none := by
      cases found : absent Numeral.point (s ++ v) with
      | none => rfl
      | some pair => simp [Scanner.seq, found, many] at fails
    cases s with
    | nil =>
      have none := point_none (single rfl ds each split)
      simp [absent, none] at second
    | cons c s =>
      refine seq_eq_none ?_
      rw [absent, Numeral.point, literal_singleton] at second ⊢
      cases isPoint : c == '.' <;> simp [one, isPoint] at second ⊢
  | hexFloat =>
    rw [scan, hexFloat_eq_fractional]
    refine stillFails_hexMark_seq blank fun s => ?_
    exact stillFails_fractional blank (stops_blank blank rfl) (stops_blank blank rfl) fun _ _ _ _ fails =>
      absurd fails (by simp [many])

/-- The first class that reads a numeral. -/
theorem exists_of_numeral {s x rest : List Char} (found : numeral s = some (x, rest)) :
    ∃ k : NumeralClass, k.scan s = some (x, rest) ∧ ∀ other ∈ k.earlier, other.scan s = none := by
  unfold numeral Scanner.alt at found
  split at found
  · rename_i first
    split at found
    · rename_i second
      split at found
      · rename_i third
        exact ⟨.int, found, by simpa [earlier] using ⟨first, second, third⟩⟩
      · exact ⟨.float, found, by simpa [earlier] using ⟨first, second⟩⟩
    · exact ⟨.hex, found, fun other before => (List.mem_singleton.mp before) ▸ first⟩
  · exact ⟨.hexFloat, found, by simp [earlier]⟩

/-- A numeral is read where it was when blanks have been put behind it. A single point is not followed by another. -/
theorem exists_behind {x s : List Char} (blank : ∀ c ∈ z.head?, isBlank c = true)
    (reads : numeral (x ++ (s ++ v)) = some (x, s ++ v)) (single : s = ['.'] → Stops (· == '.') v) :
    ∃ k : NumeralClass, ∀ r, r = v ∨ r = z →
      k.scan (x ++ (s ++ r)) = some (x, s ++ r) ∧ ∀ other ∈ k.earlier, other.scan (x ++ (s ++ r)) = none := by
  obtain ⟨k, found, before⟩ := exists_of_numeral reads
  refine ⟨k, ?_⟩
  rintro r (rfl | rfl)
  · exact ⟨found, before⟩
  rw [← List.append_assoc] at found
  refine ⟨?_, fun other earlier => ?_⟩
  · rw [← List.append_assoc]
    exact k.stillReads blank x s rfl found
  have fails := before other earlier
  rw [← List.append_assoc] at fails ⊢
  refine other.stillFails blank ?_ fails
  rintro rfl ds each split
  -- only a whole number is tried after a float, so it is the digits
  obtain rfl : k = .int := by cases k <;> simp_all [NumeralClass.earlier]
  refine single ?_
  obtain ⟨some_digit, digits⟩ := reads_many1 ⟨_, _, found⟩
  have stops := stops_of_many (many_of_many1 found)
  rcases List.append_eq_append_iff.mp split with ⟨y, rfl, rfl⟩ | ⟨y, rfl, last⟩
  · cases y with
    | nil => rfl
    | cons c y =>
      have digit := each c (by simp)
      rw [stops_cons.mp stops] at digit
      cases digit
  · cases y with
    | nil => exact last.symm
    | cons c y =>
      have digit := digits c (by simp)
      obtain ⟨rfl, -⟩ := List.cons.inj last
      cases digit

/-- A numeral that begins with a point goes on with a digit. -/
theorem digit_of_point {k : NumeralClass} {x : List Char} (reads : k.scan.Reads ('.' :: x)) :
    ∃ d y, x = d :: y ∧ d.isDigit = true := by
  have decimal (unsigned : Decimal.Unsigned ('.' :: x)) : ∃ d y, x = d :: y ∧ d.isDigit = true := by
    generalize whole : '.' :: x = text at unsigned
    cases unsigned with
    | @whole ds tail written ending =>
      obtain ⟨some_digit, all_digits⟩ := written
      cases ds with
      | nil => exact absurd rfl some_digit
      | cons d ds =>
        cases whole
        cases all_digits '.' List.mem_cons_self
    | @point ds part tail written ending =>
      cases ds with
      | cons d ds =>
        cases whole
        cases written.2 '.' List.mem_cons_self
      | nil =>
        cases whole
        cases part with
        | nil => exact absurd rfl written.1
        | cons d part => exact ⟨d, part ++ tail, rfl, written.2 d List.mem_cons_self⟩
  have hexadecimal {parts : List Scanner} (marked : (all (hexMark :: parts)).Reads ('.' :: x)) : False := by
    obtain ⟨mark, rest, whole, isMark, -⟩ := reads_all_cons marked
    obtain ⟨zero, letter, rfl, isZero, -⟩ := reads_all_cons isMark
    rw [reads_literal isZero] at whole
    cases whole
  cases k with
  | int => exact decimal (unsigned_of_int reads)
  | float => exact decimal (unsigned_of_float reads)
  | hex => exact (hexadecimal reads).elim
  | hexFloat => exact (hexadecimal reads).elim

end Syntax.NumeralClass
end LuaLowering
