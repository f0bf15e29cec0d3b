import LuaLowering.Proofs.Spacing
import LuaLowering.Syntax.OfTree
/-!
# Escape sequences

What the text between two quotes stands for, said without reading it from left to right: it falls into parts, each of
which stands for some characters. `LuaPart` has the parts of Lua 5.3. `LaxPart` has four more that are read as well:
a sign among the hexadecimal digits of a byte or of a scalar value, a byte of one digit at the end of the string, and
a scalar value whose brace is not closed before the end of the string. A string literal has a value exactly if its
text falls into parts of both kinds, and the value is what they stand for (`stringOf_quoted_iff`).
-/
namespace LuaLowering
namespace Lexeme.QuotedString
open Peg Text

/-! ## Parts -/

/-- What a letter or a mark behind a backslash stands for. -/
def letters : List (Char × Char) :=
  [('a', '\x07'), ('b', '\x08'), ('f', '\x0c'), ('n', '\n'), ('r', '\r'), ('t', '\t'), ('v', '\x0b'), ('\\', '\\'),
    ('"', '"'), ('\'', '\'')]

def lineBreaks : List (List Char) := [['\n'], ['\r'], ['\r', '\n'], ['\n', '\r']]

/-- At least one hexadecimal digit, and nothing else. -/
structure HexDigits (digits : List Char) : Prop where
  some_digit : digits ≠ []
  each : ∀ c ∈ digits, isHexDigit c = true

/-- In front of `rest`, a text that Lua takes for some characters. Where a part can go on, it does. -/
inductive LuaPart (rest : List Char) : (text value : List Char) → Prop where
  | ordinary {c : Char} (ordinary : c ≠ '\\') : LuaPart rest [c] [c]
  | letter {c d : Char} (listed : (c, d) ∈ letters) : LuaPart rest ['\\', c] [d]
  | lineBreak {ends : List Char} (listed : ends ∈ lineBreaks)
      (longest : ∀ longer ∈ lineBreaks, longer <+: ends ++ rest → longer.length ≤ ends.length) :
      LuaPart rest ('\\' :: ends) ['\n']
  | gap {blanks : List Char} (blank : ∀ c ∈ blanks, isBlank c = true) (longest : Stops isBlank rest) :
      LuaPart rest ('\\' :: 'z' :: blanks) []
  | byte {a b c : Char} (first : isHexDigit a = true) (second : isHexDigit b = true)
      (number : c.toNat = natOfDigits 16 [a, b]) : LuaPart rest ['\\', 'x', a, b] [c]
  | decimal {digits : List Char} {c : Char} (some_digit : digits ≠ []) (each : ∀ d ∈ digits, d.isDigit = true)
      (atMost : digits.length ≤ 3) (longest : digits.length = 3 ∨ Stops Char.isDigit rest)
      (small : natOfDigits 10 digits ≤ 255) (number : c.toNat = natOfDigits 10 digits) :
      LuaPart rest ('\\' :: digits) [c]
  | scalar {digits : List Char} {c : Char} (hex : HexDigits digits) (number : c.toNat = natOfDigits 16 digits) :
      LuaPart rest ('\\' :: 'u' :: '\x7b' :: (digits ++ ['\x7d'])) [c]

/-- In front of `rest`, a text that Lua refuses and that is read nonetheless. -/
inductive LaxPart (rest : List Char) : (text value : List Char) → Prop where
  | signedByte {a c : Char} (digit : isHexDigit a = true) (number : c.toNat = natOfDigits 16 [a]) :
      LaxPart rest ['\\', 'x', '+', a] [c]
  | shortByte {a c : Char} (last : rest = []) (digit : isHexDigit a = true) (number : c.toNat = natOfDigits 16 [a]) :
      LaxPart rest ['\\', 'x', a] [c]
  | signedScalar {digits : List Char} {c : Char} (hex : HexDigits digits) (number : c.toNat = natOfDigits 16 digits) :
      LaxPart rest ('\\' :: 'u' :: '\x7b' :: '+' :: (digits ++ ['\x7d'])) [c]
  | openScalar {sign digits : List Char} {c : Char} (last : rest = []) (signed : sign = [] ∨ sign = ['+'])
      (hex : HexDigits digits) (number : c.toNat = natOfDigits 16 digits) :
      LaxPart rest ('\\' :: 'u' :: '\x7b' :: (sign ++ digits)) [c]

/-- In front of `rest`, a text that is read as some characters. -/
def Part (rest text value : List Char) : Prop := LuaPart rest text value ∨ LaxPart rest text value

/-- The text falls into parts, and the value is what these stand for, one after the other. -/
inductive Spells (part : List Char → List Char → List Char → Prop) : (text value : List Char) → Prop where
  | nil : Spells part [] []
  | cons {rest text value more : List Char} (first : part rest text value) (later : Spells part rest more) :
      Spells part (text ++ rest) (value ++ more)

theorem Spells.mono {part part' : List Char → List Char → List Char → Prop} {text value : List Char}
    (spells : Spells part text value) (weaker : ∀ r t v, part r t v → part' r t v) : Spells part' text value := by
  induction spells with
  | nil => exact .nil
  | cons first _ ih => exact .cons (weaker _ _ _ first) ih

/-! ## Numbers -/

theorem hexValue?_eq_some_iff {text : List Char} {n : Nat} : hexValue? text = some n ↔
    ∃ sign digits, (sign = [] ∨ sign = ['+']) ∧ text = sign ++ digits ∧ HexDigits digits ∧
      natOfDigits 16 digits = n := by
  have plain (digits : List Char) :
      (if digits.isEmpty || !digits.all isHexDigit then none else some (natOfDigits 16 digits)) = some n ↔
        HexDigits digits ∧ natOfDigits 16 digits = n := by
    split
    · rename_i wrong
      simp only [Bool.or_eq_true, List.isEmpty_iff, Bool.not_eq_true', List.all_eq_false] at wrong
      constructor
      · intro found
        cases found
      · rintro ⟨hex, -⟩
        rcases wrong with empty | ⟨c, member, other⟩
        · exact absurd empty hex.some_digit
        · exact absurd (hex.each c member) other
    · rename_i right
      simp only [Bool.or_eq_true, List.isEmpty_iff, Bool.not_eq_true', List.all_eq_false, not_or, not_exists, not_and,
        Bool.not_eq_false, Bool.not_eq_true] at right
      rw [Option.some.injEq]
      exact ⟨fun same => ⟨⟨right.1, right.2⟩, same⟩, And.right⟩
  unfold hexValue?
  split
  · rename_i digits
    rw [plain]
    constructor
    · rintro ⟨hex, rfl⟩
      exact ⟨['+'], digits, .inr rfl, rfl, hex, rfl⟩
    · rintro ⟨_, digits', rfl | rfl, same, hex, rfl⟩
      · cases same
        exact absurd (hex.each '+' (by simp)) (by decide)
      · cases same
        exact ⟨hex, rfl⟩
  · rename_i unsigned
    rw [plain]
    constructor
    · rintro ⟨hex, rfl⟩
      exact ⟨[], text, .inl rfl, rfl, hex, rfl⟩
    · rintro ⟨_, digits', rfl | rfl, rfl, hex, rfl⟩
      · exact ⟨hex, rfl⟩
      · exact (unsigned digits' rfl).elim

theorem scalar?_eq_some_iff {n : Nat} {c : Char} : scalar? n = some c ↔ c.toNat = n := by
  unfold scalar?
  constructor
  · intro found
    by_cases valid : n.isValidChar
    · rw [dif_pos valid] at found
      cases found
      rfl
    · rw [dif_neg valid] at found
      cases found
  · rintro rfl
    have valid : c.toNat.isValidChar := c.valid
    rw [dif_pos valid]
    rfl

theorem toNat_ofNat {n : Nat} (small : n ≤ 255) : (Char.ofNat n).toNat = n := by
  have valid : n.isValidChar := .inl (by omega)
  rw [Char.ofNat, dif_pos valid]
  rfl

theorem digitValue_lt {c : Char} (digit : isHexDigit c = true) : digitValue c < 16 := by
  simp only [isHexDigit, Char.isDigit, Bool.or_eq_true, Bool.and_eq_true, decide_eq_true_eq, Char.le_def,
    UInt32.le_iff_toNat_le, ge_iff_le] at digit
  simp only [digitValue, Char.isDigit, Bool.and_eq_true, decide_eq_true_eq, Char.le_def, UInt32.le_iff_toNat_le,
    ge_iff_le, Char.toNat]
  simp only [Char.reduceVal, UInt32.reduceToNat] at digit ⊢
  split
  · omega
  · split
    · omega
    · omega

/-- Two hexadecimal digits make a byte. -/
theorem natOfDigits_le_255 {digits : List Char} (hex : HexDigits digits) (most : digits.length ≤ 2) :
    natOfDigits 16 digits ≤ 255 := by
  rcases digits with _ | ⟨a, _ | ⟨b, _ | ⟨c, more⟩⟩⟩
  · exact absurd rfl hex.some_digit
  · have first := digitValue_lt (hex.each a (by simp))
    have value : natOfDigits 16 [a] = digitValue a := by simp [natOfDigits]
    omega
  · have first := digitValue_lt (hex.each a (by simp))
    have second := digitValue_lt (hex.each b (by simp))
    have value : natOfDigits 16 [a, b] = 16 * digitValue a + digitValue b := by simp [natOfDigits]
    omega
  · simp at most

/-! ## Escapes that write a number -/

theorem readByte_part {s value rest : List Char} (read : readByte s = .ok (value, rest)) :
    ∃ text, s = text ++ rest ∧ Part rest ('\\' :: 'x' :: text) value := by
  unfold readByte at read
  split at read
  · rename_i n found
    cases read
    obtain ⟨sign, digits, signed, taken, hex, rfl⟩ := hexValue?_eq_some_iff.mp found
    refine ⟨s.take 2, (List.take_append_drop 2 s).symm, ?_⟩
    have most : (sign ++ digits).length ≤ 2 := taken ▸ List.length_take_le 2 s
    have number := toNat_ofNat (natOfDigits_le_255 hex (by rw [List.length_append] at most; omega))
    rw [taken]
    rcases digits with _ | ⟨a, _ | ⟨b, _ | _⟩⟩
    · exact absurd rfl hex.some_digit
    · have first := hex.each a (by simp)
      rcases signed with rfl | rfl
      · -- two characters would have been taken, had there been more than one
        have last : s.drop 2 = [] := by
          have length := congrArg List.length taken
          simp only [List.length_take, List.nil_append, List.length_cons, List.length_nil] at length
          exact List.drop_eq_nil_of_le (by omega)
        exact .inr (.shortByte last first number)
      · exact .inr (.signedByte first number)
    · rcases signed with rfl | rfl
      · exact .inl (.byte (hex.each a (by simp)) (hex.each b (by simp)) number)
      · simp at most
    · simp only [List.length_append, List.length_cons] at most
      omega
  · cases read

theorem readByte_of_hexValue? {s : List Char} {c : Char} (found : hexValue? (s.take 2) = some c.toNat) :
    readByte s = .ok ([c], s.drop 2) := by
  rw [readByte, found]
  simp only [Char.ofNat_toNat]

/-- A closing brace is no digit and no sign. -/
theorem brace_free {sign digits : List Char} (signed : sign = [] ∨ sign = ['+']) (hex : HexDigits digits) :
    ∀ c ∈ sign ++ digits, (c != '\x7d') = true := by
  intro c member
  rw [bne_iff_ne]
  rintro rfl
  rcases List.mem_append.mp member with inSign | inDigits
  · rcases signed with rfl | rfl
    · cases inSign
    · simp at inSign
  · exact absurd (hex.each _ inDigits) (by decide)

theorem readScalar_part {s value rest : List Char} (read : readScalar s = .ok (value, rest)) :
    ∃ text, s = text ++ rest ∧ Part rest ('\\' :: 'u' :: text) value := by
  unfold readScalar at read
  split at read
  · rename_i s
    split at read
    · rename_i c found
      cases read
      obtain ⟨n, value, found⟩ := Option.bind_eq_some_iff.mp found
      obtain ⟨sign, digits, signed, taken, hex, rfl⟩ := hexValue?_eq_some_iff.mp value
      have number := scalar?_eq_some_iff.mp found
      have whole : s = (sign ++ digits) ++ s.dropWhile (· != '\x7d') := by
        rw [← taken, List.takeWhile_append_dropWhile]
      cases behind : s.dropWhile (· != '\x7d') with
      | nil =>
        rw [behind] at whole
        refine ⟨'\x7b' :: (sign ++ digits), by simp [whole], .inr (.openScalar rfl signed hex number)⟩
      | cons d behind' =>
        have closes : d = '\x7d' := by
          have stops := stops_dropWhile (· != '\x7d') s
          rw [behind, stops_cons] at stops
          simpa using stops
        subst closes
        rw [behind] at whole
        refine ⟨'\x7b' :: (sign ++ digits ++ ['\x7d']), by simp [whole], ?_⟩
        rcases signed with rfl | rfl
        · exact .inl (.scalar hex number)
        · exact .inr (.signedScalar hex number)
    · cases read
  · cases read

theorem scalar?_of_hexDigits {sign digits : List Char} {c : Char} (signed : sign = [] ∨ sign = ['+'])
    (hex : HexDigits digits) (number : c.toNat = natOfDigits 16 digits) :
    (hexValue? (sign ++ digits)).bind scalar? = some c := by
  have value : hexValue? (sign ++ digits) = some (natOfDigits 16 digits) :=
    hexValue?_eq_some_iff.mpr ⟨sign, digits, signed, rfl, hex, rfl⟩
  rw [value, Option.bind_some]
  exact scalar?_eq_some_iff.mpr number

theorem readScalar_closed (rest : List Char) {sign digits : List Char} {c : Char} (signed : sign = [] ∨ sign = ['+'])
    (hex : HexDigits digits) (number : c.toNat = natOfDigits 16 digits) :
    readScalar ('\x7b' :: (sign ++ digits ++ '\x7d' :: rest)) = .ok ([c], rest) := by
  have free := brace_free signed hex
  have found := scalar?_of_hexDigits signed hex number
  rw [readScalar, List.takeWhile_append_of_pos free, List.dropWhile_append_of_pos free]
  simp [found]

theorem readScalar_open {sign digits : List Char} {c : Char} (signed : sign = [] ∨ sign = ['+'])
    (hex : HexDigits digits) (number : c.toNat = natOfDigits 16 digits) :
    readScalar ('\x7b' :: (sign ++ digits)) = .ok ([c], []) := by
  have free := brace_free signed hex
  have found := scalar?_of_hexDigits signed hex number
  rw [readScalar, List.takeWhile_eq_self_iff.mpr free, List.dropWhile_eq_nil_iff.mpr free, found]
  rfl

/-- At most `k` characters of a class, and as many as there are. -/
theorem takeWhile_take (p : Char → Bool) (s : List Char) (k : Nat) : ∃ rest, s = (s.take k).takeWhile p ++ rest ∧
    (((s.take k).takeWhile p).length = k ∨ Stops p rest) ∧ ((s.take k).takeWhile p).length ≤ k := by
  induction s generalizing k with
  | nil => exact ⟨[], by simp, .inr (stops_nil p), by simp⟩
  | cons c s ih =>
    cases k with
    | zero => exact ⟨c :: s, by simp, .inl (by simp), by simp⟩
    | succ k =>
      cases inClass : p c with
      | false => exact ⟨c :: s, by simp [inClass], .inr (stops_cons.mpr inClass), by simp [inClass]⟩
      | true =>
        obtain ⟨rest, whole, longest, most⟩ := ih k
        rw [List.take_succ_cons, List.takeWhile_cons, if_pos inClass]
        exact ⟨rest, by rw [List.cons_append, ← whole], longest.imp (congrArg (· + 1)) id, Nat.succ_le_succ most⟩

theorem takeWhile_take_append {p : Char → Bool} {more rest : List Char} {k : Nat} (each : ∀ c ∈ more, p c = true)
    (most : more.length ≤ k) (longest : more.length = k ∨ Stops p rest) :
    ((more ++ rest).take k).takeWhile p = more := by
  induction more generalizing k with
  | nil =>
    rw [List.nil_append]
    rcases longest with none | stops
    · simp [← none]
    · cases rest with
      | nil => simp
      | cons c rest => cases k <;> simp [stops_cons.mp stops]
  | cons c more ih =>
    cases k with
    | zero => simp at most
    | succ k =>
      obtain ⟨here, later⟩ := List.forall_mem_cons.mp each
      have behind := ih later (Nat.le_of_succ_le_succ most) (longest.imp (Nat.succ.inj ·) id)
      rw [List.cons_append, List.take_succ_cons, List.takeWhile_cons, if_pos here, behind]

theorem readDecimal_part {first : Char} {s value rest : List Char} (digit : first.isDigit = true)
    (read : readDecimal first s = .ok (value, rest)) :
    ∃ text, s = text ++ rest ∧ Part rest ('\\' :: first :: text) value := by
  obtain ⟨behind, whole, longest, most⟩ := takeWhile_take Char.isDigit s 2
  simp only [readDecimal] at read
  have each : ∀ c ∈ (s.take 2).takeWhile Char.isDigit, c.isDigit = true := fun c => List.mem_takeWhile_imp
  generalize (s.take 2).takeWhile Char.isDigit = more at read whole longest most each
  subst whole
  split at read
  · rename_i small
    cases read
    rw [List.drop_left]
    have digits : ∀ d ∈ first :: more, d.isDigit = true := List.forall_mem_cons.mpr ⟨digit, each⟩
    refine ⟨more, rfl, .inl (.decimal (by simp) digits ?_ ?_ small (toNat_ofNat small))⟩
    · exact Nat.succ_le_succ most
    · exact longest.imp (congrArg (· + 1)) id
  · cases read

theorem readDecimal_of_digits {first c : Char} {more rest : List Char} (each : ∀ d ∈ more, d.isDigit = true)
    (most : more.length ≤ 2) (longest : more.length = 2 ∨ Stops Char.isDigit rest)
    (small : natOfDigits 10 (first :: more) ≤ 255) (number : c.toNat = natOfDigits 10 (first :: more)) :
    readDecimal first (more ++ rest) = .ok ([c], rest) := by
  simp only [readDecimal, takeWhile_take_append each most longest]
  rw [if_pos small, ← number, Char.ofNat_toNat, List.drop_left]

/-! ## All escapes -/

theorem length_lineBreak {ends : List Char} (listed : ends ∈ lineBreaks) : ends.length ≤ 2 := by
  revert ends
  decide

/-- A line feed that no carriage return follows, or the other way round. -/
theorem longest_lineBreak {c d : Char} {rest : List Char} (pair : (c, d) = ('\n', '\r') ∨ (c, d) = ('\r', '\n'))
    (alone : ∀ s, rest = d :: s → False) : ∀ longer ∈ lineBreaks, longer <+: [c] ++ rest → longer.length ≤ 1 := by
  intro longer listed before
  simp only [lineBreaks, List.mem_cons, List.not_mem_nil, or_false] at listed
  rcases listed with rfl | rfl | rfl | rfl
  · exact Nat.le_refl _
  · exact Nat.le_refl _
  all_goals
    rw [List.singleton_append, List.cons_prefix_cons] at before
    obtain ⟨rfl, s, rfl⟩ := before
    rcases pair with same | same
    all_goals
      cases same
      try exact (alone s rfl).elim

/-- What is read behind a backslash is a part with it. -/
theorem readEscape_part {s value rest : List Char} (read : readEscape s = .ok (value, rest)) :
    ∃ text, s = text ++ rest ∧ Part rest ('\\' :: text) value := by
  unfold readEscape at read
  split at read
  case h_1 => cases read
  case h_12 =>
    cases read
    exact ⟨['\r', '\n'], rfl, .inl (.lineBreak (by decide) fun longer listed _ => length_lineBreak listed)⟩
  case h_13 =>
    cases read
    exact ⟨['\n', '\r'], rfl, .inl (.lineBreak (by decide) fun longer listed _ => length_lineBreak listed)⟩
  case h_14 alone =>
    cases read
    exact ⟨['\n'], rfl, .inl (.lineBreak (by decide) (longest_lineBreak (.inl rfl) alone))⟩
  case h_15 alone =>
    cases read
    exact ⟨['\r'], rfl, .inl (.lineBreak (by decide) (longest_lineBreak (.inr rfl) alone))⟩
  case h_16 s =>
    cases read
    have whole := List.takeWhile_append_dropWhile (p := isBlank) (l := s)
    refine ⟨'z' :: s.takeWhile isBlank, by rw [List.cons_append, whole], .inl ?_⟩
    exact .gap (fun c => List.mem_takeWhile_imp) (stops_dropWhile isBlank s)
  case h_17 s =>
    obtain ⟨text, rfl, part⟩ := readByte_part read
    exact ⟨'x' :: text, rfl, part⟩
  case h_18 s =>
    obtain ⟨text, rfl, part⟩ := readScalar_part read
    exact ⟨'u' :: text, rfl, part⟩
  case h_19 c s _ _ _ _ _ _ _ _ _ _ _ _ _ _ _ _ _ =>
    split at read
    · rename_i digit
      obtain ⟨text, rfl, part⟩ := readDecimal_part digit read
      exact ⟨c :: text, rfl, part⟩
    · cases read
  all_goals
    cases read
    exact ⟨[_], rfl, .inl (.letter (by decide))⟩

theorem readEscape_of_isDigit {c : Char} (digit : c.isDigit = true) (s : List Char) :
    readEscape (c :: s) = readDecimal c s := by
  unfold readEscape
  split
  case h_19 same =>
    cases same
    rw [if_pos digit]
  case h_1 same => cases same
  all_goals
    rename_i same
    cases same
    cases digit

/-- A part that begins with a backslash is read whole. -/
theorem readEscape_of_part {rest text value : List Char} (part : Part rest ('\\' :: text) value) :
    readEscape (text ++ rest) = .ok (value, rest) := by
  rcases part with lua | lax
  · cases lua with
    | ordinary ordinary => exact absurd rfl ordinary
    | letter listed =>
      simp only [letters, List.mem_cons, Prod.mk.injEq, List.not_mem_nil, or_false] at listed
      rcases listed with ⟨rfl, rfl⟩ | ⟨rfl, rfl⟩ | ⟨rfl, rfl⟩ | ⟨rfl, rfl⟩ | ⟨rfl, rfl⟩ | ⟨rfl, rfl⟩ | ⟨rfl, rfl⟩ |
        ⟨rfl, rfl⟩ | ⟨rfl, rfl⟩ | ⟨rfl, rfl⟩
      all_goals rfl
    | lineBreak listed longest =>
      simp only [lineBreaks, List.mem_cons, List.not_mem_nil, or_false] at listed
      rcases listed with rfl | rfl | rfl | rfl
      · rw [List.singleton_append, readEscape]
        rintro s rfl
        exact absurd (longest ['\n', '\r'] (by decide) ⟨s, rfl⟩) (by decide)
      · rw [List.singleton_append, readEscape]
        rintro s rfl
        exact absurd (longest ['\r', '\n'] (by decide) ⟨s, rfl⟩) (by decide)
      · rfl
      · rfl
    | gap blank longest =>
      rw [List.cons_append, readEscape, dropWhile_append_of_stops longest, List.dropWhile_eq_nil_iff.mpr blank]
      rfl
    | @byte a b c first second number =>
      have hex : HexDigits [a, b] := ⟨by simp, by simp [first, second]⟩
      exact readByte_of_hexValue? (hexValue?_eq_some_iff.mpr ⟨[], [a, b], .inl rfl, rfl, hex, number.symm⟩)
    | decimal some_digit each atMost longest small number =>
      cases text with
      | nil => exact absurd rfl some_digit
      | cons first more =>
        obtain ⟨digit, each⟩ := List.forall_mem_cons.mp each
        rw [List.cons_append, readEscape_of_isDigit digit]
        exact readDecimal_of_digits each (Nat.le_of_succ_le_succ atMost) (longest.imp (Nat.succ.inj ·) id) small number
    | scalar hex number =>
      have closed := readScalar_closed rest (.inl rfl) hex number
      rw [List.cons_append, readEscape]
      simpa using closed
  · cases lax with
    | @signedByte a c digit number =>
      have hex : HexDigits [a] := ⟨by simp, by simp [digit]⟩
      exact readByte_of_hexValue? (hexValue?_eq_some_iff.mpr ⟨['+'], [a], .inr rfl, rfl, hex, number.symm⟩)
    | @shortByte a c last digit number =>
      subst last
      have hex : HexDigits [a] := ⟨by simp, by simp [digit]⟩
      exact readByte_of_hexValue? (hexValue?_eq_some_iff.mpr ⟨[], [a], .inl rfl, rfl, hex, number.symm⟩)
    | signedScalar hex number =>
      have closed := readScalar_closed rest (.inr rfl) hex number
      rw [List.cons_append, readEscape]
      simpa using closed
    | openScalar last signed hex number =>
      subst last
      rw [List.append_nil]
      exact readScalar_open signed hex number

/-! ## Whole strings -/

theorem decode_of_readEscape {s value rest : List Char} (read : readEscape s = .ok (value, rest)) :
    decode ('\\' :: s) = (value ++ ·) <$> decode rest := by
  rw [decode, if_pos rfl]
  split
  · rename_i failed
    cases read.symm.trans failed
  · rename_i found
    cases read.symm.trans found
    rfl

/-- A part is a character that is no backslash, or begins with a backslash. -/
theorem Part.shape {rest text value : List Char} (part : Part rest text value) :
    (∃ c, c ≠ '\\' ∧ text = [c] ∧ value = [c]) ∨ ∃ escape, text = '\\' :: escape := by
  rcases part with lua | lax
  · cases lua with
    | ordinary ordinary => exact .inl ⟨_, ordinary, rfl, rfl⟩
    | _ => exact .inr ⟨_, rfl⟩
  · cases lax <;> exact .inr ⟨_, rfl⟩

theorem spells_of_decode {s value : List Char} (decoded : decode s = .ok value) : Spells Part s value := by
  fun_induction decode s generalizing value with
  | case1 =>
    cases decoded
    exact .nil
  | case2 s e failed => cases decoded
  | case3 s text rest read ih =>
    cases behind : decode rest with
    | error e =>
      rw [behind] at decoded
      cases decoded
    | ok more =>
      rw [behind] at decoded
      cases decoded
      obtain ⟨escape, rfl, part⟩ := readEscape_part read
      exact .cons part (ih behind)
  | case4 c s ordinary ih =>
    cases behind : decode s with
    | error e =>
      rw [behind] at decoded
      cases decoded
    | ok more =>
      rw [behind] at decoded
      cases decoded
      exact .cons (.inl (.ordinary ordinary)) (ih behind)

theorem decode_of_spells {s value : List Char} (spells : Spells Part s value) : decode s = .ok value := by
  induction spells with
  | nil => simp [decode]
  | cons first _ ih =>
    rcases first.shape with ⟨c, ordinary, rfl, rfl⟩ | ⟨escape, rfl⟩
    · rw [List.singleton_append, decode, if_neg ordinary, ih]
      rfl
    · rw [List.cons_append, decode_of_readEscape (readEscape_of_part first), ih]
      rfl

theorem decode_eq_ok_iff {s value : List Char} : decode s = .ok value ↔ Spells Part s value :=
  ⟨spells_of_decode, decode_of_spells⟩

end Lexeme.QuotedString

namespace Syntax
open Lexeme QuotedString

/-- A string literal has a value exactly if the text between its quotes falls into parts, those of Lua and the four that
Lua refuses, and then the value is what these stand for. So what Lua takes for a string is one, with the same value. -/
theorem stringOf_quoted_iff (range : TextRange) (start : Nat) (literal : List Char) :
    (∀ value, stringOf range [.token .quotedString start literal] = .ok value ↔
      ∃ chars, Spells Part (body literal) chars ∧ value = String.ofList chars) ∧
    ∀ chars, Spells LuaPart (body literal) chars →
      stringOf range [.token .quotedString start literal] = .ok (String.ofList chars) := by
  have exact_value (value : String) : stringOf range [.token .quotedString start literal] = .ok value ↔
      ∃ chars, Spells Part (body literal) chars ∧ value = String.ofList chars := by
    simp only [← decode_eq_ok_iff, stringOf]
    cases decode (body literal) with
    | error e => simp
    | ok chars => simp [eq_comm]
  refine ⟨exact_value, fun chars spells => (exact_value _).mpr ⟨chars, ?_, rfl⟩⟩
  exact spells.mono fun _ _ _ part => .inl part

/-- A byte of one digit at the end of a string. -/
def shortByte : List Char := "\"\\x4\"".toList

theorem stringOf_quoted_shortByte : QuotedString.scan shortByte = some (shortByte, []) ∧
    stringOf ⟨0, 0, 5⟩ [.token .quotedString 0 shortByte] = .ok "\x04" ∧
    ¬ ∃ chars, Spells LuaPart (body shortByte) chars := by
  have text : body shortByte = ['\\', 'x', '4'] := by decide
  refine ⟨by decide, ?_, ?_⟩
  · have part : Part [] ['\\', 'x', '4'] ['\x04'] := .inr (.shortByte rfl (by decide) (by decide))
    have decoded : decode (body shortByte) = .ok ['\x04'] := by
      rw [text]
      exact decode_of_spells (.cons part .nil)
    rw [stringOf, decoded]
  · rintro ⟨chars, spells⟩
    rw [text] at spells
    generalize whole : ['\\', 'x', '4'] = s at spells
    cases spells with
    | nil => cases whole
    | cons first _ =>
      cases first with
      | ordinary ordinary =>
        cases whole
        exact ordinary rfl
      | letter listed =>
        cases whole
        simp [letters] at listed
      | lineBreak listed _ =>
        simp only [lineBreaks, List.mem_cons, List.not_mem_nil, or_false] at listed
        rcases listed with rfl | rfl | rfl | rfl <;> cases whole
      | gap _ _ => cases whole
      | byte _ _ _ => cases whole
      | @decimal digits _ some_digit each _ _ _ _ =>
        cases digits with
        | nil => exact some_digit rfl
        | cons d _ =>
          simp only [List.cons_append, List.cons.injEq] at whole
          obtain ⟨-, rfl, -⟩ := whole
          exact absurd (each 'x' (by simp)) (by decide)
      | scalar _ _ => cases whole

end Syntax
end LuaLowering
