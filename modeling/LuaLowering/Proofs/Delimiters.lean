import LuaLowering.Text.Digits
import LuaLowering.Text.Quoted
import Mathlib.Tactic.Ring
/-!
# Texts that can be told apart

A text that is put together from parts can be taken apart again where each part shows its end: at a character that no
part has (`cut`, `intercalate_inj`), behind the last digit (`digits_cut`), or at a quote that is not escaped
(`quoted_cut`).
-/
namespace LuaLowering.Text

/-! ## Cutting -/

/-- The text begins with a stop. -/
def Opens (stop : Char → Bool) (text : List Char) : Prop := ∃ c rest, text = c :: rest ∧ stop c = true

theorem span_of_opens {stop : Char → Bool} {part rest : List Char} (clear : ∀ c ∈ part, stop c = false)
    (opens : Opens stop rest) :
    (part ++ rest).takeWhile (fun c => ! stop c) = part ∧ (part ++ rest).dropWhile (fun c => ! stop c) = rest := by
  obtain ⟨c, tail, rfl, isStop⟩ := opens
  have passed : ∀ d ∈ part, (! stop d) = true := by simpa using clear
  rw [List.takeWhile_append_of_pos passed, List.dropWhile_append_of_pos passed]
  simp [isStop]

/-- Two parts without a stop, each before a stop. -/
theorem cut {stop : Char → Bool} {part part' rest rest' : List Char} (same : part ++ rest = part' ++ rest')
    (clear : ∀ c ∈ part, stop c = false) (clear' : ∀ c ∈ part', stop c = false) (opens : Opens stop rest)
    (opens' : Opens stop rest') : part = part' ∧ rest = rest' := by
  obtain ⟨taken, dropped⟩ := span_of_opens clear opens
  obtain ⟨taken', dropped'⟩ := span_of_opens clear' opens'
  rw [same] at taken dropped
  exact ⟨taken.symm.trans taken', dropped.symm.trans dropped'⟩

/-- Two parts without the character that stands behind each of them. -/
theorem cut_at {stop : Char} {part part' rest rest' : List Char} (same : part ++ stop :: rest = part' ++ stop :: rest')
    (clear : stop ∉ part) (clear' : stop ∉ part') : part = part' ∧ rest = rest' := by
  have outside {text : List Char} (absent : stop ∉ text) : ∀ c ∈ text, (c == stop) = false := by
    intro c member
    rw [beq_eq_false_iff_ne]
    rintro rfl
    exact absent member
  obtain ⟨front, back⟩ := cut same (outside clear) (outside clear') ⟨_, _, rfl, by simp⟩ ⟨_, _, rfl, by simp⟩
  exact ⟨front, List.tail_eq_of_cons_eq back⟩

/-- Parts that do not have the first character of what stands between them. -/
theorem intercalate_inj {c : Char} {sep : List Char} {parts parts' : List (List Char)} (clear : ∀ part ∈ parts, c ∉ part)
    (clear' : ∀ part ∈ parts', c ∉ part) (some : parts ≠ []) (some' : parts' ≠ [])
    (same : (c :: sep).intercalate parts = (c :: sep).intercalate parts') : parts = parts' := by
  induction parts generalizing parts' with
  | nil => exact absurd rfl some
  | cons first rest ih =>
    cases parts' with
    | nil => exact absurd rfl some'
    | cons first' rest' =>
      have ofFirst := clear first List.mem_cons_self
      have ofFirst' := clear' first' List.mem_cons_self
      cases rest with
      | nil =>
        cases rest' with
        | nil => simpa using same
        | cons second' rest' =>
          simp only [List.intercalate_singleton, List.intercalate_cons_cons] at same
          exact absurd (by simp [same]) ofFirst
      | cons second rest =>
        cases rest' with
        | nil =>
          simp only [List.intercalate_singleton, List.intercalate_cons_cons] at same
          exact absurd (by simp [← same]) ofFirst'
        | cons second' rest' =>
          simp only [List.intercalate_cons_cons, List.append_assoc, List.cons_append] at same
          obtain ⟨rfl, back⟩ := cut_at same ofFirst ofFirst'
          rw [List.append_cancel_left_eq] at back
          rw [ih (fun part member => clear part (List.mem_cons_of_mem _ member))
            (fun part member => clear' part (List.mem_cons_of_mem _ member)) (by simp) (by simp) back]

theorem mem_intercalate {c : Char} {sep : List Char} {parts : List (List Char)} (member : c ∈ sep.intercalate parts) :
    c ∈ sep ∨ ∃ part ∈ parts, c ∈ part := by
  induction parts with
  | nil => cases member
  | cons first rest ih =>
    cases rest with
    | nil =>
      rw [List.intercalate_singleton] at member
      exact .inr ⟨first, List.mem_cons_self, member⟩
    | cons second rest =>
      rw [List.intercalate_cons_cons, List.mem_append, List.mem_append] at member
      rcases member with (inside | between) | later
      · exact .inr ⟨first, List.mem_cons_self, inside⟩
      · exact .inl between
      · refine (ih later).imp id fun ⟨part, listed, inside⟩ => ?_
        exact ⟨part, List.mem_cons_of_mem _ listed, inside⟩

/-! ## Digits -/

theorem natOfDigits_append (base : Nat) (front back : List Char) :
    natOfDigits base (front ++ back) = natOfDigits base front * base ^ back.length + natOfDigits base back := by
  have run (back : List Char) (n : Nat) : back.foldl (fun n c => base * n + digitValue c) n =
      n * base ^ back.length + natOfDigits base back := by
    induction back generalizing n with
    | nil => simp [natOfDigits]
    | cons c rest ih =>
      rw [natOfDigits, List.foldl_cons, List.foldl_cons, ih, ih (base * 0 + _), List.length_cons, Nat.pow_succ']
      ring
  rw [natOfDigits, List.foldl_append, run, ← natOfDigits]

theorem digitValue_digitChar {n : Nat} (small : n < 16) : digitValue n.digitChar = n := by
  revert n
  decide

/-- Digits are read back. -/
theorem natOfDigits_toDigits {base : Nat} (least : 1 < base) (greatest : base ≤ 16) (n : Nat) :
    natOfDigits base (Nat.toDigits base n) = n := by
  induction n using Nat.base_induction base least with
  | single n small =>
    rw [Nat.toDigits_of_lt_base small, natOfDigits, List.foldl_cons, List.foldl_nil, digitValue_digitChar (by omega)]
    simp
  | digit n d small positive ih =>
    rw [← Nat.toDigits_append_toDigits least positive small, natOfDigits_append, ih, Nat.toDigits_of_lt_base small,
      natOfDigits, List.foldl_cons, List.foldl_nil, digitValue_digitChar (by omega)]
    simp [Nat.mul_comm]

theorem mem_toDigits {base : Nat} (least : 1 < base) {n : Nat} {c : Char} (member : c ∈ Nat.toDigits base n) :
    ∃ d < base, c = d.digitChar := by
  induction n using Nat.base_induction base least with
  | single n small =>
    rw [Nat.toDigits_of_lt_base small] at member
    exact ⟨n, small, List.mem_singleton.mp member⟩
  | digit n d small positive ih =>
    rw [← Nat.toDigits_append_toDigits least positive small, Nat.toDigits_of_lt_base small] at member
    rcases List.mem_append.mp member with front | last
    · exact ih front
    · exact ⟨d, small, List.mem_singleton.mp last⟩

theorem isDigit_of_mem_decimal {n : Nat} {c : Char} (member : c ∈ Nat.toDigits 10 n) : c.isDigit = true :=
  Nat.isDigit_of_mem_toDigits (by decide) (by decide) member

theorem decimal_inj {n n' : Nat} (same : Nat.toDigits 10 n = Nat.toDigits 10 n') : n = n' := by
  have read (n : Nat) : natOfDigits 10 (Nat.toDigits 10 n) = n := natOfDigits_toDigits (by decide) (by decide) n
  rw [← read n, same, read]

/-- Numbers in decimal, each before something else than a digit. -/
theorem digits_cut {n n' : Nat} {rest rest' : List Char} (same : Nat.toDigits 10 n ++ rest = Nat.toDigits 10 n' ++ rest')
    (opens : Opens (! ·.isDigit) rest) (opens' : Opens (! ·.isDigit) rest') : n = n' ∧ rest = rest' := by
  have digits (n : Nat) : ∀ c ∈ Nat.toDigits 10 n, (! c.isDigit) = false := by
    intro c member
    rw [isDigit_of_mem_decimal member]
    rfl
  obtain ⟨front, back⟩ := cut same (digits n) (digits n') opens opens'
  exact ⟨decimal_inj front, back⟩

theorem not_mem_decimal {c : Char} (other : c.isDigit = false) (n : Nat) : c ∉ Nat.toDigits 10 n := by
  intro member
  rw [isDigit_of_mem_decimal member] at other
  cases other

/-! ## Quotes -/

/-- The first character of a text in which characters may be escaped, and what follows it. There is none where a quote
ends the text. -/
def unescape? : List Char → Option (Char × List Char)
  | [] | '"' :: _ => none
  | '\\' :: 'u' :: '\x7b' :: rest =>
    some (.ofNat (natOfDigits 16 (rest.takeWhile (· != '\x7d'))), (rest.dropWhile (· != '\x7d')).tail)
  | '\\' :: 'n' :: rest => some ('\n', rest)
  | '\\' :: 'r' :: rest => some ('\r', rest)
  | '\\' :: 't' :: rest => some ('\t', rest)
  | '\\' :: '0' :: rest => some ('\x00', rest)
  | '\\' :: c :: rest => some (c, rest)
  | c :: rest => some (c, rest)

theorem unescape?_escapeNumber (c : Char) (rest : List Char) :
    unescape? (escapeNumber c ++ rest) = some (c, rest) := by
  have hexadecimal : ∀ d < 16, (d.digitChar != '\x7d') = true := by decide
  have inside : ∀ d ∈ Nat.toDigits 16 c.toNat, (d != '\x7d') = true := by
    intro d member
    obtain ⟨n, small, rfl⟩ := mem_toDigits (by decide) member
    exact hexadecimal n small
  have shape : escapeNumber c ++ rest = '\\' :: 'u' :: '\x7b' :: (Nat.toDigits 16 c.toNat ++ '\x7d' :: rest) := by
    simp [escapeNumber]
  rw [shape, unescape?, List.takeWhile_append_of_pos inside, List.dropWhile_append_of_pos inside]
  simp [natOfDigits_toDigits]

/-- A character is read back. -/
theorem unescape?_escapeChar (c : Char) (rest : List Char) : unescape? (escapeChar c ++ rest) = some (c, rest) := by
  unfold escapeChar
  split
  · rfl
  · rfl
  · rfl
  · rfl
  · rfl
  · rfl
  · rename_i quote backslash _ _ _ _
    split
    · rw [List.singleton_append, unescape?.eq_def]
      split <;> simp_all
    · exact unescape?_escapeNumber c rest

/-- Escaped characters, each before a quote. -/
theorem escaped_cut {chars chars' rest rest' : List Char}
    (same : chars.flatMap escapeChar ++ '"' :: rest = chars'.flatMap escapeChar ++ '"' :: rest') :
    chars = chars' ∧ rest = rest' := by
  have next (c : Char) (chars rest : List Char) :
      unescape? ((c :: chars).flatMap escapeChar ++ rest) = some (c, chars.flatMap escapeChar ++ rest) := by
    rw [List.flatMap_cons, List.append_assoc, unescape?_escapeChar]
  induction chars generalizing chars' with
  | nil =>
    cases chars' with
    | nil => exact ⟨rfl, List.tail_eq_of_cons_eq same⟩
    | cons c' chars' =>
      have read := congrArg unescape? same
      rw [next] at read
      cases read
  | cons c chars ih =>
    have read := congrArg unescape? same
    rw [next] at read
    cases chars' with
    | nil => cases read
    | cons c' chars' =>
      rw [next] at read
      simp only [Option.some.injEq, Prod.mk.injEq] at read
      obtain ⟨rfl, others⟩ := read
      obtain ⟨rfl, back⟩ := ih others
      exact ⟨rfl, back⟩

/-- Quoted texts, whatever follows them. -/
theorem quoted_cut {s t : String} {rest rest' : List Char}
    (same : (quoted s).toList ++ rest = (quoted t).toList ++ rest') : s = t ∧ rest = rest' := by
  simp only [quoted, String.toList_ofList, List.cons_append, List.append_assoc, List.nil_append, List.cons.injEq,
    true_and] at same
  obtain ⟨chars, back⟩ := escaped_cut same
  exact ⟨String.toList_inj.mp chars, back⟩

theorem newline_not_mem_escapeChar (c : Char) : '\n' ∉ escapeChar c := by
  have hexadecimal : ∀ d < 16, d.digitChar ≠ '\n' := by decide
  unfold escapeChar
  split
  · decide
  · decide
  · decide
  · decide
  · decide
  · decide
  · rename_i other _ _ _
    split
    · intro member
      exact other (List.mem_singleton.mp member).symm
    · intro member
      have digits : '\n' ∈ Nat.toDigits 16 c.toNat := by simpa [escapeNumber] using member
      obtain ⟨d, small, same⟩ := mem_toDigits (by decide) digits
      exact hexadecimal d small same.symm

/-- A quoted text stays on its line. -/
theorem newline_not_mem_quoted (s : String) : '\n' ∉ (quoted s).toList := by
  simp only [quoted, String.toList_ofList, List.mem_cons, List.mem_append, List.mem_flatMap]
  simp [newline_not_mem_escapeChar]

end LuaLowering.Text
