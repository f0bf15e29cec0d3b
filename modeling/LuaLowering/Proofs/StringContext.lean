import LuaLowering.Proofs.Segmentation
/-!
# Strings in their context

Strings are read whatever stands behind them (`LongBracket.scan_append`, `QuotedString.scan_append`). Where no long
bracket is read, none is read after blanks have been put into the text (`LongBracket.scan_insert_none`).
-/
namespace LuaLowering.Lexeme
open Peg Peg.Scanner

/-! ## Long brackets -/

namespace LongBracket

theorem isPrefixOf_append {stop s : List Char} (short : stop.length ≤ s.length) (t : List Char) :
    stop.isPrefixOf (s ++ t) = stop.isPrefixOf s := by
  rw [Bool.eq_iff_iff, List.isPrefixOf_iff_prefix, List.isPrefixOf_iff_prefix]
  constructor
  · intro isPrefix
    exact List.prefix_of_prefix_length_le isPrefix (List.prefix_append s t) short
  · intro isPrefix
    exact isPrefix.trans (List.prefix_append s t)

theorem closing_ne_nil (level : Nat) : closing level ≠ [] := by simp [closing]

/-- The first closing bracket is found whatever stands behind it. -/
theorem cut_append {stop s inner rest : List Char} (some_stop : stop ≠ []) (found : cut stop s = some (inner, rest))
    (t : List Char) : cut stop (inner ++ stop ++ t) = some (inner, t) := by
  fun_induction cut stop s generalizing inner with
  | case1 => cases found
  | case2 c s isPrefix =>
    cases found
    cases stop with
    | nil => exact absurd rfl some_stop
    | cons d stop =>
      have front : (d :: stop).isPrefixOf (d :: (stop ++ t)) = true :=
        List.isPrefixOf_iff_prefix.mpr (List.prefix_append (d :: stop) t)
      rw [List.nil_append, List.cons_append, cut, if_pos front]
      simp
  | case3 c s notPrefix ih =>
    obtain ⟨⟨before, after⟩, found, made⟩ := Option.map_eq_some_iff.mp found
    cases made
    have short : stop.length ≤ (c :: (before ++ stop)).length := by
      simp only [List.length_cons, List.length_append]
      omega
    have whole : c :: s = c :: (before ++ stop) ++ rest := by rw [cut_eq found, List.cons_append]
    rw [whole, isPrefixOf_append short] at notPrefix
    have stillNot : ¬ stop.isPrefixOf (c :: (before ++ stop ++ t)) = true := by
      rwa [← List.cons_append, isPrefixOf_append short]
    rw [List.cons_append, List.cons_append, cut, if_neg stillNot, ih found]
    rfl

/-- A closing bracket is found where there is one. -/
theorem isSome_cut_iff {stop s : List Char} (some_stop : stop ≠ []) : (cut stop s).isSome = true ↔ stop <:+: s := by
  fun_induction cut stop s with
  | case1 => simp [some_stop]
  | case2 c s isPrefix => simp [(List.isPrefixOf_iff_prefix.mp isPrefix).isInfix]
  | case3 c s notPrefix ih =>
    rw [Option.isSome_map, ih, List.infix_cons_iff, ← List.isPrefixOf_iff_prefix]
    simp [notPrefix]

theorem takeWhile_marks (level : Nat) (tail : List Char) :
    (List.replicate level '=' ++ '[' :: tail).takeWhile (· == '=') = List.replicate level '=' := by
  have stops : Stops (· == '=') ('[' :: tail) := stops_cons.mpr rfl
  rw [takeWhile_append_of_stops stops]
  simp

theorem dropWhile_marks (level : Nat) (tail : List Char) :
    (List.replicate level '=' ++ '[' :: tail).dropWhile (· == '=') = '[' :: tail := by
  have stops : Stops (· == '=') ('[' :: tail) := stops_cons.mpr rfl
  rw [dropWhile_append_of_stops stops]
  simp

theorem parts?_opening (level : Nat) (tail : List Char) :
    parts? (opening level ++ tail) = (cut (closing level) tail).map fun (inner, rest) => (level, inner, rest) := by
  have front : opening level ++ tail = '[' :: (List.replicate level '=' ++ '[' :: tail) := by simp [opening]
  rw [front, parts?]
  simp only [takeWhile_marks, dropWhile_marks, List.length_replicate]

/-- Where there are parts, there is an opening bracket. -/
theorem eq_opening_of_parts? {s : List Char} {parts : Nat × List Char × List Char} (found : parts? s = some parts) :
    ∃ level tail, s = opening level ++ tail := by
  unfold parts? at found
  split at found
  · rename_i s
    simp only at found
    split at found
    · rename_i tail opened
      refine ⟨(s.takeWhile (· == '=')).length, tail, ?_⟩
      have marks : List.replicate (s.takeWhile (· == '=')).length '=' = s.takeWhile (· == '=') := by
        refine (List.eq_replicate_of_mem fun c member => ?_).symm
        simpa using List.mem_takeWhile_imp member
      calc '[' :: s
        _ = '[' :: (s.takeWhile (· == '=') ++ s.dropWhile (· == '=')) := by rw [List.takeWhile_append_dropWhile]
        _ = _ := by simp [opening, marks, opened]
    · cases found
  · cases found

theorem scan_opening (level : Nat) (tail : List Char) :
    scan (opening level ++ tail) =
      (cut (closing level) tail).map fun (inner, rest) => (opening level ++ inner ++ closing level, rest) := by
  rw [scan, parts?_opening, Option.map_map]
  rfl

theorem eq_opening_of_scan {s : List Char} {found : List Char × List Char} (read : scan s = some found) :
    ∃ level tail, s = opening level ++ tail := by
  obtain ⟨parts, isParts, -⟩ := Option.map_eq_some_iff.mp read
  exact eq_opening_of_parts? isParts

/-- A long bracket is read whatever stands behind it. -/
theorem scan_append {s x rest : List Char} (read : scan s = some (x, rest)) (t : List Char) :
    scan (x ++ t) = some (x, t) := by
  obtain ⟨level, tail, rfl⟩ := eq_opening_of_scan read
  rw [scan_opening] at read
  obtain ⟨⟨inner, after⟩, found, made⟩ := Option.map_eq_some_iff.mp read
  cases made
  rw [List.append_assoc, List.append_assoc, scan_opening, ← List.append_assoc inner,
    cut_append (closing_ne_nil level) found]
  simp

theorem isSome_scan_iff {s : List Char} :
    (scan s).isSome = true ↔ ∃ level tail, s = opening level ++ tail ∧ closing level <:+: tail := by
  constructor
  · intro reads
    obtain ⟨found, read⟩ := Option.isSome_iff_exists.mp reads
    obtain ⟨level, tail, rfl⟩ := eq_opening_of_scan read
    rw [scan_opening, Option.isSome_map, isSome_cut_iff (closing_ne_nil level)] at reads
    exact ⟨level, tail, rfl, reads⟩
  · rintro ⟨level, tail, rfl, closed⟩
    rwa [scan_opening, Option.isSome_map, isSome_cut_iff (closing_ne_nil level)]

/-- A text without a certain character is not put together by taking the character out. -/
theorem infix_of_insert {l a b : List Char} {c : Char} (free : c ∉ l) (inside : l <:+: a ++ c :: b) :
    l <:+: a ++ b := by
  obtain ⟨p, q, whole⟩ := inside
  rcases List.append_eq_append_iff.mp whole with ⟨a', rfl, -⟩ | ⟨c', split, rest⟩
  · exact ⟨p, a' ++ b, by simp⟩
  · cases c' with
    | nil => exact ⟨p, b, by rw [split, List.append_nil]⟩
    | cons d c' =>
      cases rest
      rcases List.append_eq_append_iff.mp split with ⟨a', -, rfl⟩ | ⟨d', rfl, others⟩
      · exact absurd (by simp) free
      · cases d' with
        | nil =>
          rw [List.nil_append] at others
          exact absurd (others ▸ List.mem_cons_self) free
        | cons e d' =>
          cases others
          exact ⟨a ++ d', q, by simp⟩

theorem not_mem_brackets {c : Char} (blank : isBlank c = true) (level : Nat) :
    c ∉ opening level ∧ c ∉ closing level := by
  have notMark : c ≠ '[' ∧ c ≠ '=' ∧ c ≠ ']' := by
    refine ⟨?_, ?_, ?_⟩ <;> rintro rfl <;> cases blank
  simp [opening, closing, notMark]

/-- No long bracket comes about by putting blanks into a text. -/
theorem scan_insert_none {w : List Char} (blanks : ∀ c ∈ w, isBlank c = true) {a b : List Char}
    (unread : scan (a ++ b) = none) : scan (a ++ (w ++ b)) = none := by
  induction w with
  | nil => exact unread
  | cons c w ih =>
    have rest := ih fun d member => blanks d (List.mem_cons_of_mem _ member)
    rw [← Option.not_isSome_iff_eq_none, isSome_scan_iff] at rest ⊢
    rintro ⟨level, tail, whole, closed⟩
    have outside := not_mem_brackets (blanks c List.mem_cons_self) level
    refine rest ?_
    rcases List.append_eq_append_iff.mp whole.symm with ⟨a', rfl, rfl⟩ | ⟨o, opened, others⟩
    · exact ⟨level, a' ++ (w ++ b), by simp, infix_of_insert outside.2 closed⟩
    · cases o with
      | nil =>
        rw [List.append_nil] at opened
        rw [List.nil_append] at others
        subst others
        exact ⟨level, w ++ b, by rw [opened], infix_of_insert (a := []) outside.2 closed⟩
      | cons d o =>
        rw [List.cons_append, List.cons_append, List.cons.injEq] at others
        exact absurd (by simp [opened, others.1]) outside.1

end LongBracket

/-! ## Quoted strings -/

namespace QuotedString

theorem ne_nil_of_scanTail {quote : Char} {gap : Bool} {s x rest : List Char}
    (read : scanTail quote gap s = some (x, rest)) : x ≠ [] := by
  have of_cons {c : Char} {found : Option (List Char × List Char)} (made : scanTail.cons c found = some (x, rest)) :
      x ≠ [] := by
    obtain ⟨inner, rfl, -⟩ := cons_eq_some made
    exact List.cons_ne_nil c inner
  fun_induction scanTail quote gap s with
  | case1 | case3 | case9 => cases read
  | case8 =>
    cases read
    exact List.cons_ne_nil _ _
  | _ => exact of_cons read

/-- The rest of a string is read whatever stands behind it. -/
theorem scanTail_append {quote : Char} {gap : Bool} {s x rest : List Char}
    (read : scanTail quote gap s = some (x, rest)) (t : List Char) :
    scanTail quote gap (x ++ t) = some (x, t) := by
  fun_induction scanTail quote gap s generalizing x with
  | case1 | case3 | case9 => cases read
  | case2 gap c s blank ih =>
    obtain ⟨inner, rfl, tail⟩ := cons_eq_some read
    rw [List.cons_append, scanTail.eq_def]
    simp only [blank, if_true, ih tail]
    rfl
  | case4 gap s notBlank ih =>
    obtain ⟨_, rfl, escaped⟩ := cons_eq_some read
    obtain ⟨inner, rfl, tail⟩ := cons_eq_some escaped
    rw [List.cons_append, List.cons_append, scanTail.eq_def]
    simp only [notBlank, if_true, ih tail]
    rfl
  | case5 gap s notBlank ih | case6 gap s notBlank ih =>
    obtain ⟨_, rfl, escaped⟩ := cons_eq_some read
    obtain ⟨_, rfl, second⟩ := cons_eq_some escaped
    obtain ⟨inner, rfl, tail⟩ := cons_eq_some second
    rw [List.cons_append, List.cons_append, List.cons_append, scanTail.eq_def]
    simp only [notBlank, if_true, ih tail]
    rfl
  | case7 gap d s notZ notBreak notBreak' notBlank ih =>
    obtain ⟨_, rfl, escaped⟩ := cons_eq_some read
    obtain ⟨inner, rfl, tail⟩ := cons_eq_some escaped
    -- what is read goes on behind the escaped character, so its first character decides about a line break
    cases inner with
    | nil => exact absurd rfl (ne_nil_of_scanTail tail)
    | cons e inner =>
      have split := splits_scanTail quote false s _ _ tail
      rw [List.cons_append] at split
      rw [List.cons_append, List.cons_append, List.cons_append, scanTail.eq_def]
      have others := ih tail
      rw [List.cons_append] at others
      simp only [notBlank, if_true, Bool.false_eq_true, if_false]
      split
      · rename_i same
        cases same
      · rename_i same
        cases same
        exact (notZ rfl).elim
      · rename_i same
        cases same
        exact (notBreak _ rfl split).elim
      · rename_i same
        cases same
        exact (notBreak' _ rfl split).elim
      · rename_i same
        cases same
        rw [others]
        rfl
  | case8 gap s notBlank notEscape =>
    cases read
    rw [List.cons_append, List.nil_append, scanTail.eq_def]
    simp [notBlank, notEscape]
  | case10 gap c s notBlank notEscape notQuote notFeed ih =>
    obtain ⟨inner, rfl, tail⟩ := cons_eq_some read
    rw [List.cons_append, scanTail.eq_def]
    simp only [notBlank, notEscape, notQuote, notFeed, if_false, ih tail]
    rfl

/-- A string is read whatever stands behind it. -/
theorem scan_append {s x rest : List Char} (read : scan s = some (x, rest)) (t : List Char) :
    scan (x ++ t) = some (x, t) := by
  obtain ⟨q, tail, inner, rfl, rfl, found⟩ := scan_eq_some read
  rw [scan] at read
  rw [List.cons_append, scan, scanTail_append found]
  split at read
  · rename_i isQuote
    rw [if_pos isQuote]
    rfl
  · cases read

end QuotedString

end LuaLowering.Lexeme
