import LuaLowering.Lexeme.LongBracket
/-!
Blanks and comments. A comment is two hyphens and then a long bracket or, where there is none, the
rest of the line.
-/
namespace LuaLowering.Lexeme

/-- Space, tab, carriage return, line feed, vertical tab and form feed. -/
def isBlank (c : Char) : Bool :=
  c == ' ' || c == '\t' || c == '\r' || c == '\n' || c == '\x0b' || c == '\x0c'

/-- The rest of a line. -/
def line : Peg.Scanner := .many (· != '\n')

def comment : Peg.Scanner := .seq (.literal ['-', '-']) (.alt LongBracket.scan line)

theorem LongBracket.cut_length {stop s before after : List Char} (h : cut stop s = some (before, after)) :
    after.length ≤ s.length := by
  fun_induction cut stop s generalizing before with
  | case1 => simp at h
  | case2 => simp only [Option.some.injEq, Prod.mk.injEq] at h; simp [← h.2]
  | case3 c s _ ih =>
    simp only [Option.map_eq_some_iff, Prod.mk.injEq, Prod.exists] at h
    obtain ⟨b, a, found, _, rfl⟩ := h
    have := ih found
    simp only [List.length_cons]
    omega

theorem LongBracket.scan_length {s text rest : List Char} (h : scan s = some (text, rest)) :
    rest.length ≤ s.length := by
  simp only [scan, Option.map_eq_some_iff, Prod.mk.injEq, Prod.exists] at h
  obtain ⟨level, inner, after, found, _, rfl⟩ := h
  unfold parts? at found
  split at found
  · rename_i s
    split at found
    · rename_i tail dropped
      simp only [Option.map_eq_some_iff, Prod.mk.injEq, Prod.exists] at found
      obtain ⟨_, _, cut_eq, _, _, rfl⟩ := found
      have := cut_length cut_eq
      have := (List.dropWhile_sublist (l := s) (· == '=')).length_le
      simp_all only [List.length_cons]
      omega
    · simp at found
  · simp at found

theorem comment_length {s text rest : List Char} (h : comment s = some (text, rest)) :
    rest.length < s.length := by
  have tail : ∀ {t : List Char} {found : List Char × List Char},
      Peg.Scanner.alt LongBracket.scan line t = some found → found.2.length ≤ t.length := by
    intro t found h
    unfold Peg.Scanner.alt at h
    split at h
    · simp only [line, Peg.Scanner.many, Option.some.injEq] at h
      simpa [← h] using (List.dropWhile_sublist (l := t) _).length_le
    · exact LongBracket.scan_length h
  simp only [comment, Peg.Scanner.seq, Peg.Scanner.literal] at h
  split at h
  · rename_i isPrefix
    obtain ⟨after, rfl⟩ := List.isPrefixOf_iff_prefix.mp isPrefix
    simp only [Option.bind_eq_bind, Option.bind_some, Option.bind_eq_some_iff, Option.some.injEq,
      Prod.mk.injEq, Prod.exists] at h
    obtain ⟨_, _, found, _, rfl⟩ := h
    have bound := tail found
    simp only [List.length_cons, List.length_nil, List.cons_append, List.nil_append, List.drop_succ_cons,
      List.drop_zero] at bound ⊢
    omega
  · simp at h

/-- Splits the blanks and comments off the front of a text. -/
def trivia (s : List Char) : List Char × List Char :=
  match _ : comment (s.dropWhile isBlank) with
  | none => (s.takeWhile isBlank, s.dropWhile isBlank)
  | some (text, after) =>
    let (more, rest) := trivia after
    (s.takeWhile isBlank ++ text ++ more, rest)
termination_by s.length
decreasing_by
  exact Nat.lt_of_lt_of_le (comment_length ‹_›) (List.dropWhile_sublist isBlank).length_le

end LuaLowering.Lexeme
