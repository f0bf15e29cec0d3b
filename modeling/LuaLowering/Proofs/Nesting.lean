import LuaLowering.Proofs.Scanning
import LuaLowering.Syntax.Parse
/-!
# Nesting of rules

Matching takes a bound on how many rules lie inside one another. In a grammar whose rules can be ranked, so that a rule
that tries another one before it has read anything has a greater rank, that bound is never reached: a greater one gives
the same trees (`Grammar.parse_stable`). The rules of Lua can be ranked like this (`layered_grammar`), and matching
follows the equations of the grammar without any bound (`read_token`, `read_phrase`).
-/
namespace LuaLowering.Peg

/-! ## Ranked rules -/

variable {ρ : Type}

/-- Whether the pattern may match without reading anything, given which rules may. -/
def Pattern.mayBeEmpty (empty : ρ → Bool) : Pattern ρ → Bool
  | .lit text => text.isEmpty
  | .rule r => empty r
  | .seq p q => p.mayBeEmpty empty && q.mayBeEmpty empty
  | .alt p q => p.mayBeEmpty empty || q.mayBeEmpty empty
  | .opt _ => true
  | .star _ => true

/-- The rules that a pattern may try before it has read anything. -/
def Pattern.leads (empty : ρ → Bool) : Pattern ρ → List ρ
  | .lit _ => []
  | .rule r => [r]
  | .seq p q => p.leads empty ++ if p.mayBeEmpty empty then q.leads empty else []
  | .alt p q => p.leads empty ++ q.leads empty
  | .opt p => p.leads empty
  | .star p => p.leads empty

/-- One cursor comes from another by reading: something, unless it may be nothing. -/
structure Cursor.Reaches (c : Cursor) (empty : Bool) (d : Cursor) : Prop where
  le : d.rest.length ≤ c.rest.length
  lt : empty = false → d.rest.length < c.rest.length

namespace Cursor.Reaches
variable {c d e : Cursor} {empty empty' : Bool}

theorem refl (c : Cursor) : c.Reaches true c := ⟨Nat.le_refl _, nofun⟩

theorem weaken (reaches : c.Reaches empty d) : c.Reaches true d := ⟨reaches.le, nofun⟩

theorem trans (first : c.Reaches empty d) (second : d.Reaches empty' e) : c.Reaches (empty && empty') e where
  le := Nat.le_trans second.le first.le
  lt some_read := by
    rcases Bool.and_eq_false_iff.mp some_read with front | back
    · exact Nat.lt_of_le_of_lt second.le (first.lt front)
    · exact Nat.lt_of_lt_of_le (second.lt back) first.le

theorem or_left (reaches : c.Reaches empty d) (other : Bool) : c.Reaches (empty || other) d :=
  ⟨reaches.le, fun some_read => reaches.lt (Bool.or_eq_false_iff.mp some_read).1⟩

theorem or_right (reaches : c.Reaches empty d) (other : Bool) : c.Reaches (other || empty) d :=
  ⟨reaches.le, fun some_read => reaches.lt (Bool.or_eq_false_iff.mp some_read).2⟩

end Cursor.Reaches

/-- The rules have ranks below `width`, and a rule ranks above those that it tries first. -/
structure Grammar.Layered (g : Grammar ρ) (width : Nat) (empty : ρ → Bool) (rank : ρ → Nat) : Prop where
  trivia : ∀ s, (g.trivia s).2.length ≤ s.length
  splits : ∀ r scan, g.body r = .token scan → scan.Splits
  advances : ∀ r scan, g.body r = .token scan → empty r = false → scan.Advances
  phrase : ∀ r p, g.body r = .phrase p → p.mayBeEmpty empty = true → empty r = true
  bounded : ∀ r, rank r < width
  lower : ∀ r p, g.body r = .phrase p → ∀ r' ∈ p.leads empty, rank r' < rank r

variable {g : Grammar ρ} {width : Nat} {empty : ρ → Bool} {rank : ρ → Nat}

theorem Grammar.Layered.skip (layered : g.Layered width empty rank) (c : Cursor) : c.Reaches true (g.skip c) :=
  ⟨layered.trivia c.rest, nofun⟩

theorem Grammar.rounds_reaches (layered : g.Layered width empty rank) {step : Cursor → Outcome ρ}
    (each : ∀ c ts d, step c = some (ts, d) → c.Reaches true d) (n : Nat) (c : Cursor) :
    c.Reaches true (g.rounds step n c).2 := by
  induction n generalizing c with
  | zero => exact .refl c
  | succ n ih =>
    unfold rounds
    cases round : step (g.skip c) with
    | none => exact .refl c
    | some found =>
      obtain ⟨ts, d⟩ := found
      exact ((layered.skip c).trans (each _ ts d round)).trans (ih d)

theorem Pattern.run_reaches (layered : g.Layered width empty rank) {call : ρ → Cursor → Outcome ρ}
    (calls : ∀ r c ts d, call r c = some (ts, d) → c.Reaches (empty r) d) (p : Pattern ρ) :
    ∀ c ts d, p.run g call c = some (ts, d) → c.Reaches (p.mayBeEmpty empty) d := by
  induction p with
  | lit text =>
    intro c ts d found
    obtain ⟨_, read, made⟩ := Option.map_eq_some_iff.mp found
    cases made
    obtain ⟨⟨word, rest⟩, scanned, same⟩ := Option.map_eq_some_iff.mp read
    cases same
    refine ⟨(Scanner.splits_literal text).length_le scanned, fun some_text => ?_⟩
    exact Scanner.advances_literal (by simpa [mayBeEmpty] using some_text) _ _ _ scanned
  | rule r => exact calls r
  | seq p q first second =>
    intro c ts d found
    rw [run] at found
    cases front : p.run g call c with
    | none =>
      rw [front] at found
      cases found
    | some pair =>
      obtain ⟨us, between⟩ := pair
      rw [front] at found
      obtain ⟨⟨vs, final⟩, back, made⟩ := Option.map_eq_some_iff.mp found
      cases made
      have skipped := (first c us between front).trans (layered.skip between)
      rw [Bool.and_true] at skipped
      exact skipped.trans (second _ vs d back)
  | alt p q first second =>
    intro c ts d found
    rw [run] at found
    split at found
    · exact (second c ts d found).or_right _
    · exact (first c ts d found).or_left _
  | opt p ih =>
    intro c ts d found
    rw [run] at found
    split at found
    · cases found
      exact .refl c
    · exact (ih c ts d found).weaken
  | star p ih =>
    intro c ts d found
    rw [run] at found
    cases front : p.run g call c with
    | none =>
      rw [front] at found
      cases found
      exact .refl c
    | some pair =>
      obtain ⟨us, between⟩ := pair
      rw [front] at found
      cases found
      have each c ts d (round : p.run g call c = some (ts, d)) : c.Reaches true d := (ih c ts d round).weaken
      exact (each c us between front).trans (Grammar.rounds_reaches layered each (between.rest.length + 1) between)

theorem Grammar.parse_reaches (layered : g.Layered width empty rank) (depth : Nat) :
    ∀ r c ts d, g.parse depth r c = some (ts, d) → c.Reaches (empty r) d := by
  induction depth with
  | zero =>
    intro r c ts d found
    cases found
  | succ depth ih =>
    intro r c ts d found
    rw [parse] at found
    cases body : g.body r with
    | token scan =>
      rw [body] at found
      obtain ⟨⟨text, after⟩, read, made⟩ := Option.map_eq_some_iff.mp found
      obtain ⟨⟨text', rest⟩, scanned, same⟩ := Option.map_eq_some_iff.mp read
      cases same
      cases made
      exact ⟨(layered.splits r scan body).length_le scanned,
        fun some_read => layered.advances r scan body some_read _ _ _ scanned⟩
    | phrase p =>
      rw [body] at found
      obtain ⟨⟨inner, after⟩, matched, made⟩ := Option.map_eq_some_iff.mp found
      cases made
      have reaches := Pattern.run_reaches layered ih p c inner d matched
      refine ⟨reaches.le, fun some_read => reaches.lt ?_⟩
      cases nothing : p.mayBeEmpty empty with
      | false => rfl
      | true =>
        rw [layered.phrase r p body nothing] at some_read
        cases some_read

/-! ## Depth -/

/-- Two ways to match rules agree on shorter texts, and for some rules on texts of the same length. -/
def Agree (length : Nat) (rules : List ρ) (call call' : ρ → Cursor → Outcome ρ) : Prop :=
  ∀ r c, c.rest.length < length ∨ (c.rest.length ≤ length ∧ r ∈ rules) → call r c = call' r c

theorem Grammar.rounds_congr (layered : g.Layered width empty rank) {length : Nat} {step step' : Cursor → Outcome ρ}
    (agree : ∀ c, c.rest.length ≤ length → step c = step' c)
    (each : ∀ c ts d, step c = some (ts, d) → c.Reaches true d) (n : Nat) (c : Cursor)
    (bound : c.rest.length ≤ length) : g.rounds step n c = g.rounds step' n c := by
  induction n generalizing c with
  | zero => rfl
  | succ n ih =>
    have inside := Nat.le_trans (layered.skip c).le bound
    unfold rounds
    rw [← agree _ inside]
    cases round : step (g.skip c) with
    | none => rfl
    | some found =>
      obtain ⟨ts, d⟩ := found
      simp only [ih d (Nat.le_trans (each _ ts d round).le inside)]

/-- What a pattern gives depends only on the rules that it can try: any rule on a shorter text, and its leading rules on
the text itself. -/
theorem Pattern.run_congr (layered : g.Layered width empty rank) {call call' : ρ → Cursor → Outcome ρ}
    (calls : ∀ r c ts d, call r c = some (ts, d) → c.Reaches (empty r) d) (p : Pattern ρ) :
    ∀ length c, Agree length (p.leads empty) call call' → c.rest.length ≤ length →
      p.run g call c = p.run g call' c := by
  induction p with
  | lit text => exact fun _ _ _ _ => rfl
  | rule r => exact fun length c agree bound => agree r c (.inr ⟨bound, List.mem_singleton_self r⟩)
  | seq p q first second =>
    intro length c agree bound
    have front := first length c (fun r d inside =>
      agree r d (inside.imp_right fun same => ⟨same.1, List.mem_append_left _ same.2⟩)) bound
    rw [run, run, ← front]
    cases found : p.run g call c with
    | none => rfl
    | some pair =>
      obtain ⟨us, d⟩ := pair
      have reaches := (run_reaches layered calls p c us d found).trans (layered.skip d)
      have back : q.run g call (g.skip d) = q.run g call' (g.skip d) := by
        cases nothing : p.mayBeEmpty empty with
        | true =>
          refine second length _ (fun r e inside => agree r e (inside.imp_right fun same => ⟨same.1, ?_⟩))
            (Nat.le_trans reaches.le bound)
          rw [leads, nothing]
          exact List.mem_append_right _ same.2
        | false =>
          -- something was read, so every rule is tried on a shorter text
          rw [nothing] at reaches
          refine second (g.skip d).rest.length _ (fun r e inside => agree r e (.inl ?_)) (Nat.le_refl _)
          have shorter := reaches.lt rfl
          omega
      simp only [back]
  | alt p q first second =>
    intro length c agree bound
    have front := first length c (fun r d inside =>
      agree r d (inside.imp_right fun same => ⟨same.1, List.mem_append_left _ same.2⟩)) bound
    have back := second length c (fun r d inside =>
      agree r d (inside.imp_right fun same => ⟨same.1, List.mem_append_right _ same.2⟩)) bound
    rw [run, run, front, back]
  | opt p ih =>
    intro length c agree bound
    rw [run, run, ih length c agree bound]
  | star p ih =>
    intro length c agree bound
    rw [run, run, ← ih length c agree bound]
    cases found : p.run g call c with
    | none => rfl
    | some pair =>
      obtain ⟨us, d⟩ := pair
      have each c ts d (round : p.run g call c = some (ts, d)) : c.Reaches true d :=
        (run_reaches layered calls p c ts d round).weaken
      have rest := Grammar.rounds_congr layered (fun e inside => ih length e agree inside) each (d.rest.length + 1) d
        (Nat.le_trans (each c us d found).le bound)
      simp only [rest]

/-- Beyond a depth that the rank of the rule and the length of the text give, the depth does not matter. -/
theorem Grammar.parse_stable (layered : g.Layered width empty rank) (r : ρ) (c : Cursor) {depth depth' : Nat}
    (deep : width * c.rest.length + rank r < depth) (deep' : width * c.rest.length + rank r < depth') :
    g.parse depth r c = g.parse depth' r c := by
  obtain ⟨e, rfl⟩ : ∃ e, depth = e + 1 := ⟨depth - 1, by omega⟩
  obtain ⟨e', rfl⟩ : ∃ e', depth' = e' + 1 := ⟨depth' - 1, by omega⟩
  rw [parse, parse]
  cases body : g.body r with
  | token scan => rfl
  | phrase p =>
    have agree : Agree c.rest.length (p.leads empty) (g.parse e) (g.parse e') := by
      intro r' d inside
      have less : width * d.rest.length + rank r' < width * c.rest.length + rank r := by
        rcases inside with shorter | ⟨short, lead⟩
        · have bounded := layered.bounded r'
          have above : width * (d.rest.length + 1) ≤ width * c.rest.length := Nat.mul_le_mul_left width shorter
          rw [Nat.mul_succ] at above
          omega
        · have above : width * d.rest.length ≤ width * c.rest.length := Nat.mul_le_mul_left width short
          have lower := layered.lower r p body r' lead
          omega
      exact parse_stable layered r' d (by omega) (by omega)
    simp only [Pattern.run_congr layered (parse_reaches layered e) p _ c agree (Nat.le_refl _)]
termination_by width * c.rest.length + rank r
decreasing_by exact less

/-- Match a rule, with a depth that is enough for the text. -/
def Grammar.read (g : Grammar ρ) (width : Nat) (r : ρ) (c : Cursor) : Outcome ρ :=
  g.parse (width * (c.rest.length + 1)) r c

theorem Grammar.read_token (layered : g.Layered width empty rank) {r : ρ} {scan : Scanner}
    (body : g.body r = .token scan) (c : Cursor) :
    g.read width r c = (c.read scan).map fun (text, d) => ([.token r c.offset text], d) := by
  have bounded := layered.bounded r
  obtain ⟨e, depth⟩ : ∃ e, width * (c.rest.length + 1) = e + 1 :=
    ⟨width * (c.rest.length + 1) - 1, by rw [Nat.mul_succ]; omega⟩
  rw [read, depth, parse, body]

theorem Grammar.read_phrase (layered : g.Layered width empty rank) {r : ρ} {p : Pattern ρ}
    (body : g.body r = .phrase p) (c : Cursor) :
    g.read width r c = (p.run g (g.read width) c).map fun (ts, d) =>
      ([.phrase r ⟨c.offset, ParseTree.lastToken c.offset ts, d.offset⟩ ts], d) := by
  have bounded := layered.bounded r
  obtain ⟨e, depth⟩ : ∃ e, width * (c.rest.length + 1) = e + 1 :=
    ⟨width * (c.rest.length + 1) - 1, by rw [Nat.mul_succ]; omega⟩
  rw [Nat.mul_succ] at depth
  have agree : Agree c.rest.length (p.leads empty) (g.parse e) (g.read width) := by
    intro r' d inside
    have bounded' := layered.bounded r'
    refine parse_stable layered r' d ?_ (by rw [Nat.mul_succ]; omega)
    rcases inside with shorter | ⟨short, lead⟩
    · have above : width * (d.rest.length + 1) ≤ width * c.rest.length := Nat.mul_le_mul_left width shorter
      rw [Nat.mul_succ] at above
      omega
    · have above : width * d.rest.length ≤ width * c.rest.length := Nat.mul_le_mul_left width short
      have lower := layered.lower r p body r' lead
      omega
  rw [read, Nat.mul_succ, depth, parse, body]
  simp only [Pattern.run_congr layered (parse_reaches layered e) p _ c agree (Nat.le_refl _)]

end LuaLowering.Peg

/-! ## The rules of Lua -/

namespace LuaLowering.Lexeme
open Peg Peg.Scanner

theorem splits_line : Splits line := splits_many _

theorem length_trivia_le (s : List Char) : (trivia s).2.length ≤ s.length := by
  fun_induction trivia s with
  | case1 s none => exact (List.dropWhile_sublist isBlank).length_le
  | case2 s text after found more rest split ih =>
    have shorter := comment_length found
    have dropped := (List.dropWhile_sublist (l := s) isBlank).length_le
    rw [split] at ih
    simp only at ih ⊢
    omega

theorem splits_word (text : String) : (word text).Splits := (splits_literal _).seq (splits_absent _)

theorem advances_word {text : String} (some_text : text.toList ≠ []) : (word text).Advances := by
  refine (splits_word text).advances fun read reads => ?_
  obtain ⟨x, y, rfl, first, -⟩ := reads_seq reads
  rw [reads_literal first]
  simp [some_text]

theorem splits_name : Splits name := by
  intro s text rest found
  cases s with
  | nil => cases found
  | cons c s =>
    rw [name] at found
    split at found
    · simp only at found
      split at found
      · cases found
      · cases found
        rw [List.cons_append, List.takeWhile_append_dropWhile]
    · cases found

theorem advances_name : Advances name := by
  refine splits_name.advances fun text reads => ?_
  obtain ⟨s, rest, found⟩ := reads
  cases s with
  | nil => cases found
  | cons c s =>
    rw [name] at found
    split at found
    · simp only at found
      split at found
      · cases found
      · cases found
        exact List.cons_ne_nil _ _
    · cases found

theorem LongBracket.cut_eq {stop s before after : List Char} (found : cut stop s = some (before, after)) :
    s = before ++ stop ++ after := by
  fun_induction cut stop s generalizing before with
  | case1 => cases found
  | case2 c s isPrefix =>
    cases found
    exact (List.prefix_iff_eq_append.mp (List.isPrefixOf_iff_prefix.mp isPrefix)).symm
  | case3 c s _ ih =>
    obtain ⟨⟨inner, rest⟩, found, made⟩ := Option.map_eq_some_iff.mp found
    cases made
    rw [ih found]
    rfl

theorem LongBracket.splits_scan : Splits LongBracket.scan := by
  intro s text rest found
  obtain ⟨⟨level, inner, after⟩, parts, made⟩ := Option.map_eq_some_iff.mp found
  cases made
  unfold parts? at parts
  split at parts
  · rename_i s
    simp only at parts
    split at parts
    · rename_i tail opened
      obtain ⟨⟨before, after⟩, cut, made⟩ := Option.map_eq_some_iff.mp parts
      cases made
      have marks : s.takeWhile (· == '=') = List.replicate (s.takeWhile (· == '=')).length '=' := by
        refine List.eq_replicate_of_mem fun c member => ?_
        simpa using List.mem_takeWhile_imp member
      calc '[' :: s
        _ = '[' :: (s.takeWhile (· == '=') ++ s.dropWhile (· == '=')) := by rw [List.takeWhile_append_dropWhile]
        _ = '[' :: (s.takeWhile (· == '=') ++ '[' :: tail) := by rw [opened]
        _ = _ := by
          rw [cut_eq cut, opening, ← marks]
          simp
    · cases parts
  · cases parts

theorem LongBracket.advances_scan : Advances LongBracket.scan := by
  refine splits_scan.advances fun text reads => ?_
  obtain ⟨s, rest, found⟩ := reads
  obtain ⟨⟨level, inner, after⟩, -, made⟩ := Option.map_eq_some_iff.mp found
  cases made
  simp [opening]

theorem QuotedString.cons_eq_some {c : Char} {found : Option (List Char × List Char)} {text rest : List Char}
    (made : scanTail.cons c found = some (text, rest)) : ∃ inner, text = c :: inner ∧ found = some (inner, rest) := by
  obtain ⟨⟨inner, after⟩, rfl, same⟩ := Option.map_eq_some_iff.mp made
  cases same
  exact ⟨inner, rfl, rfl⟩

theorem QuotedString.splits_scanTail (quote : Char) (gap : Bool) : Splits (scanTail quote gap) := by
  intro s text rest found
  fun_induction scanTail quote gap s generalizing text with
  | case1 | case3 | case9 => cases found
  | case2 _ _ _ _ ih | case10 _ _ _ _ _ _ _ ih =>
    obtain ⟨inner, rfl, tail⟩ := cons_eq_some found
    rw [ih inner tail, List.cons_append]
  | case4 _ _ _ ih | case7 _ _ _ _ _ _ _ ih =>
    obtain ⟨_, rfl, escaped⟩ := cons_eq_some found
    obtain ⟨inner, rfl, tail⟩ := cons_eq_some escaped
    rw [ih inner tail, List.cons_append, List.cons_append]
  | case5 _ _ _ ih | case6 _ _ _ ih =>
    obtain ⟨_, rfl, escaped⟩ := cons_eq_some found
    obtain ⟨_, rfl, second⟩ := cons_eq_some escaped
    obtain ⟨inner, rfl, tail⟩ := cons_eq_some second
    rw [ih inner tail, List.cons_append, List.cons_append, List.cons_append]
  | case8 =>
    cases found
    rfl

theorem QuotedString.scan_eq_some {s text rest : List Char} (found : scan s = some (text, rest)) :
    ∃ q tail inner, s = q :: tail ∧ text = q :: inner ∧ scanTail q false tail = some (inner, rest) := by
  unfold scan at found
  split at found
  · cases found
  · rename_i q tail
    split at found
    · obtain ⟨⟨inner, after⟩, tailed, made⟩ := Option.map_eq_some_iff.mp found
      cases made
      exact ⟨q, tail, inner, rfl, rfl, tailed⟩
    · cases found

theorem QuotedString.splits_scan : Splits QuotedString.scan := by
  intro s text rest found
  obtain ⟨q, tail, inner, rfl, rfl, tailed⟩ := scan_eq_some found
  rw [splits_scanTail q false tail inner rest tailed, List.cons_append]

theorem QuotedString.advances_scan : Advances QuotedString.scan := by
  refine splits_scan.advances fun text reads => ?_
  obtain ⟨s, rest, found⟩ := reads
  obtain ⟨q, tail, inner, -, rfl, -⟩ := scan_eq_some found
  exact List.cons_ne_nil q inner

namespace Numeral

theorem splits_exponent (letter : Char) : (exponent letter).Splits :=
  splits_all (by simp [splits_one, (splits_one _).opt, digits, splits_many1])

theorem splits_hexMark : Splits hexMark := splits_all (by simp [splits_one, splits_literal])

theorem splits_pointed : Splits pointed :=
  (splits_all (by simp [digits, point, splits_many1, splits_literal, splits_absent, splits_many])).alt
    (splits_all (by simp [digits, point, splits_many1, splits_literal]))

theorem splits_hexPointed : Splits hexPointed :=
  (splits_all (by simp [hexDigits, point, splits_many1, splits_literal, splits_many])).alt
    (splits_all (by simp [hexDigits, point, splits_many1, splits_literal]))

theorem splits_int : Splits int := splits_many1 _

theorem splits_hexInt : Splits hexInt := splits_all (by simp [splits_hexMark, hexDigits, splits_many1])

theorem splits_float : Splits float :=
  (splits_all (by simp [splits_pointed, (splits_exponent _).opt])).alt
    (splits_all (by simp [splits_exponent, digits, splits_many1]))

theorem splits_hexFloat : Splits hexFloat :=
  splits_all (by
    simp only [List.mem_cons, List.not_mem_nil, or_false, forall_eq_or_imp, forall_eq]
    exact ⟨splits_hexMark, (splits_all (by simp [splits_hexPointed, (splits_exponent _).opt])).alt
      (splits_all (by simp [splits_exponent, hexDigits, splits_many1]))⟩)

theorem ne_nil_of_hexMark {parts : List Scanner} {text : List Char} (reads : (all (hexMark :: parts)).Reads text) :
    text ≠ [] := by
  obtain ⟨mark, rest, rfl, isMark, -⟩ := reads_all_cons reads
  obtain ⟨zero, letter, rfl, isZero, -⟩ := reads_all_cons isMark
  rw [reads_literal isZero]
  simp

theorem ne_nil_of_float {text : List Char} (reads : float.Reads text) : text ≠ [] := by
  rcases reads_alt reads with withPoint | withExponent
  · obtain ⟨front, rest, rfl, isPointed, -⟩ := reads_all_cons withPoint
    rcases reads_alt isPointed with digitsFirst | pointFirst
    · obtain ⟨some_digits, others, rfl, isDigits, -⟩ := reads_all_cons digitsFirst
      simp [(reads_many1 isDigits).1]
    · obtain ⟨dot, others, rfl, isPoint, -⟩ := reads_all_cons pointFirst
      rw [reads_literal isPoint]
      simp
  · obtain ⟨front, rest, rfl, isDigits, -⟩ := reads_all_cons withExponent
    simp [(reads_many1 isDigits).1]

end Numeral
end LuaLowering.Lexeme

namespace LuaLowering.Syntax
open Peg Peg.Scanner Lexeme

theorem UnaryOp.splits_scan (op : UnaryOp) : op.scan.Splits := by
  cases op with
  | not => exact splits_word _
  | _ => exact splits_literal _

theorem BinaryOp.splits_scan (op : BinaryOp) : op.scan.Splits := by
  cases op with
  | or | and => exact splits_word _
  | concat => exact (splits_absent _).seq (splits_literal _)
  | _ => exact splits_literal _

theorem UnaryOp.advances_scan (op : UnaryOp) : op.scan.Advances := by
  cases op with
  | not => exact advances_word (by decide)
  | _ => exact advances_literal (by decide)

theorem BinaryOp.advances_scan (op : BinaryOp) : op.scan.Advances := by
  cases op with
  | or | and => exact advances_word (by decide)
  | concat =>
    refine ((splits_absent _).seq (splits_literal _)).advances fun text reads => ?_
    obtain ⟨x, y, rfl, -, second⟩ := reads_seq reads
    rw [reads_literal second]
    simp
  | _ => exact advances_literal (by decide)

namespace Rule

/-- The rules that may match without reading anything. -/
def empty (r : Rule) : Bool := [finish, chunk, block].contains r

/-- A rule ranks above those that it tries first. -/
def rank : Rule → Nat
  | .number | .string | .var | .names | .attribName | .funcName | .namedField => 1
  | .vars | .prefixExp | .callStat | .call | .params | .attribNames => 2
  | .suffix | .exp | .assignStat => 3
  | .exps | .positionalField | .block => 4
  | .chunk => 5
  | _ => 0

end Rule

theorem splits_token {r : Rule} {scan : Scanner} (body : grammar.body r = .token scan) : scan.Splits := by
  cases r <;> cases body
  case finish => exact splits_finish
  case shebang => exact (splits_literal _).seq splits_line
  case nil | false | true | endWord => exact splits_word _
  case unary op => exact op.splits_scan
  case binary op => exact op.splits_scan
  case hexFloat => exact Numeral.splits_hexFloat
  case hexInt => exact Numeral.splits_hexInt
  case float => exact Numeral.splits_float
  case int => exact Numeral.splits_int
  case longString => exact LongBracket.splits_scan
  case quotedString => exact QuotedString.splits_scan
  case name => exact splits_name
  all_goals exact splits_literal _

theorem advances_token {r : Rule} {scan : Scanner} (body : grammar.body r = .token scan) (some_read : r.empty = false) :
    scan.Advances := by
  cases r <;> cases body
  case finish => cases some_read
  case shebang =>
    refine ((splits_literal _).seq splits_line).advances fun text reads => ?_
    obtain ⟨x, y, rfl, first, -⟩ := reads_seq reads
    rw [reads_literal first]
    simp
  case nil | false | true | endWord => exact advances_word (by decide)
  case unary op => exact op.advances_scan
  case binary op => exact op.advances_scan
  case hexFloat => exact Numeral.splits_hexFloat.advances fun text => Numeral.ne_nil_of_hexMark
  case hexInt => exact Numeral.splits_hexInt.advances fun text => Numeral.ne_nil_of_hexMark
  case float => exact Numeral.splits_float.advances fun text => Numeral.ne_nil_of_float
  case int => exact Numeral.splits_int.advances fun text reads => (reads_many1 reads).1
  case longString => exact LongBracket.advances_scan
  case quotedString => exact QuotedString.advances_scan
  case name => exact advances_name
  all_goals exact advances_literal (by decide)

theorem layered_grammar : grammar.Layered 16 Rule.empty Rule.rank where
  trivia := length_trivia_le
  splits _ _ := splits_token
  advances _ _ := advances_token
  phrase r p body := by
    cases r <;> cases body <;> decide
  bounded r := by
    cases r <;> simp [Rule.rank]
  lower r p body := by
    cases r <;> cases body <;> decide

end LuaLowering.Syntax
