import LuaLowering.Peg.Grammar
import Mathlib.Data.List.TakeWhile
/-!
# What scanners and grammars read

`Scanner.Reads` are the texts that a scanner can read, wherever it stands, and `Scanner.Splits` says that it leaves the
rest of the text; there is one rule for each way to build a scanner. Whatever holds of the trees that rules give
holds of the trees that a pattern gives (`Pattern.forall_of_run`), so every token in a parse tree is a text that the
scanner of its rule reads (`Grammar.parse_lexed`).
-/
namespace LuaLowering.Peg

namespace Scanner
variable {a b : Scanner} {p : Char → Bool} {text : List Char}

/-- The scanner can read the text. -/
def Reads (scan : Scanner) (text : List Char) : Prop := ∃ input rest, scan input = some (text, rest)

theorem reads_literal {word : List Char} (reads : (literal word).Reads text) : text = word := by
  obtain ⟨input, rest, found⟩ := reads
  unfold literal at found
  split at found
  · cases found
    rfl
  · cases found

theorem reads_one (reads : (one p).Reads text) : ∃ c, text = [c] ∧ p c = true := by
  obtain ⟨input, rest, found⟩ := reads
  cases input with
  | nil => cases found
  | cons c input =>
    by_cases holds : p c = true
    · rw [one, if_pos holds] at found
      cases found
      exact ⟨c, rfl, holds⟩
    · rw [one, if_neg holds] at found
      cases found

theorem reads_many (reads : (many p).Reads text) : ∀ c ∈ text, p c = true := by
  obtain ⟨input, rest, found⟩ := reads
  cases found
  exact fun c member => List.mem_takeWhile_imp member

theorem reads_many1 (reads : (many1 p).Reads text) : text ≠ [] ∧ ∀ c ∈ text, p c = true := by
  obtain ⟨input, rest, found⟩ := reads
  unfold many1 at found
  split at found
  · cases found
  · rename_i some_read
    cases found
    exact ⟨some_read, fun c member => List.mem_takeWhile_imp member⟩

theorem reads_seq (reads : (seq a b).Reads text) : ∃ x y, text = x ++ y ∧ a.Reads x ∧ b.Reads y := by
  obtain ⟨input, rest, found⟩ := reads
  obtain ⟨⟨x, between⟩, first, found⟩ := Option.bind_eq_some_iff.mp found
  obtain ⟨⟨y, final⟩, second, found⟩ := Option.bind_eq_some_iff.mp found
  cases found
  exact ⟨x, y, rfl, ⟨input, between, first⟩, ⟨between, rest, second⟩⟩

theorem reads_alt (reads : (alt a b).Reads text) : a.Reads text ∨ b.Reads text := by
  obtain ⟨input, rest, found⟩ := reads
  unfold alt at found
  split at found
  · exact .inr ⟨input, rest, found⟩
  · exact .inl ⟨input, rest, found⟩

theorem reads_opt (reads : (opt a).Reads text) : text = [] ∨ a.Reads text := by
  obtain ⟨input, rest, found⟩ := reads
  unfold opt at found
  split at found
  · cases found
    exact .inl rfl
  · exact .inr ⟨input, rest, found⟩

theorem reads_absent (reads : (absent a).Reads text) : text = [] := by
  obtain ⟨input, rest, found⟩ := reads
  unfold absent at found
  split at found
  · cases found
    rfl
  · cases found

theorem reads_all_cons {parts : List Scanner} (reads : (all (a :: parts)).Reads text) :
    ∃ x y, text = x ++ y ∧ a.Reads x ∧ (all parts).Reads y :=
  reads_seq reads

theorem reads_all_singleton (reads : (all [a]).Reads text) : a.Reads text := by
  obtain ⟨x, y, rfl, first, input, rest, nothing⟩ := reads_all_cons reads
  cases nothing
  rwa [List.append_nil]

/-! ## What is read in two steps -/

section
variable {s t u x y : List Char}

theorem seq_eq_some (first : a s = some (x, t)) (second : b t = some (y, u)) : seq a b s = some (x ++ y, u) := by
  simp [seq, first, second]

theorem seq_eq_none (first : a s = none) : seq a b s = none := by
  simp [seq, first]

theorem seq_eq_none_of_some (first : a s = some (x, t)) (second : b t = none) : seq a b s = none := by
  simp [seq, first, second]

theorem alt_of_some (first : a s = some (x, t)) : alt a b s = some (x, t) := by
  simp [alt, first]

theorem alt_of_none (first : a s = none) : alt a b s = b s := by
  simp [alt, first]

end

theorem all_cons (a : Scanner) (parts : List Scanner) : all (a :: parts) = seq a (all parts) := rfl

theorem all_singleton (a : Scanner) : all [a] = a := by
  funext s
  rw [all_cons, seq]
  cases a s <;> simp [all]

theorem all_pair (a b : Scanner) : all [a, b] = seq a b := by rw [all_cons, all_singleton]

/-! ## What is left -/

/-- What is read and what is left make up the text. -/
def Splits (scan : Scanner) : Prop := ∀ s text rest, scan s = some (text, rest) → s = text ++ rest

theorem splits_literal (word : List Char) : (literal word).Splits := by
  intro s text rest found
  unfold literal at found
  split at found
  · rename_i isPrefix
    cases found
    exact (List.prefix_iff_eq_append.mp (List.isPrefixOf_iff_prefix.mp isPrefix)).symm
  · cases found

theorem splits_one (p : Char → Bool) : (one p).Splits := by
  intro s text rest found
  cases s with
  | nil => cases found
  | cons c s =>
    rw [one] at found
    split at found
    · cases found
      rfl
    · cases found

theorem splits_many (p : Char → Bool) : (many p).Splits := by
  intro s text rest found
  cases found
  exact List.takeWhile_append_dropWhile.symm

theorem splits_many1 (p : Char → Bool) : (many1 p).Splits := by
  intro s text rest found
  unfold many1 at found
  split at found
  · cases found
  · cases found
    exact List.takeWhile_append_dropWhile.symm

theorem Splits.seq (first : a.Splits) (second : b.Splits) : (seq a b).Splits := by
  intro s text rest found
  obtain ⟨⟨x, between⟩, front, found⟩ := Option.bind_eq_some_iff.mp found
  obtain ⟨⟨y, final⟩, back, found⟩ := Option.bind_eq_some_iff.mp found
  cases found
  rw [first s x between front, second between y rest back, List.append_assoc]

theorem Splits.alt (first : a.Splits) (second : b.Splits) : (alt a b).Splits := by
  intro s text rest found
  unfold Scanner.alt at found
  split at found
  · exact second s text rest found
  · exact first s text rest found

theorem Splits.opt (splits : a.Splits) : (opt a).Splits := by
  intro s text rest found
  unfold Scanner.opt at found
  split at found
  · cases found
    rfl
  · exact splits s text rest found

theorem splits_absent (a : Scanner) : (absent a).Splits := by
  intro s text rest found
  unfold absent at found
  split at found
  · cases found
    rfl
  · cases found

theorem splits_finish : Splits finish := by
  intro s text rest found
  cases s with
  | nil =>
    cases found
    rfl
  | cons c s => cases found

theorem splits_all {parts : List Scanner} (each : ∀ part ∈ parts, part.Splits) : (all parts).Splits := by
  induction parts with
  | nil =>
    intro s text rest found
    cases found
    rfl
  | cons part parts ih =>
    exact (each part List.mem_cons_self).seq (ih fun other member => each other (List.mem_cons_of_mem _ member))

/-- Something is read. -/
def Advances (scan : Scanner) : Prop := ∀ s text rest, scan s = some (text, rest) → rest.length < s.length

theorem Splits.length_le {scan : Scanner} (splits : scan.Splits) {s text rest : List Char}
    (found : scan s = some (text, rest)) : rest.length ≤ s.length := by
  rw [splits s text rest found, List.length_append]
  omega

theorem Splits.advances {scan : Scanner} (splits : scan.Splits) (reads : ∀ text, scan.Reads text → text ≠ []) :
    scan.Advances := by
  intro s text rest found
  have length := congrArg List.length (splits s text rest found)
  have positive := List.length_pos_iff.mpr (reads text ⟨s, rest, found⟩)
  rw [List.length_append] at length
  omega

theorem advances_literal {word : List Char} (some_text : word ≠ []) : (literal word).Advances :=
  (splits_literal word).advances fun _ reads => reads_literal reads ▸ some_text

end Scanner

variable {ρ : Type} {g : Grammar ρ}

/-- Every token of the tree is a text that the scanner of its rule reads. -/
inductive ParseTree.Lexed (g : Grammar ρ) : ParseTree ρ → Prop where
  | token {r : ρ} {scan : Scanner} {start : Nat} {text : List Char} (rule : g.body r = .token scan)
    (reads : scan.Reads text) : Lexed g (.token r start text)
  | phrase {r : ρ} {range : TextRange} {children : List (ParseTree ρ)} (inner : ∀ t ∈ children, Lexed g t) :
    Lexed g (.phrase r range children)

section Trees
variable {P : ParseTree ρ → Prop}

theorem Grammar.forall_of_rounds {step : Cursor → Outcome ρ}
    (each : ∀ c ts d, step c = some (ts, d) → ∀ t ∈ ts, P t) (n : Nat) (c : Cursor) :
    ∀ t ∈ (g.rounds step n c).1, P t := by
  induction n generalizing c with
  | zero => simp [rounds]
  | succ n ih =>
    unfold rounds
    cases round : step (g.skip c) with
    | none => simp
    | some found =>
      obtain ⟨ts, d⟩ := found
      intro t member
      rcases List.mem_append.mp member with first | later
      · exact each _ ts d round t first
      · exact ih d t later

/-- A property of the trees that rules give is one of the trees that a pattern gives. -/
theorem Pattern.forall_of_run {call : ρ → Cursor → Outcome ρ}
    (calls : ∀ r c ts d, call r c = some (ts, d) → ∀ t ∈ ts, P t) (p : Pattern ρ) :
    ∀ c ts d, p.run g call c = some (ts, d) → ∀ t ∈ ts, P t := by
  induction p with
  | lit text =>
    intro c ts d found
    obtain ⟨_, -, made⟩ := Option.map_eq_some_iff.mp found
    cases made
    simp
  | rule r => exact calls r
  | seq p q first second =>
    intro c ts d found
    rw [run] at found
    cases front : p.run g call c with
    | none =>
      rw [front] at found
      cases found
    | some pair =>
      obtain ⟨us, between⟩ := pair
      rw [front] at found
      obtain ⟨⟨vs, final⟩, back, made⟩ := Option.map_eq_some_iff.mp found
      cases made
      intro t member
      rcases List.mem_append.mp member with inFront | inBack
      · exact first _ us between front t inFront
      · exact second _ vs d back t inBack
  | alt p q first second =>
    intro c ts d found
    rw [run] at found
    split at found
    · exact second c ts d found
    · exact first c ts d found
  | opt p ih =>
    intro c ts d found
    rw [run] at found
    split at found
    · cases found
      simp
    · exact ih c ts d found
  | star p ih =>
    intro c ts d found
    rw [run] at found
    cases front : p.run g call c with
    | none =>
      rw [front] at found
      cases found
      simp
    | some pair =>
      obtain ⟨us, between⟩ := pair
      rw [front] at found
      cases found
      intro t member
      rcases List.mem_append.mp member with inFront | later
      · exact ih _ us between front t inFront
      · exact Grammar.forall_of_rounds (g := g) ih (between.rest.length + 1) between t later

end Trees

/-- The tokens of a parse tree are what their scanners read. -/
theorem Grammar.parse_lexed (g : Grammar ρ) (depth : Nat) :
    ∀ r c ts d, g.parse depth r c = some (ts, d) → ∀ t ∈ ts, t.Lexed g := by
  induction depth with
  | zero =>
    intro r c ts d found
    cases found
  | succ depth ih =>
    intro r c ts d found t member
    rw [parse] at found
    cases body : g.body r with
    | token scan =>
      rw [body] at found
      obtain ⟨⟨text, after⟩, read, made⟩ := Option.map_eq_some_iff.mp found
      obtain ⟨⟨text', rest⟩, scanned, same⟩ := Option.map_eq_some_iff.mp read
      cases same
      cases made
      rw [List.mem_singleton.mp member]
      exact .token body ⟨c.rest, rest, scanned⟩
    | phrase p =>
      rw [body] at found
      obtain ⟨⟨inner, after⟩, matched, made⟩ := Option.map_eq_some_iff.mp found
      cases made
      rw [List.mem_singleton.mp member]
      exact .phrase (Pattern.forall_of_run ih p c inner d matched)

end LuaLowering.Peg
