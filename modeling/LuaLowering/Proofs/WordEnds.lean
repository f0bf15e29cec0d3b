import LuaLowering.Proofs.BlankInsertion
import LuaLowering.Proofs.RoundTrip
/-!
# Where words end

Seven reserved words and all names are read as whole words, and numerals to their last digit, wherever they stand in a
script (`matchChunk_whole`). The other fifteen reserved words, `openWords`, are read whatever stands behind them. So a
script of word characters alone is refused, unless it begins with one of the eight open words that begin a statement
which needs no sign (`Headless.matchChunk_eq_none`); `goto` in front of any name is a whole script (`Chunk.parse_goto`).
-/
namespace LuaLowering

/-! ## Tokens in their script -/

namespace Peg
variable {ρ : Type} {g : Grammar ρ} {I : Cursor → Prop} {P : ParseTree ρ → Prop}

theorem Pattern.run_seq_eq_some {call : ρ → Cursor → Outcome ρ} {p q : Pattern ρ} {c d : Cursor}
    {ts : List (ParseTree ρ)} (found : (Pattern.seq p q).run g call c = some (ts, d)) :
    ∃ us middle vs, p.run g call c = some (us, middle) ∧ q.run g call (g.skip middle) = some (vs, d) ∧
      ts = us ++ vs := by
  rw [Pattern.run] at found
  cases front : p.run g call c with
  | none =>
    rw [front] at found
    cases found
  | some pair =>
    obtain ⟨us, middle⟩ := pair
    rw [front] at found
    obtain ⟨⟨vs, final⟩, back, made⟩ := Option.map_eq_some_iff.mp found
    cases made
    exact ⟨us, middle, vs, rfl, back, rfl⟩

theorem Grammar.parse_token_eq_some {r : ρ} {scan : Scanner} (body : g.body r = .token scan)
    {depth : Nat} {c d : Cursor} {ts : List (ParseTree ρ)} (found : g.parse depth r c = some (ts, d)) :
    ∃ text rest, scan c.rest = some (text, rest) ∧ ts = [.token r c.offset text] ∧
      d = ⟨c.offset + Text.byteSize text, rest⟩ := by
  cases depth with
  | zero => cases found
  | succ depth =>
    rw [parse, body] at found
    obtain ⟨⟨text, after⟩, read, made⟩ := Option.map_eq_some_iff.mp found
    obtain ⟨⟨text', rest⟩, scanned, same⟩ := Option.map_eq_some_iff.mp read
    cases same
    cases made
    exact ⟨text, rest, scanned, rfl, rfl⟩

theorem Grammar.rounds_keeps {step : Cursor → Outcome ρ} (skips : ∀ c, I c → I (g.skip c))
    (each : ∀ c ts d, I c → step c = some (ts, d) → I d ∧ ∀ t ∈ ts, P t) (n : Nat) {c : Cursor} (here : I c) :
    I (g.rounds step n c).2 ∧ ∀ t ∈ (g.rounds step n c).1, P t := by
  induction n generalizing c with
  | zero => exact ⟨here, by simp [rounds]⟩
  | succ n ih =>
    rw [rounds]
    cases round : step (g.skip c) with
    | none => exact ⟨here, by simp⟩
    | some found =>
      obtain ⟨ts, d⟩ := found
      obtain ⟨there, first⟩ := each _ ts d (skips c here) round
      obtain ⟨last, others⟩ := ih there
      exact ⟨last, List.forall_mem_append.mpr ⟨first, others⟩⟩

/-- What holds of the cursor at each step, and of the trees that are made there, holds of a whole match. -/
theorem Pattern.run_keeps {call : ρ → Cursor → Outcome ρ} (skips : ∀ c, I c → I (g.skip c))
    (reads : ∀ text c read d, I c → c.read (.literal text) = some (read, d) → I d)
    (calls : ∀ r c ts d, I c → call r c = some (ts, d) → I d ∧ ∀ t ∈ ts, P t) (p : Pattern ρ) :
    ∀ c ts d, I c → p.run g call c = some (ts, d) → I d ∧ ∀ t ∈ ts, P t := by
  induction p with
  | lit text =>
    intro c ts d here found
    obtain ⟨⟨read, after⟩, matched, made⟩ := Option.map_eq_some_iff.mp found
    cases made
    exact ⟨reads text c read d here matched, by simp⟩
  | rule r => exact calls r
  | seq p q first second =>
    intro c ts d here found
    obtain ⟨us, between, vs, front, back, rfl⟩ := run_seq_eq_some found
    obtain ⟨there, inFront⟩ := first c us between here front
    obtain ⟨last, inBack⟩ := second _ vs d (skips between there) back
    exact ⟨last, List.forall_mem_append.mpr ⟨inFront, inBack⟩⟩
  | alt p q first second =>
    intro c ts d here found
    rw [run] at found
    split at found
    · exact second c ts d here found
    · exact first c ts d here found
  | opt p ih =>
    intro c ts d here found
    rw [run] at found
    split at found
    · cases found
      exact ⟨here, by simp⟩
    · exact ih c ts d here found
  | star p ih =>
    intro c ts d here found
    rw [run] at found
    cases front : p.run g call c with
    | none =>
      rw [front] at found
      cases found
      exact ⟨here, by simp⟩
    | some pair =>
      obtain ⟨us, between⟩ := pair
      rw [front] at found
      cases found
      obtain ⟨there, inFront⟩ := ih c us between here front
      obtain ⟨last, later⟩ := Grammar.rounds_keeps skips ih (between.rest.length + 1) there
      exact ⟨last, List.forall_mem_append.mpr ⟨inFront, later⟩⟩

end Peg

namespace Lexeme
open Peg

theorem StandsIn.skip {script : List Char} {c : Cursor} (stands : StandsIn script c) :
    StandsIn script (Syntax.grammar.skip c) := by
  exact (skip_path c).1.standsIn stands

theorem StandsIn.behind {script : List Char} {offset : Nat} {text rest : List Char}
    (stands : StandsIn script ⟨offset, text ++ rest⟩) : StandsIn script ⟨offset + Text.byteSize text, rest⟩ := by
  obtain ⟨before, whole, size⟩ := stands
  refine ⟨before ++ text, ?_, ?_⟩
  · rw [whole, List.append_assoc]
  · rw [Text.byteSize_append, size]

end Lexeme

namespace Syntax
open Peg Peg.Pattern Lexeme

/-- A token stands where its tree says, and what its rule reads there is this token. -/
def ScannedIn (script : List Char) (t : ParseTree Rule) : Prop :=
  ∀ r start text, t = .token r start text → ∃ scan after, grammar.body r = .token scan ∧
    StandsIn script ⟨start, text ++ after⟩ ∧ scan (text ++ after) = some (text, after)

theorem parse_scannedIn {script : List Char} (depth : Nat) : ∀ r c ts d, StandsIn script c →
    grammar.parse depth r c = some (ts, d) → StandsIn script d ∧ ∀ t ∈ ts, t.Throughout (ScannedIn script) := by
  induction depth with
  | zero =>
    intro r c ts d stands found
    cases found
  | succ depth ih =>
    intro r c ts d stands found
    cases body : grammar.body r with
    | token scan =>
      obtain ⟨text, rest, scanned, rfl, rfl⟩ := Peg.Grammar.parse_token_eq_some body found
      have here := splits_token body _ _ _ scanned
      obtain ⟨offset, unread⟩ := c
      cases here
      refine ⟨stands.behind, List.forall_mem_singleton.mpr (.intro ?_ (by simp [ParseTree.children]))⟩
      rintro _ _ _ ⟨⟩
      exact ⟨scan, rest, body, stands, scanned⟩
    | phrase p =>
      rw [Peg.Grammar.parse, body] at found
      obtain ⟨⟨inner, after⟩, matched, made⟩ := Option.map_eq_some_iff.mp found
      cases made
      have literals (text : List Char) (c : Cursor) (read : List Char) (d : Cursor) (stands : StandsIn script c)
          (matched : c.read (.literal text) = some (read, d)) : StandsIn script d := by
        obtain ⟨⟨word, rest⟩, scanned, same⟩ := Option.map_eq_some_iff.mp matched
        cases same
        obtain ⟨offset, unread⟩ := c
        cases Scanner.splits_literal _ _ _ _ scanned
        exact stands.behind
      have skips (c : Cursor) (stands : StandsIn script c) : StandsIn script (grammar.skip c) := stands.skip
      obtain ⟨last, throughout⟩ := run_keeps skips literals ih p c inner _ stands matched
      exact ⟨last, List.forall_mem_singleton.mpr (.intro (by simp [ScannedIn]) throughout)⟩

/-- Every token of a tree was read from its own place in the script. -/
theorem matchChunk_scannedIn {text : List Char} {tree : ParseTree Rule} (matched : matchChunk text = some tree) :
    tree.Throughout (ScannedIn text) := by
  unfold matchChunk at matched
  split at matched
  · rename_i found
    cases matched
    exact (parse_scannedIn _ _ _ _ _ ⟨[], rfl, rfl⟩ found).2 tree (by simp)
  · cases matched

end Syntax

/-! ## How scanners stop -/

namespace Peg.Scanner
variable {p : Char → Bool} {a b : Scanner}

/-- The scanner reads all characters of the class. -/
def Halts (p : Char → Bool) (scan : Scanner) : Prop := ∀ s text rest, scan s = some (text, rest) → Stops p rest

theorem halts_many (p : Char → Bool) : (many p).Halts p := by
  intro s text rest found
  cases found
  exact stops_dropWhile p s

theorem halts_many1 (p : Char → Bool) : (many1 p).Halts p := by
  intro s text rest found
  unfold many1 at found
  split at found
  · cases found
  · cases found
    exact stops_dropWhile p s

theorem halts_absent (p : Char → Bool) : (absent (one p)).Halts p := by
  intro s text rest found
  cases s with
  | nil =>
    cases found
    exact stops_nil p
  | cons c s =>
    unfold absent at found
    split at found
    · rename_i none
      cases found
      refine stops_cons.mpr (Bool.eq_false_iff.mpr fun inside => ?_)
      rw [one, if_pos inside] at none
      cases none
    · cases found

theorem Halts.seq (a : Scanner) (last : b.Halts p) : (seq a b).Halts p := by
  intro s text rest found
  obtain ⟨⟨x, between⟩, -, found⟩ := Option.bind_eq_some_iff.mp found
  obtain ⟨⟨y, final⟩, back, found⟩ := Option.bind_eq_some_iff.mp found
  cases found
  exact last between y rest back

theorem Halts.seq_opt (first : a.Halts p) (second : b.Halts p) : (Scanner.seq a (opt b)).Halts p := by
  intro s text rest found
  obtain ⟨⟨x, between⟩, front, found⟩ := Option.bind_eq_some_iff.mp found
  obtain ⟨⟨y, final⟩, back, found⟩ := Option.bind_eq_some_iff.mp found
  cases found
  unfold opt at back
  split at back
  · cases back
    exact first s x rest front
  · exact second between y rest back

theorem Halts.alt (first : a.Halts p) (second : b.Halts p) : (alt a b).Halts p := by
  intro s text rest found
  unfold Scanner.alt at found
  split at found
  · exact second s text rest found
  · exact first s text rest found

theorem Halts.mono {q : Char → Bool} (halts : a.Halts q) (inside : ∀ c, p c = true → q c = true) : a.Halts p :=
  fun s text rest found => stops_mono inside (halts s text rest found)

end Peg.Scanner

namespace Lexeme
open Peg Peg.Scanner

theorem halts_word (text : String) : (word text).Halts isWordChar := .seq _ (halts_absent _)

theorem halts_name : Halts isWordChar name := by
  intro s text rest found
  cases s with
  | nil => cases found
  | cons c s =>
    rw [name] at found
    split at found
    · simp only at found
      split at found
      · cases found
      · cases found
        exact stops_dropWhile _ _
    · cases found

namespace Numeral

theorem halts_digits : Halts Char.isDigit digits := halts_many1 _

theorem isHexDigit_of_isDigit (c : Char) (digit : c.isDigit = true) : Text.isHexDigit c = true := by
  simp [Text.isHexDigit, digit]

theorem halts_hexInt : Halts Text.isHexDigit hexInt := by
  rw [hexInt, all_cons, all_singleton]
  exact .seq _ (halts_many1 _)

theorem halts_exponent (letter : Char) : (exponent letter).Halts Char.isDigit := by
  rw [exponent, all_cons, all_cons, all_singleton]
  exact .seq _ (.seq _ halts_digits)

theorem halts_pointed : Halts Char.isDigit pointed := by
  rw [pointed, all_cons, all_cons, all_cons, all_singleton, all_cons, all_singleton]
  exact .alt (.seq _ (.seq _ (.seq _ (halts_many _)))) (.seq _ halts_digits)

theorem halts_hexPointed : Halts Char.isDigit hexPointed := by
  rw [hexPointed, all_cons, all_cons, all_singleton, all_cons, all_singleton]
  exact .mono (.alt (.seq _ (.seq _ (halts_many _))) (.seq _ (halts_many1 _))) isHexDigit_of_isDigit

end Numeral
end Lexeme

namespace Syntax
open Peg Peg.Pattern Lexeme

theorem NumeralClass.halts_scan (k : NumeralClass) : k.scan.Halts Char.isDigit := by
  cases k with
  | int => exact Numeral.halts_digits
  | hex => exact Numeral.halts_hexInt.mono Numeral.isHexDigit_of_isDigit
  | float =>
    rw [scan, Numeral.float, Scanner.all_cons, Scanner.all_singleton, Scanner.all_cons, Scanner.all_singleton]
    have exponent := Numeral.halts_exponent 'e'
    exact .alt (Numeral.halts_pointed.seq_opt exponent) (.seq _ exponent)
  | hexFloat =>
    rw [scan, Numeral.hexFloat, Scanner.all_cons, Scanner.all_singleton, Scanner.all_cons, Scanner.all_singleton,
      Scanner.all_cons, Scanner.all_singleton]
    have exponent := Numeral.halts_exponent 'p'
    exact .seq _ (.alt (Numeral.halts_hexPointed.seq_opt exponent) (.seq _ exponent))

/-! ## Whole words -/

/-- What stands behind a token does not go on with it. Open words apart, this is so for reserved words and names, where
it would be a word character, and for numerals, where it would be a digit, or a hexadecimal one. -/
def Whole (script : List Char) (t : ParseTree Rule) : Prop :=
  ∀ r start text, t = .token r start text → ∃ after, StandsIn script ⟨start, text ++ after⟩ ∧
    (isReserved text = true → text ∈ openWords ∨ Stops isWordChar after) ∧
    (r = .name → isReserved text = false ∧ Stops isWordChar after) ∧
    (r.isNumeral = true → Stops Char.isDigit after) ∧ (r = .hexInt → Stops Text.isHexDigit after)

theorem isWordStart_of_isReserved {text : List Char} (reserved : isReserved text = true) :
    ∃ c s, text = c :: s ∧ isWordStart c = true := by
  obtain ⟨word, listed, same⟩ := List.any_eq_true.mp reserved
  obtain rfl := beq_iff_eq.mp same
  have each : (reservedWords.all fun word => word.toList.head?.any isWordStart) = true := rfl
  obtain ⟨c, first, starts⟩ := (Option.any_eq_true _ _).mp (List.all_eq_true.mp each word listed)
  obtain ⟨s, letters⟩ := List.head?_eq_some_iff.mp first
  exact ⟨c, s, letters, starts⟩

theorem not_isReserved_of_name {s text rest : List Char} (found : name s = some (text, rest)) :
    isReserved text = false := by
  cases s with
  | nil => cases found
  | cons c s =>
    rw [name] at found
    split at found
    · simp only at found
      split at found
      · cases found
      · rename_i free
        cases found
        simpa using free
    · cases found

/-- A reserved word that is a token is open, or it ends as a word. -/
theorem stops_of_isReserved {r : Rule} {scan : Scanner} (body : grammar.body r = .token scan)
    {text after : List Char} (found : scan (text ++ after) = some (text, after)) (reserved : isReserved text = true) :
    text ∈ openWords ∨ Stops isWordChar after := by
  obtain ⟨c, x, rfl, starts⟩ := isWordStart_of_isReserved reserved
  have reads : scan.Reads (c :: x) := ⟨_, _, found⟩
  have sign (d : Char) (outside : isWordStart d = false) : c ≠ d := by
    rintro rfl
    rw [starts] at outside
    cases outside
  have unread (none : scan (c :: (x ++ after)) = none) : False := by
    rw [List.cons_append, none] at found
    cases found
  have numeral (k : NumeralClass) (same : k.scan = scan) : False := by
    subst same
    have digit : c.isDigit = false := isDigit_of_isWordStart starts
    exact unread (numeral_none k digit (sign '.' (by decide)) _)
  cases r <;> cases body
  case hexFloat => exact (numeral .hexFloat rfl).elim
  case hexInt => exact (numeral .hex rfl).elim
  case float => exact (numeral .float rfl).elim
  case int => exact (numeral .int rfl).elim
  case finish => cases found
  case shebang =>
    refine (unread ?_).elim
    rw [Scanner.seq, literal_none (sign '#' (by decide)).symm]
    rfl
  case longString => exact (unread (longString_none (sign '[' (by decide)) _)).elim
  case quotedString => exact (unread (quotedString_none (sign '"' (by decide)) (sign '\'' (by decide)) _)).elim
  case name =>
    rw [not_isReserved_of_name found] at reserved
    cases reserved
  case nil | false | true | endWord => exact .inr (halts_word _ _ _ _ found)
  case unary op =>
    cases op with
    | not => exact .inr (halts_word _ _ _ _ found)
    | _ =>
      rw [Scanner.reads_literal reads] at reserved
      exact absurd reserved (by decide)
  case binary op =>
    cases op with
    | or | and => exact .inr (halts_word _ _ _ _ found)
    | concat =>
      obtain ⟨_, y, whole, first, second⟩ := Scanner.reads_seq reads
      rw [whole, Scanner.reads_absent first, Scanner.reads_literal second] at reserved
      exact absurd reserved (by decide)
    | _ =>
      rw [Scanner.reads_literal reads] at reserved
      exact absurd reserved (by decide)
  case breakStat =>
    rw [Scanner.reads_literal reads]
    exact .inl (by decide)
  all_goals
    rw [Scanner.reads_literal reads] at reserved
    exact absurd reserved (by decide)

theorem whole_of_scannedIn {script : List Char} {t : ParseTree Rule} (scanned : ScannedIn script t) :
    Whole script t := by
  intro r start text same
  obtain ⟨scan, after, body, stands, found⟩ := scanned r start text same
  refine ⟨after, stands, stops_of_isReserved body found, ?_, fun numeral => ?_, ?_⟩
  · rintro rfl
    cases body
    exact ⟨not_isReserved_of_name found, halts_name _ _ _ found⟩
  · obtain ⟨k, rfl⟩ := Rule.eq_of_isNumeral numeral
    rw [k.body_rule] at body
    cases body
    exact k.halts_scan _ _ _ found
  · rintro rfl
    cases body
    exact Numeral.halts_hexInt _ _ _ found

/-- Words and numerals are whole wherever they stand in a script. -/
theorem matchChunk_whole {text : List Char} {tree : ParseTree Rule} (matched : matchChunk text = some tree) :
    tree.Throughout (Whole text) :=
  (matchChunk_scannedIn matched).mono fun _ => whole_of_scannedIn

/-! ## A single word -/

/-- The open words that begin a statement which may be written without any sign. -/
def headWords : List (List Char) :=
  ["break", "do", "goto", "if", "local", "repeat", "return", "while"].map String.toList

/-- Nothing but word characters stands at the cursor. -/
def InWord (c : Cursor) : Prop := ∀ d ∈ c.rest, isWordChar d = true

/-- Where the pattern matches, this is left of the text. -/
def Leaves (rest : List Char) (p : Pattern Rule) (c : Cursor) : Prop :=
  ∀ depth ts d, p.run grammar (grammar.parse depth) c = some (ts, d) → d.rest = rest

section
variable {p q : Pattern Rule} {c : Cursor} {rest rest' : List Char}

theorem run_reaches {depth : Nat} {ts : List (ParseTree Rule)} {d : Cursor}
    (found : p.run grammar (grammar.parse depth) c = some (ts, d)) : c.Reaches (p.mayBeEmpty Rule.empty) d :=
  Pattern.run_reaches layered_grammar (Peg.Grammar.parse_reaches layered_grammar depth) p c ts d found

theorem rest_eq_nil {d : Cursor} {empty : Bool} (reaches : c.Reaches empty d) (isEnd : c.rest = []) : d.rest = [] := by
  have shorter := reaches.le
  rw [isEnd] at shorter
  exact List.eq_nil_of_length_eq_zero (Nat.le_zero.mp shorter)

theorem rest_skip_nil (isEnd : c.rest = []) : (grammar.skip c).rest = [] :=
  rest_eq_nil (layered_grammar.skip c) isEnd

theorem leaves_nil (p : Pattern Rule) (isEnd : c.rest = []) : Leaves [] p c :=
  fun _ _ _ found => rest_eq_nil (run_reaches found) isEnd

/-- At the end of the text, what has to read something fails. -/
theorem dead_of_nil (some_read : p.mayBeEmpty Rule.empty = false) (isEnd : c.rest = []) : Dead p c := by
  intro depth
  cases found : p.run grammar (grammar.parse depth) c with
  | none => rfl
  | some pair =>
    obtain ⟨ts, d⟩ := pair
    have shorter := (run_reaches found).lt some_read
    rw [isEnd] at shorter
    cases shorter

theorem Dead.leaves (dead : Dead p c) : Leaves rest p c := by
  intro depth ts d found
  rw [dead depth] at found
  cases found

theorem Dead.leaves_opt (dead : Dead p c) : Leaves c.rest (.opt p) c := by
  intro depth ts d found
  rw [run, dead depth] at found
  cases found
  rfl

theorem Dead.leaves_star (dead : Dead p c) : Leaves c.rest (.star p) c := by
  intro depth ts d found
  rw [run, dead depth] at found
  cases found
  rfl

theorem Leaves.alt (first : Leaves rest p c) (second : Leaves rest q c) : Leaves rest (.alt p q) c := by
  intro depth ts d found
  rw [run] at found
  split at found
  · exact second depth ts d found
  · exact first depth ts d found

theorem Leaves.phrase {r : Rule} (body : grammar.body r = .phrase p) (inner : Leaves rest p c) :
    Leaves rest (.rule r) c := by
  intro depth ts d found
  rw [run] at found
  cases depth with
  | zero => cases found
  | succ depth =>
    rw [Peg.Grammar.parse, body] at found
    obtain ⟨⟨us, after⟩, matched, made⟩ := Option.map_eq_some_iff.mp found
    cases made
    exact inner depth us _ matched

theorem Leaves.seq (first : Leaves rest p c) (second : ∀ d, d.rest = rest → Leaves rest' q (grammar.skip d)) :
    Leaves rest' (.seq p q) c := by
  intro depth ts d found
  obtain ⟨us, between, vs, front, back, -⟩ := run_seq_eq_some found
  exact second between (first depth us between front) depth vs d back

theorem dead_seq_of_run
    (each : ∀ depth ts d, p.run grammar (grammar.parse depth) c = some (ts, d) → Dead q (grammar.skip d)) :
    Dead (.seq p q) c := by
  intro depth
  cases found : (Pattern.seq p q).run grammar (grammar.parse depth) c with
  | none => rfl
  | some pair =>
    obtain ⟨us, between, vs, front, back, -⟩ := run_seq_eq_some found
    rw [each depth us between front depth] at back
    cases back

theorem Leaves.dead_seq (first : Leaves rest p c) (second : ∀ d, d.rest = rest → Dead q (grammar.skip d)) :
    Dead (.seq p q) c :=
  dead_seq_of_run fun depth ts d found => second d (first depth ts d found)

theorem Leaves.seq_nil (first : Leaves [] p c) (q : Pattern Rule) : Leaves [] (.seq p q) c :=
  first.seq fun _ isEnd => leaves_nil q (rest_skip_nil isEnd)

/-- Where nothing is left for the second part, the two fail. -/
theorem Leaves.dead_seq_nil (first : Leaves [] p c) (some_read : q.mayBeEmpty Rule.empty = false) : Dead (.seq p q) c :=
  first.dead_seq fun _ isEnd => dead_of_nil some_read (rest_skip_nil isEnd)

/-! ### Patterns in a word -/

theorem InWord.suffix {d : Cursor} (word : InWord c) (inside : d.rest <:+ c.rest) : InWord d :=
  fun e member => word e (inside.subset member)

theorem InWord.skip (word : InWord c) : InWord (grammar.skip c) := by
  exact word.suffix ⟨spelled (gaps c), (skip_path c).1.rest_eq.symm⟩

theorem InWord.settled (word : InWord c) : Settled c.rest := by
  obtain ⟨offset, rest⟩ := c
  cases rest with
  | nil => exact ⟨rfl, rfl⟩
  | cons a s =>
    obtain ⟨visible, dash, -⟩ := isWordChar_visible (word a (by simp))
    exact settled_cons visible dash s

/-- A literal that begins with a sign. -/
theorem InWord.literal_none (word : InWord c) {a : Char} {text : List Char} (outside : isWordChar a = false) :
    Scanner.literal (a :: text) c.rest = none := by
  obtain ⟨offset, rest⟩ := c
  cases rest with
  | nil => rfl
  | cons d s =>
    refine Syntax.literal_none ?_ text s
    rintro rfl
    have inside := word a (by simp)
    rw [outside] at inside
    cases inside

theorem InWord.dead_sign (word : InWord c) {a : Char} {text : List Char} (outside : isWordChar a = false) :
    Dead (.lit (a :: text)) c :=
  dead_lit (word.literal_none outside)

theorem InWord.leaves_name (word : InWord c) : Leaves [] (.rule .name) c := by
  intro depth ts d found
  have body : grammar.body .name = .token Lexeme.name := rfl
  obtain ⟨text, rest, scanned, -, rfl⟩ := Peg.Grammar.parse_token_eq_some body found
  have split := splits_name _ _ _ scanned
  have stops := halts_name _ _ _ scanned
  cases rest with
  | nil => rfl
  | cons e rest =>
    have inside := word e (by simp [split])
    rw [stops_cons.mp stops] at inside
    cases inside

theorem InWord.leaves_var (word : InWord c) : Leaves [] (.rule .var) c := by
  have paren : Dead (.rule .parenExp) c := dead_phrase (r := .parenExp) rfl (word.dead_sign (by decide)).seq
  exact .phrase rfl ((word.leaves_name.alt paren.seq.leaves).seq_nil _)

/-- Behind a literal in a word, the word goes on. -/
theorem InWord.dead_lit_seq (word : InWord c) (text : List Char) (dead : ∀ d, InWord d → Dead q d) :
    Dead (.seq (.lit text) q) c := by
  refine dead_seq_of_run fun depth ts d found => dead _ (InWord.skip ?_)
  obtain ⟨_, matched, made⟩ := Option.map_eq_some_iff.mp found
  cases made
  obtain ⟨⟨read, rest⟩, scanned, same⟩ := Option.map_eq_some_iff.mp matched
  cases same
  exact word.suffix ⟨read, (Scanner.splits_literal _ _ _ _ scanned).symm⟩

/-- The statements that begin with a sign or with a variable are not written in a word. -/
theorem InWord.dead_signed (word : InWord c) :
    Dead (.rule .semicolon) c ∧ Dead (.rule .assignStat) c ∧ Dead (.rule .callStat) c ∧ Dead (.rule .labelStat) c := by
  have paren : Dead (.rule .parenExp) c := dead_phrase (r := .parenExp) rfl (word.dead_sign (by decide)).seq
  have vars : Leaves [] (.rule .vars) c := .phrase rfl (word.leaves_var.seq_nil _)
  refine ⟨dead_token rfl (word.literal_none (by decide)), ?_, ?_, ?_⟩
  · exact dead_phrase (r := .assignStat) rfl (vars.dead_seq_nil (by decide))
  · exact dead_phrase (r := .callStat) rfl ((word.leaves_var.alt paren.leaves).dead_seq_nil (by decide))
  · exact dead_phrase (r := .labelStat) rfl (word.dead_sign (by decide)).seq

/-- Neither do loops over numbers or values and functions fit into a word: behind their names there is a sign or a
word. -/
theorem InWord.dead_named (word : InWord c) :
    Dead (.rule .numericForStat) c ∧ Dead (.rule .genericForStat) c ∧ Dead (.rule .functionStat) c := by
  refine ⟨dead_phrase (r := .numericForStat) rfl (word.dead_lit_seq _ fun d inside => ?_),
    dead_phrase (r := .genericForStat) rfl (word.dead_lit_seq _ fun d inside => ?_),
    dead_phrase (r := .functionStat) rfl (word.dead_lit_seq _ fun d inside => ?_)⟩
  · exact inside.leaves_name.dead_seq_nil (by decide)
  · have names : Leaves [] (.rule .names) d := .phrase rfl (inside.leaves_name.seq_nil _)
    exact names.dead_seq_nil (by decide)
  · have funcName : Leaves [] (.rule .funcName) d := .phrase rfl ((inside.leaves_name.seq_nil _).seq_nil _)
    exact funcName.dead_seq_nil (by decide)

end

/-! ### Words without a head -/

/-- Word characters only, and no head word in front. -/
structure Headless (word : List Char) : Prop where
  some_text : word ≠ []
  inside : ∀ c ∈ word, isWordChar c = true
  free : ∀ head ∈ headWords, ¬ head <+: word

namespace Headless
variable {word : List Char} {c : Cursor}

theorem inWord (headless : Headless word) (here : c.rest = word) : InWord c := by
  rw [InWord, here]
  exact headless.inside

theorem rest_skip (headless : Headless word) (here : c.rest = word) : (grammar.skip c).rest = word := by
  rw [skip_settled (headless.inWord here).settled, here]

/-- No statement begins here, and no return. -/
theorem dead_stat (headless : Headless word) (here : c.rest = word) :
    Dead Grammar.stat c ∧ Dead (.rule .retStat) c := by
  have unread (text : String) (listed : text.toList ∈ headWords) : Scanner.literal text.toList c.rest = none := by
    rw [Scanner.literal, if_neg]
    exact fun begins => headless.free _ listed (here ▸ List.isPrefixOf_iff_prefix.mp begins)
  have headed {r : Rule} {q : Pattern Rule} (text : String) (listed : text.toList ∈ headWords)
      (body : grammar.body r = .phrase (.seq (.text text) q)) : Dead (.rule r) c :=
    dead_phrase body (dead_lit (unread text listed)).seq
  obtain ⟨semicolon, assignStat, callStat, labelStat⟩ := (headless.inWord here).dead_signed
  obtain ⟨numericForStat, genericForStat, functionStat⟩ := (headless.inWord here).dead_named
  have breakStat : Dead (.rule .breakStat) c := dead_token rfl (unread "break" (by decide))
  refine ⟨?_, headed "return" (by decide) rfl⟩
  exact semicolon.alt <| assignStat.alt <| callStat.alt <| labelStat.alt <| breakStat.alt <|
    (headed "goto" (by decide) rfl).alt <| (headed "do" (by decide) rfl).alt <| (headed "while" (by decide) rfl).alt <|
    (headed "repeat" (by decide) rfl).alt <| (headed "if" (by decide) rfl).alt <| numericForStat.alt <|
    genericForStat.alt <| functionStat.alt <| (headed "local" (by decide) rfl).alt (headed "local" (by decide) rfl)

theorem leaves_block (headless : Headless word) (here : c.rest = word) : Leaves word (.rule .block) c := by
  have stats : Leaves word (.star Grammar.stat) c := here ▸ (headless.dead_stat here).1.leaves_star
  refine .phrase rfl (stats.seq fun d same => ?_)
  have still := headless.rest_skip same
  exact still ▸ (headless.dead_stat still).2.leaves_opt

theorem dead_shebang (headless : Headless word) (here : c.rest = word) : Dead (.rule .shebang) c := by
  refine dead_token rfl ?_
  have outside : Scanner.literal ['#'] c.rest = none := (headless.inWord here).literal_none (by decide)
  rw [Scanner.seq, outside]
  rfl

/-- Nothing of the word is read, so it does not end where the script has to. -/
theorem dead_chunk (headless : Headless word) (here : c.rest = word) : Dead (.rule .chunk) c := by
  have finish {d : Cursor} (same : d.rest = word) : Dead (.rule .finish) d := by
    refine dead_token rfl ?_
    obtain ⟨a, s, letters⟩ := List.exists_cons_of_ne_nil headless.some_text
    rw [same, letters]
    rfl
  have start : Leaves word (.text "") c := by
    intro depth ts d found
    cases found
    exact here
  refine dead_phrase (r := .chunk) rfl (start.dead_seq fun d same => ?_)
  have atStart := headless.rest_skip same
  have front : Leaves word (.opt (.rule .shebang)) (grammar.skip d) :=
    atStart ▸ (headless.dead_shebang atStart).leaves_opt
  refine front.dead_seq fun d same => (headless.leaves_block (headless.rest_skip same)).dead_seq fun d same => ?_
  exact finish (headless.rest_skip same)

theorem matchChunk_eq_none (headless : Headless word) : matchChunk word = none := by
  have failed : grammar.parse (depthBound word) .chunk ⟨0, word⟩ = none := headless.dead_chunk rfl _
  rw [matchChunk, failed]

end Headless

/-! ## Words that are scripts -/

theorem Chunk.parse_of_matchChunk {text : String} {t : ParseTree Rule} (matched : matchChunk text.toList = some t)
    {chunk : Chunk} (made : chunkOf t = .ok chunk) (file : String) : Chunk.parse ⟨file, text⟩ = .ok chunk := by
  simp only [parse, matched, made]
  rfl

theorem fails_nil {p : Pattern Rule} (some_read : p.mayBeEmpty Rule.empty = false) : Fails p [] := by
  intro _ c here
  cases found : tries p c with
  | none => rfl
  | some pair =>
    obtain ⟨ts, d⟩ := pair
    have shorter := length_of_tries some_read found
    rw [here] at shorter
    cases shorter

theorem fails_of_dead {r : Rule} {tokens : List String} (dead : ∀ c, c.rest = joined tokens → Dead (.rule r) c) :
    Fails (.rule r) tokens := by
  intro _ c here
  rw [tries_rule]
  exact dead c here _

section
variable {n : String}

theorem joined_goto (n : String) : joined ["goto" ++ n] = "goto".toList ++ n.toList := by
  simp [joined, spaced]

theorem inWord_of_isIdentifier (identifier : isIdentifier n = true) (offset : Nat) : InWord ⟨offset, n.toList⟩ := by
  obtain ⟨a, x, letters, starts, inside, -⟩ := isIdentifier_iff.mp identifier
  rw [InWord, letters]
  exact List.forall_mem_cons.mpr ⟨isWordChar_of_isWordStart starts, inside⟩

theorem inWord_goto (identifier : isIdentifier n = true) {c : Cursor} (here : c.rest = joined ["goto" ++ n]) :
    InWord c := by
  have word : ∀ d ∈ "goto".toList, isWordChar d = true := List.all_eq_true.mp rfl
  rw [InWord, here, joined_goto]
  exact List.forall_mem_append.mpr ⟨word, inWord_of_isIdentifier identifier 0⟩

/-- A name may stand directly behind `goto`. -/
theorem matches_goto (identifier : isIdentifier n = true) : Matches (.rule .gotoStat) ["goto" ++ n] []
    (One fun t => ∃ range start, t = .phrase .gotoStat range [.token .name start n.toList]) := by
  have clean : isClean ("goto" ++ n) = true := by
    rw [isClean, String.toList_append]
    rfl
  have settled : Settled n.toList := (inWord_of_isIdentifier identifier 0).settled
  have name (offset : Nat) : tries (.rule .name) ⟨offset, n.toList⟩ =
      some ([.token .name offset n.toList], ⟨offset + Text.byteSize n.toList, []⟩) := by
    rw [tries_rule, Peg.Grammar.read_token layered_grammar (r := .name) rfl, Cursor.read,
      name_of_isIdentifier identifier]
    rfl
  have both : Matches (.seq (.text "goto") (.rule .name)) ["goto" ++ n] []
      fun ts => ∃ start, ts = [.token .name start n.toList] := by
    refine ⟨clean_cons clean clean_nil, fun _ c here => ?_⟩
    rw [List.append_nil, joined_goto] at here
    rw [tries_seq_of_some (tries_text here), skip_settled settled, name]
    exact ⟨_, _, rfl, .inl rfl, _, rfl⟩
  refine Matches.phrase (r := .gotoStat) rfl both ?_
  rintro range _ ⟨start, rfl⟩
  exact ⟨range, start, rfl⟩

/-- The block of a script that is such a word. -/
theorem matches_block_goto (identifier : isIdentifier n = true) : Matches (.rule .block) ["goto" ++ n] []
    (One fun t => Gives Block.erase (blockOf t) ⟨[⟨.gotoLabel n, none⟩], none, none⟩) := by
  have signed (c : Cursor) (here : c.rest = joined ["goto" ++ n]) := (inWord_goto identifier here).dead_signed
  have breakStat : Fails (.rule .breakStat) ["goto" ++ n] := by
    refine fails_of_dead fun c here => dead_token rfl ?_
    rw [here, joined_goto]
    rfl
  have stat : Matches Grammar.stat ["goto" ++ n] [] _ :=
    .second (fails_of_dead fun c here => (signed c here).1) <|
    .second (fails_of_dead fun c here => (signed c here).2.1) <|
    .second (fails_of_dead fun c here => (signed c here).2.2.1) <|
    .second (fails_of_dead fun c here => (signed c here).2.2.2) <|
    .second breakStat (matches_goto identifier).first
  have noStat : Fails Grammar.stat [] := fails_nil (by decide)
  have noRet : Fails (.rule .retStat) [] := fails_nil (by decide)
  refine Matches.phrase (r := .block) rfl ((Matches.star stat (Rounds.done noStat)).seq_nil (.opt_nil noRet)) ?_
  rintro range _ ⟨us, vs, rfl, ⟨t, rfl, range', start, rfl⟩, rfl⟩
  refine ⟨⟨[⟨.gotoLabel (String.ofList n.toList), range'⟩], none, range⟩, rfl, ?_⟩
  simp

theorem matches_chunk_goto (identifier : isIdentifier n = true) : Matches (.rule .chunk) ["goto" ++ n] []
    (One fun t => Gives Chunk.erase (chunkOf t) ⟨⟨[⟨.gotoLabel n, none⟩], none, none⟩, none⟩) := by
  have noShebang : Fails (.rule .shebang) (["goto" ++ n] ++ []) := by
    refine fails_of_dead fun c here => dead_token rfl ?_
    rw [here, List.append_nil, joined_goto]
    rfl
  have whole := (matches_block_goto identifier).seq matches_finish
  rw [List.append_nil] at whole
  refine Matches.phrase (r := .chunk) rfl
    (.seq_of_nil (matches_nothing _) (.seq_of_nil (.opt_nil noShebang) whole)) ?_
  rintro range ts ⟨us, vs, rfl, ⟨t, rfl, given⟩, e, rfl, -⟩
  obtain ⟨range', ts, rfl⟩ := eq_phrase_of_block given
  exact given.bind fun b same => .ok (by simp [Chunk.relabel, same])

theorem Chunk.parse_goto (identifier : isIdentifier n = true) (file : String) :
    ∃ chunk, Chunk.parse ⟨file, "goto" ++ n⟩ = .ok chunk ∧
      chunk.erase = ⟨⟨[⟨.gotoLabel n, none⟩], none, none⟩, none⟩ := by
  have text : ("goto" ++ n).toList = joined (["goto" ++ n] ++ []) := by
    rw [List.append_nil, joined_goto, String.toList_append]
  obtain ⟨ts, d, found, -, t, rfl, chunk, made, same⟩ :=
    (matches_chunk_goto identifier).found clean_nil ⟨0, ("goto" ++ n).toList⟩ text
  rw [tries_rule] at found
  have matched : matchChunk ("goto" ++ n).toList = some t := by
    have parsed : grammar.parse (depthBound _) .chunk ⟨0, ("goto" ++ n).toList⟩ = some ([t], d) := found
    rw [matchChunk, parsed]
  refine ⟨chunk, parse_of_matchChunk matched made file, ?_⟩
  rw [same]
  simp [Chunk.relabel]

end

/-- For each head word a word that begins with it and is a script. -/
def runTogether : List String :=
  ["breakreturn", "doend", "gotox", "if1thenend", "localx", "repeatuntilx", "returnx", "while1doend"]

theorem exists_script_of_headWord {head : List Char} (listed : head ∈ headWords) (file : String) :
    ∃ w, isIdentifier w = true ∧ head <+: w.toList ∧ ∃ chunk, Chunk.parse ⟨file, w⟩ = .ok chunk := by
  have each : (headWords.all fun head => runTogether.any fun w => isIdentifier w && (head.isPrefixOf w.toList &&
      ((matchChunk w.toList).any fun t => (chunkOf t).toOption.isSome))) = true := by
    decide +kernel
  obtain ⟨w, -, found⟩ := List.any_eq_true.mp (List.all_eq_true.mp each head listed)
  simp only [Bool.and_eq_true, Option.any_eq_true] at found
  obtain ⟨identifier, begins, t, matched, isMade⟩ := found
  cases made : chunkOf t with
  | error e =>
    rw [made] at isMade
    cases isMade
  | ok chunk =>
    exact ⟨w, identifier, List.isPrefixOf_iff_prefix.mp begins, chunk, Chunk.parse_of_matchChunk matched made file⟩

/-- The texts that a pattern spells out. -/
def literals : Pattern Rule → List (List Char)
  | .lit text => [text]
  | .rule _ => []
  | .seq p q | .alt p q => literals p ++ literals q
  | .opt p | .star p => literals p

/-- The reserved words that a phrase spells out are open. -/
theorem mem_openWords_of_literals {r : Rule} {p : Pattern Rule} (body : grammar.body r = .phrase p) :
    ∀ text ∈ literals p, isReserved text = true → text ∈ openWords := by
  cases r <;> cases body <;> decide

/-- Open words apart, reserved words and names are whole words in every script, and numerals are read to their last
digit. A script of word characters alone is refused, unless it begins with a head word. Each head word begins such a
script that is not refused, and behind `goto` every name makes one. -/
theorem Chunk.words_whole (file : String) :
    (∀ text tree, matchChunk text = some tree → tree.Throughout (Whole text)) ∧
    (∀ r p, grammar.body r = .phrase p → ∀ text ∈ literals p, isReserved text = true → text ∈ openWords) ∧
    (∀ w : String, w ≠ "" → (∀ c ∈ w.toList, isWordChar c = true) → (∀ head ∈ headWords, ¬ head <+: w.toList) →
      ∃ rules offset, Chunk.parse ⟨file, w⟩ = .error (.expected rules offset)) ∧
    (∀ head ∈ headWords, ∃ w, isIdentifier w = true ∧ head <+: w.toList ∧
      ∃ chunk, Chunk.parse ⟨file, w⟩ = .ok chunk) ∧
    ∀ n, isIdentifier n = true → ∃ chunk, Chunk.parse ⟨file, "goto" ++ n⟩ = .ok chunk ∧
      chunk.erase = ⟨⟨[⟨.gotoLabel n, none⟩], none, none⟩, none⟩ := by
  refine ⟨fun _ _ => matchChunk_whole, fun _ _ => mem_openWords_of_literals, ?_,
    fun _ listed => exists_script_of_headWord listed file, fun _ identifier => parse_goto identifier file⟩
  intro w some_text inside free
  have headless : Headless w.toList := ⟨by simpa using some_text, inside, free⟩
  rw [parse, headless.matchChunk_eq_none]
  exact ⟨_, _, rfl⟩

/-- A name that is a script, and a numeral with a name directly behind it. -/
theorem Chunk.words_whole_gotox : isIdentifier "gotox" = true ∧
    ((Chunk.parse ⟨"main.lua", "gotox"⟩).toOption.isSome = true) ∧
    (Chunk.parse ⟨"main.lua", "x = 1y = 2"⟩).toOption.isSome = true := by
  decide +kernel

end Syntax
end LuaLowering
