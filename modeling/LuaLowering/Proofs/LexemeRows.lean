import LuaLowering.Proofs.NumeralContext
import LuaLowering.Proofs.Shapes
import LuaLowering.Proofs.StringContext
import LuaLowering.Proofs.TwoReadings
/-!
# Rows of lexemes

A text in front of another is a row of `Lexemes` when it falls into blanks, comments, words, numerals, strings and
symbols, each as long as it can be, so that the last one ends where the other text begins. The grammar may read less
than a lexeme: `in` from the name `in1`, or the first bracket of a long string. Then what is left has to be a row too.
Blanks may be put behind a row (`Insertion`): comments are skipped as before (`Follows.trivia_comment`), so tokens are
tried in the same places (`ready_of_row`).
-/
namespace LuaLowering.Lexeme
open Peg Peg.Scanner Syntax

/-! ## Lexemes -/

/-- What the first character of a lexeme tells about it. -/
inductive CharClass where
  | blank | letter | digit | quote | bracket | point | colon | sign
  deriving DecidableEq

def CharClass.of (c : Char) : CharClass :=
  if isBlank c then .blank
  else if isWordStart c then .letter
  else if c.isDigit then .digit
  else if c = '"' ∨ c = '\'' then .quote
  else if c = '[' then .bracket
  else if c = '.' then .point
  else if c = ':' then .colon
  else .sign

/-- The characters that are symbols alone or in pairs. -/
def signs : List Char :=
  ['+', '-', '*', '/', '%', '^', '#', '&', '|', '~', '<', '>', '=', '(', ')', '\x7b', '\x7d', ']', ';', ',']

/-- The reserved words that are read whatever stands behind them. -/
def openWords : List (List Char) :=
  ["break", "do", "else", "elseif", "for", "function", "goto", "if", "in", "local", "repeat", "return", "then", "until",
    "while"].map String.toList

/-- What the grammar may read from the front of a longer lexeme. -/
def CharClass.fronts : CharClass → List (List Char)
  | .letter => openWords
  | .bracket => [['[']]
  | _ => []

/-- An equals sign stands here, or a bracket that opens no long string. -/
def OpensNoOperand (t : List Char) : Prop := ∃ c r, t = c :: r ∧ (c = '=' ∨ c = '[' ∧ LongBracket.scan t = none)

theorem OpensNoOperand.settled {t : List Char} (opensNone : OpensNoOperand t) : Settled t := by
  obtain ⟨c, r, rfl, rfl | ⟨rfl, -⟩⟩ := opensNone
  · exact settled_cons rfl (by decide) r
  · exact settled_cons rfl (by decide) r

/-- The text is a lexeme, where `rest` stands behind it. Of two signs that belong together each is a lexeme. -/
inductive IsLexeme (rest : List Char) : CharClass → List Char → Prop where
  | blank {c : Char} (isBlank : isBlank c = true) : IsLexeme rest .blank [c]
  | comment {x : List Char} (reads : comment ('-' :: '-' :: (x ++ rest)) = some ('-' :: '-' :: x, rest)) :
    IsLexeme rest .sign ('-' :: '-' :: x)
  | word {c : Char} {x : List Char} (starts : isWordStart c = true) (inside : ∀ d ∈ x, isWordChar d = true)
    (ends : Stops isWordChar rest) : IsLexeme rest .letter (c :: x)
  | numeral {c : Char} {x : List Char} (digit : c.isDigit = true)
    (reads : numeral (c :: (x ++ rest)) = some (c :: x, rest)) : IsLexeme rest .digit (c :: x)
  | fraction {x : List Char} (reads : numeral ('.' :: (x ++ rest)) = some ('.' :: x, rest)) :
    IsLexeme rest .point ('.' :: x)
  | quoted {c : Char} {x : List Char} (reads : QuotedString.scan (c :: (x ++ rest)) = some (c :: x, rest)) :
    IsLexeme rest .quote (c :: x)
  | long {x : List Char} (reads : LongBracket.scan ('[' :: (x ++ rest)) = some ('[' :: x, rest)) :
    IsLexeme rest .bracket ('[' :: x)
  | bracket (unopened : LongBracket.scan ('[' :: rest) = none) : IsLexeme rest .bracket ['[']
  | dot (ends : Stops (fun d => d == '.' || d.isDigit) rest) : IsLexeme rest .point ['.']
  | concat (ends : Stops (· == '.') rest) : IsLexeme rest .point ['.', '.']
  | varArgs : IsLexeme rest .point ['.', '.', '.']
  | colon (ends : Stops (· == ':') rest) : IsLexeme rest .colon [':']
  | colons : IsLexeme rest .colon [':', ':']
  | sign {c : Char} (isSign : c ∈ signs) (ends : c = '-' → Stops (· == '-') rest) : IsLexeme rest .sign [c]

/-- The text is a row of lexemes, where `v` stands behind it. So is what is left where less than a lexeme is read,
unless an operand has to stand there and none does. -/
inductive Lexemes (v : List Char) : List Char → Prop where
  | nil : Lexemes v []
  | cons {kind : CharClass} {text s : List Char} (first : IsLexeme (s ++ v) kind text) (rest : Lexemes v s)
    (left : ∀ front ∈ kind.fronts, ∀ x, x ≠ [] → text = front ++ x → ¬ OpensNoOperand (x ++ (s ++ v)) →
      Lexemes v (x ++ s)) : Lexemes v (text ++ s)

/-- What is left where less than the lexeme is read is a row. -/
def LeavesRows (v : List Char) (kind : CharClass) (text s : List Char) : Prop :=
  ∀ front ∈ kind.fronts, ∀ x, x ≠ [] → text = front ++ x → ¬ OpensNoOperand (x ++ (s ++ v)) → Lexemes v (x ++ s)

theorem isWordChar_of_isWordStart {c : Char} (starts : isWordStart c = true) : isWordChar c = true := by
  simp only [isWordStart, isWordChar, Char.isAlphanum, Bool.or_eq_true] at starts ⊢
  exact starts.imp .inl id

theorem isWordStart_of_isWordChar {c : Char} (inside : isWordChar c = true) (notDigit : ¬ c.isDigit = true) :
    isWordStart c = true := by
  simp only [isWordStart, isWordChar, Char.isAlphanum, Bool.or_eq_true] at inside ⊢
  rcases inside with (letter | digit) | underscore
  · exact .inl letter
  · exact absurd digit notDigit
  · exact .inr underscore

theorem isWordStart_of_isDigit {c : Char} (digit : c.isDigit = true) : isWordStart c = false := by
  cases starts : isWordStart c with
  | false => rfl
  | true => cases digit.symm.trans (isDigit_of_isWordStart starts)

namespace CharClass
variable {c : Char}

theorem of_letter (starts : isWordStart c = true) : of c = .letter := by
  simp [of, starts, (isWordChar_visible (isWordChar_of_isWordStart starts)).1]

theorem of_digit (digit : c.isDigit = true) : of c = .digit := by
  have visible := (isWordChar_visible (c := c) (by simp [isWordChar, Char.isAlphanum, digit])).1
  simp [of, visible, isWordStart_of_isDigit digit, digit]

theorem of_sign (isSign : c ∈ signs) : of c = .sign := by
  have each : (signs.all fun d => of d == .sign) = true := rfl
  exact beq_iff_eq.mp (List.all_eq_true.mp each c isSign)

theorem of_quoted {s x rest : List Char} (reads : QuotedString.scan (c :: s) = some (x, rest)) : of c = .quote := by
  rw [QuotedString.scan] at reads
  split at reads
  · rename_i isQuote
    rcases Bool.or_eq_true_iff.mp isQuote with double | single
    · rw [of_decide_eq_true double]
      rfl
    · rw [of_decide_eq_true single]
      rfl
  · cases reads

end CharClass

theorem IsLexeme.exists_cons {kind : CharClass} {text rest : List Char} (lexeme : IsLexeme rest kind text) :
    ∃ c x, text = c :: x ∧ CharClass.of c = kind := by
  cases lexeme with
  | blank isBlank => exact ⟨_, _, rfl, by simp [CharClass.of, isBlank]⟩
  | word starts => exact ⟨_, _, rfl, CharClass.of_letter starts⟩
  | numeral digit => exact ⟨_, _, rfl, CharClass.of_digit digit⟩
  | quoted reads => exact ⟨_, _, rfl, CharClass.of_quoted reads⟩
  | sign isSign => exact ⟨_, _, rfl, CharClass.of_sign isSign⟩
  | comment | fraction | long | bracket | dot | concat | varArgs | colon | colons => exact ⟨_, _, rfl, rfl⟩

/-- A lexeme is a blank, a comment, or something that is not skipped. Only a minus sign has to be told from a comment by
what stands behind it. -/
theorem IsLexeme.settled {kind : CharClass} {text rest : List Char} (lexeme : IsLexeme rest kind text) :
    (∃ c, text = [c] ∧ isBlank c = true) ∨
      (∃ x, text = '-' :: '-' :: x ∧ Lexeme.comment ('-' :: '-' :: (x ++ rest)) = some ('-' :: '-' :: x, rest)) ∨
      (text = ['-'] → Stops (· == '-') rest) ∧
        ∀ rest', (text = ['-'] → Stops (· == '-') rest') → Settled (text ++ rest') := by
  obtain ⟨c, x, rfl, class_⟩ := lexeme.exists_cons
  have visible (notBlank : CharClass.of c ≠ .blank) (notSign : CharClass.of c ≠ .sign) :
      (c :: x = ['-'] → Stops (· == '-') rest) ∧
        ∀ rest', (c :: x = ['-'] → Stops (· == '-') rest') → Settled (c :: x ++ rest') := by
    have notDash : c ≠ '-' := by
      rintro rfl
      exact notSign rfl
    refine ⟨fun dash => absurd (List.cons.inj dash).1 notDash, fun rest' _ => settled_cons ?_ notDash (x ++ rest')⟩
    cases blank : isBlank c with
    | false => rfl
    | true => exact absurd (by simp [CharClass.of, blank]) notBlank
  cases lexeme with
  | blank isBlank => exact .inl ⟨c, rfl, isBlank⟩
  | comment reads => exact .inr (.inl ⟨_, rfl, reads⟩)
  | sign isSign ends =>
    refine .inr (.inr ⟨fun dash => ends (List.cons.inj dash).1, fun rest' single => ?_⟩)
    have notBlank : isBlank c = false := by
      have each : (signs.all fun d => !isBlank d) = true := rfl
      simpa using List.all_eq_true.mp each c isSign
    by_cases dash : c = '-'
    · have none : literal ['-', '-'] (c :: rest') = none := by
        cases rest' with
        | nil => simp [literal]
        | cons d rest' =>
          have differ : d ≠ '-' := by simpa using stops_cons.mp (single (by rw [dash]))
          simp [literal, differ.symm]
      refine ⟨by simp [notBlank], ?_⟩
      rw [List.singleton_append, Lexeme.comment]
      exact seq_eq_none none
    · exact settled_cons notBlank dash rest'
  | _ => exact .inr (.inr (visible (by simp [class_]) (by simp [class_])))

section
variable {v s x : List Char}

/-- A row begins with a lexeme of the class of its first character. -/
theorem Lexemes.front {u : List Char} {c : Char} (row : Lexemes v (c :: u)) :
    ∃ x s, u = x ++ s ∧ IsLexeme (s ++ v) (CharClass.of c) (c :: x) ∧ Lexemes v s ∧
      LeavesRows v (CharClass.of c) (c :: x) s := by
  generalize whole : c :: u = t at row
  cases row with
  | nil => cases whole
  | cons first rest left =>
    obtain ⟨d, x, rfl, rfl⟩ := first.exists_cons
    cases whole
    exact ⟨_, _, rfl, first, rest, left⟩

/-- Of most lexemes nothing else is read. -/
theorem IsLexeme.lexemes {kind : CharClass} {text : List Char} (first : IsLexeme (s ++ v) kind text)
    (whole : kind.fronts = []) (rest : Lexemes v s) : Lexemes v (text ++ s) :=
  .cons first rest (by simp [whole])

theorem Lexemes.sign {c : Char} (isSign : c ∈ signs) (notDash : c ≠ '-') (rest : Lexemes v s) : Lexemes v ([c] ++ s) :=
  (IsLexeme.sign isSign fun dash => absurd dash notDash).lexemes rfl rest

theorem Lexemes.bracket (unopened : LongBracket.scan ('[' :: (s ++ v)) = none) (rest : Lexemes v s) :
    Lexemes v (['['] ++ s) := by
  refine .cons (.bracket unopened) rest fun front member x longer split => ?_
  obtain rfl := List.mem_singleton.mp member
  exact absurd (List.cons.inj split).2.symm longer

/-- Behind the first bracket of a long string no operand stands, or a row goes on. -/
theorem Lexemes.long (reads : LongBracket.scan ('[' :: (x ++ (s ++ v))) = some ('[' :: x, s ++ v))
    (left : ¬ OpensNoOperand (x ++ (s ++ v)) → Lexemes v (x ++ s)) (rest : Lexemes v s) :
    Lexemes v ('[' :: x ++ s) := by
  refine .cons (.long reads) rest fun front member y _ split opened => ?_
  obtain rfl := List.mem_singleton.mp member
  obtain rfl : x = y := by simpa using split
  exact left opened

end

/-- Where the word begins with open words, run together, and goes on with a digit, the rest of the word is a numeral. -/
def Unglued (rest word : List Char) : Prop :=
  ∀ parts digit tail, parts ≠ [] → (∀ part ∈ parts, part ∈ openWords) → Char.isDigit digit = true →
    word = parts.flatten ++ digit :: tail → numeral (digit :: (tail ++ rest)) = some (digit :: tail, rest)

theorem Unglued.left {rest front x : List Char} (unglued : Unglued rest (front ++ x)) (isOpen : front ∈ openWords) :
    Unglued rest x := by
  intro parts digit tail _ areOpen isDigit whole
  refine unglued (front :: parts) digit tail (List.cons_ne_nil _ _) (List.forall_mem_cons.mpr ⟨isOpen, areOpen⟩)
    isDigit ?_
  simp [whole]

theorem isDigit_of_mem_openWords {part : List Char} (isOpen : part ∈ openWords) : ∀ c ∈ part, c.isDigit = false := by
  have each : (openWords.all fun word => word.all (!·.isDigit)) = true := rfl
  simpa using List.all_eq_true.mp each part isOpen

theorem unglued_of_all {word : List Char} (letters : word.all (!·.isDigit) = true) (rest : List Char) :
    Unglued rest word := by
  rintro parts digit tail - - isDigit rfl
  simp [isDigit] at letters

/-- The numeral begins at the first digit of the word. -/
theorem unglued_of_numeral {rest letters tail : List Char} {digit : Char} (noDigit : letters.all (!·.isDigit) = true)
    (isDigit : digit.isDigit = true) (reads : numeral (digit :: (tail ++ rest)) = some (digit :: tail, rest)) :
    Unglued rest (letters ++ digit :: tail) := by
  have first {front t : List Char} {d : Char} (clear : ∀ c ∈ front, (!c.isDigit) = true) (isDigit : d.isDigit = true) :
      (front ++ d :: t).takeWhile (!·.isDigit) = front := by
    rw [List.takeWhile_append_of_pos clear]
    simp [isDigit]
  rintro parts d t - areOpen isDigit' whole
  have clear : ∀ c ∈ parts.flatten, (!c.isDigit) = true := by
    intro c member
    obtain ⟨part, listed, inside⟩ := List.mem_flatten.mp member
    rw [isDigit_of_mem_openWords (areOpen part listed) c inside]
    rfl
  have same : letters = parts.flatten := by
    rw [← first (List.all_eq_true.mp noDigit) isDigit, whole, first clear isDigit']
  rw [same] at whole
  obtain ⟨rfl, rfl⟩ := List.cons.inj (List.append_cancel_left whole)
  exact reads

/-- What is left of a word behind an open word is a word or a numeral. -/
theorem Lexemes.word {v s x : List Char} {c : Char} (starts : isWordStart c = true)
    (inside : ∀ d ∈ x, isWordChar d = true) (ends : Stops isWordChar (s ++ v)) (unglued : Unglued (s ++ v) (c :: x))
    (rest : Lexemes v s) : Lexemes v (c :: x ++ s) := by
  refine .cons (.word starts inside ends) rest fun front isOpen y longer split _ => ?_
  have solid : (openWords.all fun w => !w.isEmpty) = true := rfl
  cases front with
  | nil => cases List.all_eq_true.mp solid [] isOpen
  | cons e front =>
    cases y with
    | nil => exact absurd rfl longer
    | cons d y =>
      rw [split] at unglued
      obtain ⟨-, rfl⟩ := List.cons.inj split
      by_cases digit : d.isDigit = true
      · have reads := unglued [e :: front] d y (by simp) (List.forall_mem_singleton.mpr isOpen) digit (by simp)
        exact (IsLexeme.numeral digit reads).lexemes rfl rest
      · exact Lexemes.word (isWordStart_of_isWordChar (inside d (by simp)) digit)
          (fun f member => inside f (by simp [member])) ends (unglued.left isOpen) rest
termination_by x.length

/-! ## Blanks between lexemes -/

/-- Blanks and what stands behind them: nothing that is a blank or the second half of a pair of signs. -/
structure Insertion where
  blanks : List Char
  behind : List Char
  areBlank : ∀ c ∈ blanks, isBlank c = true
  fresh : Fresh behind

theorem trivia_of_none {s : List Char} (none : comment (s.dropWhile isBlank) = none) :
    (trivia s).2 = s.dropWhile isBlank := by
  rw [trivia_eq_of_none none]

theorem trivia_of_comment {s x rest : List Char} (found : comment (s.dropWhile isBlank) = some (x, rest)) :
    (trivia s).2 = (trivia rest).2 := by
  rw [trivia_eq_of_comment found]

/-- Blanks in front do not matter. -/
theorem trivia_congr {s t : List Char} (same : s.dropWhile isBlank = t.dropWhile isBlank) :
    (trivia s).2 = (trivia t).2 := by
  cases found : comment (s.dropWhile isBlank) with
  | none => rw [trivia_of_none found, trivia_of_none (same ▸ found), same]
  | some pair => exact (trivia_of_comment found).trans (trivia_of_comment (same ▸ found)).symm

theorem trivia_append {w : List Char} (blanks : ∀ c ∈ w, isBlank c = true) (s : List Char) :
    (trivia (w ++ s)).2 = (trivia s).2 :=
  trivia_congr (List.dropWhile_append_of_pos blanks)

namespace Insertion
variable (i : Insertion)

/-- What stands behind the row, with the blanks or without. -/
def Follows (z : List Char) : Prop := z = i.behind ∨ z = i.blanks ++ i.behind

variable {i} {s z text : List Char} {kind : CharClass}

theorem Follows.stops {p : Char → Bool} (follows : i.Follows z)
    (outside : ([' ', '\t', '\r', '\n', '\x0b', '\x0c'].all fun d => !p d) = true)
    (stops : Stops p (s ++ i.behind)) : Stops p (s ++ z) := by
  rcases follows with rfl | rfl
  · exact stops
  · cases s with
    | cons c s => exact stops_cons.mpr (stops_cons.mp stops)
    | nil =>
      cases w : i.blanks with
      | nil => exact stops
      | cons c w => exact stops_cons.mpr (outside_of_isBlank (i.areBlank c (by simp [w])) outside)

theorem Follows.scan_none (follows : i.Follows z) (unread : LongBracket.scan (s ++ i.behind) = none) :
    LongBracket.scan (s ++ z) = none := by
  rcases follows with rfl | rfl
  · exact unread
  · exact LongBracket.scan_insert_none i.areBlank unread

theorem comment_dashes (t : List Char) :
    comment ('-' :: '-' :: t) = (alt LongBracket.scan line t).map fun (x, rest) => ('-' :: '-' :: x, rest) := by
  rw [comment, Scanner.seq]
  simp only [literal, List.isPrefixOf, beq_self_eq_true, Bool.and_self, if_true]
  cases found : alt LongBracket.scan line t with
  | none => simp [found]
  | some pair => simp [found]

theorem trivia_dashes {t x rest : List Char} (read : alt LongBracket.scan line t = some (x, rest)) :
    (trivia ('-' :: '-' :: t)).2 = (trivia rest).2 := by
  have here : ('-' :: '-' :: t).dropWhile isBlank = '-' :: '-' :: t := rfl
  refine trivia_of_comment (x := '-' :: '-' :: x) ?_
  rw [here, comment_dashes, read]
  rfl

/-- Where a line ends behind the row, blanks behind it end it too or go with it. -/
theorem Follows.trivia_line (follows : i.Follows z) (stops : Stops (· != '\n') (s ++ i.behind)) :
    (trivia ((s ++ z).dropWhile (· != '\n'))).2 = (trivia (s ++ z)).2 := by
  cases s with
  | cons c s =>
    rw [List.cons_append, List.dropWhile_cons_of_neg]
    simpa using stops_cons.mp stops
  | nil =>
    have nothing : i.behind = [] := by
      cases behind : i.behind with
      | nil => rfl
      | cons c v =>
        rw [behind] at stops
        have feed : c = '\n' := by simpa using stops_cons.mp stops
        have fresh := (i.fresh c (by rw [behind]; rfl)).1
        rw [feed] at fresh
        cases fresh
    have blanks : ∀ c ∈ z, isBlank c = true := by
      rcases follows with rfl | rfl
      · simp [nothing]
      · simpa [nothing] using i.areBlank
    have none : z.dropWhile isBlank = [] := List.dropWhile_eq_nil_iff.mpr blanks
    have none' : (z.dropWhile (· != '\n')).dropWhile isBlank = [] :=
      List.dropWhile_eq_nil_iff.mpr fun c member => blanks c (List.dropWhile_subset _ member)
    exact trivia_congr (none'.trans none.symm)

/-- A comment is skipped where it was. -/
theorem Follows.trivia_comment {x : List Char} (follows : i.Follows z)
    (reads : comment ('-' :: '-' :: (x ++ (s ++ i.behind))) = some ('-' :: '-' :: x, s ++ i.behind)) :
    (trivia ('-' :: '-' :: (x ++ (s ++ z)))).2 = (trivia (s ++ z)).2 := by
  rw [comment_dashes] at reads
  obtain ⟨⟨y, rest⟩, found, made⟩ := Option.map_eq_some_iff.mp reads
  cases made
  unfold alt at found
  split at found
  · rename_i unread
    have still := follows.scan_none (s := x ++ s) (by rwa [List.append_assoc])
    rw [List.append_assoc] at still
    rw [line, many, Option.some.injEq, Prod.mk.injEq] at found
    have inside : ∀ c ∈ x, (c != '\n') = true := by
      intro c member
      rw [← found.1] at member
      exact List.mem_takeWhile_imp (p := (· != '\n')) member
    have stops : Stops (· != '\n') (s ++ i.behind) := found.2 ▸ stops_dropWhile _ _
    have read : alt LongBracket.scan line (x ++ (s ++ z)) =
        some ((x ++ (s ++ z)).takeWhile (· != '\n'), (x ++ (s ++ z)).dropWhile (· != '\n')) := by
      rw [alt, still]
      rfl
    rw [trivia_dashes read, List.dropWhile_append_of_pos inside]
    exact follows.trivia_line stops
  · refine trivia_dashes (x := x) ?_
    rw [alt, LongBracket.scan_append found]

/-! ## Side by side -/

variable (i)

/-- A row that begins with a lexeme that is not skipped. -/
structure Solid (u : List Char) : Prop where
  ne_nil : u ≠ []
  row : Lexemes i.behind u
  settled : ∀ z, i.Follows z → Settled (u ++ z)

/-- Two texts in which tokens are tried: the same text, or a row before and after the insertion. -/
def Ready (s s' : List Char) : Prop :=
  s = s' ∨ ∃ u, i.Solid u ∧ s = u ++ i.behind ∧ s' = u ++ (i.blanks ++ i.behind)

/-- Two texts in front of which tokens end: they are the same but for blanks and comments, or a row before and after the
insertion. -/
def Ends (s s' : List Char) : Prop :=
  (trivia s).2 = (trivia s').2 ∨ ∃ u, Lexemes i.behind u ∧ s = u ++ i.behind ∧ s' = u ++ (i.blanks ++ i.behind)

variable {i}

theorem ready_of_row {u : List Char} (row : Lexemes i.behind u) :
    i.Ready (trivia (u ++ i.behind)).2 (trivia (u ++ (i.blanks ++ i.behind))).2 := by
  have plain : i.Follows i.behind := .inl rfl
  have inserted : i.Follows (i.blanks ++ i.behind) := .inr rfl
  induction row with
  | nil =>
    rw [List.nil_append, List.nil_append, trivia_append i.areBlank]
    exact .inl rfl
  | @cons kind text s first rest left ih =>
    rw [List.append_assoc, List.append_assoc]
    rcases first.settled with ⟨c, rfl, blank⟩ | ⟨x, rfl, reads⟩ | settled
    · have single : ∀ d ∈ [c], isBlank d = true := by simp [blank]
      rw [trivia_append single, trivia_append single]
      exact ih
    · simp only [List.cons_append]
      rw [plain.trivia_comment reads, inserted.trivia_comment reads]
      exact ih
    · obtain ⟨single, settled⟩ := settled
      have solid : i.Solid (text ++ s) := by
        obtain ⟨c, x, rfl, -⟩ := first.exists_cons
        refine ⟨List.cons_ne_nil c (x ++ s), .cons first rest left, fun z follows => ?_⟩
        rw [List.append_assoc]
        exact settled _ fun dash => follows.stops rfl (single dash)
      rw [← List.append_assoc, ← List.append_assoc, trivia_settled (solid.settled _ plain),
        trivia_settled (solid.settled _ inserted)]
      exact .inr ⟨text ++ s, solid, rfl, rfl⟩

theorem ready_of_ends {s s' : List Char} (ends : i.Ends s s') : i.Ready (trivia s).2 (trivia s').2 := by
  rcases ends with same | ⟨u, row, rfl, rfl⟩
  · exact .inl same
  · exact ready_of_row row

theorem ends_of_ready {s s' : List Char} (ready : i.Ready s s') : i.Ends s s' := by
  rcases ready with rfl | ⟨u, solid, rfl, rfl⟩
  · exact .inl rfl
  · exact .inr ⟨u, solid.row, rfl, rfl⟩

variable (i) in
/-- The two texts, read by the grammar of Lua. -/
def sideBySide : SideBySide grammar where
  ready := i.Ready
  ends := i.Ends
  skip := ready_of_ends
  stay := ends_of_ready

end Insertion
end LuaLowering.Lexeme
