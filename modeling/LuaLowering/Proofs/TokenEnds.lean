import LuaLowering.Proofs.TokenRanges
import LuaLowering.Proofs.WordEnds
/-!
# Where tokens end

A token that was read from a script is `Bounded`. Names, numerals and strings are as long as they can be. The reserved
words that are not open are whole words, and no dot or digit stands right behind a dot, no third dot behind two, and no
colon behind a colon. A single dot or colon is read whatever stands behind it, but a name has to follow in each pattern
that holds one (`isBounded`). So the tokens that a trace lists are bounded where they stand (`trace_bounded`).
-/
namespace LuaLowering.Syntax
open Peg Peg.Scanner Lexeme

/-- What may not stand behind a reserved word or a symbol. -/
def goesOn (text : List Char) (d : Char) : Bool :=
  if text = ['.'] then d == '.' || d.isDigit
  else if text = ['.', '.'] then d == '.'
  else if text = [':'] then d == ':'
  else isReserved text && !openWords.contains text && isWordChar d

/-- The token ends where `rest` begins. -/
def Bounded (text rest : List Char) : Prop :=
  (∃ scan ∈ scanners, scan (text ++ rest) = some (text, rest)) ∨ isFixed text = true ∧ Stops (goesOn text) rest

/-- The property holds of each token and what stands behind it, where `rest` stands behind the last piece. -/
def EachToken (P : (text rest : List Char) → Prop) : List Piece → (rest : List Char) → Prop
  | [], _ => True
  | p :: ps, rest => (p.kind = .token → P p.text (spelled ps ++ rest)) ∧ EachToken P ps rest

section
variable {P : List Char → List Char → Prop}

theorem eachToken_append {ps qs : List Piece} {rest : List Char} :
    EachToken P (ps ++ qs) rest ↔ EachToken P ps (spelled qs ++ rest) ∧ EachToken P qs rest := by
  induction ps with
  | nil => simp [EachToken]
  | cons p ps ih => simp [EachToken, ih, spelled, and_assoc]

theorem eachToken_of_none {ps : List Piece} (none : ∀ p ∈ ps, p.kind ≠ .token) (rest : List Char) :
    EachToken P ps rest := by
  induction ps with
  | nil => trivial
  | cons p ps ih =>
    obtain ⟨other, others⟩ := List.forall_mem_cons.mp none
    exact ⟨fun isToken => absurd isToken other, ih others⟩

theorem eachToken_pieceAt {text rest : List Char} (holds : P text rest) (offset : Nat) :
    EachToken P (pieceAt .token offset text) rest := by
  rw [pieceAt]
  split
  · trivial
  · exact ⟨fun _ => holds, trivial⟩

end

/-! ## Tokens of rules -/

/-- The literal is read to its end, whatever stands behind it. -/
def isClosed (text : List Char) : Bool :=
  isFixed text && !([['.'], ['.', '.'], [':']] : List (List Char)).contains text &&
    (!isReserved text || openWords.contains text)

theorem bounded_of_isClosed {text : List Char} (closed : isClosed text = true) (rest : List Char) :
    Bounded text rest := by
  simp only [isClosed, List.contains_eq_mem, Bool.and_eq_true, Bool.not_eq_true', Bool.or_eq_true,
    decide_eq_false_iff_not, List.mem_cons, List.not_mem_nil, or_false, not_or] at closed
  obtain ⟨⟨isFixed, notDot, notDots, notColon⟩, word⟩ := closed
  refine .inr ⟨isFixed, fun d _ => ?_⟩
  rw [goesOn, if_neg notDot, if_neg notDots, if_neg notColon]
  rcases word with free | isOpen
  · rw [free]
    rfl
  · simp_all

theorem bounded_of_literal {word s text rest : List Char} (closed : isClosed word = true)
    (found : Scanner.literal word s = some (text, rest)) : Bounded text rest :=
  Scanner.reads_literal ⟨_, _, found⟩ ▸ bounded_of_isClosed closed rest

theorem bounded_of_word {word : String} {s text rest : List Char} (isFixed : isFixed word.toList = true)
    (same : goesOn word.toList = isWordChar) (found : Lexeme.word word s = some (text, rest)) : Bounded text rest := by
  obtain rfl := reads_word ⟨_, _, found⟩
  exact .inr ⟨isFixed, same ▸ halts_word word _ _ _ found⟩

theorem bounded_of_concat {s text rest : List Char} (here : s = text ++ rest)
    (found : BinaryOp.concat.scan s = some (text, rest)) : Bounded text rest := by
  obtain ⟨x, y, rfl, first, second⟩ := Scanner.reads_seq ⟨_, _, found⟩
  obtain rfl := Scanner.reads_absent first
  obtain rfl := Scanner.reads_literal second
  refine .inr ⟨by decide, ?_⟩
  cases rest with
  | nil => exact stops_nil _
  | cons d rest =>
    refine stops_cons.mpr (Bool.eq_false_iff.mpr fun isDot => ?_)
    obtain rfl : d = '.' := beq_iff_eq.mp isDot
    have three : absent (literal ['.', '.', '.']) s = none := by simp [here, absent, literal]
    cases (seq_eq_none three).symm.trans found

theorem bounded_of_body {r : Rule} {scan : Scanner} (body : grammar.body r = .token scan) (inner : r.isInner = true)
    {s text rest : List Char} (found : scan s = some (text, rest)) : Bounded text rest := by
  have here := splits_token body s text rest found
  cases r <;> cases body
  case finish | shebang | hexFloat | hexInt | float | int => cases inner
  case nil | false | true | endWord => exact bounded_of_word (by decide) rfl found
  case unary op =>
    cases op with
    | not => exact bounded_of_word (by decide) rfl found
    | _ => exact bounded_of_literal (by decide) found
  case binary op =>
    cases op with
    | or | and => exact bounded_of_word (by decide) rfl found
    | concat => exact bounded_of_concat here found
    | _ => exact bounded_of_literal (by decide) found
  case longString | quotedString | name => exact .inl ⟨_, by simp [scanners], here ▸ found⟩
  all_goals exact bounded_of_literal (by decide) found

/-! ## Tokens of patterns -/

/-- The literals of the pattern are closed, or what has to follow them tells them from longer tokens. -/
def isBounded : Pattern Rule → Bool
  | .lit text => isClosed text
  | .rule _ => true
  | .seq p q => (isBounded p || isGuarded p q) && isBounded q
  | .alt p q => isBounded p && isBounded q
  | .opt p | .star p => isBounded p

/-- In front of a name stands a blank, a comment or nothing. -/
theorem head_before_name {depth : Nat} {d : Cursor} {traced : Trace}
    (found : trace depth .name (grammar.skip d) = some traced) :
    ∀ c ∈ d.rest.head?, isBlank c = true ∨ c = '-' ∨ isWordStart c = true := by
  obtain ⟨offset, rest⟩ := d
  cases rest with
  | nil => nofun
  | cons c rest =>
    rintro _ ⟨⟩
    by_contra unlike
    simp only [not_or, Bool.not_eq_true] at unlike
    obtain ⟨visible, notDash, notWord⟩ := unlike
    rw [skip_settled (settled_cons visible notDash rest)] at found
    have body : grammar.body .name = .token name := rfl
    obtain ⟨text, after, scanned, -⟩ := trace_token_eq_some body found
    cases (name_none notWord rest).symm.trans scanned

theorem bounded_before_name {a : Char} (pointed : a = '.' ∨ a = ':') {rest : List Char}
    (before : ∀ c ∈ rest.head?, isBlank c = true ∨ c = '-' ∨ isWordStart c = true) : Bounded [a] rest := by
  have stops {p : Char → Bool} (blanks : ([' ', '\t', '\r', '\n', '\x0b', '\x0c'].all fun d => !p d) = true)
      (dash : p '-' = false) (letters : ∀ c, isWordStart c = true → p c = false) : Stops p rest := by
    intro c member
    rcases before c member with blank | rfl | starts
    · exact outside_of_isBlank blank blanks
    · exact dash
    · exact letters c starts
  have other {c d : Char} (starts : isWordStart c = true) (sign : isWordStart d = false) : (c == d) = false := by
    refine beq_false_of_ne ?_
    rintro rfl
    cases sign.symm.trans starts
  rcases pointed with rfl | rfl
  · exact .inr ⟨by decide, stops rfl rfl fun c starts =>
      Bool.or_eq_false_iff.mpr ⟨other starts rfl, isDigit_of_isWordStart starts⟩⟩
  · exact .inr ⟨by decide, stops rfl rfl fun c starts => other starts rfl⟩

theorem bounded_of_isGuarded {p q : Pattern Rule} (guarded : isGuarded p q = true) {depth : Nat} {c d : Cursor}
    {ts : List (ParseTree Rule)} {ps : List Piece} {traced : Trace}
    (front : tracePattern (trace depth) p c = some (ts, ps, d))
    (back : tracePattern (trace depth) q (grammar.skip d) = some traced) : EachToken Bounded ps d.rest := by
  unfold isGuarded at guarded
  split at guarded
  · rename_i a
    obtain ⟨_, -, made⟩ := Option.map_eq_some_iff.mp front
    cases made
    exact eachToken_pieceAt (bounded_before_name (by simpa using guarded) (head_before_name back)) _
  · rename_i a _
    obtain rfl : a = '[' := by simpa using guarded
    obtain ⟨_, -, made⟩ := Option.map_eq_some_iff.mp front
    cases made
    exact eachToken_pieceAt (bounded_of_isClosed (by decide) _) _
  · cases guarded

theorem bounded_seq {d d' : Cursor} {ps qs : List Piece} (first : EachToken Bounded ps d.rest)
    (path : Path (grammar.skip d) qs d') (second : EachToken Bounded qs d'.rest) :
    EachToken Bounded (ps ++ gaps d ++ qs) d'.rest := by
  obtain ⟨between, areGaps⟩ := skip_path d
  rw [List.append_assoc, eachToken_append, ← (between.trans path).rest_eq]
  exact ⟨first, eachToken_append.mpr ⟨eachToken_of_none (fun p member => (areGaps p member).kind_ne.1) _, second⟩⟩

theorem traceRounds_bounded {script : List Char} {step : Cursor → Option Trace}
    (each : ∀ c traced, Ready script c → step c = some traced →
      Path c traced.2.1 traced.2.2 ∧ EachToken Bounded traced.2.1 traced.2.2.rest) (n : Nat) :
    ∀ d ps, StandsIn script d → EachToken Bounded ps d.rest →
      EachToken Bounded (ps ++ (traceRounds step n d).2.1) (traceRounds step n d).2.2.rest := by
  induction n with
  | zero =>
    intro d ps stands first
    rwa [traceRounds, List.append_nil]
  | succ n ih =>
    intro d ps stands first
    rw [traceRounds]
    cases round : step (grammar.skip d) with
    | none => rwa [List.append_nil]
    | some found =>
      obtain ⟨us, qs, d'⟩ := found
      have ready := ready_skip stands
      obtain ⟨path, second⟩ := each _ _ ready round
      have more := ih d' _ (path.standsIn ready.stands) (bounded_seq first path second)
      simpa only [List.append_assoc] using more

theorem tracePattern_path {script : List Char} {depth : Nat} {p : Pattern Rule} (inner : isInner p = true) {c : Cursor}
    {traced : Trace} (ready : Ready script c) (found : tracePattern (trace depth) p c = some traced) :
    Path c traced.2.1 traced.2.2 := by
  obtain ⟨e, -, read⟩ := tracePattern_readAs (trace_readAs depth) p inner c traced ready found
  exact read.path

theorem tracePattern_bounded {script : List Char} {depth : Nat}
    (calls : ∀ r, r.isInner = true → ∀ c traced, Ready script c → trace depth r c = some traced →
      EachToken Bounded traced.2.1 traced.2.2.rest)
    (p : Pattern Rule) (inner : isInner p = true) (bounded : isBounded p = true) :
    ∀ c traced, Ready script c → tracePattern (trace depth) p c = some traced →
      EachToken Bounded traced.2.1 traced.2.2.rest := by
  induction p with
  | lit text =>
    intro c traced ready found
    obtain ⟨_, -, rfl⟩ := Option.map_eq_some_iff.mp found
    exact eachToken_pieceAt (bounded_of_isClosed bounded _) _
  | rule r => exact calls r inner
  | seq p q first second =>
    intro c traced ready found
    obtain ⟨ts, ps, d⟩ := traced
    simp only [isInner, isBounded, Bool.and_eq_true, Bool.or_eq_true] at inner bounded
    obtain ⟨⟨innerP, innerQ⟩, -⟩ := inner
    obtain ⟨boundedP, boundedQ⟩ := bounded
    obtain ⟨us, qs, between, vs, rs, front, back, rfl, rfl⟩ := tracePattern_seq_eq_some found
    have ready' := ready_skip ((tracePattern_path innerP ready front).standsIn ready.stands)
    refine bounded_seq ?_ (tracePattern_path innerQ ready' back) (second innerQ boundedQ _ _ ready' back)
    rcases boundedP with boundedP | guarded
    · exact first innerP boundedP c _ ready front
    · exact bounded_of_isGuarded guarded front back
  | alt p q first second =>
    intro c traced ready found
    obtain ⟨innerP, innerQ⟩ := Bool.and_eq_true_iff.mp inner
    obtain ⟨boundedP, boundedQ⟩ := Bool.and_eq_true_iff.mp bounded
    rw [tracePattern] at found
    split at found
    · exact second innerQ boundedQ c traced ready found
    · exact first innerP boundedP c traced ready found
  | opt p ih =>
    intro c traced ready found
    rw [tracePattern] at found
    split at found
    · cases found
      trivial
    · exact ih inner bounded c traced ready found
  | star p ih =>
    intro c traced ready found
    have inner := (Bool.and_eq_true_iff.mp inner).1
    rw [tracePattern] at found
    cases front : tracePattern (trace depth) p c with
    | none =>
      rw [front] at found
      cases found
      trivial
    | some first =>
      obtain ⟨us, ps, between⟩ := first
      rw [front] at found
      cases found
      have each c traced (ready : Ready script c) (found : tracePattern (trace depth) p c = some traced) :=
        And.intro (tracePattern_path inner ready found) (ih inner bounded c traced ready found)
      obtain ⟨path, once⟩ := each c _ ready front
      exact traceRounds_bounded each (between.rest.length + 1) between ps (path.standsIn ready.stands) once

theorem isBounded_of_phrase {r : Rule} {p : Pattern Rule} (body : grammar.body r = .phrase p) (inner : r.isInner = true)
    (other : r ≠ .number) : isBounded p = true := by
  cases r <;> cases body
  case chunk => cases inner
  case number => cases other rfl
  all_goals decide

/-- The tokens that an inner rule reads are bounded. -/
theorem trace_bounded {script : List Char} (depth : Nat) : ∀ r, r.isInner = true → ∀ c traced, Ready script c →
    trace depth r c = some traced → EachToken Bounded traced.2.1 traced.2.2.rest := by
  induction depth with
  | zero =>
    intro r inner c traced ready found
    cases found
  | succ depth ih =>
    intro r inner c traced ready found
    cases body : grammar.body r with
    | token scan =>
      obtain ⟨ts, ps, d⟩ := traced
      obtain ⟨text, rest, scanned, rfl, rfl, rfl⟩ := trace_token_eq_some body found
      have kind : r.pieceKind = .token := by cases r <;> first | rfl | cases inner
      rw [kind]
      exact eachToken_pieceAt (bounded_of_body body inner scanned) _
    | phrase p =>
      rw [trace, body] at found
      obtain ⟨inside, matched, rfl⟩ := Option.map_eq_some_iff.mp found
      by_cases isNumber : r = .number
      · subst isNumber
        obtain ⟨_, text, rest, scanned, rfl⟩ := number_eq_some body matched
        have here := splits_numeral _ _ _ scanned
        exact eachToken_pieceAt (.inl ⟨numeral, by simp [scanners], here ▸ scanned⟩) _
      · exact tracePattern_bounded ih p (isInner_of_phrase body inner isNumber).1
          (isBounded_of_phrase body inner isNumber) c inside ready matched

end LuaLowering.Syntax
