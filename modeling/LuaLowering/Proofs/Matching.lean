import LuaLowering.Proofs.Spacing
/-!
# Matching spaced tokens

How the grammar of Lua matches tokens with spaces between them. `Matches` says what a pattern gives for some tokens and
where it stops, `Fails` that it gives nothing, each with one rule for each form of a pattern.
-/
namespace LuaLowering.Syntax
open Peg Peg.Pattern Lexeme

/-! ## Tokens and spaces -/

/-- Neither a blank nor a comment begins where the token begins. -/
def isClean (token : String) : Bool :=
  match token.toList with
  | [] => false
  | c :: s => !isBlank c && !List.isPrefixOf ['-', '-'] (c :: s)

def Clean (tokens : List String) : Prop := ∀ t ∈ tokens, isClean t = true

theorem clean_nil : Clean [] := nofun

theorem clean_cons {t : String} {tokens : List String} (first : isClean t = true) (rest : Clean tokens) :
    Clean (t :: tokens) := List.forall_mem_cons.mpr ⟨first, rest⟩

theorem clean_append {xs ys : List String} (first : Clean xs) (second : Clean ys) : Clean (xs ++ ys) :=
  List.forall_mem_append.mpr ⟨first, second⟩

theorem Clean.right {xs ys : List String} (clean : Clean (xs ++ ys)) : Clean ys := (List.forall_mem_append.mp clean).2

/-- The tokens with a space before each. -/
def spaced (tokens : List String) : List Char := tokens.flatMap fun t => ' ' :: t.toList

/-- The tokens with a space between two. -/
def joined : List String → List Char
  | [] => []
  | t :: tokens => t.toList ++ spaced tokens

theorem spaced_cons (t : String) (tokens : List String) : spaced (t :: tokens) = ' ' :: joined (t :: tokens) := by
  simp [spaced, joined]

theorem ends_spaced (tokens : List String) : Ends (spaced tokens) := by
  cases tokens with
  | nil => exact .inl rfl
  | cons t tokens => exact .inr ⟨_, spaced_cons t tokens⟩

theorem toList_intercalate (tokens : List String) : (" ".intercalate tokens).toList = joined tokens := by
  induction tokens with
  | nil => rfl
  | cons t tokens ih =>
    cases tokens with
    | nil => simp [joined, spaced]
    | cons u tokens =>
      rw [String.intercalate_cons_cons, String.toList_append, String.toList_append, ih]
      simp [joined, spaced]

/-- Neither a blank nor a comment stands in front. -/
def Settled (s : List Char) : Prop := s.dropWhile isBlank = s ∧ comment s = none

theorem settled_joined {tokens : List String} (clean : Clean tokens) : Settled (joined tokens) := by
  cases tokens with
  | nil => exact ⟨rfl, rfl⟩
  | cons t tokens =>
    have first := clean t List.mem_cons_self
    unfold isClean at first
    rw [joined]
    cases letters : t.toList with
    | nil =>
      rw [letters] at first
      cases first
    | cons c s =>
      rw [letters] at first
      simp only [Bool.and_eq_true, Bool.not_eq_true'] at first
      refine ⟨by simp [first.1], ?_⟩
      have solid : ' ' ∉ ['-', '-'] := by decide
      have dashes := Scanner.blind_literal solid (c :: s) _ (ends_spaced tokens)
      rw [comment, Scanner.seq, dashes, Scanner.literal, if_neg (by simp [first.2])]
      rfl

theorem trivia_settled {s : List Char} (settled : Settled s) : trivia s = ([], s) := by
  have front : s.takeWhile isBlank = [] := by
    have split := List.takeWhile_append_dropWhile (p := isBlank) (l := s)
    rw [settled.1] at split
    simpa using split
  rw [trivia]
  split
  · rw [front, settled.1]
  · rename_i found
    rw [settled.1, settled.2] at found
    cases found

theorem trivia_space {s : List Char} (settled : Settled s) : (trivia (' ' :: s)).2 = s := by
  have front : (' ' :: s).dropWhile isBlank = s := by
    rw [List.dropWhile_cons, if_pos (by decide), settled.1]
  rw [trivia]
  split
  · exact front
  · rename_i found
    rw [front, settled.2] at found
    cases found

theorem skip_settled {c : Cursor} (settled : Settled c.rest) : grammar.skip c = c := by
  simp only [Peg.Grammar.skip, grammar, trivia_settled settled, Text.byteSize_nil, Nat.add_zero]

/-- The tokens stand at the cursor, perhaps after a space. -/
def At (tokens : List String) (c : Cursor) : Prop := c.rest = joined tokens ∨ c.rest = spaced tokens

theorem At.rest_skip {tokens : List String} {c : Cursor} (here : At tokens c) (clean : Clean tokens) :
    (grammar.skip c).rest = joined tokens := by
  have settled := settled_joined clean
  rcases here with same | after
  · rw [skip_settled (same ▸ settled), same]
  · cases tokens with
    | nil => rw [skip_settled (after ▸ settled), after]; rfl
    | cons t tokens =>
      rw [spaced_cons] at after
      simp only [Peg.Grammar.skip, grammar, after, trivia_space settled]

/-! ## Patterns on spaced tokens -/

/-- Match a pattern of the grammar. -/
def tries (p : Pattern Rule) (c : Cursor) : Outcome Rule := p.run grammar (grammar.read 16) c

theorem tries_rule (r : Rule) (c : Cursor) : tries (.rule r) c = grammar.read 16 r c := by
  rw [tries, run]

theorem tries_text {t : String} {c : Cursor} {s : List Char} (here : c.rest = t.toList ++ s) :
    tries (.text t) c = some ([], ⟨c.offset + Text.byteSize t.toList, s⟩) := by
  have scanned : Scanner.literal t.toList c.rest = some (t.toList, s) := by
    rw [here, Scanner.literal, if_pos (List.isPrefixOf_iff_prefix.mpr (List.prefix_append _ _)), List.drop_left]
  rw [tries, Pattern.text, run, Cursor.read, scanned]
  rfl

theorem tries_lit_none {text : List Char} {c : Cursor} (failed : Scanner.literal text c.rest = none) :
    tries (.lit text) c = none := by
  rw [tries, run, Cursor.read, failed]
  rfl

theorem tries_seq_of_some {p q : Pattern Rule} {c d : Cursor} {us : List (ParseTree Rule)}
    (first : tries p c = some (us, d)) :
    tries (.seq p q) c = (tries q (grammar.skip d)).map fun (vs, e) => (us ++ vs, e) := by
  rw [tries] at first
  rw [tries, run, first]
  rfl

theorem tries_seq_of_none {p q : Pattern Rule} {c : Cursor} (first : tries p c = none) : tries (.seq p q) c = none := by
  rw [tries] at first
  rw [tries, run, first]

theorem read_phrase_none {r : Rule} {p : Pattern Rule} {c : Cursor} (body : grammar.body r = .phrase p)
    (failed : tries p c = none) : grammar.read 16 r c = none := by
  rw [tries] at failed
  rw [Peg.Grammar.read_phrase layered_grammar body, failed]
  rfl

theorem read_token_none {r : Rule} {scan : Scanner} {c : Cursor} (body : grammar.body r = .token scan)
    (failed : scan c.rest = none) : grammar.read 16 r c = none := by
  rw [Peg.Grammar.read_token layered_grammar body, Cursor.read, failed]
  rfl

/-- The pattern does not match the tokens. -/
def Fails (p : Pattern Rule) (tokens : List String) : Prop :=
  Clean tokens → ∀ c : Cursor, c.rest = joined tokens → tries p c = none

/-- In front of `more`, the pattern matches the tokens and gives such trees. -/
structure Matches (p : Pattern Rule) (tokens more : List String) (result : List (ParseTree Rule) → Prop) : Prop where
  clean : Clean tokens
  found : Clean more → ∀ c : Cursor, c.rest = joined (tokens ++ more) →
    ∃ ts d, tries p c = some (ts, d) ∧ At more d ∧ result ts

/-- In front of `more`, further rounds of the pattern match the tokens and give such trees. -/
structure Rounds (p : Pattern Rule) (tokens more : List String) (result : List (ParseTree Rule) → Prop) : Prop where
  clean : Clean tokens
  found : Clean more → ∀ (c : Cursor) (n : Nat), c.rest.length < n → At (tokens ++ more) c →
    ∃ ts d, grammar.rounds (tries p) n c = (ts, d) ∧ At more d ∧ result ts

/-- Trees of two parts in a row. -/
def Joint (first second : List (ParseTree Rule) → Prop) (ts : List (ParseTree Rule)) : Prop :=
  ∃ us vs, ts = us ++ vs ∧ first us ∧ second vs

/-- One tree. -/
def One (result : ParseTree Rule → Prop) (ts : List (ParseTree Rule)) : Prop := ∃ t, ts = [t] ∧ result t

/-- The trees of some items, one item after the other. -/
inductive Rows {α : Type} (result : α → List (ParseTree Rule) → Prop) : List α → List (ParseTree Rule) → Prop where
  | nil : Rows result [] []
  | cons {a : α} {as : List α} {ts us : List (ParseTree Rule)} (first : result a ts) (rest : Rows result as us) :
    Rows result (a :: as) (ts ++ us)

section
variable {p q : Pattern Rule} {xs ys more : List String} {Q S : List (ParseTree Rule) → Prop}

theorem Matches.post (matched : Matches p xs more Q) (weaker : ∀ ts, Q ts → S ts) : Matches p xs more S := by
  refine ⟨matched.clean, fun clean c here => ?_⟩
  obtain ⟨ts, d, found, left, result⟩ := matched.found clean c here
  exact ⟨ts, d, found, left, weaker ts result⟩

theorem Rounds.post (matched : Rounds p xs more Q) (weaker : ∀ ts, Q ts → S ts) : Rounds p xs more S := by
  refine ⟨matched.clean, fun clean c n bound here => ?_⟩
  obtain ⟨ts, d, found, left, result⟩ := matched.found clean c n bound here
  exact ⟨ts, d, found, left, weaker ts result⟩

theorem Matches.seq (first : Matches p xs (ys ++ more) Q) (second : Matches q ys more S) :
    Matches (.seq p q) (xs ++ ys) more (Joint Q S) := by
  refine ⟨clean_append first.clean second.clean, fun clean c here => ?_⟩
  have clean' := clean_append second.clean clean
  obtain ⟨us, d, found, left, result⟩ := first.found clean' c (by rwa [← List.append_assoc])
  obtain ⟨vs, e, found', left', result'⟩ := second.found clean _ (left.rest_skip clean')
  refine ⟨us ++ vs, e, ?_, left', us, vs, rfl, result, result'⟩
  rw [tries_seq_of_some found, found']
  rfl

/-- A part that matches nothing, in front of another. -/
theorem Matches.seq_of_nil (first : Matches p [] (xs ++ more) (· = [])) (second : Matches q xs more Q) :
    Matches (.seq p q) xs more Q := by
  refine (first.seq second).post ?_
  rintro ts ⟨us, vs, rfl, rfl, result⟩
  exact result

/-- A part that matches nothing, behind another. -/
theorem Matches.seq_nil (first : Matches p xs more Q) (second : Matches q [] more (· = [])) :
    Matches (.seq p q) xs more Q := by
  have both : Matches (.seq p q) (xs ++ []) more (Joint Q (· = [])) := Matches.seq first second
  rw [List.append_nil] at both
  refine both.post ?_
  rintro ts ⟨us, vs, rfl, result, rfl⟩
  rwa [List.append_nil]

theorem Matches.first (matched : Matches p xs more Q) : Matches (.alt p q) xs more Q := by
  refine ⟨matched.clean, fun clean c here => ?_⟩
  obtain ⟨ts, d, found, left, result⟩ := matched.found clean c here
  refine ⟨ts, d, ?_, left, result⟩
  simp only [tries] at found ⊢
  rw [run, found]

theorem Matches.second (fails : Fails p (xs ++ more)) (matched : Matches q xs more Q) :
    Matches (.alt p q) xs more Q := by
  refine ⟨matched.clean, fun clean c here => ?_⟩
  obtain ⟨ts, d, found, left, result⟩ := matched.found clean c here
  have failed := fails (clean_append matched.clean clean) c here
  refine ⟨ts, d, ?_, left, result⟩
  simp only [tries] at found failed ⊢
  rw [run, failed, found]

theorem Matches.opt (matched : Matches p xs more Q) : Matches (.opt p) xs more Q := by
  refine ⟨matched.clean, fun clean c here => ?_⟩
  obtain ⟨ts, d, found, left, result⟩ := matched.found clean c here
  refine ⟨ts, d, ?_, left, result⟩
  simp only [tries] at found ⊢
  rw [run, found]

theorem Matches.opt_nil (fails : Fails p more) : Matches (.opt p) [] more (· = []) := by
  refine ⟨clean_nil, fun clean c here => ⟨[], c, ?_, .inl here, rfl⟩⟩
  have failed := fails clean c here
  simp only [tries] at failed ⊢
  rw [run, failed]

theorem Matches.star_nil (fails : Fails p more) : Matches (.star p) [] more (· = []) := by
  refine ⟨clean_nil, fun clean c here => ⟨[], c, ?_, .inl here, rfl⟩⟩
  have failed := fails clean c here
  simp only [tries] at failed ⊢
  rw [run, failed]

theorem Rounds.done (fails : Fails p more) : Rounds p [] more (· = []) := by
  refine ⟨clean_nil, fun clean c n bound here => ⟨[], c, ?_, here, rfl⟩⟩
  obtain ⟨m, rfl⟩ : ∃ m, n = m + 1 := ⟨n - 1, by omega⟩
  have failed := fails clean _ (At.rest_skip here clean)
  rw [Peg.Grammar.rounds, failed]

/-- What is left is shorter, where something has to be read. -/
theorem length_of_tries (some_read : p.mayBeEmpty Rule.empty = false) {c d : Cursor} {ts : List (ParseTree Rule)}
    (found : tries p c = some (ts, d)) : d.rest.length < c.rest.length := by
  have calls r c ts d (read : grammar.read 16 r c = some (ts, d)) : c.Reaches (Rule.empty r) d :=
    Peg.Grammar.parse_reaches layered_grammar _ r c ts d read
  exact (Pattern.run_reaches layered_grammar calls p c ts d found).lt some_read

theorem Rounds.step (some_read : p.mayBeEmpty Rule.empty = false) (first : Matches p xs (ys ++ more) Q)
    (rest : Rounds p ys more S) : Rounds p (xs ++ ys) more (Joint Q S) := by
  refine ⟨clean_append first.clean rest.clean, fun clean c n bound here => ?_⟩
  obtain ⟨m, rfl⟩ : ∃ m, n = m + 1 := ⟨n - 1, by omega⟩
  have clean' := clean_append rest.clean clean
  rw [List.append_assoc] at here
  obtain ⟨us, d, found, left, result⟩ := first.found clean' _ (here.rest_skip (clean_append first.clean clean'))
  have shorter := length_of_tries some_read found
  have skipped := (layered_grammar.skip c).le
  obtain ⟨vs, e, found', left', result'⟩ := rest.found clean d m (by omega) left
  refine ⟨us ++ vs, e, ?_, left', us, vs, rfl, result, result'⟩
  rw [Peg.Grammar.rounds, found]
  simp only [found']

theorem Matches.star (first : Matches p xs (ys ++ more) Q) (rest : Rounds p ys more S) :
    Matches (.star p) (xs ++ ys) more (Joint Q S) := by
  refine ⟨clean_append first.clean rest.clean, fun clean c here => ?_⟩
  have clean' := clean_append rest.clean clean
  obtain ⟨us, d, found, left, result⟩ := first.found clean' c (by rwa [← List.append_assoc])
  obtain ⟨vs, e, found', left', result'⟩ := rest.found clean d _ (Nat.lt_succ_self _) left
  refine ⟨us ++ vs, e, ?_, left', us, vs, rfl, result, result'⟩
  simp only [tries] at found ⊢
  rw [run, found]
  exact congrArg (fun pair => some (us ++ pair.1, pair.2)) found'

theorem Fails.seq (fails : Fails p xs) : Fails (.seq p q) xs := by
  intro clean c here
  exact tries_seq_of_none (fails clean c here)

theorem Fails.seq_of_matches (first : Matches p xs more Q) (fails : Fails q more) : Fails (.seq p q) (xs ++ more) := by
  intro clean c here
  obtain ⟨us, d, found, left, -⟩ := first.found clean.right c here
  rw [tries_seq_of_some found, fails clean.right _ (left.rest_skip clean.right)]
  rfl

theorem Fails.alt (first : Fails p xs) (second : Fails q xs) : Fails (.alt p q) xs := by
  intro clean c here
  have failed := first clean c here
  have failed' := second clean c here
  simp only [tries] at failed failed' ⊢
  rw [run, failed, failed']

end

section
variable {p q : Pattern Rule} {t : String} {xs ys more : List String} {Q S : List (ParseTree Rule) → Prop}

/-- A literal matches the token that it is. -/
theorem Matches.text (clean : isClean t = true) : Matches (text t) [t] more (· = []) := by
  refine ⟨clean_cons clean clean_nil, fun _ c here => ?_⟩
  refine ⟨[], ⟨c.offset + Text.byteSize t.toList, spaced more⟩, tries_text here, .inr rfl, rfl⟩

theorem Matches.text_seq (clean : isClean t = true) (rest : Matches p xs more Q) :
    Matches (.seq (Pattern.text t) p) (t :: xs) more Q := by
  refine ((Matches.text clean).seq rest).post ?_
  rintro ts ⟨us, vs, rfl, rfl, result⟩
  exact result

/-- A token rule matches a token that its scanner reads whole. -/
theorem Matches.token {r : Rule} {scan : Scanner} (body : grammar.body r = .token scan) (clean : isClean t = true)
    (scanned : ∀ rest, Ends rest → scan (t.toList ++ rest) = some (t.toList, rest)) :
    Matches (.rule r) [t] more (One fun tree => ∃ start, tree = .token r start t.toList) := by
  refine ⟨clean_cons clean clean_nil, fun _ c here => ?_⟩
  have found := scanned _ (ends_spaced more)
  rw [show t.toList ++ spaced more = c.rest from here.symm] at found
  refine ⟨[.token r c.offset t.toList], ⟨c.offset + Text.byteSize t.toList, spaced more⟩, ?_, .inr rfl,
    .token r c.offset t.toList, rfl, c.offset, rfl⟩
  rw [tries_rule, Peg.Grammar.read_token layered_grammar body, Cursor.read, found]
  rfl

theorem Matches.blind_token {r : Rule} {scan : Scanner} (body : grammar.body r = .token scan) (blind : scan.Blind)
    (clean : isClean t = true) (whole : scan t.toList = some (t.toList, [])) :
    Matches (.rule r) [t] more (One fun tree => ∃ start, tree = .token r start t.toList) :=
  .token body clean fun rest ends => by rw [blind _ _ ends, whole]; rfl

theorem Matches.phrase {r : Rule} (body : grammar.body r = .phrase p) (matched : Matches p xs more Q)
    {result : ParseTree Rule → Prop} (lift : ∀ range ts, Q ts → result (.phrase r range ts)) :
    Matches (.rule r) xs more (One result) := by
  refine ⟨matched.clean, fun clean c here => ?_⟩
  obtain ⟨ts, d, found, left, given⟩ := matched.found clean c here
  refine ⟨_, d, ?_, left, _, rfl, lift ⟨c.offset, ParseTree.lastToken c.offset ts, d.offset⟩ ts given⟩
  rw [tries] at found
  rw [tries_rule, Peg.Grammar.read_phrase layered_grammar body, found]
  rfl

theorem Fails.phrase {r : Rule} (body : grammar.body r = .phrase p) (fails : Fails p xs) : Fails (.rule r) xs := by
  intro clean c here
  rw [tries_rule, read_phrase_none body (fails clean c here)]

theorem Fails.text_seq (clean : isClean t = true) (fails : Fails p xs) : Fails (.seq (Pattern.text t) p) (t :: xs) :=
  .seq_of_matches (.text clean) fails

end

/-! ## Repetitions -/

section
variable {α : Type} {p : Pattern Rule} {more : List String} {follows : List String → Prop} {tokens : α → List String}
  {result : α → List (ParseTree Rule) → Prop} {items : List α}

/-- Each item is matched, whatever may follow it. -/
structure Items (p : Pattern Rule) (follows : List String → Prop) (tokens : α → List String)
    (result : α → List (ParseTree Rule) → Prop) (items : List α) : Prop where
  matched : ∀ a ∈ items, ∀ rest, follows rest → Matches p (tokens a) rest (result a)
  follow : ∀ a ∈ items, ∀ rest, follows (tokens a ++ rest)

theorem Items.tail {a : α} (each : Items p follows tokens result (a :: items)) : Items p follows tokens result items :=
  ⟨fun b member => each.matched b (List.mem_cons_of_mem _ member),
    fun b member => each.follow b (List.mem_cons_of_mem _ member)⟩

theorem Items.follows_rest (each : Items p follows tokens result items) (last : follows more) :
    follows (items.flatMap tokens ++ more) := by
  cases items with
  | nil => exact last
  | cons a items =>
    rw [List.flatMap_cons, List.append_assoc]
    exact each.follow a List.mem_cons_self _

theorem Items.rounds (some_read : p.mayBeEmpty Rule.empty = false) (each : Items p follows tokens result items)
    (last : follows more) (fails : Fails p more) : Rounds p (items.flatMap tokens) more (Rows result items) := by
  induction items with
  | nil =>
    refine (Rounds.done fails).post ?_
    rintro ts rfl
    exact .nil
  | cons a items ih =>
    have first := each.matched a List.mem_cons_self _ (each.tail.follows_rest last)
    refine (Rounds.step some_read first (ih each.tail)).post ?_
    rintro ts ⟨us, vs, rfl, front, back⟩
    exact .cons front back

theorem Items.star (some_read : p.mayBeEmpty Rule.empty = false) (each : Items p follows tokens result items)
    (last : follows more) (fails : Fails p more) :
    Matches (.star p) (items.flatMap tokens) more (Rows result items) := by
  cases items with
  | nil =>
    refine (Matches.star_nil fails).post ?_
    rintro ts rfl
    exact .nil
  | cons a items =>
    have first := each.matched a List.mem_cons_self _ (each.tail.follows_rest last)
    refine (Matches.star first (each.tail.rounds some_read last fails)).post ?_
    rintro ts ⟨us, vs, rfl, front, back⟩
    exact .cons front back

/-- Items with a separator between two. -/
theorem Matches.sepBy {s : Pattern Rule} {separator : String} {a : α} (solid : s.mayBeEmpty Rule.empty = false)
    (between : ∀ rest, Matches s [separator] rest (· = []))
    (each : ∀ b ∈ a :: items, ∀ rest, follows rest → Matches p (tokens b) rest (result b))
    (follow : ∀ rest, follows (separator :: rest)) (last : follows more) (fails : Fails (.seq s p) more) :
    Matches (Pattern.sepBy p s) (separated separator ((a :: items).map tokens)) more (Rows result (a :: items)) := by
  have some_read : (Pattern.seq s p).mayBeEmpty Rule.empty = false := by simp [mayBeEmpty, solid]
  have further : Items (.seq s p) follows (fun b => separator :: tokens b) result items := by
    refine ⟨fun b member rest allowed => ?_, fun b _ rest => follow _⟩
    refine ((between _).seq (each b (List.mem_cons_of_mem _ member) rest allowed)).post ?_
    rintro ts ⟨us, vs, rfl, rfl, given⟩
    exact given
  have first := each a List.mem_cons_self _ (further.follows_rest last)
  rw [List.map_cons, separated, List.flatMap_map]
  refine (first.seq (further.star some_read last fails)).post ?_
  rintro ts ⟨us, vs, rfl, front, back⟩
  exact .cons front back

end

end LuaLowering.Syntax
