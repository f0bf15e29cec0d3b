import LuaLowering.Proofs.Outcome
/-!
# Phrases

The trees in a phrase follow the pattern of its rule: `Pattern.Yields` are the sequences of rules that a pattern
stands for, and in every parse tree each phrase has the children of such a sequence (`Grammar.parse_formed`).
So a chunk that was read has no call statement without a call (`Chunk.parse_calls`).
-/
namespace LuaLowering.Peg
variable {ρ : Type} {g : Grammar ρ}

/-- The pattern stands for the sequence of rules. -/
inductive Pattern.Yields : Pattern ρ → List ρ → Prop where
  | lit (text : List Char) : Yields (.lit text) []
  | rule (r : ρ) : Yields (.rule r) [r]
  | seq {p q : Pattern ρ} {rs ss : List ρ} (first : Yields p rs) (second : Yields q ss) : Yields (.seq p q) (rs ++ ss)
  | altFirst {p q : Pattern ρ} {rs : List ρ} (first : Yields p rs) : Yields (.alt p q) rs
  | altSecond {p q : Pattern ρ} {rs : List ρ} (second : Yields q rs) : Yields (.alt p q) rs
  | optNone (p : Pattern ρ) : Yields (.opt p) []
  | optSome {p : Pattern ρ} {rs : List ρ} (inner : Yields p rs) : Yields (.opt p) rs
  | starDone (p : Pattern ρ) : Yields (.star p) []
  | starMore {p : Pattern ρ} {rs ss : List ρ} (round : Yields p rs) (rest : Yields (.star p) ss) :
    Yields (.star p) (rs ++ ss)

/-- Tokens and phrases stand where their rules say, and the children of each phrase follow its pattern. -/
inductive ParseTree.Formed (g : Grammar ρ) : ParseTree ρ → Prop where
  | token {r : ρ} {scan : Scanner} {start : Nat} {text : List Char} (rule : g.body r = .token scan) :
    Formed g (.token r start text)
  | phrase {r : ρ} {p : Pattern ρ} {range : TextRange} {children : List (ParseTree ρ)} (rule : g.body r = .phrase p)
    (yields : p.Yields (children.map ParseTree.rule)) (inner : ∀ t ∈ children, Formed g t) :
    Formed g (.phrase r range children)

theorem Grammar.yields_of_rounds {p : Pattern ρ} {step : Cursor → Outcome ρ}
    (each : ∀ c ts d, step c = some (ts, d) → p.Yields (ts.map ParseTree.rule)) (n : Nat) (c : Cursor) :
    (Pattern.star p).Yields ((g.rounds step n c).1.map ParseTree.rule) := by
  induction n generalizing c with
  | zero => exact .starDone p
  | succ n ih =>
    unfold rounds
    cases round : step (g.skip c) with
    | none => exact .starDone p
    | some found =>
      obtain ⟨ts, d⟩ := found
      simp only [List.map_append]
      exact .starMore (each _ ts d round) (ih d)

/-- Where each rule gives one tree of its own, a pattern gives trees of rules that it stands for. -/
theorem Pattern.yields_of_run {call : ρ → Cursor → Outcome ρ}
    (calls : ∀ r c ts d, call r c = some (ts, d) → ts.map ParseTree.rule = [r]) (p : Pattern ρ) :
    ∀ c ts d, p.run g call c = some (ts, d) → p.Yields (ts.map ParseTree.rule) := by
  induction p with
  | lit text =>
    intro c ts d found
    obtain ⟨_, -, made⟩ := Option.map_eq_some_iff.mp found
    cases made
    exact .lit text
  | rule r =>
    intro c ts d found
    rw [calls r c ts d found]
    exact .rule r
  | seq p q first second =>
    intro c ts d found
    rw [run] at found
    cases front : p.run g call c with
    | none =>
      rw [front] at found
      cases found
    | some pair =>
      obtain ⟨us, between⟩ := pair
      rw [front] at found
      obtain ⟨⟨vs, final⟩, back, made⟩ := Option.map_eq_some_iff.mp found
      cases made
      rw [List.map_append]
      exact .seq (first _ us between front) (second _ vs d back)
  | alt p q first second =>
    intro c ts d found
    rw [run] at found
    split at found
    · exact .altSecond (second c ts d found)
    · exact .altFirst (first c ts d found)
  | opt p ih =>
    intro c ts d found
    rw [run] at found
    split at found
    · cases found
      exact .optNone p
    · exact .optSome (ih c ts d found)
  | star p ih =>
    intro c ts d found
    rw [run] at found
    cases front : p.run g call c with
    | none =>
      rw [front] at found
      cases found
      exact .starDone p
    | some pair =>
      obtain ⟨us, between⟩ := pair
      rw [front] at found
      cases found
      rw [List.map_append]
      exact .starMore (ih _ us between front) (Grammar.yields_of_rounds (g := g) ih (between.rest.length + 1) between)

/-- A rule gives one tree, its own. -/
theorem Grammar.parse_rule (g : Grammar ρ) (depth : Nat) {r : ρ} {c : Cursor} {ts : List (ParseTree ρ)} {d : Cursor}
    (found : g.parse depth r c = some (ts, d)) : ts.map ParseTree.rule = [r] := by
  cases depth with
  | zero => cases found
  | succ depth =>
    rw [parse] at found
    split at found
    all_goals
      obtain ⟨_, -, made⟩ := Option.map_eq_some_iff.mp found
      cases made
      rfl

/-- Parse trees follow the grammar. -/
theorem Grammar.parse_formed (g : Grammar ρ) (depth : Nat) :
    ∀ r c ts d, g.parse depth r c = some (ts, d) → ∀ t ∈ ts, t.Formed g := by
  induction depth with
  | zero =>
    intro r c ts d found
    cases found
  | succ depth ih =>
    intro r c ts d found t member
    rw [parse] at found
    cases body : g.body r with
    | token scan =>
      rw [body] at found
      obtain ⟨_, -, made⟩ := Option.map_eq_some_iff.mp found
      cases made
      rw [List.mem_singleton.mp member]
      exact .token body
    | phrase p =>
      rw [body] at found
      obtain ⟨⟨inner, after⟩, matched, made⟩ := Option.map_eq_some_iff.mp found
      cases made
      rw [List.mem_singleton.mp member]
      exact .phrase body (Pattern.yields_of_run (fun _ _ _ _ => g.parse_rule depth) p c inner d matched)
        (Pattern.forall_of_run ih p c inner d matched)

end LuaLowering.Peg

namespace LuaLowering.Syntax
open Peg

theorem callsOf_length {ts : List (ParseTree Rule)} {calls : List Call} (made : callsOf ts = .ok calls) :
    calls.length = ts.length := by
  induction ts generalizing calls with
  | nil =>
    rw [callsOf] at made
    cases made
    rfl
  | cons t rest ih =>
    rw [callsOf] at made
    obtain ⟨call, -, made⟩ := bind_ok made
    obtain ⟨others, listed, made⟩ := bind_ok made
    cases made
    simp [ih listed]

/-- A call statement calls something. -/
def Stat.Calls (stat : Stat) : Prop := ∀ p, stat.kind = .call p → p.calls ≠ []

/-- A call statement is a variable or an expression in parentheses, and at least one call. -/
theorem two_le_of_callStat {range : TextRange} {ts : List (ParseTree Rule)}
    (formed : (ParseTree.phrase Rule.callStat range ts).Formed grammar) : 2 ≤ ts.length := by
  cases formed with
  | phrase rule yields inner =>
    cases rule
    generalize listed : ts.map ParseTree.rule = rules at yields
    have length := congrArg List.length listed
    rw [List.length_map] at length
    rcases yields with _ | _ | ⟨head, call | _ | ⟨_ | _, _⟩⟩
    cases head with
    | altFirst var =>
      cases var
      simp only [length, List.length_append, List.length_singleton]
      omega
    | altSecond paren =>
      cases paren
      simp only [length, List.length_append, List.length_singleton]
      omega

theorem statOf_calls {t : ParseTree Rule} (formed : t.Formed grammar) {s : Stat} (made : statOf t = .ok s) :
    s.Calls := by
  intro p isCall
  unfold statOf at made
  split at made
  case h_2 range ts =>
    obtain ⟨q, prefixed, made⟩ := bind_ok made
    cases made
    cases isCall
    have two := two_le_of_callStat formed
    cases ts with
    | nil => simp at two
    | cons head rest =>
      rw [prefixExpOf] at prefixed
      obtain ⟨h, -, prefixed⟩ := bind_ok prefixed
      obtain ⟨calls, listed, prefixed⟩ := bind_ok prefixed
      cases prefixed
      rintro rfl
      have counted := callsOf_length listed
      simp only [List.length_nil, List.length_cons] at counted two
      omega
  all_goals
    repeat obtain ⟨_, -, made⟩ := bind_ok made
    cases made
  all_goals cases isCall

theorem matchChunk_formed {text : List Char} {tree : ParseTree Rule} (matched : matchChunk text = some tree) :
    tree.Formed grammar := by
  unfold matchChunk at matched
  split at matched
  · rename_i found
    cases matched
    exact grammar.parse_formed _ _ _ _ _ found tree (by simp)
  · cases matched

/-- The call statements of a chunk that was read call something. -/
theorem Chunk.parse_calls {source : Source} {chunk : Chunk} (read : Chunk.parse source = .ok chunk) :
    ∀ s ∈ chunk.block.stats, s.Calls := by
  intro s member
  obtain ⟨range, children, r, ts, matched, listed, stats⟩ := stats_of_parse read
  obtain ⟨u, inside, made⟩ := stats s member
  cases matchChunk_formed matched with | phrase _ _ formed =>
  cases formed _ listed with | phrase _ _ formed =>
  exact statOf_calls (formed u inside) made

end LuaLowering.Syntax
