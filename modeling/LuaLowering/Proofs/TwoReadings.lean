import LuaLowering.Proofs.Nesting
import Mathlib.Data.List.Forall2
/-!
# Two readings side by side

Two texts are read by the same scanners (`Scanner.Relates`) and by the same grammar. `SideBySide` relates what the
readings have left unread, where a token may be tried and where one has ended. Where tokens are read alike on both sides
(`Reads`), patterns and rules match alike: both fail, or both give trees that are the same but for places
(`Corresponds`). There is one rule for each form of a scanner and of a pattern.
-/
namespace LuaLowering.Peg

/-! ## Scanners -/

namespace Scanner
variable {B : List Char → List Char → Prop}

/-- From two texts the scanner reads the same and leaves two texts in the relation, or it fails on both. -/
def AlikeAt (scan : Scanner) (B : List Char → List Char → Prop) (s s' : List Char) : Prop :=
  (scan s = none ∧ scan s' = none) ∨
    ∃ x rest rest', scan s = some (x, rest) ∧ scan s' = some (x, rest') ∧ B rest rest'

theorem alikeAt_self (scan : Scanner) (same : ∀ s, B s s) (s : List Char) : scan.AlikeAt B s s := by
  cases read : scan s with
  | none => exact .inl ⟨read, read⟩
  | some found => exact .inr ⟨found.1, found.2, found.2, read, read, same found.2⟩

/-- So it does from any two texts in another relation. -/
def Relates (A B : List Char → List Char → Prop) (scan : Scanner) : Prop := ∀ s s', A s s' → scan.AlikeAt B s s'

end Scanner

/-! ## Patterns and rules -/

variable {ρ : Type}

/-- The trees are the same but for places. -/
inductive ParseTree.Alike : ParseTree ρ → ParseTree ρ → Prop where
  | token (r : ρ) (start start' : Nat) (text : List Char) : Alike (.token r start text) (.token r start' text)
  | phrase (r : ρ) (range range' : TextRange) {ts ts' : List (ParseTree ρ)} (inner : List.Forall₂ Alike ts ts') :
    Alike (.phrase r range ts) (.phrase r range' ts')

/-- Both fail, or both match, with trees that are the same but for places and with rests in the relation. -/
def Corresponds (rests : List Char → List Char → Prop) (o o' : Outcome ρ) : Prop :=
  (o = none ∧ o' = none) ∨ ∃ ts c ts' c', o = some (ts, c) ∧ o' = some (ts', c') ∧
    List.Forall₂ ParseTree.Alike ts ts' ∧ rests c.rest c'.rest

/-- Two texts that are read side by side: `ready` holds where tokens are tried, `ends` where they end. -/
structure SideBySide (g : Grammar ρ) where
  ready : List Char → List Char → Prop
  ends : List Char → List Char → Prop
  skip : ∀ {s s'}, ends s s' → ready (g.trivia s).2 (g.trivia s').2
  stay : ∀ {s s'}, ready s s' → ends s s'

namespace SideBySide
variable {g : Grammar ρ} (b : SideBySide g)

/-- The scanner reads the same on both sides. -/
def Reads (scan : Scanner) : Prop := scan.Relates b.ready b.ends

/-- The two ways to match do the same on both sides. -/
def Keeps (m m' : Cursor → Outcome ρ) : Prop :=
  ∀ c c', b.ready c.rest c'.rest → Corresponds b.ends (m c) (m' c')

variable {b} {call call' : ρ → Cursor → Outcome ρ} {p q : Pattern ρ} {c c' : Cursor}

theorem corresponds_lit {text : List Char} (alike : (Scanner.literal text).AlikeAt b.ends c.rest c'.rest) :
    Corresponds b.ends ((Pattern.lit text).run g call c) ((Pattern.lit text).run g call' c') := by
  rw [Pattern.run, Pattern.run, Cursor.read, Cursor.read]
  rcases alike with ⟨none, none'⟩ | ⟨x, rest, rest', found, found', ends⟩
  · rw [none, none']
    exact .inl ⟨rfl, rfl⟩
  · rw [found, found']
    exact .inr ⟨_, _, _, _, rfl, rfl, .nil, ends⟩

theorem corresponds_token {r : ρ} {scan : Scanner} (body : g.body r = .token scan)
    (alike : scan.AlikeAt b.ends c.rest c'.rest) (depth : Nat) :
    Corresponds b.ends (g.parse depth r c) (g.parse depth r c') := by
  cases depth with
  | zero => exact .inl ⟨rfl, rfl⟩
  | succ depth =>
    rw [Grammar.parse, Grammar.parse, body]
    simp only [Cursor.read]
    rcases alike with ⟨none, none'⟩ | ⟨x, rest, rest', found, found', ends⟩
    · rw [none, none']
      exact .inl ⟨rfl, rfl⟩
    · rw [found, found']
      exact .inr ⟨_, _, _, _, rfl, rfl, .cons (.token ..) .nil, ends⟩

theorem corresponds_phrase {r : ρ} {depth : Nat} (body : g.body r = .phrase p)
    (inner : Corresponds b.ends (p.run g (g.parse depth) c) (p.run g (g.parse depth) c')) :
    Corresponds b.ends (g.parse (depth + 1) r c) (g.parse (depth + 1) r c') := by
  rw [Grammar.parse, Grammar.parse, body]
  simp only
  rcases inner with ⟨none, none'⟩ | ⟨ts, d, ts', d', found, found', trees, ends⟩
  · rw [none, none']
    exact .inl ⟨rfl, rfl⟩
  · rw [found, found']
    exact .inr ⟨_, _, _, _, rfl, rfl, .cons (.phrase _ _ _ trees) .nil, ends⟩

/-- What follows is tried where the first part has ended, on both sides. -/
theorem corresponds_seq (first : Corresponds b.ends (p.run g call c) (p.run g call' c'))
    (second : b.Keeps (q.run g call) (q.run g call')) :
    Corresponds b.ends ((Pattern.seq p q).run g call c) ((Pattern.seq p q).run g call' c') := by
  rw [Pattern.run, Pattern.run]
  rcases first with ⟨none, none'⟩ | ⟨ts, d, ts', d', found, found', trees, ends⟩
  · rw [none, none']
    exact .inl ⟨rfl, rfl⟩
  · rw [found, found']
    simp only
    rcases second (g.skip d) (g.skip d') (b.skip ends) with
      ⟨none, none'⟩ | ⟨us, e, us', e', more, more', others, rest⟩
    · rw [none, none']
      exact .inl ⟨rfl, rfl⟩
    · rw [more, more']
      exact .inr ⟨_, _, _, _, rfl, rfl, List.rel_append trees others, rest⟩

/-- The second alternative is tried where the first fails on both sides. -/
theorem corresponds_alt (first : Corresponds b.ends (p.run g call c) (p.run g call' c'))
    (second : p.run g call c = none → Corresponds b.ends (q.run g call c) (q.run g call' c')) :
    Corresponds b.ends ((Pattern.alt p q).run g call c) ((Pattern.alt p q).run g call' c') := by
  rw [Pattern.run, Pattern.run]
  rcases first with ⟨none, none'⟩ | ⟨ts, d, ts', d', found, found', trees, ends⟩
  · rw [none, none']
    exact second none
  · rw [found, found']
    exact .inr ⟨ts, d, ts', d', rfl, rfl, trees, ends⟩

theorem corresponds_opt (inner : Corresponds b.ends (p.run g call c) (p.run g call' c'))
    (stay : p.run g call c = none → b.ends c.rest c'.rest) :
    Corresponds b.ends ((Pattern.opt p).run g call c) ((Pattern.opt p).run g call' c') := by
  rw [Pattern.run, Pattern.run]
  rcases inner with ⟨none, none'⟩ | ⟨ts, d, ts', d', found, found', trees, ends⟩
  · rw [none, none']
    exact .inr ⟨_, _, _, _, rfl, rfl, .nil, stay none⟩
  · rw [found, found']
    exact .inr ⟨ts, d, ts', d', rfl, rfl, trees, ends⟩

/-- Rounds that each read something, with bounds that are not reached. -/
theorem rounds_corresponds {step step' : Cursor → Outcome ρ} (steps : b.Keeps step step')
    (shorter : ∀ s, (g.trivia s).2.length ≤ s.length)
    (advances : ∀ c ts d, step c = some (ts, d) → d.rest.length < c.rest.length)
    (advances' : ∀ c ts d, step' c = some (ts, d) → d.rest.length < c.rest.length) :
    ∀ n n' c c', c.rest.length < n → c'.rest.length < n' → b.ends c.rest c'.rest →
      List.Forall₂ ParseTree.Alike (g.rounds step n c).1 (g.rounds step' n' c').1 ∧
        b.ends (g.rounds step n c).2.rest (g.rounds step' n' c').2.rest := by
  intro n
  induction n with
  | zero =>
    intro n' c c' bound
    omega
  | succ n ih =>
    intro n' c c' bound bound' ends
    obtain ⟨n', rfl⟩ : ∃ k, n' = k + 1 := ⟨n' - 1, by omega⟩
    rw [Grammar.rounds, Grammar.rounds]
    rcases steps (g.skip c) (g.skip c') (b.skip ends) with
      ⟨none, none'⟩ | ⟨ts, d, ts', d', found, found', trees, rest⟩
    · rw [none, none']
      exact ⟨.nil, ends⟩
    · rw [found, found']
      have less := advances _ ts d found
      have less' := advances' _ ts' d' found'
      have skipped : (g.skip c).rest.length ≤ c.rest.length := shorter c.rest
      have skipped' : (g.skip c').rest.length ≤ c'.rest.length := shorter c'.rest
      obtain ⟨others, final⟩ := ih n' d d' (by omega) (by omega) rest
      exact ⟨List.rel_append trees others, final⟩

theorem keeps_star (inner : b.Keeps (p.run g call) (p.run g call'))
    (shorter : ∀ s, (g.trivia s).2.length ≤ s.length)
    (advances : ∀ c ts d, p.run g call c = some (ts, d) → d.rest.length < c.rest.length)
    (advances' : ∀ c ts d, p.run g call' c = some (ts, d) → d.rest.length < c.rest.length) :
    b.Keeps ((Pattern.star p).run g call) ((Pattern.star p).run g call') := by
  intro c c' ready
  rw [Pattern.run, Pattern.run]
  rcases inner c c' ready with ⟨none, none'⟩ | ⟨ts, d, ts', d', found, found', trees, ends⟩
  · rw [none, none']
    exact .inr ⟨_, _, _, _, rfl, rfl, .nil, b.stay ready⟩
  · rw [found, found']
    obtain ⟨others, final⟩ := rounds_corresponds inner shorter advances advances' (d.rest.length + 1)
      (d'.rest.length + 1) d d' (Nat.lt_succ_self _) (Nat.lt_succ_self _) ends
    exact .inr ⟨_, _, _, _, rfl, rfl, List.rel_append trees others, final⟩

end SideBySide
end LuaLowering.Peg
