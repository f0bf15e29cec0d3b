import LuaLowering.Peg.Grammar
/-!
Why a text does not match: the furthest offset at which a rule was tried and failed, and the rules
that failed there. A rule that fails stands for the rules that failed inside it at its own start,
unless only one did.

`Pattern.attempt` and `Grammar.attempt` go the same way through the text as `Pattern.run` and
`Grammar.parse`; they keep the failures and build no tree.
-/
namespace LuaLowering.Peg

structure Attempts (ρ : Type) where
  furthest : Nat
  expected : Array ρ

variable {ρ : Type}

namespace Attempts

def start : Attempts ρ := ⟨0, #[]⟩

/-- How many rules failed at an offset, as far as they are still kept. -/
def countAt (a : Attempts ρ) (offset : Nat) : Nat :=
  if offset = a.furthest then a.expected.size else 0

/-- Note that a rule tried at `offset` failed, when `before` rules had failed there by then. -/
def note (a : Attempts ρ) (r : ρ) (offset before : Nat) : Attempts ρ :=
  if a.countAt offset = before + 1 then a
  else if offset = a.furthest then { a with expected := (a.expected.shrink before).push r }
  else if a.furthest < offset then ⟨offset, #[r]⟩
  else a

end Attempts

/-- Where a match ends, if it succeeds, and the failures on the way. -/
abbrev Trial (ρ : Type) := Option Cursor × Attempts ρ

/-- Further rounds of a repetition. -/
def Grammar.attemptRounds (g : Grammar ρ) (step : Cursor → Attempts ρ → Trial ρ) :
    Nat → Cursor → Attempts ρ → Cursor × Attempts ρ
  | 0, c, a => (c, a)
  | n + 1, c, a =>
    match step (g.skip c) a with
    | (none, a) => (c, a)
    | (some d, a) => g.attemptRounds step n d a

def Pattern.attempt (g : Grammar ρ) (call : ρ → Cursor → Attempts ρ → Trial ρ) :
    Pattern ρ → Cursor → Attempts ρ → Trial ρ
  | .lit text, c, a => ((c.read (.literal text)).map Prod.snd, a)
  | .rule r, c, a => call r c a
  | .seq p q, c, a =>
    match p.attempt g call c a with
    | (none, a) => (none, a)
    | (some c, a) => q.attempt g call (g.skip c) a
  | .alt p q, c, a =>
    match p.attempt g call c a with
    | (none, a) => q.attempt g call c a
    | found => found
  | .opt p, c, a =>
    match p.attempt g call c a with
    | (none, a) => (some c, a)
    | found => found
  | .star p, c, a =>
    match p.attempt g call c a with
    | (none, a) => (some c, a)
    | (some c, a) =>
      let (c, a) := g.attemptRounds (p.attempt g call) (c.rest.length + 1) c a
      (some c, a)

def Grammar.attempt (g : Grammar ρ) : (depth : Nat) → ρ → Cursor → Attempts ρ → Trial ρ
  | 0, _, _, a => (none, a)
  | depth + 1, r, c, a =>
    let before := a.countAt c.offset
    let (found, a) :=
      match g.body r with
      | .token scan => ((c.read scan).map Prod.snd, a)
      | .phrase p => p.attempt g (g.attempt depth) c a
    match found with
    | none => (none, a.note r c.offset before)
    | some c => (some c, a)

end LuaLowering.Peg
