import LuaLowering.Location
import LuaLowering.Peg.Scanner
/-!
Parsing expression grammars over named rules. A rule is either a token, read by a scanner, or a
phrase, a pattern of literals and other rules. Between two parts of a sequence, and between two
rounds of a repetition, the grammar's trivia is skipped. Matching a rule gives a tree of the rules
matched inside it.

Matching goes down through rules, so it takes a bound on their nesting; `Pattern.run` recurses on
the pattern and `Grammar.parse` on that bound.
-/
namespace LuaLowering.Peg

/-- Unread text and the byte offset at which it begins. -/
structure Cursor where
  offset : Nat
  rest : List Char

/-- Read a token. -/
def Cursor.read (c : Cursor) (scan : Scanner) : Option (List Char × Cursor) :=
  (scan c.rest).map fun (text, rest) => (text, ⟨c.offset + Text.byteSize text, rest⟩)

inductive Pattern (ρ : Type) where
  | lit (text : List Char)
  | rule (r : ρ)
  | seq (first second : Pattern ρ)
  | alt (first second : Pattern ρ)
  | opt (p : Pattern ρ)
  | star (p : Pattern ρ)

namespace Pattern
variable {ρ : Type}

def text (s : String) : Pattern ρ := .lit s.toList

/-- One after the other. -/
def all : List (Pattern ρ) → Pattern ρ
  | [] => .lit []
  | [p] => p
  | p :: ps => .seq p (all ps)

/-- The first that matches; with no alternative, nothing. -/
def any : List (Pattern ρ) → Pattern ρ
  | [] => .lit []
  | [p] => p
  | p :: ps => .alt p (any ps)

/-- At least once. -/
def plus (p : Pattern ρ) : Pattern ρ := .seq p (.star p)

/-- At least once, with `separator` between two. -/
def sepBy (p separator : Pattern ρ) : Pattern ρ := .seq p (.star (.seq separator p))

end Pattern

/-- What a rule stands for. -/
inductive Body (ρ : Type) where
  | token (scan : Scanner)
  | phrase (p : Pattern ρ)

structure Grammar (ρ : Type) where
  body : ρ → Body ρ
  /-- Splits the blanks and comments off the front of a text. -/
  trivia : List Char → List Char × List Char

/-- What a rule matched: a token with its start and its text, or a phrase with its range and the
trees of the rules inside it. -/
inductive ParseTree (ρ : Type) where
  | token (rule : ρ) (start : Nat) (text : List Char)
  | phrase (rule : ρ) (range : TextRange) (children : List (ParseTree ρ))

namespace ParseTree
variable {ρ : Type}

def rule : ParseTree ρ → ρ
  | .token r .. => r
  | .phrase r .. => r

def tokenRange (start : Nat) (text : List Char) : TextRange :=
  ⟨start, start, start + Text.byteSize text⟩

def range : ParseTree ρ → TextRange
  | .token _ start text => tokenRange start text
  | .phrase _ range _ => range

def isEmpty (t : ParseTree ρ) : Bool := t.range.start == t.range.stop

/-- Start of the last token of a phrase that starts at `start`: trivia and empty trees do not
count, and a phrase without trees is a token itself. -/
def lastToken (start : Nat) (children : List (ParseTree ρ)) : Nat :=
  match (children.filter (! ·.isEmpty)).getLast? with
  | some t => t.range.last
  | none => start

end ParseTree

variable {ρ : Type}

abbrev Outcome (ρ : Type) := Option (List (ParseTree ρ) × Cursor)

/-- Pass over trivia. -/
def Grammar.skip (g : Grammar ρ) (c : Cursor) : Cursor :=
  let (blank, rest) := g.trivia c.rest
  ⟨c.offset + Text.byteSize blank, rest⟩

/-- Further rounds of a repetition, each after trivia, until one fails. The trivia before the
failing round is not read. Every round but the failing one reads something,
so one more than the length of the text bounds them. -/
def Grammar.rounds (g : Grammar ρ) (step : Cursor → Outcome ρ) :
    Nat → Cursor → List (ParseTree ρ) × Cursor
  | 0, c => ([], c)
  | n + 1, c =>
    match step (g.skip c) with
    | none => ([], c)
    | some (ts, c) =>
      let (us, c) := g.rounds step n c
      (ts ++ us, c)

/-- Match a pattern, given how rules match. -/
def Pattern.run (g : Grammar ρ) (call : ρ → Cursor → Outcome ρ) : Pattern ρ → Cursor → Outcome ρ
  | .lit text, c => (c.read (.literal text)).map fun (_, c) => ([], c)
  | .rule r, c => call r c
  | .seq p q, c =>
    match p.run g call c with
    | none => none
    | some (ts, c) => (q.run g call (g.skip c)).map fun (us, c) => (ts ++ us, c)
  | .alt p q, c =>
    match p.run g call c with
    | none => q.run g call c
    | found => found
  | .opt p, c =>
    match p.run g call c with
    | none => some ([], c)
    | found => found
  | .star p, c =>
    match p.run g call c with
    | none => some ([], c)
    | some (ts, c) =>
      let (us, c) := g.rounds (p.run g call) (c.rest.length + 1) c
      some (ts ++ us, c)

/-- Match a rule, with at most `depth` rules inside one another. -/
def Grammar.parse (g : Grammar ρ) : (depth : Nat) → ρ → Cursor → Outcome ρ
  | 0, _, _ => none
  | depth + 1, r, c =>
    match g.body r with
    | .token scan => (c.read scan).map fun (text, d) => ([.token r c.offset text], d)
    | .phrase p =>
      (p.run g (g.parse depth) c).map fun (ts, d) =>
        ([.phrase r ⟨c.offset, ParseTree.lastToken c.offset ts, d.offset⟩ ts], d)

end LuaLowering.Peg
