import LuaLowering.Diagnostic
import LuaLowering.Peg.Attempts
import LuaLowering.Syntax.Grammar
import LuaLowering.Syntax.OfTree
/-!
Reading a script: `Chunk.parse` gives its tree or a syntax error. A text that does not match the
grammar is read a second time to find out where it stops making sense and what could stand there.
-/
namespace LuaLowering.Syntax
open Peg

/-- More rules never lie inside one another: from one read character to the next there are at most
eight. -/
def depthBound (text : List Char) : Nat := 16 * (text.length + 1)

inductive SyntaxError where
  /-- The text stops matching at a byte offset, where one of some rules could go on. -/
  | expected (rules : List Rule) (offset : Nat)
  | tree (cause : TreeError)

namespace SyntaxError

def message : SyntaxError → String
  | .expected rules _ => "expected " ++ Rule.enumerate (Rule.inOrder rules)
  | .tree (.escape cause _) => cause.message
  | .tree (.shape rule _) => "misplaced " ++ rule.label

def issuer : SyntaxError → String
  | .expected .. => "luair.ast.generate_ast_from_source"
  | .tree (.escape ..) => "luair.ast.expr.parse_string_rule"
  | .tree (.shape ..) => "luair.ast"

def span (source : Source) : SyntaxError → Span
  | .expected _ offset => ⟨source.location offset, source.location offset⟩
  | .tree (.escape _ range) => source.span range
  | .tree (.shape _ range) => source.span range

def diagnostic (source : Source) (e : SyntaxError) : Diagnostic :=
  ⟨.error, e.message, e.issuer, (e.span source).first, e.span source⟩

end SyntaxError

/-- The tree of a text that the grammar matches. -/
def matchChunk (text : List Char) : Option (ParseTree Rule) :=
  match grammar.parse (depthBound text) .chunk ⟨0, text⟩ with
  | some ([tree], _) => some tree
  | _ => none

/-- Why the grammar does not match a text. -/
def explain (text : List Char) : SyntaxError :=
  let attempts := (grammar.attempt (depthBound text) .chunk ⟨0, text⟩ .start).2
  .expected attempts.expected.toList attempts.furthest

def Chunk.parse (source : Source) : Except SyntaxError Chunk :=
  let text := source.text.toList
  match matchChunk text with
  | none => .error (explain text)
  | some tree => (chunkOf tree).mapError .tree

end LuaLowering.Syntax
