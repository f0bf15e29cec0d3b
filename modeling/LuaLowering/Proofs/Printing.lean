import LuaLowering.Lexeme.Numeral
import LuaLowering.Lexeme.Word
import LuaLowering.Proofs.Grouping
/-!
# Printing chunks

`Chunk.print` writes a chunk as a script: its tokens with a space between two, a semicolon after each statement, and
strings between double quotes. `wellFormed` are the trees that scripts can be read as: names are words that are not
reserved, numerals have the form of their class, operators are grouped as they bind, and nothing is empty that a script
has to write.
-/
namespace LuaLowering

/-! ## Tokens -/

namespace Lexeme.QuotedString

/-- A character as it stands between double quotes. -/
def escape (c : Char) : List Char :=
  if c = '"' then ['\\', '"']
  else if c = '\\' then ['\\', '\\']
  else if c = '\n' then ['\\', 'n']
  else if c = '\r' then ['\\', 'r']
  else [c]

/-- The literal that stands for some characters. -/
def encode (value : List Char) : List Char := '"' :: (value.flatMap escape ++ ['"'])

end Lexeme.QuotedString

namespace Syntax
open Lexeme Peg

/-- A word that is not reserved. -/
def isIdentifier (text : String) : Bool :=
  match text.toList with
  | [] => false
  | c :: s => isWordStart c && s.all isWordChar && !isReserved (c :: s)

def NumeralClass.scan : NumeralClass → Scanner
  | .int => Lexeme.Numeral.int
  | .hex => Lexeme.Numeral.hexInt
  | .float => Lexeme.Numeral.float
  | .hexFloat => Lexeme.Numeral.hexFloat

/-- The text of the numeral has the form of its class. -/
def Numeral.inClass (n : Numeral) : Bool := n.kind.scan n.text.toList == some (n.text.toList, [])

def UnaryOp.text : UnaryOp → String
  | .not => "not"
  | .neg => "-"
  | .len => "#"
  | .bnot => "~"

def BinaryOp.text : BinaryOp → String
  | .or => "or"
  | .and => "and"
  | .lt => "<"
  | .gt => ">"
  | .le => "<="
  | .ge => ">="
  | .eq => "=="
  | .ne => "~="
  | .bor => "|"
  | .bxor => "~"
  | .band => "&"
  | .shl => "<<"
  | .shr => ">>"
  | .concat => ".."
  | .add => "+"
  | .sub => "-"
  | .mul => "*"
  | .div => "/"
  | .idiv => "//"
  | .mod => "%"
  | .pow => "^"

def stringToken (value : String) : String := String.ofList (QuotedString.encode value.toList)

/-- Items with a token between two. -/
def separated (separator : String) : List (List String) → List String
  | [] => []
  | item :: items => item ++ items.flatMap (separator :: ·)

/-- The initial values of local variables, if there are any. -/
def initialTokens : List (List String) → List String
  | [] => []
  | items => "=" :: separated "," items

/-- Names between two parentheses, with an ellipsis at the end if there are further parameters. -/
def paramTokens (params : List String) (isVararg : Bool) : List String :=
  separated "," (params.map ([·]) ++ if isVararg then [["..."]] else [])

def AttribName.tokens : AttribName → List String
  | ⟨name, none⟩ => [name]
  | ⟨name, some attrib⟩ => [name, "<", attrib, ">"]

def FuncName.tokens (name : FuncName) : List String :=
  separated "." (name.path.map ([·])) ++ match name.method with
    | none => []
    | some method => [":", method]

mutual

def Exp.tokens : Exp → List String
  | ⟨kind, _⟩ => kind.tokens

/-- The tokens of each expression. -/
def expsTokens : List Exp → List (List String)
  | [] => []
  | e :: es => e.tokens :: expsTokens es

def ExpKind.tokens : ExpKind → List String
  | .nil => ["nil"]
  | .false => ["false"]
  | .true => ["true"]
  | .varArgs => ["..."]
  | .number n => [n.text]
  | .str s => [stringToken s]
  | .function body => "function" :: body.tokens
  | .prefixExp p => p.tokens
  | .table fields => "\x7b" :: (separated "," (fieldsTokens fields) ++ ["\x7d"])
  | .unary op e => op.text :: e.tokens
  | .binary op a b => a.tokens ++ op.text :: b.tokens

def PrefixExp.tokens : PrefixExp → List String
  | ⟨head, calls⟩ => head.tokens ++ (callsTokens calls).flatten

def Head.tokens : Head → List String
  | .var v => v.tokens
  | .paren e => "(" :: (e.tokens ++ [")"])

def Var.tokens : Var → List String
  | ⟨root, suffixes, _⟩ => root.tokens ++ (suffixesTokens suffixes).flatten

def varsTokens : List Var → List (List String)
  | [] => []
  | v :: vs => v.tokens :: varsTokens vs

def Root.tokens : Root → List String
  | .name n => [n]
  | .paren e => "(" :: (e.tokens ++ [")"])

def Suffix.tokens : Suffix → List String
  | ⟨calls, access⟩ => (callsTokens calls).flatten ++ access.tokens

def suffixesTokens : List Suffix → List (List String)
  | [] => []
  | s :: ss => s.tokens :: suffixesTokens ss

def Access.tokens : Access → List String
  | .index e => "[" :: (e.tokens ++ ["]"])
  | .member n => [".", n]

def Call.tokens : Call → List String
  | ⟨none, args, _⟩ => args.tokens
  | ⟨some method, args, _⟩ => ":" :: method :: args.tokens

def callsTokens : List Call → List (List String)
  | [] => []
  | c :: cs => c.tokens :: callsTokens cs

def Args.tokens : Args → List String
  | .list es => "(" :: (separated "," (expsTokens es) ++ [")"])
  | .table e => e.tokens
  | .str e => e.tokens

def Field.tokens : Field → List String
  | .keyed k v => "[" :: (k.tokens ++ "]" :: "=" :: v.tokens)
  | .named n v => n :: "=" :: v.tokens
  | .positional v => v.tokens

def fieldsTokens : List Field → List (List String)
  | [] => []
  | f :: fs => f.tokens :: fieldsTokens fs

def FuncBody.tokens : FuncBody → List String
  | ⟨params, isVararg, body⟩ => "(" :: (paramTokens params isVararg ++ ")" :: (body.tokens ++ ["end"]))

def Block.tokens : Block → List String
  | ⟨stats, none, _⟩ => statsTokens stats
  | ⟨stats, some ret, _⟩ => statsTokens stats ++ ret.tokens

def Ret.tokens : Ret → List String
  | ⟨values, _⟩ => "return" :: (separated "," (expsTokens values) ++ [";"])

def Stat.tokens : Stat → List String
  | ⟨kind, _⟩ => kind.tokens

/-- The tokens of all statements, a semicolon after each. -/
def statsTokens : List Stat → List String
  | [] => []
  | s :: ss => s.tokens ++ ";" :: statsTokens ss

def StatKind.tokens : StatKind → List String
  | .assign targets values => separated "," (varsTokens targets) ++ "=" :: separated "," (expsTokens values)
  | .call p => p.tokens
  | .label n => ["::", n, "::"]
  | .breakLoop => ["break"]
  | .gotoLabel n => ["goto", n]
  | .enclosed body => "do" :: (body.tokens ++ ["end"])
  | .whileLoop c body => "while" :: (c.tokens ++ "do" :: (body.tokens ++ ["end"]))
  | .repeatLoop body c => "repeat" :: (body.tokens ++ "until" :: c.tokens)
  | .ifChain clauses none => clausesTokens "if" clauses ++ ["end"]
  | .ifChain clauses (some b) => clausesTokens "if" clauses ++ "else" :: (b.tokens ++ ["end"])
  | .numericFor v a l none body =>
    "for" :: v :: "=" :: (a.tokens ++ "," :: (l.tokens ++ "do" :: (body.tokens ++ ["end"])))
  | .numericFor v a l (some s) body =>
    "for" :: v :: "=" :: (a.tokens ++ "," :: (l.tokens ++ "," :: (s.tokens ++ "do" :: (body.tokens ++ ["end"]))))
  | .genericFor names es body =>
    "for" :: (separated "," (names.map ([·])) ++ "in" ::
      (separated "," (expsTokens es) ++ "do" :: (body.tokens ++ ["end"])))
  | .function name body => "function" :: (name.tokens ++ body.tokens)
  | .localFunction name body => "local" :: "function" :: name :: body.tokens
  | .localVars names values =>
    "local" :: (separated "," (names.map AttribName.tokens) ++ initialTokens (expsTokens values))

def Clause.tokens : Clause → List String
  | ⟨c, body⟩ => c.tokens ++ "then" :: body.tokens

/-- The clauses of an `if`, with a word before the first of them. -/
def clausesTokens (word : String) : List Clause → List String
  | [] => []
  | c :: cs => word :: (c.tokens ++ clausesTokens "elseif" cs)

end

/-- The script that a chunk is written as. -/
def Chunk.print (chunk : Chunk) : String := " ".intercalate chunk.block.tokens

/-! ## Trees that can be written -/

def AttribName.wellFormed (name : AttribName) : Bool := isIdentifier name.name && name.attrib.all isIdentifier

def FuncName.wellFormed (name : FuncName) : Bool :=
  !name.path.isEmpty && name.path.all isIdentifier && name.method.all isIdentifier

def Exp.isTable : Exp → Bool
  | ⟨.table _, _⟩ => true
  | _ => false

def Exp.isStr : Exp → Bool
  | ⟨.str _, _⟩ => true
  | _ => false

def Root.isName : Root → Bool
  | .name _ => true
  | .paren _ => false

mutual

def Exp.wellFormed : Exp → Bool
  | ⟨kind, _⟩ => kind.wellFormed

def expsWellFormed : List Exp → Bool
  | [] => true
  | e :: es => e.wellFormed && expsWellFormed es

def ExpKind.wellFormed : ExpKind → Bool
  | .number n => n.inClass
  | .function body => body.wellFormed
  | .prefixExp p => p.wellFormed
  | .table fields => fieldsWellFormed fields
  | .unary _ e => e.wellFormed && e.fitsUnary
  | .binary op a b => a.wellFormed && b.wellFormed && a.fitsLeft op && b.fitsRight op
  | _ => Bool.true

def PrefixExp.wellFormed : PrefixExp → Bool
  | ⟨head, calls⟩ => head.wellFormed && callsWellFormed calls

def Head.wellFormed : Head → Bool
  | .var v => v.wellFormed
  | .paren e => e.wellFormed

def Var.wellFormed : Var → Bool
  | ⟨root, suffixes, _⟩ => root.wellFormed && suffixesWellFormed suffixes && (root.isName || !suffixes.isEmpty)

def varsWellFormed : List Var → Bool
  | [] => true
  | v :: vs => v.wellFormed && varsWellFormed vs

def Root.wellFormed : Root → Bool
  | .name n => isIdentifier n
  | .paren e => e.wellFormed

def Suffix.wellFormed : Suffix → Bool
  | ⟨calls, access⟩ => callsWellFormed calls && access.wellFormed

def suffixesWellFormed : List Suffix → Bool
  | [] => true
  | s :: ss => s.wellFormed && suffixesWellFormed ss

def Access.wellFormed : Access → Bool
  | .index e => e.wellFormed
  | .member n => isIdentifier n

def Call.wellFormed : Call → Bool
  | ⟨method, args, _⟩ => method.all isIdentifier && args.wellFormed

def callsWellFormed : List Call → Bool
  | [] => true
  | c :: cs => c.wellFormed && callsWellFormed cs

def Args.wellFormed : Args → Bool
  | .list es => expsWellFormed es
  | .table e => e.isTable && e.wellFormed
  | .str e => e.isStr && e.wellFormed

def Field.wellFormed : Field → Bool
  | .keyed k v => k.wellFormed && v.wellFormed
  | .named n v => isIdentifier n && v.wellFormed
  | .positional v => v.wellFormed

def fieldsWellFormed : List Field → Bool
  | [] => true
  | f :: fs => f.wellFormed && fieldsWellFormed fs

def FuncBody.wellFormed : FuncBody → Bool
  | ⟨params, _, body⟩ => params.all isIdentifier && body.wellFormed

def Block.wellFormed : Block → Bool
  | ⟨stats, none, _⟩ => statsWellFormed stats
  | ⟨stats, some ret, _⟩ => statsWellFormed stats && ret.wellFormed

def Ret.wellFormed : Ret → Bool
  | ⟨values, _⟩ => expsWellFormed values

def Stat.wellFormed : Stat → Bool
  | ⟨kind, _⟩ => kind.wellFormed

def statsWellFormed : List Stat → Bool
  | [] => true
  | s :: ss => s.wellFormed && statsWellFormed ss

def StatKind.wellFormed : StatKind → Bool
  | .assign targets values =>
    varsWellFormed targets && expsWellFormed values && !targets.isEmpty && !values.isEmpty
  | .call p => p.wellFormed && !p.calls.isEmpty
  | .label n => isIdentifier n
  | .breakLoop => true
  | .gotoLabel n => isIdentifier n
  | .enclosed body => body.wellFormed
  | .whileLoop c body => c.wellFormed && body.wellFormed
  | .repeatLoop body c => body.wellFormed && c.wellFormed
  | .ifChain clauses none => clausesWellFormed clauses && !clauses.isEmpty
  | .ifChain clauses (some b) => clausesWellFormed clauses && b.wellFormed && !clauses.isEmpty
  | .numericFor v a l none body => isIdentifier v && a.wellFormed && l.wellFormed && body.wellFormed
  | .numericFor v a l (some s) body =>
    isIdentifier v && a.wellFormed && l.wellFormed && s.wellFormed && body.wellFormed
  | .genericFor names es body =>
    names.all isIdentifier && expsWellFormed es && body.wellFormed && !names.isEmpty && !es.isEmpty
  | .function name body => name.wellFormed && body.wellFormed
  | .localFunction name body => isIdentifier name && body.wellFormed
  | .localVars names values => names.all AttribName.wellFormed && expsWellFormed values && !names.isEmpty

def Clause.wellFormed : Clause → Bool
  | ⟨c, body⟩ => c.wellFormed && body.wellFormed

def clausesWellFormed : List Clause → Bool
  | [] => true
  | c :: cs => c.wellFormed && clausesWellFormed cs

end

/-- The trees that scripts can be read as. -/
def Chunk.wellFormed (chunk : Chunk) : Bool := chunk.block.wellFormed

end Syntax
end LuaLowering
