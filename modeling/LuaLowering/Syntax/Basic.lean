import LuaLowering.Location
import LuaLowering.Syntax.Operator
/-!
Lua chunks as trees. Nodes keep the range of the text they were read from; a node made otherwise has
none. Statements and expressions have a construct name, by which errors call them.
-/
namespace LuaLowering.Syntax

/-- Lexical class of a numeral. -/
inductive NumeralClass where
  | int | hex | float | hexFloat
  deriving DecidableEq, Repr

/-- A numeral as written. -/
structure Numeral where
  kind : NumeralClass
  text : String
  deriving DecidableEq, Repr

/-- The name of a function statement, `a.b.c` or `a.b:c`. -/
structure FuncName where
  path : List String
  method : Option String
  deriving DecidableEq, Repr

/-- A local variable with its attribute, as in `x <const>`. -/
structure AttribName where
  name : String
  attrib : Option String
  deriving DecidableEq, Repr

mutual

structure Exp where
  kind : ExpKind
  range : Option TextRange

inductive ExpKind where
  | nil
  | false
  | true
  | varArgs
  | number (literal : Numeral)
  | str (value : String)
  | function (body : FuncBody)
  | prefixExp (exp : PrefixExp)
  | table (fields : List Field)
  | unary (op : UnaryOp) (operand : Exp)
  | binary (op : BinaryOp) (lhs rhs : Exp)

/-- A variable or an expression in parentheses, and the calls made on it. -/
structure PrefixExp where
  head : Head
  calls : List Call

inductive Head where
  | var (var : Var)
  | paren (exp : Exp)

/-- A name or an expression in parentheses, and the accesses made on it. -/
structure Var where
  root : Root
  suffixes : List Suffix
  range : Option TextRange

inductive Root where
  | name (name : String)
  | paren (exp : Exp)

/-- Calls and then an access, as `(x).y` in `f(x).y`. -/
structure Suffix where
  calls : List Call
  access : Access

inductive Access where
  | index (key : Exp)
  | member (name : String)

structure Call where
  method : Option String
  args : Args
  range : Option TextRange

inductive Args where
  | list (exps : List Exp)
  | table (exp : Exp)
  | str (exp : Exp)

inductive Field where
  | keyed (key value : Exp)
  | named (name : String) (value : Exp)
  | positional (value : Exp)

structure FuncBody where
  params : List String
  isVararg : Bool
  body : Block

structure Block where
  stats : List Stat
  ret : Option Ret
  range : Option TextRange

structure Ret where
  values : List Exp
  range : Option TextRange

structure Stat where
  kind : StatKind
  range : Option TextRange

inductive StatKind where
  | assign (targets : List Var) (values : List Exp)
  | call (exp : PrefixExp)
  | label (name : String)
  | breakLoop
  | gotoLabel (name : String)
  | enclosed (body : Block)
  | whileLoop (cond : Exp) (body : Block)
  | repeatLoop (body : Block) (cond : Exp)
  | ifChain (clauses : List Clause) (otherwise : Option Block)
  | numericFor (var : String) (start limit : Exp) (step : Option Exp) (body : Block)
  | genericFor (names : List String) (exps : List Exp) (body : Block)
  | function (name : FuncName) (body : FuncBody)
  | localFunction (name : String) (body : FuncBody)
  | localVars (names : List AttribName) (values : List Exp)

/-- One condition of an `if` and what it guards. -/
structure Clause where
  cond : Exp
  body : Block

end

/-- A whole script. -/
structure Chunk where
  block : Block
  range : Option TextRange

/-- The name, if the variable is nothing but a name. -/
def Var.bareName? : Var → Option String
  | ⟨.name name, [], _⟩ => some name
  | _ => none

def ExpKind.construct : ExpKind → String
  | .nil => "nilvalue"
  | .false => "falsevalue"
  | .true => "truevalue"
  | .varArgs => "elipsis"
  | .number _ => "number"
  | .str _ => "string"
  | .function _ => "functiondef"
  | .prefixExp _ => "prefixexp"
  | .table _ => "tableconstructor"
  | .unary .. => "operatorUnary"
  | .binary op .. => op.construct

def StatKind.construct : StatKind → String
  | .assign .. => "assignlist"
  | .call _ => "functioncall"
  | .label _ => "label"
  | .breakLoop => "breakstmt"
  | .gotoLabel _ => "gotostmt"
  | .enclosed _ => "enclosedblock"
  | .whileLoop .. => "whileloop"
  | .repeatLoop .. => "repeatloop"
  | .ifChain .. => "conditionalchain"
  | .numericFor .. => "numericfor"
  | .genericFor .. => "genericfor"
  | .function .. => "namedfunctiondef"
  | .localFunction .. => "localnamedfunctiondef"
  | .localVars .. => "localvarlist"

end LuaLowering.Syntax
