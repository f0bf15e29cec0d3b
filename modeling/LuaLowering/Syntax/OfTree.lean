import LuaLowering.Peg.Grammar
import LuaLowering.Lexeme.QuotedString
import LuaLowering.Syntax.FlatExp
import LuaLowering.Syntax.Rule
/-!
Chunks from the trees that the grammar gives. Tokens that close a construct and empty statements leave
nothing behind, and neither does a pair of parentheses other than the node that holds its expression.
The only fault of a tree that comes from the grammar is a wrong escape sequence in a string.
-/
namespace LuaLowering.Syntax
open Peg Lexeme

/-- What is wrong with a tree, and where. -/
inductive TreeError where
  | escape (cause : QuotedString.EscapeError) (range : TextRange)
  /-- No phrase of the grammar looks like this. -/
  | shape (rule : Rule) (range : TextRange)

/-- Something read from a tree. -/
abbrev FromTree (α : Type) := Except TreeError α

def misplaced {α : Type} (t : ParseTree Rule) : FromTree α := .error (.shape t.rule t.range)

/-- Something is missing from a phrase. -/
def incomplete {α : Type} (r : Rule) (range : TextRange) : FromTree α := .error (.shape r range)

def nameOf : ParseTree Rule → FromTree String
  | .token .name _ text => .ok (String.ofList text)
  | t => misplaced t

def namesOf (ts : List (ParseTree Rule)) : FromTree (List String) := ts.mapM nameOf

def attribNameOf : ParseTree Rule → FromTree AttribName
  | .phrase .attribName _ [n] => do return ⟨← nameOf n, none⟩
  | .phrase .attribName _ [n, .phrase .attrib _ [a, _]] => do return ⟨← nameOf n, some (← nameOf a)⟩
  | t => misplaced t

def funcNameOf : List (ParseTree Rule) → FromTree FuncName
  | [] => .ok ⟨[], none⟩
  | .phrase .funcMethod _ [m] :: _ => do return ⟨[], some (← nameOf m)⟩
  | t :: ts => do
    let n ← nameOf t
    let rest ← funcNameOf ts
    return ⟨n :: rest.path, rest.method⟩

/-- Parameter names, and whether there are further ones. -/
def paramsOf : List (ParseTree Rule) → FromTree (List String × Bool)
  | [.phrase .names _ ns] => do return (← namesOf ns, false)
  | [.phrase .names _ ns, .token .varArgs ..] => do return (← namesOf ns, true)
  | _ => .ok ([], true)

def numeralOf : ParseTree Rule → FromTree Numeral
  | .token .int _ text => .ok ⟨.int, String.ofList text⟩
  | .token .hexInt _ text => .ok ⟨.hex, String.ofList text⟩
  | .token .float _ text => .ok ⟨.float, String.ofList text⟩
  | .token .hexFloat _ text => .ok ⟨.hexFloat, String.ofList text⟩
  | t => misplaced t

/-- The value of a string literal that stands at `range`. -/
def stringOf (range : TextRange) : List (ParseTree Rule) → FromTree String
  | [.token .longString _ text] => .ok (String.ofList (LongBracket.content text))
  | [.token .quotedString _ text] =>
    match QuotedString.decode (QuotedString.body text) with
    | .ok value => .ok (String.ofList value)
    | .error e => .error (.escape e range)
  | _ => incomplete .string range

mutual

def expOf : ParseTree Rule → FromTree Exp
  | .phrase .exp range ts => do return (← flatExpOf range ts).assemble
  | t => misplaced t

def expsOf : List (ParseTree Rule) → FromTree (List Exp)
  | [] => .ok []
  | t :: ts => do
    let e ← expOf t
    let es ← expsOf ts
    return e :: es

def flatExpOf (range : TextRange) : List (ParseTree Rule) → FromTree FlatExp
  | .token (.unary op) start text :: ts => do
    let e ← flatExpOf range ts
    return ⟨⟨(op, ParseTree.tokenRange start text) :: e.first.unary, e.first.exp⟩, e.rest⟩
  | [t] => do return ⟨⟨[], ← primaryOf t⟩, []⟩
  | t :: .token (.binary op) _ _ :: ts => do
    let e ← primaryOf t
    let more ← flatExpOf range ts
    return ⟨⟨[], e⟩, (op, more.first) :: more.rest⟩
  | _ => incomplete .exp range

def primaryOf : ParseTree Rule → FromTree Exp
  | .token .nil start text => .ok ⟨.nil, ParseTree.tokenRange start text⟩
  | .token .false start text => .ok ⟨.false, ParseTree.tokenRange start text⟩
  | .token .true start text => .ok ⟨.true, ParseTree.tokenRange start text⟩
  | .token .varArgs start text => .ok ⟨.varArgs, ParseTree.tokenRange start text⟩
  | .phrase .number range [n] => do return ⟨.number (← numeralOf n), range⟩
  | .phrase .string range ts => do return ⟨.str (← stringOf range ts), range⟩
  | .phrase .functionDef range [b] => do return ⟨.function (← funcBodyOf b), range⟩
  | .phrase .table range ts => do return ⟨.table (← fieldsOf ts), range⟩
  | .phrase .prefixExp range ts => do return ⟨.prefixExp (← prefixExpOf range ts), range⟩
  | t => misplaced t

def prefixExpOf (range : TextRange) : List (ParseTree Rule) → FromTree PrefixExp
  | t :: ts => do
    let head ← headOf t
    let calls ← callsOf ts
    return ⟨head, calls⟩
  | [] => incomplete .prefixExp range

def headOf : ParseTree Rule → FromTree Head
  | .phrase .var range ts => do return .var (← varOf range ts)
  | .phrase .parenExp _ [e, _] => do return .paren (← expOf e)
  | t => misplaced t

def varsOf : List (ParseTree Rule) → FromTree (List Var)
  | [] => .ok []
  | .phrase .var range ts :: us => do
    let v ← varOf range ts
    let vs ← varsOf us
    return v :: vs
  | t :: _ => misplaced t

def varOf (range : TextRange) : List (ParseTree Rule) → FromTree Var
  | t :: ts => do
    let root ← rootOf t
    let suffixes ← suffixesOf ts
    return ⟨root, suffixes, range⟩
  | [] => incomplete .var range

def rootOf : ParseTree Rule → FromTree Root
  | .token .name _ text => .ok (.name (String.ofList text))
  | .phrase .parenExp _ [e, _] => do return .paren (← expOf e)
  | t => misplaced t

def suffixesOf : List (ParseTree Rule) → FromTree (List Suffix)
  | [] => .ok []
  | .phrase .suffix range ts :: us => do
    let s ← suffixOf range ts
    let ss ← suffixesOf us
    return s :: ss
  | t :: _ => misplaced t

def suffixOf (range : TextRange) : List (ParseTree Rule) → FromTree Suffix
  | [t] => do return ⟨[], ← accessOf t⟩
  | t :: ts => do
    let c ← callOf t
    let s ← suffixOf range ts
    return ⟨c :: s.calls, s.access⟩
  | [] => incomplete .suffix range

def accessOf : ParseTree Rule → FromTree Access
  | .phrase .index _ [e, _] => do return .index (← expOf e)
  | .phrase .member _ [n] => do return .member (← nameOf n)
  | t => misplaced t

def callsOf : List (ParseTree Rule) → FromTree (List Call)
  | [] => .ok []
  | t :: ts => do
    let c ← callOf t
    let cs ← callsOf ts
    return c :: cs

def callOf : ParseTree Rule → FromTree Call
  | .phrase .call range [a] => do return ⟨none, ← argsOf a, range⟩
  | .phrase .call range [.phrase .method _ [m], a] => do
    let method ← nameOf m
    return ⟨method, ← argsOf a, range⟩
  | t => misplaced t

def argsOf : ParseTree Rule → FromTree Args
  | .phrase .args _ [_] => .ok (.list [])
  | .phrase .args _ [.phrase .exps _ es, _] => do return .list (← expsOf es)
  | .phrase .table range ts => do return .table ⟨.table (← fieldsOf ts), range⟩
  | .phrase .string range ts => do return .str ⟨.str (← stringOf range ts), range⟩
  | t => misplaced t

def fieldsOf : List (ParseTree Rule) → FromTree (List Field)
  | [] => .ok []
  | .token .closeBrace .. :: _ => .ok []
  | t :: ts => do
    let f ← fieldOf t
    let fs ← fieldsOf ts
    return f :: fs

def fieldOf : ParseTree Rule → FromTree Field
  | .phrase .keyedField _ [k, v] => do
    let key ← expOf k
    return .keyed key (← expOf v)
  | .phrase .namedField _ [n, v] => do
    let name ← nameOf n
    return .named name (← expOf v)
  | .phrase .positionalField _ [v] => do return .positional (← expOf v)
  | t => misplaced t

def funcBodyOf : ParseTree Rule → FromTree FuncBody
  | .phrase .funcBody _ [b, _] => do return ⟨[], false, ← blockOf b⟩
  | .phrase .funcBody _ [.phrase .params _ ps, b, _] => do
    let (params, isVararg) ← paramsOf ps
    return ⟨params, isVararg, ← blockOf b⟩
  | t => misplaced t

def blockOf : ParseTree Rule → FromTree Block
  | .phrase .block range ts => do
    let (stats, ret) ← statsOf ts
    return ⟨stats, ret, range⟩
  | t => misplaced t

def statsOf : List (ParseTree Rule) → FromTree (List Stat × Option Ret)
  | [] => .ok ([], none)
  | .token .semicolon .. :: ts => statsOf ts
  | [.phrase .retStat range ts] => do return ([], some ⟨← retValuesOf ts, range⟩)
  | t :: ts => do
    let s ← statOf t
    let (ss, ret) ← statsOf ts
    return (s :: ss, ret)

def retValuesOf : List (ParseTree Rule) → FromTree (List Exp)
  | .phrase .exps _ es :: _ => expsOf es
  | _ => .ok []

def statOf : ParseTree Rule → FromTree Stat
  | .phrase .assignStat range [.phrase .vars _ vs, .phrase .exps _ es] => do
    let targets ← varsOf vs
    return ⟨.assign targets (← expsOf es), range⟩
  | .phrase .callStat range ts => do return ⟨.call (← prefixExpOf range ts), range⟩
  | .phrase .labelStat range [n, _] => do return ⟨.label (← nameOf n), range⟩
  | .token .breakStat start text => .ok ⟨.breakLoop, ParseTree.tokenRange start text⟩
  | .phrase .gotoStat range [n] => do return ⟨.gotoLabel (← nameOf n), range⟩
  | .phrase .doStat range [b, _] => do return ⟨.enclosed (← blockOf b), range⟩
  | .phrase .whileStat range [c, b, _] => do
    let cond ← expOf c
    return ⟨.whileLoop cond (← blockOf b), range⟩
  | .phrase .repeatStat range [b, c] => do
    let body ← blockOf b
    return ⟨.repeatLoop body (← expOf c), range⟩
  | .phrase .ifStat range (c :: b :: ts) => do
    let cond ← expOf c
    let body ← blockOf b
    let (clauses, otherwise) ← clausesOf range ts
    return ⟨.ifChain (⟨cond, body⟩ :: clauses) otherwise, range⟩
  | .phrase .numericForStat range [v, a, l, b, _] => do
    let var ← nameOf v
    let start ← expOf a
    let limit ← expOf l
    return ⟨.numericFor var start limit none (← blockOf b), range⟩
  | .phrase .numericForStat range [v, a, l, s, b, _] => do
    let var ← nameOf v
    let start ← expOf a
    let limit ← expOf l
    let step ← expOf s
    return ⟨.numericFor var start limit step (← blockOf b), range⟩
  | .phrase .genericForStat range [.phrase .names _ ns, .phrase .exps _ es, b, _] => do
    let names ← namesOf ns
    let exps ← expsOf es
    return ⟨.genericFor names exps (← blockOf b), range⟩
  | .phrase .functionStat range [.phrase .funcName _ ns, b] => do
    let name ← funcNameOf ns
    return ⟨.function name (← funcBodyOf b), range⟩
  | .phrase .localFunctionStat range [n, b] => do
    let name ← nameOf n
    return ⟨.localFunction name (← funcBodyOf b), range⟩
  | .phrase .localStat range [.phrase .attribNames _ ns] => do
    return ⟨.localVars (← ns.mapM attribNameOf) [], range⟩
  | .phrase .localStat range [.phrase .attribNames _ ns, .phrase .exps _ es] => do
    let names ← ns.mapM attribNameOf
    return ⟨.localVars names (← expsOf es), range⟩
  | t => misplaced t

/-- The further clauses of an `if` and its `else`. -/
def clausesOf (range : TextRange) : List (ParseTree Rule) → FromTree (List Clause × Option Block)
  | [.token .endWord ..] => .ok ([], none)
  | [.phrase .elseClause _ [b], .token .endWord ..] => do return ([], some (← blockOf b))
  | .phrase .elseifClause _ [c, b] :: ts => do
    let cond ← expOf c
    let body ← blockOf b
    let (clauses, otherwise) ← clausesOf range ts
    return (⟨cond, body⟩ :: clauses, otherwise)
  | _ => incomplete .ifStat range

end

def chunkOf : ParseTree Rule → FromTree Chunk
  | .phrase .chunk range [.phrase .block r ts, _] => do return ⟨← blockOf (.phrase .block r ts), range⟩
  | .phrase .chunk range [_, b, _] => do return ⟨← blockOf b, range⟩
  | t => misplaced t

end LuaLowering.Syntax
