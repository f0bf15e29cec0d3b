import LuaLowering.Syntax.Operator
/-!
The rules of the Lua grammar, in the order in which messages list them, and the names messages use.
-/
namespace LuaLowering.Syntax

inductive Rule where
  | finish
  | chunk | shebang | block
  | assignStat | callStat | labelStat | breakStat | gotoStat | doStat | whileStat | repeatStat | ifStat
  | elseifClause | elseClause | numericForStat | genericForStat | functionStat | localFunctionStat
  | localStat | retStat
  | attribNames | attribName | attrib | funcName | funcMethod
  | vars | names | exps
  | prefixExp | parenExp | var | suffix | index | member | call | method | args
  | functionDef | funcBody | params
  | table | keyedField | namedField | positionalField
  | exp | nil | false | true | varArgs
  | unary (op : UnaryOp) | binary (op : BinaryOp)
  | number | hexFloat | hexInt | float | int
  | string | longString | quotedString
  | endWord | closeParen | closeBracket | closeBrace | closeLabel | closeAttrib | semicolon
  | name
  deriving DecidableEq, Repr

namespace Rule

def all : List Rule :=
  ([.finish,
    .chunk, .shebang, .block,
    .assignStat, .callStat, .labelStat, .breakStat, .gotoStat, .doStat, .whileStat, .repeatStat, .ifStat,
    .elseifClause, .elseClause, .numericForStat, .genericForStat, .functionStat, .localFunctionStat,
    .localStat, .retStat,
    .attribNames, .attribName, .attrib, .funcName, .funcMethod,
    .vars, .names, .exps,
    .prefixExp, .parenExp, .var, .suffix, .index, .member, .call, .method, .args,
    .functionDef, .funcBody, .params,
    .table, .keyedField, .namedField, .positionalField,
    .exp, .nil, .false, .true, .varArgs] : List Rule)
  ++ UnaryOp.all.map unary ++ BinaryOp.all.map binary ++
  ([.number, .hexFloat, .hexInt, .float, .int,
    .string, .longString, .quotedString,
    .endWord, .closeParen, .closeBracket, .closeBrace, .closeLabel, .closeAttrib, .semicolon,
    .name] : List Rule)

def label : Rule → String
  | .finish => "EOI"
  | .chunk => "chunk"
  | .shebang => "shebang"
  | .block => "block"
  | .assignStat => "stat_assign"
  | .callStat => "stat_call"
  | .labelStat => "stat_label"
  | .breakStat => "stat_break"
  | .gotoStat => "stat_goto"
  | .doStat => "stat_do"
  | .whileStat => "stat_while"
  | .repeatStat => "stat_repeat"
  | .ifStat => "stat_if"
  | .elseifClause => "elseif_clause"
  | .elseClause => "else_clause"
  | .numericForStat => "stat_numeric_for"
  | .genericForStat => "stat_generic_for"
  | .functionStat => "stat_function"
  | .localFunctionStat => "stat_local_function"
  | .localStat => "stat_local"
  | .retStat => "retstat"
  | .attribNames => "attnamelist"
  | .attribName => "attname"
  | .attrib => "attrib"
  | .funcName => "funcname"
  | .funcMethod => "method_suffix"
  | .vars => "varlist"
  | .names => "namelist"
  | .exps => "explist"
  | .prefixExp => "prefixexp"
  | .parenExp => "paren_exp"
  | .var => "var"
  | .suffix => "var_suffix"
  | .index => "index"
  | .member => "member"
  | .call => "call_suffix"
  | .method => "method"
  | .args => "call_args"
  | .functionDef => "functiondef"
  | .funcBody => "funcbody"
  | .params => "parlist"
  | .table => "tableconstructor"
  | .keyedField => "field_keyed"
  | .namedField => "field_named"
  | .positionalField => "field_positional"
  | .exp => "exp"
  | .nil => "nil_lit"
  | .false => "false_lit"
  | .true => "true_lit"
  | .varArgs => "varargs"
  | .unary .not => "op_not"
  | .unary .neg => "op_neg"
  | .unary .len => "op_len"
  | .unary .bnot => "op_bnot"
  | .binary .or => "op_or"
  | .binary .and => "op_and"
  | .binary .lt => "op_lt"
  | .binary .gt => "op_gt"
  | .binary .le => "op_le"
  | .binary .ge => "op_ge"
  | .binary .eq => "op_eq"
  | .binary .ne => "op_ne"
  | .binary .bor => "op_bor"
  | .binary .bxor => "op_bxor"
  | .binary .band => "op_band"
  | .binary .shl => "op_shl"
  | .binary .shr => "op_shr"
  | .binary .concat => "op_concat"
  | .binary .add => "op_add"
  | .binary .sub => "op_sub"
  | .binary .mul => "op_mul"
  | .binary .div => "op_div"
  | .binary .idiv => "op_idiv"
  | .binary .mod => "op_mod"
  | .binary .pow => "op_pow"
  | .number => "number"
  | .hexFloat => "hex_float"
  | .hexInt => "hex_int"
  | .float => "float"
  | .int => "int"
  | .string => "string"
  | .longString => "long_string"
  | .quotedString => "quoted_string"
  | .endWord => "kw_end"
  | .closeParen => "close_paren"
  | .closeBracket => "close_bracket"
  | .closeBrace => "close_brace"
  | .closeLabel => "close_label"
  | .closeAttrib => "close_attrib"
  | .semicolon => "semicolon"
  | .name => "NAME"

/-- The rules in the grammar's order, each once. -/
def inOrder (rules : List Rule) : List Rule := all.filter (rules.contains ·)

/-- An enumeration in words. -/
def enumerate : List Rule → String
  | [] => ""
  | [a] => a.label
  | [a, b] => s!"{a.label} or {b.label}"
  | rules => ", ".intercalate (rules.dropLast.map label) ++ ", or " ++ (rules.getLast?.elim "" label)

end Rule
end LuaLowering.Syntax
