import LuaLowering.Lexeme.Numeral
import LuaLowering.Lexeme.QuotedString
import LuaLowering.Lexeme.Word
import LuaLowering.Peg.Grammar
import LuaLowering.Syntax.Rule
/-!
The grammar of Lua chunks. It reads characters, so only what a scanner checks keeps two words apart:
`gotox` reads as `goto x`. A rule that closes a construct is a token of its own, so that the last tree
of a phrase begins at the last token of the phrase.
-/
namespace LuaLowering.Syntax
open Peg Peg.Pattern Lexeme

/-- The token that an operator is. -/
def UnaryOp.scan : UnaryOp → Scanner
  | .not => word "not"
  | .neg => .literal ['-']
  | .len => .literal ['#']
  | .bnot => .literal ['~']

def BinaryOp.scan : BinaryOp → Scanner
  | .or => word "or"
  | .and => word "and"
  | .lt => .literal ['<']
  | .gt => .literal ['>']
  | .le => .literal ['<', '=']
  | .ge => .literal ['>', '=']
  | .eq => .literal ['=', '=']
  | .ne => .literal ['~', '=']
  | .bor => .literal ['|']
  | .bxor => .literal ['~']
  | .band => .literal ['&']
  | .shl => .literal ['<', '<']
  | .shr => .literal ['>', '>']
  | .concat => .seq (.absent (.literal ['.', '.', '.'])) (.literal ['.', '.'])
  | .add => .literal ['+']
  | .sub => .literal ['-']
  | .mul => .literal ['*']
  | .div => .literal ['/']
  | .idiv => .literal ['/', '/']
  | .mod => .literal ['%']
  | .pow => .literal ['^']

namespace Grammar

def stat : Pattern Rule :=
  any [rule .semicolon, rule .assignStat, rule .callStat, rule .labelStat, rule .breakStat, rule .gotoStat,
    rule .doStat, rule .whileStat, rule .repeatStat, rule .ifStat, rule .numericForStat, rule .genericForStat,
    rule .functionStat, rule .localFunctionStat, rule .localStat]

def varOrExp : Pattern Rule := any [rule .var, rule .parenExp]

def field : Pattern Rule := any [rule .keyedField, rule .namedField, rule .positionalField]

def fieldSep : Pattern Rule := any [text ",", text ";"]

/-- Operators in the order in which they are tried: one that begins another comes after it. -/
def binaryOp : Pattern Rule :=
  any (List.map (fun op => rule (.binary op))
    [.or, .and, .shl, .shr, .le, .ge, .lt, .gt, .eq, .ne, .bor, .bxor, .band, .concat, .add, .sub, .idiv,
      .mul, .div, .mod, .pow])

def unaryOp : Pattern Rule := any (UnaryOp.all.map fun op => rule (.unary op))

def primary : Pattern Rule :=
  any [rule .nil, rule .false, rule .true, rule .number, rule .string, rule .varArgs, rule .functionDef,
    rule .table, rule .prefixExp]

def operand : Pattern Rule := all [star unaryOp, primary]

def body : Rule → Body Rule
  | .finish => .token .finish
  | .chunk => .phrase (all [text "", opt (rule .shebang), rule .block, rule .finish])
  | .shebang => .token (.seq (.literal ['#']) line)
  | .block => .phrase (all [star stat, opt (rule .retStat)])
  | .assignStat => .phrase (all [rule .vars, text "=", rule .exps])
  | .callStat => .phrase (all [varOrExp, plus (rule .call)])
  | .labelStat => .phrase (all [text "::", rule .name, rule .closeLabel])
  | .breakStat => .token (.literal "break".toList)
  | .gotoStat => .phrase (all [text "goto", rule .name])
  | .doStat => .phrase (all [text "do", rule .block, rule .endWord])
  | .whileStat => .phrase (all [text "while", rule .exp, text "do", rule .block, rule .endWord])
  | .repeatStat => .phrase (all [text "repeat", rule .block, text "until", rule .exp])
  | .ifStat =>
    .phrase (all [text "if", rule .exp, text "then", rule .block, star (rule .elseifClause),
      opt (rule .elseClause), rule .endWord])
  | .elseifClause => .phrase (all [text "elseif", rule .exp, text "then", rule .block])
  | .elseClause => .phrase (all [text "else", rule .block])
  | .numericForStat =>
    .phrase (all [text "for", rule .name, text "=", rule .exp, text ",", rule .exp,
      opt (all [text ",", rule .exp]), text "do", rule .block, rule .endWord])
  | .genericForStat =>
    .phrase (all [text "for", rule .names, text "in", rule .exps, text "do", rule .block, rule .endWord])
  | .functionStat => .phrase (all [text "function", rule .funcName, rule .funcBody])
  | .localFunctionStat => .phrase (all [text "local", text "function", rule .name, rule .funcBody])
  | .localStat => .phrase (all [text "local", rule .attribNames, opt (all [text "=", rule .exps])])
  | .retStat => .phrase (all [text "return", opt (rule .exps), opt (rule .semicolon)])
  | .attribNames => .phrase (sepBy (rule .attribName) (text ","))
  | .attribName => .phrase (all [rule .name, opt (rule .attrib)])
  | .attrib => .phrase (all [text "<", rule .name, rule .closeAttrib])
  | .funcName => .phrase (all [sepBy (rule .name) (text "."), opt (rule .funcMethod)])
  | .funcMethod => .phrase (all [text ":", rule .name])
  | .vars => .phrase (sepBy (rule .var) (text ","))
  | .names => .phrase (sepBy (rule .name) (text ","))
  | .exps => .phrase (sepBy (rule .exp) (text ","))
  | .prefixExp => .phrase (all [varOrExp, star (rule .call)])
  | .parenExp => .phrase (all [text "(", rule .exp, rule .closeParen])
  | .var => .phrase (all [any [rule .name, all [rule .parenExp, rule .suffix]], star (rule .suffix)])
  | .suffix => .phrase (all [star (rule .call), any [rule .index, rule .member]])
  | .index => .phrase (all [text "[", rule .exp, rule .closeBracket])
  | .member => .phrase (all [text ".", rule .name])
  | .call => .phrase (all [opt (rule .method), any [rule .args, rule .table, rule .string]])
  | .method => .phrase (all [text ":", rule .name])
  | .args => .phrase (all [text "(", opt (rule .exps), rule .closeParen])
  | .functionDef => .phrase (all [text "function", rule .funcBody])
  | .funcBody => .phrase (all [text "(", opt (rule .params), text ")", rule .block, rule .endWord])
  | .params => .phrase (any [all [rule .names, opt (all [text ",", rule .varArgs])], rule .varArgs])
  | .table =>
    .phrase (all [text "\x7b", opt (all [sepBy field fieldSep, opt fieldSep]), rule .closeBrace])
  | .keyedField => .phrase (all [text "[", rule .exp, text "]", text "=", rule .exp])
  | .namedField => .phrase (all [rule .name, text "=", rule .exp])
  | .positionalField => .phrase (rule .exp)
  | .exp => .phrase (sepBy operand binaryOp)
  | .nil => .token (word "nil")
  | .false => .token (word "false")
  | .true => .token (word "true")
  | .varArgs => .token (.literal ['.', '.', '.'])
  | .unary op => .token op.scan
  | .binary op => .token op.scan
  | .number => .phrase (any [rule .hexFloat, rule .hexInt, rule .float, rule .int])
  | .hexFloat => .token Numeral.hexFloat
  | .hexInt => .token Numeral.hexInt
  | .float => .token Numeral.float
  | .int => .token Numeral.int
  | .string => .phrase (any [rule .longString, rule .quotedString])
  | .longString => .token LongBracket.scan
  | .quotedString => .token QuotedString.scan
  | .endWord => .token (word "end")
  | .closeParen => .token (.literal [')'])
  | .closeBracket => .token (.literal [']'])
  | .closeBrace => .token (.literal ['\x7d'])
  | .closeLabel => .token (.literal [':', ':'])
  | .closeAttrib => .token (.literal ['>'])
  | .semicolon => .token (.literal [';'])
  | .name => .token name

end Grammar

def grammar : Peg.Grammar Rule := ⟨Grammar.body, Lexeme.trivia⟩

end LuaLowering.Syntax
