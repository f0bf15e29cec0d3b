import LuaLowering.Syntax.FlatExp
/-!
# Relabelling

Names of variables and places are labels: a chunk can be given other names and ranges without touching anything else.
Erasing ranges is such a relabelling, and so is renaming variables.
-/
namespace LuaLowering

namespace Syntax
section Trees
variable (names : String → String) (ranges : Option TextRange → Option TextRange)

/-- Of a path, only the first name is that of a variable. -/
def FuncName.relabel : FuncName → FuncName
  | ⟨[], method⟩ => ⟨[], method⟩
  | ⟨n :: path, method⟩ => ⟨names n :: path, method⟩

def AttribName.relabel (a : AttribName) : AttribName := ⟨names a.name, a.attrib⟩

mutual

/-- The same expression with other names of variables and other ranges. -/
def Exp.relabel : Exp → Exp
  | ⟨kind, range⟩ => ⟨kind.relabel, ranges range⟩

def expsRelabel : List Exp → List Exp
  | [] => []
  | e :: es => e.relabel :: expsRelabel es

def ExpKind.relabel : ExpKind → ExpKind
  | .nil => .nil
  | .false => .false
  | .true => .true
  | .varArgs => .varArgs
  | .number n => .number n
  | .str s => .str s
  | .function body => .function body.relabel
  | .prefixExp p => .prefixExp p.relabel
  | .table fields => .table (fieldsRelabel fields)
  | .unary op e => .unary op e.relabel
  | .binary op a b => .binary op a.relabel b.relabel

def PrefixExp.relabel : PrefixExp → PrefixExp
  | ⟨head, calls⟩ => ⟨head.relabel, callsRelabel calls⟩

def Head.relabel : Head → Head
  | .var v => .var v.relabel
  | .paren e => .paren e.relabel

def Var.relabel : Var → Var
  | ⟨root, suffixes, range⟩ => ⟨root.relabel, suffixesRelabel suffixes, ranges range⟩

def varsRelabel : List Var → List Var
  | [] => []
  | v :: vs => v.relabel :: varsRelabel vs

def Root.relabel : Root → Root
  | .name n => .name (names n)
  | .paren e => .paren e.relabel

def Suffix.relabel : Suffix → Suffix
  | ⟨calls, access⟩ => ⟨callsRelabel calls, access.relabel⟩

def suffixesRelabel : List Suffix → List Suffix
  | [] => []
  | s :: ss => s.relabel :: suffixesRelabel ss

def Access.relabel : Access → Access
  | .index e => .index e.relabel
  | .member n => .member n

def Call.relabel : Call → Call
  | ⟨method, args, range⟩ => ⟨method, args.relabel, ranges range⟩

def callsRelabel : List Call → List Call
  | [] => []
  | c :: cs => c.relabel :: callsRelabel cs

def Args.relabel : Args → Args
  | .list es => .list (expsRelabel es)
  | .table e => .table e.relabel
  | .str e => .str e.relabel

def Field.relabel : Field → Field
  | .keyed k v => .keyed k.relabel v.relabel
  | .named n v => .named n v.relabel
  | .positional v => .positional v.relabel

def fieldsRelabel : List Field → List Field
  | [] => []
  | f :: fs => f.relabel :: fieldsRelabel fs

def FuncBody.relabel : FuncBody → FuncBody
  | ⟨params, isVararg, body⟩ => ⟨params.map names, isVararg, body.relabel⟩

def Block.relabel : Block → Block
  | ⟨stats, none, range⟩ => ⟨statsRelabel stats, none, ranges range⟩
  | ⟨stats, some ret, range⟩ => ⟨statsRelabel stats, some ret.relabel, ranges range⟩

def Ret.relabel : Ret → Ret
  | ⟨values, range⟩ => ⟨expsRelabel values, ranges range⟩

def Stat.relabel : Stat → Stat
  | ⟨kind, range⟩ => ⟨kind.relabel, ranges range⟩

def statsRelabel : List Stat → List Stat
  | [] => []
  | s :: ss => s.relabel :: statsRelabel ss

def StatKind.relabel : StatKind → StatKind
  | .assign targets values => .assign (varsRelabel targets) (expsRelabel values)
  | .call p => .call p.relabel
  | .label n => .label n
  | .breakLoop => .breakLoop
  | .gotoLabel n => .gotoLabel n
  | .enclosed body => .enclosed body.relabel
  | .whileLoop c body => .whileLoop c.relabel body.relabel
  | .repeatLoop body c => .repeatLoop body.relabel c.relabel
  | .ifChain clauses none => .ifChain (clausesRelabel clauses) none
  | .ifChain clauses (some b) => .ifChain (clausesRelabel clauses) (some b.relabel)
  | .numericFor v a l none body => .numericFor (names v) a.relabel l.relabel none body.relabel
  | .numericFor v a l (some s) body => .numericFor (names v) a.relabel l.relabel (some s.relabel) body.relabel
  | .genericFor ns es body => .genericFor (ns.map names) (expsRelabel es) body.relabel
  | .function name body => .function (name.relabel names) body.relabel
  | .localFunction name body => .localFunction (names name) body.relabel
  | .localVars ns values => .localVars (ns.map (AttribName.relabel names)) (expsRelabel values)

def Clause.relabel : Clause → Clause
  | ⟨c, body⟩ => ⟨c.relabel, body.relabel⟩

def clausesRelabel : List Clause → List Clause
  | [] => []
  | c :: cs => c.relabel :: clausesRelabel cs

end

def Chunk.relabel (chunk : Chunk) : Chunk := ⟨chunk.block.relabel names ranges, ranges chunk.range⟩

end Trees

attribute [simp] Exp.relabel expsRelabel ExpKind.relabel PrefixExp.relabel Head.relabel Var.relabel varsRelabel
  Root.relabel Suffix.relabel suffixesRelabel Access.relabel Call.relabel callsRelabel Args.relabel Field.relabel
  fieldsRelabel FuncBody.relabel Block.relabel Ret.relabel Stat.relabel statsRelabel StatKind.relabel Clause.relabel
  clausesRelabel

@[simp] theorem FuncName.relabel_id (name : FuncName) : name.relabel id = name := by
  obtain ⟨path, method⟩ := name
  cases path <;> rfl

/-! ## What lowering asks of a tree -/

section Queries
variable (names : String → String) (ranges : Option TextRange → Option TextRange)

theorem Exp.range_relabel (e : Exp) : (e.relabel names ranges).range = ranges e.range := by
  obtain ⟨kind, range⟩ := e
  rw [relabel]

theorem Var.range_relabel (v : Var) : (v.relabel names ranges).range = ranges v.range := by
  obtain ⟨root, suffixes, range⟩ := v
  rw [relabel]

theorem Call.range_relabel (call : Call) : (call.relabel names ranges).range = ranges call.range := by
  obtain ⟨method, args, range⟩ := call
  rw [relabel]

theorem Ret.range_relabel (ret : Ret) : (ret.relabel names ranges).range = ranges ret.range := by
  obtain ⟨values, range⟩ := ret
  rw [relabel]

theorem Block.range_relabel (block : Block) : (block.relabel names ranges).range = ranges block.range := by
  obtain ⟨stats, ret, range⟩ := block
  cases ret <;> rw [relabel]

theorem Block.stats_relabel (block : Block) :
    (block.relabel names ranges).stats = statsRelabel names ranges block.stats := by
  obtain ⟨stats, ret, range⟩ := block
  cases ret <;> rw [relabel]

theorem Block.ret_relabel (block : Block) :
    (block.relabel names ranges).ret = block.ret.map (Ret.relabel names ranges) := by
  obtain ⟨stats, ret, range⟩ := block
  cases ret <;> rw [relabel] <;> rfl

theorem Var.bareName?_relabel (v : Var) : (v.relabel names ranges).bareName? = v.bareName?.map names := by
  obtain ⟨root, suffixes, range⟩ := v
  cases root <;> cases suffixes <;> simp [bareName?]

end Queries

end Syntax
end LuaLowering
