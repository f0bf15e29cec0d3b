import LuaLowering.Module.Operation
/-!
What happens during a compilation, as a list of events. An event has a level and a target, by which
a reader of the log chooses what to see.
-/
namespace LuaLowering

inductive LogLevel where
  | off | error | warn | info | debug | trace
  deriving DecidableEq, Repr

namespace LogLevel

/-- The more a level lets through, the higher it ranks. -/
def rank : LogLevel → Nat
  | .off => 0
  | .error => 1
  | .warn => 2
  | .info => 3
  | .debug => 4
  | .trace => 5

def label : LogLevel → String
  | .off => "OFF"
  | .error => "ERROR"
  | .warn => "WARN"
  | .info => "INFO"
  | .debug => "DEBUG"
  | .trace => "TRACE"

def all : List LogLevel := [.off, .error, .warn, .info, .debug, .trace]

end LogLevel

inductive Event where
  | compiling (file : String)
  | parsed (file : String) (statements : Nat)
  | opened (block : BlockId) (function : String)
  | lowering (construct : String) (loc : Location)
  | adjusting (loc : Location) (targets values : Nat)
  | declaring (name : String) (loc : Location)
  | emit (kind : OpKind) (loc : Location)
  | closed (function : String) (cells : Nat)
  | lowered (file : String) (operations : Nat)

namespace Event

def level : Event → LogLevel
  | .compiling _ | .lowered .. => .info
  | .parsed .. | .opened .. | .lowering .. | .adjusting .. | .closed .. => .debug
  | .declaring .. | .emit .. => .trace

def target : Event → String
  | .compiling _ => "luair"
  | .parsed .. => "luair_core::ast"
  | .opened .. | .declaring .. | .closed .. => "luair_core::ir::lower::function_builder"
  | .lowering .. | .adjusting .. => "luair_core::ir::lower::lower_stmt"
  | .emit .. => "luair_core::ir::builder"
  | .lowered .. => "luair_core::ir::lower"

def message : Event → String
  | .compiling file => s!"compiling {file}"
  | .parsed file n => s!"parsed '{file}' into {n} top-level statements"
  | .opened block function => s!"opened {block.render} of function '{function}'"
  | .lowering construct loc => s!"lowering {construct} at {loc.render}"
  | .adjusting loc targets values =>
    s!"assignment at {loc.render} has {targets} target(s) and {values} value(s); adjusting to {targets}"
  | .declaring name loc => s!"declaring '{name}' at {loc.render}"
  | .emit kind loc => s!"emit {kind.mnemonic} at {loc.render}"
  | .closed function n => s!"function '{function}' closed with {n} variable(s)"
  | .lowered file n => s!"lowered '{file}' into {n} operation(s)"

end Event
end LuaLowering
