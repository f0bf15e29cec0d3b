import LuaLowering.Lower.Chunk
import LuaLowering.Syntax.Parse
/-!
From a script to a module: reading it, lowering it, and the errors of both.
-/
namespace LuaLowering

inductive CompileError where
  | parse (cause : Syntax.SyntaxError)
  | lower (cause : LowerError)

def CompileError.diagnostic (source : Source) : CompileError → Diagnostic
  | .parse cause => cause.diagnostic source
  | .lower cause => cause.diagnostic

namespace Source

/-- The module of a script, and the log of its compilation. -/
def compileLogged (source : Source) (c : Catalogue) : Except CompileError Module × Array Event :=
  match Syntax.Chunk.parse source with
  | .error e => (.error (.parse e), #[])
  | .ok chunk =>
    let (result, log) := chunk.lowerLogged source c
    (result.mapError .lower, #[.parsed source.file chunk.block.stats.length] ++ log)

/-- The module of a script, from the given operations. -/
def compileWith (source : Source) (c : Catalogue) : Except CompileError Module :=
  (source.compileLogged c).1

/-- The module of a script. -/
def compile (source : Source) : Except CompileError Module := source.compileWith .full

/-- A script in words. Its name is the path it was read from. -/
def describe (source : Source) : String := s!"Script: {source.file} at {Text.quoted source.file}"

end Source

/-- A script that cannot be read. -/
structure UnreadableScript where
  path : String
  reason : String

def UnreadableScript.diagnostic (e : UnreadableScript) : Diagnostic :=
  ⟨.error, s!"Cannot read script at {Text.quoted e.path}: {e.reason}", "luair.script", none, none⟩

end LuaLowering
