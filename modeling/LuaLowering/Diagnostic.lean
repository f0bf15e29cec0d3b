import LuaLowering.Location
/-!
What is reported about an error: how severe it is, where it is, what it says and who found it.
-/
namespace LuaLowering

/-- Severity. `critical` is for faults of this library itself. -/
inductive Level where
  | info | warning | error | critical
  deriving DecidableEq, Repr

def Level.label : Level → String
  | .info => "INFO"
  | .warning => "WARNING"
  | .error => "ERROR"
  | .critical => "CRITICAL"

structure Diagnostic where
  level : Level
  message : String
  issuer : String
  location : Option Location
  span : Option Span
  deriving DecidableEq, Repr

namespace Diagnostic

/-- The line shown to the user. -/
def report (d : Diagnostic) : String :=
  let place := d.location.elim "unknown location" Location.render
  s!"LUAIR | {d.level.label} | {place} | {d.message}"

/-- The report with the issuer and the span. -/
def detail (d : Diagnostic) : String :=
  let span := d.span.elim "span:none" Span.render
  s!"{d.report} | {d.issuer} | {span}"

/-- The message with its place, if it has one. -/
def sentence (d : Diagnostic) : String :=
  match d.location with
  | some l => s!"{d.message} (at {l.render})"
  | none => d.message

end Diagnostic
end LuaLowering
