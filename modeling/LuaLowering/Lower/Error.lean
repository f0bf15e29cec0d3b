import LuaLowering.Diagnostic
import LuaLowering.Module.Build
import LuaLowering.Module.Verify
/-!
Why lowering stops. Either the script uses a construct that is not lowered, or a rule of the lowering
itself is broken.
-/
namespace LuaLowering

/-- Which rule of the lowering is broken. -/
inductive Breach where
  | build (cause : BuildError)
  | verify (errors : List VerifyError)
  | numeral (text : String)
  | misplacedPack (position count : Nat)
  | unpackCount (actual expected : Nat)
  | emptyUnpack
  | other (message : String)

def Breach.message : Breach → String
  | .build cause => cause.message
  | .verify errors => "module failed to verify: " ++ "; ".intercalate (errors.map VerifyError.message)
  | .numeral text => s!"malformed number literal '{text}'"
  | .misplacedPack position count => s!"pack at position {position} of {count} is not the last item"
  | .unpackCount actual expected => s!"unpack produced {actual} value(s), expected {expected}"
  | .emptyUnpack => "single-value unpack produced nothing"
  | .other message => message

inductive LowerError where
  | unsupported (construct : String) (span : Span)
  | invariant (breach : Breach) (location : Option Location)

namespace LowerError

/-- The module does not pass the checks; the place is that of the first error that has one. -/
def ofVerify (errors : List VerifyError) : LowerError :=
  .invariant (.verify errors) (errors.findSome? VerifyError.location?)

/-- The construct that is not lowered. -/
def construct? : LowerError → Option String
  | .unsupported construct _ => some construct
  | .invariant .. => none

def diagnostic : LowerError → Diagnostic
  | .unsupported construct span =>
    ⟨.error, s!"{construct} not implemented", "luair.ir.lower", some span.first, some span⟩
  | .invariant breach location => ⟨.critical, breach.message, "luair.ir.lower", location, none⟩

/-- The error in a sentence. -/
def sentence (e : LowerError) : String :=
  match e with
  | .unsupported .. => e.diagnostic.sentence
  | .invariant .. => "internal error: " ++ e.diagnostic.sentence

end LowerError
end LuaLowering
