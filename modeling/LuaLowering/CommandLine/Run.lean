import LuaLowering.CommandLine.LogFilter
import LuaLowering.CommandLine.Options
import LuaLowering.CommandLine.Table
import LuaLowering.Compile
import LuaLowering.Module.Text
import LuaLowering.Module.ToJson
/-!
The command: read a script, compile it, and write the module. Files are reached through `Files`, so the
command runs on those of the system as well as on a `Directory` in memory.
-/
namespace LuaLowering.CommandLine

inductive FileError where
  | notFound
  | notDirectory
  | isDirectory
  | nameTooLong
  | notText
  | other (message : String)
  deriving DecidableEq, Repr

def FileError.message : FileError → String
  | .notFound => "No such file or directory (os error 2)"
  | .notDirectory => "Not a directory (os error 20)"
  | .isDirectory => "Is a directory (os error 21)"
  | .nameTooLong => "File name too long (os error 36)"
  | .notText => "stream did not contain valid UTF-8"
  | .other message => message

/-- How files are read and written. -/
structure Files (m : Type → Type) where
  read : String → m (Except FileError ByteArray)
  write : String → String → m (Except FileError Unit)

/-- What a run of the command leaves behind, apart from files. -/
structure Outcome where
  status : Nat
  stdout : String
  stderr : String
  deriving DecidableEq, Repr

def version : String := "luair 0.1.0"

/-- Lines, each with a line feed at its end. -/
def lines (ls : List String) : String := String.join (ls.map (· ++ "\n"))

/-- An error as the user sees it: the report, and the span if there is one. -/
def errorLines (d : Diagnostic) : List String :=
  d.report :: d.span.elim [] fun span => ["  --> " ++ span.render]

/-- The output cannot be written. -/
def outputError (path : String) (e : FileError) : Diagnostic :=
  ⟨.error, s!"cannot write {path}: {e.message}", "luair.cli", none, none⟩

def renderModule (m : Module) : Emit → String
  | .text => m.render
  | .json => m.toJson.pretty

/-- What compiling gives: lines for the user and, if it succeeds, the text to write. -/
structure Compilation where
  messages : List String
  text : Option String

/-- Compile a script that was read, or not, from the file that the options name. -/
def compile (o : Options) (filter : LogFilter) (content : Except FileError ByteArray) : Compilation :=
  let text := content.bind fun bytes => ((String.fromUTF8? bytes).elim (.error .notText) .ok : Except FileError String)
  match text with
  | .error e => ⟨errorLines (UnreadableScript.diagnostic ⟨o.file, e.message⟩), none⟩
  | .ok text =>
    let source : Source := ⟨o.file, text⟩
    let (result, log) := source.compileLogged .full
    let logged := ((#[Event.compiling o.file] ++ log).toList.filter filter.admits).map logLine
    match result with
    | .error e => ⟨logged ++ errorLines (e.diagnostic source), none⟩
    | .ok m => ⟨logged ++ (if o.stats then [statsTable m] else []), some (renderModule m o.emit)⟩

variable {m : Type → Type} [Monad m]

/-- Carry out what the options ask for. -/
def runOptions (files : Files m) (o : Options) (filter : LogFilter) (warnings : List String) : m Outcome := do
  let result := compile o filter (← files.read o.file)
  let messages := warnings ++ result.messages
  match result.text, o.output with
  | none, _ => return ⟨1, "", lines messages⟩
  | some text, none => return ⟨0, text ++ "\n", lines messages⟩
  | some text, some path =>
    match ← files.write path text with
    | .ok () => return ⟨0, "", lines messages⟩
    | .error e => return ⟨1, "", lines (messages ++ errorLines (outputError path e))⟩

/-- Run the command with arguments and, if there is one, a text of log directives. -/
def run (files : Files m) (arguments : List String) (logSpec : Option String) : m Outcome :=
  match Request.ofArguments arguments with
  | .error e => return ⟨2, "", lines ["error: " ++ e.message]⟩
  | .ok .version => return ⟨0, lines [version], ""⟩
  | .ok .help => return ⟨0, helpText, ""⟩
  | .ok (.run o) =>
    let (filter, warnings) := LogFilter.read ⟨[⟨none, o.logLevel⟩], none⟩ (logSpec.getD "")
    runOptions files o filter warnings

end LuaLowering.CommandLine
