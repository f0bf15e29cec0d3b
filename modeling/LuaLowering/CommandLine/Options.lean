import LuaLowering.Log
/-!
Command line arguments. They are read from left to right; a request for the version or for help is
met at once, before what follows it is looked at.
-/
namespace LuaLowering.CommandLine

/-- How a module is written. -/
inductive Emit where
  | text | json
  deriving DecidableEq, Repr

structure Options where
  file : String
  emit : Emit
  output : Option String
  stats : Bool
  verbosity : Nat
  quiet : Bool
  deriving DecidableEq, Repr

/-- What the arguments ask for. -/
inductive Request where
  | run (options : Options)
  | version
  | help
  deriving DecidableEq, Repr

inductive UsageError where
  | missingFile
  | missingValue (option : String)
  | badValue (option value : String)
  | unexpectedValue (option : String)
  | unexpectedArgument (argument : String)
  | repeated (option : String)
  | quietAndVerbose
  deriving DecidableEq, Repr

def UsageError.message : UsageError → String
  | .missingFile => "no script given"
  | .missingValue option => s!"a value is required for '{option}'"
  | .badValue option value => s!"invalid value '{value}' for '{option}'"
  | .unexpectedValue option => s!"'{option}' takes no value"
  | .unexpectedArgument argument => s!"unexpected argument '{argument}'"
  | .repeated option => s!"'{option}' is given more than once"
  | .quietAndVerbose => "'--quiet' cannot be used with '--verbose'"

/-- What is known after some of the arguments. -/
structure Progress where
  file : Option String
  emit : Option Emit
  output : Option String
  stats : Bool
  verbosity : Nat
  quiet : Bool

namespace Progress

def start : Progress := ⟨none, none, none, false, 0, false⟩

def addFile (p : Progress) (path : String) : Except UsageError Progress :=
  if path.isEmpty then .error (.missingValue "FILE")
  else match p.file with
    | none => .ok { p with file := some path }
    | some _ => .error (.unexpectedArgument path)

def addEmit (p : Progress) (value : String) : Except UsageError Progress :=
  if p.emit.isSome then .error (.repeated "--emit")
  else if value = "text" then .ok { p with emit := some .text }
  else if value = "json" then .ok { p with emit := some .json }
  else .error (.badValue "--emit" value)

def addOutput (p : Progress) (path : String) : Except UsageError Progress :=
  if p.output.isSome then .error (.repeated "--output")
  else if path.isEmpty then .error (.missingValue "--output")
  else .ok { p with output := some path }

def addStats (p : Progress) : Except UsageError Progress :=
  if p.stats then .error (.repeated "--stats") else .ok { p with stats := true }

def addQuiet (p : Progress) : Except UsageError Progress :=
  if p.quiet then .error (.repeated "--quiet") else .ok { p with quiet := true }

def addVerbose (p : Progress) : Progress := { p with verbosity := p.verbosity + 1 }

def finish (p : Progress) : Except UsageError Request :=
  match p.file with
  | none => .error .missingFile
  | some file =>
    if p.quiet && 0 < p.verbosity then .error .quietAndVerbose
    else .ok (.run ⟨file, p.emit.getD .text, p.output, p.stats, p.verbosity, p.quiet⟩)

end Progress

/-- What an argument asks for by itself. -/
inductive Step where
  | proceed (progress : Progress)
  /-- An option whose value is the next argument. -/
  | wait (option : String) (use : String → Except UsageError Progress)
  | stop (request : Request)

/-- Whether an argument can be the value of an option before it. -/
def isValue (argument : String) : Bool := argument = "-" || ! argument.startsWith "-"

/-- An option with a long name, and its value if it is joined by an equals sign. -/
def longOption (p : Progress) (name : String) (value : Option String) : Except UsageError Step :=
  match name, value with
  | "--emit", some v => .proceed <$> p.addEmit v
  | "--emit", none => .ok (.wait "--emit" p.addEmit)
  | "--output", some v => .proceed <$> p.addOutput v
  | "--output", none => .ok (.wait "--output" p.addOutput)
  | "--stats", none => .proceed <$> p.addStats
  | "--verbose", none => .ok (.proceed p.addVerbose)
  | "--quiet", none => .proceed <$> p.addQuiet
  | "--version", none => .ok (.stop .version)
  | "--help", none => .ok (.stop .help)
  | name, some _ =>
    if name ∈ ["--stats", "--verbose", "--quiet", "--version", "--help"] then .error (.unexpectedValue name)
    else .error (.unexpectedArgument name)
  | name, none => .error (.unexpectedArgument name)

/-- Options with one letter, as many as stand together. The rest of a word after `o` is its value. -/
def shortOptions (p : Progress) : List Char → Except UsageError Step
  | [] => .ok (.proceed p)
  | 'v' :: letters => shortOptions p.addVerbose letters
  | 'q' :: letters => do shortOptions (← p.addQuiet) letters
  | 'V' :: _ => .ok (.stop .version)
  | 'h' :: _ => .ok (.stop .help)
  | ['o'] => .ok (.wait "--output" p.addOutput)
  | 'o' :: '=' :: value => .proceed <$> p.addOutput (String.ofList value)
  | 'o' :: value => .proceed <$> p.addOutput (String.ofList value)
  | letter :: _ => .error (.unexpectedArgument s!"-{letter}")

/-- One argument before a `--`. -/
def readArgument (p : Progress) (argument : String) : Except UsageError Step :=
  match argument.toList with
  | '-' :: '-' :: cs =>
    match cs.dropWhile (· != '=') with
    | '=' :: value => longOption p (String.ofList ('-' :: '-' :: cs.takeWhile (· != '='))) (some (String.ofList value))
    | _ => longOption p argument none
  | '-' :: c :: cs => shortOptions p (c :: cs)
  | _ => .proceed <$> p.addFile argument

def readArguments (p : Progress) : List String → Except UsageError Request
  | [] => p.finish
  | "--" :: files => do (← files.foldlM Progress.addFile p).finish
  | argument :: rest =>
    match readArgument p argument with
    | .error e => .error e
    | .ok (.proceed p) => readArguments p rest
    | .ok (.stop request) => .ok request
    | .ok (.wait option use) =>
      match rest with
      | [] => .error (.missingValue option)
      | value :: rest => if isValue value then do readArguments (← use value) rest else .error (.missingValue option)

/-- Read all arguments. -/
def Request.ofArguments (arguments : List String) : Except UsageError Request :=
  readArguments .start arguments

/-- The log level that the options ask for. -/
def Options.logLevel (o : Options) : LogLevel :=
  if o.quiet then .off
  else match o.verbosity with
    | 0 => .warn
    | 1 => .info
    | 2 => .debug
    | _ => .trace

def helpText : String :=
  "\n".intercalate [
    "Lower Lua scripts to the lua IR dialect",
    "",
    "Usage: luair [OPTIONS] <FILE>",
    "",
    "Arguments:",
    "  <FILE>  The Lua script to lower",
    "",
    "Options:",
    "      --emit <FORMAT>  Output format of the lowered module [default: text] [possible values: text, json]",
    "  -o, --output <FILE>  Write the module to FILE instead of standard output",
    "      --stats          Print a table of emitted operations to standard error",
    "  -v, --verbose...     Increase log verbosity (-v info, -vv debug, -vvv trace)",
    "  -q, --quiet          Disable all logging",
    "  -h, --help           Print help",
    "  -V, --version        Print version",
    ""]

end LuaLowering.CommandLine
