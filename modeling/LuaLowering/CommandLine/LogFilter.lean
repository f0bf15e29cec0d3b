import LuaLowering.Log
import LuaLowering.Regex.OfPattern
/-!
Which events are written to the log. A filter has directives, each a level for all targets or for the
targets that begin in a certain way; of those that apply, the longest decides. It may also have a regular
expression that messages have to match.
-/
namespace LuaLowering.CommandLine

structure Directive where
  target : Option String
  level : LogLevel

structure LogFilter where
  directives : List Directive
  message : Option Regex

namespace Directive

def applies (d : Directive) (target : String) : Bool := d.target.all (target.startsWith ·)

def length (d : Directive) : Nat := d.target.elim 0 String.length

end Directive

/-- A level by its name, in any case of letters. -/
def level? (text : String) : Option LogLevel :=
  LogLevel.all.find? fun level => level.label = String.ofList (text.toList.map Char.toUpper)

/-- A directive `level`, `target=level`, `target=` or `target`; without a level, all is written. -/
def directive? (text : String) : Option Directive :=
  match text.splitOn "=" with
  | [word] =>
    match level? word with
    | some level => some ⟨none, level⟩
    | none => some ⟨some word, .trace⟩
  | [target, word] =>
    let word := Text.trim word
    if word.isEmpty then some ⟨some target, .trace⟩ else (level? word).map fun level => ⟨some target, level⟩
  | _ => none

/-- The part of a directive that a warning names. -/
def faultyPart (text : String) : String :=
  match text.splitOn "=" with
  | [_, word] => Text.trim word
  | _ => text

namespace LogFilter

/-- Add a directive, in place of one with the same target. -/
def insert (f : LogFilter) (d : Directive) : LogFilter :=
  if f.directives.any (·.target == d.target) then
    { f with directives := f.directives.map fun e => if e.target == d.target then d else e }
  else { f with directives := f.directives ++ [d] }

/-- The level of a target. -/
def levelOf (f : LogFilter) (target : String) : LogLevel :=
  let best := f.directives.foldl (fun (best : Option Directive) d =>
    if d.applies target && best.all (·.length ≤ d.length) then some d else best) none
  best.elim .off (·.level)

def admits (f : LogFilter) (e : Event) : Bool :=
  e.level.rank ≤ (f.levelOf e.target).rank && f.message.all (·.isMatch e.message)

/-- Add the directives of a text, which commas divide, and say what is wrong with the others. -/
def readDirectives (f : LogFilter) (text : String) : LogFilter × List String :=
  let parts := ((text.splitOn ",").map Text.trim).filter (! ·.isEmpty)
  (parts.filterMap directive? |>.foldl insert f,
    parts.filterMap fun part =>
      if (directive? part).isSome then none else some s!"invalid logging spec '{faultyPart part}'")

/-- Set the expression that messages have to match, or say what is wrong with it. -/
def readMessage (f : LogFilter) (text : String) : LogFilter × List String :=
  match Regex.ofPattern text with
  | .ok r => ({ f with message := some r }, [])
  | .error e => (f, ["invalid regex filter - " ++ e.message text])

/-- Extend a filter by a text: directives, or directives, a slash and an expression. Also gives a warning
for each part that is wrong. -/
def read (f : LogFilter) (text : String) : LogFilter × List String :=
  let (f, faults) :=
    match text.splitOn "/" with
    | [directives] => f.readDirectives directives
    | [directives, expression] =>
      let (f, faults) := f.readDirectives directives
      let (f, more) := f.readMessage expression
      (f, faults ++ more)
    | _ => (f, [s!"invalid logging spec '{text}' (too many '/'s)"])
  (f, faults.map fun fault => s!"warning: {fault}, ignoring it")

end LogFilter

/-- A line of the log. Further lines of a message are indented. -/
def logLine (e : Event) : String :=
  let label := e.level.label
  let padding := String.ofList (List.replicate (5 - label.length) ' ')
  s!"[{label}{padding}] " ++ "\n    ".intercalate (e.message.splitOn "\n")

end LuaLowering.CommandLine
