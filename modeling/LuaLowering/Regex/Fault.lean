import LuaLowering.Regex.Pattern
/-!
What can be wrong with a pattern, and how it is shown: the pattern, marks under the part at fault, and a
message.
-/
namespace LuaLowering.Regex

inductive Fault where
  | classEscapeInvalid
  | classRangeInvalid
  | classRangeLiteral
  | classUnclosed
  | decimalInvalid
  | escapeHexEmpty
  | escapeHexInvalid
  | escapeHexInvalidDigit
  | escapeUnexpectedEnd
  | escapeUnrecognized
  | flagDanglingNegation
  | flagDuplicate
  | flagRepeatedNegation
  | flagUnexpectedEnd
  | flagUnrecognized
  | groupNameDuplicate
  | groupNameEmpty
  | groupNameInvalid
  | groupNameUnexpectedEnd
  | groupUnclosed
  | groupUnopened
  | nestLimitExceeded (limit : Nat)
  | repetitionCountInvalid
  | repetitionCountDecimalEmpty
  | repetitionCountUnclosed
  | repetitionMissing
  | wordBoundaryUnclosed
  | wordBoundaryUnrecognized
  | wordBoundaryUnexpectedEnd
  | unicodeClassInvalid
  | unsupportedBackreference
  | unsupportedLookAround
  | unicodeNotAllowed
  | invalidUtf8
  | propertyNotFound
  | propertyValueNotFound
  | shortClassUnavailable
  | caseUnavailable
  deriving DecidableEq, Repr

def Fault.message : Fault → String
  | .classEscapeInvalid => "invalid escape sequence found in character class"
  | .classRangeInvalid => "invalid character class range, the start must be <= the end"
  | .classRangeLiteral => "invalid range boundary, must be a literal"
  | .classUnclosed => "unclosed character class"
  | .decimalInvalid => "decimal literal invalid"
  | .escapeHexEmpty => "hexadecimal literal empty"
  | .escapeHexInvalid => "hexadecimal literal is not a Unicode scalar value"
  | .escapeHexInvalidDigit => "invalid hexadecimal digit"
  | .escapeUnexpectedEnd => "incomplete escape sequence, reached end of pattern prematurely"
  | .escapeUnrecognized => "unrecognized escape sequence"
  | .flagDanglingNegation => "dangling flag negation operator"
  | .flagDuplicate => "duplicate flag"
  | .flagRepeatedNegation => "flag negation operator repeated"
  | .flagUnexpectedEnd => "expected flag but got end of regex"
  | .flagUnrecognized => "unrecognized flag"
  | .groupNameDuplicate => "duplicate capture group name"
  | .groupNameEmpty => "empty capture group name"
  | .groupNameInvalid => "invalid capture group character"
  | .groupNameUnexpectedEnd => "unclosed capture group name"
  | .groupUnclosed => "unclosed group"
  | .groupUnopened => "unopened group"
  | .nestLimitExceeded limit => s!"exceed the maximum number of nested parentheses/brackets ({limit})"
  | .repetitionCountInvalid => "invalid repetition count range, the start must be <= the end"
  | .repetitionCountDecimalEmpty => "repetition quantifier expects a valid decimal"
  | .repetitionCountUnclosed => "unclosed counted repetition"
  | .repetitionMissing => "repetition operator missing expression"
  | .wordBoundaryUnclosed =>
    "special word boundary assertion is either unclosed or contains an invalid character"
  | .wordBoundaryUnrecognized =>
    "unrecognized special word boundary assertion, valid choices are: start, end, start-half or end-half"
  | .wordBoundaryUnexpectedEnd => String.join
    ["found either the beginning of a special word boundary or a bounded repetition on a \\b with an ",
      "opening brace, but no closing brace"]
  | .unicodeClassInvalid => "invalid Unicode character class"
  | .unsupportedBackreference => "backreferences are not supported"
  | .unsupportedLookAround => "look-around, including look-ahead and look-behind, is not supported"
  | .unicodeNotAllowed => "Unicode not allowed here"
  | .invalidUtf8 => "pattern can match invalid UTF-8"
  | .propertyNotFound => "Unicode property not found"
  | .propertyValueNotFound => "Unicode property value not found"
  | .shortClassUnavailable =>
    "Unicode-aware Perl class not found (make sure the unicode-perl feature is enabled)"
  | .caseUnavailable => String.join
    ["Unicode-aware case insensitivity matching is not available ",
      "(make sure the unicode-case feature is enabled)"]

/-- A fault with its place, and the place of what it repeats. -/
structure Complaint where
  fault : Fault
  extent : Extent
  earlier : Option Extent := none
  deriving DecidableEq, Repr

/-- The lines of a pattern, without their ends. -/
def patternLines (pattern : String) : List String :=
  let parts := pattern.splitOn "\n"
  let whole := if parts.getLast? = some "" then parts.dropLast else parts
  let ended := parts.dropLast.map fun line => if line.endsWith "\r" then (line.dropEnd 1).toString else line
  ended ++ whole.drop ended.length

namespace Complaint

def blanks (n : Nat) : String := String.ofList (List.replicate n ' ')

/-- The places of a complaint in the order of the pattern. -/
def extents (c : Complaint) : List Extent :=
  match c.earlier with
  | none => [c.extent]
  | some e =>
    if e.start.line < c.extent.start.line
        || (e.start.line == c.extent.start.line && e.start.column ≤ c.extent.start.column) then [e, c.extent]
    else [c.extent, e]

/-- Marks under the parts of a line, if there are any. -/
def marks (indent : Nat) (extents : List Extent) : List String :=
  if extents.isEmpty then []
  else [extents.foldl (fun text e =>
    text ++ blanks (indent + e.start.column - 1 - text.length)
      ++ String.ofList (List.replicate (max 1 (e.stop.column - e.start.column)) '^')) (blanks indent)]

/-- The lines of a pattern, numbered if there are several, each with its marks. -/
def notated (c : Complaint) (pattern : String) : List String :=
  let lines := patternLines pattern
  let count := lines.length + (if pattern.endsWith "\n" then 1 else 0)
  let width := if count ≤ 1 then 0 else (toString count).length
  let indent := if width = 0 then 4 else width + 2
  (lines.zipIdx 1).flatMap fun (line, number) =>
    let label := toString number
    let margin := if width = 0 then blanks indent else blanks (width - label.length) ++ label ++ ": "
    (margin ++ line) ::
      marks indent (c.extents.filter fun e => e.start.line == number && e.stop.line == number)

def render (c : Complaint) (pattern : String) : String :=
  let body := c.notated pattern
  let framed :=
    if pattern.contains '\n' then
      let divider := String.ofList (List.replicate 79 '~')
      let spread := (c.extents.filter fun e => e.start.line != e.stop.line).map fun e =>
        s!"on line {e.start.line} (column {e.start.column}) through "
          ++ s!"line {e.stop.line} (column {e.stop.column - 1})"
      [divider] ++ body ++ [divider] ++ spread
    else body
  "\n".intercalate (["regex parse error:"] ++ framed ++ ["error: " ++ c.fault.message])

end Complaint
end LuaLowering.Regex
