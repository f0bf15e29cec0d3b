import LuaLowering.Text.Bytes
/-!
Places in a script. Tree nodes carry byte ranges; a `Source` turns a byte offset into a line and a
column, both counted from one, columns in characters. Only a line feed ends a line.
-/
namespace LuaLowering

/-- Byte range of a tree node: where it starts, where its last token starts, and where it stops.
The stop may lie after blanks and comments that follow the last token. -/
structure TextRange where
  start : Nat
  last : Nat
  stop : Nat
  deriving DecidableEq, Repr

/-- The smallest range that covers both, if both are known. The last token is that of the range that
reaches further. -/
def TextRange.join : Option TextRange → Option TextRange → Option TextRange
  | some a, some b =>
    some ⟨min a.start b.start, if a.stop ≤ b.stop then b.last else a.last, max a.stop b.stop⟩
  | _, _ => none

/-- A place in a file. Line zero stands for a place that is not known. -/
structure Location where
  file : String
  line : Nat
  column : Nat
  deriving DecidableEq, Repr

namespace Location

def unknown (file : String) : Location := ⟨file, 0, 0⟩

def isUnknown (l : Location) : Bool := l.line == 0

def render (l : Location) : String := s!"{l.file}:{l.line}:{l.column}"

end Location

/-- The places of the first and the last token of something. -/
structure Span where
  first : Location
  last : Location
  deriving DecidableEq, Repr

def Span.render (s : Span) : String := s!"{s.first.render} - {s.last.render}"

/-- Line and column within a text. -/
structure Position where
  line : Nat
  column : Nat
  deriving DecidableEq, Repr

namespace Position

/-- The position after one more character. -/
def advance (p : Position) (c : Char) : Position :=
  if c = '\n' then ⟨p.line + 1, 1⟩ else ⟨p.line, p.column + 1⟩

/-- The position reached after reading the characters from the start of a text. -/
def after (cs : List Char) : Position := cs.foldl advance ⟨1, 1⟩

end Position

/-- A script's name and text. -/
structure Source where
  file : String
  text : String

namespace Source

/-- The place of a byte offset. An offset past the end counts as the end, and one inside a
character has no place. -/
def location (s : Source) (offset : Nat) : Location :=
  let chars := s.text.toList
  match Text.splitBytes (min offset (Text.byteSize chars)) chars with
  | some (before, _) =>
    let p := Position.after before
    ⟨s.file, p.line, p.column⟩
  | none => .unknown s.file

/-- The place of the first token. -/
def startLoc (s : Source) (range : Option TextRange) : Location :=
  range.elim (.unknown s.file) fun r => s.location r.start

/-- The place of the last token. -/
def endLoc (s : Source) (range : Option TextRange) : Location :=
  range.elim (.unknown s.file) fun r => s.location r.last

def span (s : Source) (range : Option TextRange) : Span :=
  ⟨s.startLoc range, s.endLoc range⟩

end Source
end LuaLowering
