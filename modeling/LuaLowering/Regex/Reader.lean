import LuaLowering.Regex.Fault
import LuaLowering.Text.WhiteSpace
/-!
Reading a pattern character by character. A reader knows where it stands, and fails with a complaint.
-/
namespace LuaLowering.Regex

/-- Where the reader stands, whether white space and comments in the pattern are left out, and the names
of groups so far. -/
structure Scan where
  position : Position
  rest : List Char
  ignoreSpace : Bool
  names : List (String × Extent)

namespace Scan

/-- Leave out white space and comments, which go from a number sign to the end of the line. -/
def skipBlank : Bool → Position → List Char → Position × List Char
  | _, p, [] => (p, [])
  | true, p, c :: cs => skipBlank (c != '\n') (p.advance c) cs
  | false, p, c :: cs =>
    if Text.isWhiteSpace c then skipBlank false (p.advance c) cs
    else if c = '#' then skipBlank true (p.advance c) cs
    else (p, c :: cs)

/-- Pass what is left out here, if anything is. -/
def pass (s : Scan) : Scan :=
  if s.ignoreSpace then
    let (position, rest) := skipBlank false s.position s.rest
    { s with position, rest }
  else s

/-- Go on by one character. -/
def bump (s : Scan) : Scan :=
  match s.rest with
  | [] => s
  | c :: cs => { s with position := s.position.advance c, rest := cs }

/-- Go on by one character and what is left out after it. -/
def next (s : Scan) : Scan := s.bump.pass

/-- The extent of the next character. -/
def charExtent (s : Scan) : Extent := ⟨s.position, s.bump.position⟩

/-- The character after the next one, with what is left out between them. -/
def peekSpace (s : Scan) : Option Char :=
  if s.ignoreSpace then
    let more := s.bump.rest.dropWhile Text.isWhiteSpace
    let more := if more.head? = some '#' then (more.drop 1).dropWhile Text.isWhiteSpace else more
    more.head?.or s.bump.rest.head?
  else s.bump.rest.head?

/-- Take characters as long as they are of a kind, with a step from one to the next. -/
def take (kind : Char → Bool) (step : Scan → Scan) : Nat → Scan → List Char × Scan
  | 0, s => ([], s)
  | n + 1, s =>
    match s.rest.head? with
    | some c =>
      if kind c then
        let (cs, s) := take kind step n (step s)
        (c :: cs, s)
      else ([], s)
    | none => ([], s)

end Scan

abbrev Reader := StateT Scan (Except Complaint)

namespace Reader

def fail {α : Type} (fault : Fault) (extent : Extent) : Reader α := throw ⟨fault, extent, none⟩

def position : Reader Position := return (← get).position

/-- The next character. -/
def head? : Reader (Option Char) := return (← get).rest.head?

def atEnd : Reader Bool := return (← get).rest.isEmpty

/-- The extent from a position to the next character. -/
def since (start : Position) : Reader Extent := return ⟨start, ← position⟩

/-- No extent at all, before the next character. -/
def here : Reader Extent := do since (← position)

def bump : Reader Unit := modify Scan.bump

def next : Reader Unit := modify Scan.next

def takeWhile (kind : Char → Bool) (step : Scan → Scan) : Reader (List Char) := do
  let (cs, s) := Scan.take kind step (← get).rest.length (← get)
  set s
  return cs

/-- Go past a text if it is what follows. -/
def bumpIf (text : String) : Reader Bool := do
  if text.toList.isPrefixOf (← get).rest then
    modify fun s => text.length.repeat Scan.bump s
    return true
  else return false

end Reader

end LuaLowering.Regex
