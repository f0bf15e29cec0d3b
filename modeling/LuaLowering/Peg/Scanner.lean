/-!
Scanners read a token from the front of a text: they give the characters read and those left, or
fail. Choice is ordered and repetition greedy, and neither is undone by what follows.
-/
namespace LuaLowering.Peg

abbrev Scanner := List Char → Option (List Char × List Char)

namespace Scanner

/-- The given characters, as they are. -/
def literal (text : List Char) : Scanner := fun s =>
  if text.isPrefixOf s then some (text, s.drop text.length) else none

/-- One character of a class. -/
def one (p : Char → Bool) : Scanner
  | [] => none
  | c :: s => if p c then some ([c], s) else none

/-- As many characters of a class as there are. -/
def many (p : Char → Bool) : Scanner := fun s => some (s.takeWhile p, s.dropWhile p)

/-- At least one character of a class, and as many as there are. -/
def many1 (p : Char → Bool) : Scanner := fun s =>
  match s.takeWhile p with
  | [] => none
  | text => some (text, s.dropWhile p)

def seq (a b : Scanner) : Scanner := fun s => do
  let (x, s) ← a s
  let (y, s) ← b s
  some (x ++ y, s)

def alt (a b : Scanner) : Scanner := fun s =>
  match a s with
  | none => b s
  | found => found

def opt (a : Scanner) : Scanner := fun s =>
  match a s with
  | none => some ([], s)
  | found => found

/-- Reads nothing, and fails where `a` would read. -/
def absent (a : Scanner) : Scanner := fun s =>
  match a s with
  | none => some ([], s)
  | some _ => none

/-- Reads nothing, at the end of the text only. -/
def finish : Scanner
  | [] => some ([], [])
  | _ :: _ => none

/-- One after the other. -/
def all (parts : List Scanner) : Scanner := parts.foldr seq fun s => some ([], s)

end Scanner
end LuaLowering.Peg
