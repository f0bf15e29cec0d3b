import LuaLowering.Regex.Escape
/-!
The sets of characters that classes stand for, which depend on the flags that hold.

Unless the flag for Unicode is switched off, what would need tables of properties of characters is
refused: classes of digits, blanks and words, and change of case. Without it these mean ASCII, and what
could match part of a character is refused.
-/
namespace LuaLowering.Regex

/-- The flags that bear on what a pattern matches. -/
structure Flags where
  ignoreCase : Bool
  multiLine : Bool
  dotAll : Bool
  unicode : Bool
  carriageReturn : Bool

namespace Flags

def initial : Flags := ⟨false, false, false, true, false⟩

def change (f : Flags) (changes : FlagChanges) : Flags where
  ignoreCase := (changes.find? .ignoreCase).getD f.ignoreCase
  multiLine := (changes.find? .multiLine).getD f.multiLine
  dotAll := (changes.find? .dotAll).getD f.dotAll
  unicode := (changes.find? .unicode).getD f.unicode
  carriageReturn := (changes.find? .carriageReturn).getD f.carriageReturn

/-- A set of characters, closed under change of case if that is ignored. A set that is written somewhere
is not closed with Unicode. -/
def close (f : Flags) (holds : Char → Bool) (extent : Option Extent) : Except Complaint (Char → Bool) :=
  match f.ignoreCase, f.unicode, extent with
  | true, true, some extent => .error ⟨.caseUnavailable, extent, none⟩
  | true, false, _ => .ok fun c => holds c.toLower || holds c.toUpper
  | _, _, _ => .ok holds

/-- The complement of a set. Without Unicode it would hold bytes that are no characters. -/
def negate (f : Flags) (holds : Char → Bool) (extent : Extent) : Except Complaint (Char → Bool) :=
  if f.unicode then .ok fun c => ! holds c else .error ⟨.invalidUtf8, extent, none⟩

end Flags

def isAsciiSpace (c : Char) : Bool := c == ' ' || ('\t' ≤ c && c ≤ '\r')

def isAsciiWord (c : Char) : Bool := c.isAlphanum || c == '_'

def ShortClass.holds : ShortClass → Char → Bool
  | .digit => Char.isDigit
  | .space => isAsciiSpace
  | .word => isAsciiWord

def AsciiClass.holds : AsciiClass → Char → Bool
  | .alnum, c => c.isAlphanum
  | .alpha, c => c.isAlpha
  | .ascii, c => c.toNat < 0x80
  | .blank, c => c == ' ' || c == '\t'
  | .cntrl, c => c.toNat < 0x20 || c.toNat == 0x7f
  | .digit, c => c.isDigit
  | .graph, c => '!' ≤ c && c ≤ '~'
  | .lower, c => c.isLower
  | .print, c => ' ' ≤ c && c ≤ '~'
  | .punct, c => '!' ≤ c && c ≤ '~' && ! c.isAlphanum
  | .space, c => isAsciiSpace c
  | .upper, c => c.isUpper
  | .word, c => isAsciiWord c
  | .xdigit, c => Reader.isHexDigit c

def ClassOperator.apply : ClassOperator → Bool → Bool → Bool
  | .intersection, a, b => a && b
  | .difference, a, b => a && ! b
  | .symmetricDifference, a, b => a != b

/-- Bytes beyond ASCII are no characters. -/
def Literal.check (l : Literal) (f : Flags) : Except Complaint Char :=
  if ! f.unicode && l.isByte && l.char.toNat ≥ 0x80 then .error ⟨.invalidUtf8, l.extent, none⟩
  else .ok l.char

/-- Without Unicode a class is one of bytes. -/
def Literal.classChar (l : Literal) (f : Flags) : Except Complaint Char := do
  let c ← l.check f
  if ! f.unicode && c.toNat ≥ 0x80 then throw ⟨.unicodeNotAllowed, l.extent, none⟩ else return c

/-- The form in which names of properties are compared: case, blanks, dashes and underscores do not
matter, nor does `is` before a name. -/
def looseName (name : String) : String :=
  let chars := name.toList
  let chars := if (chars.take 2).map Char.toLower == ['i', 's'] then chars.drop 2 else chars
  String.ofList ((chars.filter fun c => c.toNat < 0x80 && c != ' ' && c != '-' && c != '_').map Char.toLower)

/-- No property is known. Three names are taken for values of the general category. -/
def propertyFault (name : String) (value : Option String) : Fault :=
  if value.isNone && ["cf", "sc", "lc"].contains (looseName name) then .propertyValueNotFound
  else .propertyNotFound

/-- The characters of a class. -/
def CharClass.holds (f : Flags) : CharClass → Except Complaint (Char → Bool)
  | .nothing => .ok fun _ => false
  | .literal l => do
    let c ← l.classChar f
    return (· == c)
  | .range first last => do
    let lo ← first.classChar f
    let hi ← last.classChar f
    return fun c => lo ≤ c && c ≤ hi
  | .short kind negated extent =>
    if f.unicode then .error ⟨.shortClassUnavailable, extent, none⟩
    else if negated then f.negate kind.holds extent
    else .ok kind.holds
  | .ascii kind negated extent => do
    let holds ← f.close kind.holds (some extent)
    if negated then f.negate holds extent else return holds
  | .property name value extent =>
    .error ⟨if f.unicode then propertyFault name value else .unicodeNotAllowed, extent, none⟩
  | .union a b => do
    let a ← a.holds f
    let b ← b.holds f
    return fun c => a c || b c
  | .combine op a b => do
    let left ← a.holds f
    let right ← b.holds f
    let right ← f.close right b.extent?
    let left ← f.close left a.extent?
    return fun c => op.apply (left c) (right c)
  | .bracketed negated inner extent => do
    let holds ← f.close (← inner.holds f) (inner.extent?.map fun _ => extent)
    if negated then f.negate holds extent else return holds

end LuaLowering.Regex
