import LuaLowering.Location
/-!
Patterns: regular expressions as they are written, with the places of their parts.
-/
namespace LuaLowering.Regex

/-- A stretch of a pattern, up to but not including its stop. -/
structure Extent where
  start : Position
  stop : Position
  deriving DecidableEq, Repr

/-- Ways of reading a pattern that can be switched on and off inside it. -/
inductive Flag where
  | ignoreCase
  | multiLine
  | dotAll
  | swapGreed
  | unicode
  | carriageReturn
  | ignoreSpace
  deriving DecidableEq, Repr

/-- Flags to switch on or off, in order. -/
abbrev FlagChanges := List (Flag × Bool)

/-- The last setting of a flag, if it has one. -/
def FlagChanges.find? (changes : FlagChanges) (flag : Flag) : Option Bool := changes.reverse.lookup flag

/-- Conditions on a position. -/
inductive Assertion where
  | lineStart
  | lineEnd
  | textStart
  | textEnd
  | wordBoundary
  | notWordBoundary
  | wordStart
  | wordEnd
  | wordStartHalf
  | wordEndHalf
  deriving DecidableEq, Repr

/-- The classes of a backslash and a letter. -/
inductive ShortClass where
  | digit
  | space
  | word
  deriving DecidableEq, Repr

/-- The classes of ASCII that have a name between brackets and colons. -/
inductive AsciiClass where
  | alnum
  | alpha
  | ascii
  | blank
  | cntrl
  | digit
  | graph
  | lower
  | print
  | punct
  | space
  | upper
  | word
  | xdigit
  deriving DecidableEq, Repr

/-- How two classes are combined. -/
inductive ClassOperator where
  | intersection
  | difference
  | symmetricDifference
  deriving DecidableEq, Repr

/-- A character as it is written. A byte is written with two hexadecimal digits. -/
structure Literal where
  char : Char
  isByte : Bool
  extent : Extent
  deriving DecidableEq, Repr

/-- A set of characters as it is written. -/
inductive CharClass where
  | nothing
  | literal (l : Literal)
  | range (first last : Literal)
  | short (kind : ShortClass) (negated : Bool) (extent : Extent)
  | ascii (kind : AsciiClass) (negated : Bool) (extent : Extent)
  | property (name : String) (value : Option String) (extent : Extent)
  | union (a b : CharClass)
  | combine (op : ClassOperator) (a b : CharClass)
  | bracketed (negated : Bool) (inner : CharClass) (extent : Extent)
  deriving Repr

namespace CharClass

/-- Where a class is written, if it is written at all. -/
def extent? : CharClass → Option Extent
  | .nothing => none
  | .literal l => some l.extent
  | .range first last => some ⟨first.extent.start, last.extent.stop⟩
  | .short _ _ e | .ascii _ _ e | .property _ _ e | .bracketed _ _ e => some e
  | .union a b | .combine _ a b =>
    match a.extent?, b.extent? with
    | some a, some b => some ⟨a.start, b.stop⟩
    | a, b => a.or b

end CharClass

inductive Pattern where
  | empty (extent : Extent)
  | flags (changes : FlagChanges) (extent : Extent)
  | literal (l : Literal)
  | dot (extent : Extent)
  | assertion (a : Assertion) (extent : Extent)
  | charClass (c : CharClass) (extent : Extent)
  | times (p : Pattern) (least : Nat) (most : Option Nat) (extent : Extent)
  | group (changes : FlagChanges) (p : Pattern) (extent : Extent)
  | alternatives (ps : List Pattern) (extent : Extent)
  | sequence (ps : List Pattern) (extent : Extent)
  deriving Repr

def Pattern.extent : Pattern → Extent
  | .literal l => l.extent
  | .empty e | .flags _ e | .dot e | .assertion _ e | .charClass _ e | .times _ _ _ e | .group _ _ e
  | .alternatives _ e | .sequence _ e => e

end LuaLowering.Regex
