import LuaLowering.Text.Category.Letter
import LuaLowering.Text.Category.Mark
import LuaLowering.Text.Category.Number
import LuaLowering.Text.Category.Other
import LuaLowering.Text.Category.Punctuation
import LuaLowering.Text.Category.Symbol
/-!
The general category of a character. Each character is in exactly one.
-/
namespace LuaLowering.Text

inductive Category where
  | upperLetter
  | lowerLetter
  | titleLetter
  | modifierLetter
  | otherLetter
  | nonspacingMark
  | spacingMark
  | enclosingMark
  | decimalNumber
  | letterNumber
  | otherNumber
  | connectorPunctuation
  | dashPunctuation
  | openPunctuation
  | closePunctuation
  | initialPunctuation
  | finalPunctuation
  | otherPunctuation
  | mathSymbol
  | currencySymbol
  | modifierSymbol
  | otherSymbol
  | spaceSeparator
  | lineSeparator
  | paragraphSeparator
  | control
  | format
  | privateUse
  | unassigned
  deriving DecidableEq, Repr

namespace Category

/-- A run holds the numbers from its first to its last that are its step apart. -/
def inRuns (runs : List (Nat × Nat × Nat)) (n : Nat) : Bool :=
  runs.any fun (first, last, step) => first ≤ n && n ≤ last && (n - first) % step == 0

/-- The runs of each category that has characters. -/
def table : List (Category × List (Nat × Nat × Nat)) :=
  [(.upperLetter, upperLetterRuns), (.lowerLetter, lowerLetterRuns), (.titleLetter, titleLetterRuns),
    (.modifierLetter, modifierLetterRuns), (.otherLetter, otherLetterRuns),
    (.nonspacingMark, nonspacingMarkRuns), (.spacingMark, spacingMarkRuns),
    (.enclosingMark, enclosingMarkRuns), (.decimalNumber, decimalNumberRuns),
    (.letterNumber, letterNumberRuns), (.otherNumber, otherNumberRuns),
    (.connectorPunctuation, connectorPunctuationRuns), (.dashPunctuation, dashPunctuationRuns),
    (.openPunctuation, openPunctuationRuns), (.closePunctuation, closePunctuationRuns),
    (.initialPunctuation, initialPunctuationRuns), (.finalPunctuation, finalPunctuationRuns),
    (.otherPunctuation, otherPunctuationRuns), (.mathSymbol, mathSymbolRuns),
    (.currencySymbol, currencySymbolRuns), (.modifierSymbol, modifierSymbolRuns),
    (.otherSymbol, otherSymbolRuns), (.spaceSeparator, spaceSeparatorRuns),
    (.lineSeparator, lineSeparatorRuns), (.paragraphSeparator, paragraphSeparatorRuns),
    (.control, controlRuns), (.format, formatRuns), (.privateUse, privateUseRuns)]

/-- The category of a character. A number that stands for no character is unassigned. -/
def ofChar (c : Char) : Category :=
  ((table.find? fun (_, runs) => inRuns runs c.toNat).map (·.1)).getD .unassigned

def isLetter : Category → Bool
  | .upperLetter | .lowerLetter | .titleLetter | .modifierLetter | .otherLetter => true
  | _ => false

def isMark : Category → Bool
  | .nonspacingMark | .spacingMark | .enclosingMark => true
  | _ => false

def isNumber : Category → Bool
  | .decimalNumber | .letterNumber | .otherNumber => true
  | _ => false

def isPunctuation : Category → Bool
  | .connectorPunctuation | .dashPunctuation | .openPunctuation | .closePunctuation
  | .initialPunctuation | .finalPunctuation | .otherPunctuation => true
  | _ => false

def isSymbol : Category → Bool
  | .mathSymbol | .currencySymbol | .modifierSymbol | .otherSymbol => true
  | _ => false

def isSeparator : Category → Bool
  | .spaceSeparator | .lineSeparator | .paragraphSeparator => true
  | _ => false

/-- Controls, layout, private use, and what is no character. -/
def isOther : Category → Bool
  | .control | .format | .privateUse | .unassigned => true
  | _ => false

end Category
end LuaLowering.Text
