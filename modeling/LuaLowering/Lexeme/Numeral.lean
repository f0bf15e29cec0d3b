import LuaLowering.Peg.Scanner
import LuaLowering.Text.Digits
/-!
The four classes of numerals: decimal and hexadecimal, with and without a point or an exponent.
-/
namespace LuaLowering.Lexeme.Numeral
open Peg Text

def digits : Scanner := .many1 Char.isDigit

def hexDigits : Scanner := .many1 isHexDigit

def point : Scanner := .literal ['.']

/-- A letter in either case, an optional sign and digits. -/
def exponent (letter : Char) : Scanner :=
  .all [.one (·.toLower == letter), .opt (.one fun c => c == '+' || c == '-'), digits]

def hexMark : Scanner := .all [.literal ['0'], .one (·.toLower == 'x')]

/-- Digits on at least one side of a point. A second point may not follow the first. -/
def pointed : Scanner :=
  .alt (.all [digits, point, .absent point, .many Char.isDigit]) (.all [point, digits])

def hexPointed : Scanner :=
  .alt (.all [hexDigits, point, .many isHexDigit]) (.all [point, hexDigits])

def int : Scanner := digits

def hexInt : Scanner := .all [hexMark, hexDigits]

def float : Scanner :=
  .alt (.all [pointed, .opt (exponent 'e')]) (.all [digits, exponent 'e'])

def hexFloat : Scanner :=
  .all [hexMark, .alt (.all [hexPointed, .opt (exponent 'p')]) (.all [hexDigits, exponent 'p'])]

end LuaLowering.Lexeme.Numeral
