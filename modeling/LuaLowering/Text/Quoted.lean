import LuaLowering.Text.Extending
import LuaLowering.Text.Unprintable
/-!
Text between double quotes, written so that every character can be seen. A quote, a backslash, the
common control characters and whatever has no visible form of its own is escaped.
-/
namespace LuaLowering.Text

/-- Printable characters of ASCII need no look into the tables. -/
def isVisible (c : Char) : Bool :=
  if c.toNat < 0x7f then 0x20 ≤ c.toNat else ! isUnprintable c && ! isExtending c

/-- The number of a character, in hexadecimal and in braces. -/
def escapeNumber (c : Char) : List Char := '\\' :: 'u' :: '\x7b' :: (Nat.toDigits 16 c.toNat ++ ['\x7d'])

def escapeChar : Char → List Char
  | '"' => ['\\', '"']
  | '\\' => ['\\', '\\']
  | '\n' => ['\\', 'n']
  | '\r' => ['\\', 'r']
  | '\t' => ['\\', 't']
  | '\x00' => ['\\', '0']
  | c => if isVisible c then [c] else escapeNumber c

def quoted (s : String) : String :=
  String.ofList ('"' :: (s.toList.flatMap escapeChar ++ ['"']))

end LuaLowering.Text
