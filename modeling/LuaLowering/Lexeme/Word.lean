import LuaLowering.Peg.Scanner
/-!
Words: reserved words and names. A name is a whole word that is not reserved.
-/
namespace LuaLowering.Lexeme

/-- A character that may begin a word. -/
def isWordStart (c : Char) : Bool := c.isAlpha || c == '_'

/-- A character that may continue a word. -/
def isWordChar (c : Char) : Bool := c.isAlphanum || c == '_'

def reservedWords : List String :=
  ["and", "break", "do", "else", "elseif", "end", "false", "for", "function", "goto", "if", "in", "local",
    "nil", "not", "or", "repeat", "return", "then", "true", "until", "while"]

def isReserved (word : List Char) : Bool := reservedWords.any (·.toList == word)

def name : Peg.Scanner
  | [] => none
  | c :: s =>
    if isWordStart c then
      let word := c :: s.takeWhile isWordChar
      if isReserved word then none else some (word, s.dropWhile isWordChar)
    else none

/-- A given word that does not run on. -/
def word (text : String) : Peg.Scanner := .seq (.literal text.toList) (.absent (.one isWordChar))

end LuaLowering.Lexeme
