import LuaLowering.Decimal.Format
/-!
JSON values and their text, on one line or with indentation. An object keeps the order of its fields.
-/
namespace LuaLowering

inductive Json where
  | null
  | int (n : Int)
  | float (x : Decimal.Binary64)
  | str (s : String)
  | arr (items : List Json)
  | obj (fields : List (String × Json))

namespace Json

/-- An exponent has a sign and stands from `10 ^ 16` on and below `10 ^ -5`. A number that is not
finite has no text of its own. -/
def numbers : Decimal.Format where
  tie := .even
  least := -5
  limit := 16
  plus := true
  nan := "null"
  infinity := "null"
  negInfinity := "null"

def nat (n : Nat) : Json := .int n

def escapeChar : Char → List Char
  | '"' => ['\\', '"']
  | '\\' => ['\\', '\\']
  | '\x08' => ['\\', 'b']
  | '\x0c' => ['\\', 'f']
  | '\n' => ['\\', 'n']
  | '\r' => ['\\', 'r']
  | '\t' => ['\\', 't']
  | c =>
    if c.toNat < 0x20 then
      ['\\', 'u', '0', '0', Nat.digitChar (c.toNat / 16), Nat.digitChar (c.toNat % 16)]
    else [c]

def quoted (s : String) : String :=
  String.ofList ('"' :: (s.toList.flatMap escapeChar ++ ['"']))

mutual

/-- Text on one line, without blanks. -/
def compact : Json → String
  | .null => "null"
  | .int n => toString n
  | .float x => numbers.render x
  | .str s => quoted s
  | .arr items => "[" ++ ",".intercalate (compactItems items) ++ "]"
  | .obj fields => "\x7b" ++ ",".intercalate (compactFields fields) ++ "\x7d"

def compactItems : List Json → List String
  | [] => []
  | j :: js => j.compact :: compactItems js

def compactFields : List (String × Json) → List String
  | [] => []
  | (key, j) :: fields => (quoted key ++ ":" ++ j.compact) :: compactFields fields

end

/-- Entries on lines of their own between two brackets, the entries further in by two spaces. -/
def bracketed (opening closing indent : String) : List String → String
  | [] => opening ++ closing
  | entries =>
    opening ++ "\n" ++ ",\n".intercalate (entries.map (indent ++ "  " ++ ·)) ++ "\n" ++ indent ++ closing

mutual

/-- Text with an entry to a line, inside an indentation. -/
def prettyAt (indent : String) : Json → String
  | .arr items => bracketed "[" "]" indent (prettyItems (indent ++ "  ") items)
  | .obj fields => bracketed "\x7b" "\x7d" indent (prettyFields (indent ++ "  ") fields)
  | .null => "null"
  | .int n => toString n
  | .float x => numbers.render x
  | .str s => quoted s

def prettyItems (indent : String) : List Json → List String
  | [] => []
  | j :: js => j.prettyAt indent :: prettyItems indent js

def prettyFields (indent : String) : List (String × Json) → List String
  | [] => []
  | (key, j) :: fields => (quoted key ++ ": " ++ j.prettyAt indent) :: prettyFields indent fields

end

/-- Text with an entry to a line. -/
def pretty (j : Json) : String := j.prettyAt ""

end Json
end LuaLowering
