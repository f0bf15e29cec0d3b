import LuaLowering.Peg.Scanner
/-!
Long brackets: `[`, a number of equals signs (the level), `[`, any text, and `]`, as many equals
signs, `]`. The first closing bracket of the level ends them. They write long strings and long
comments.
-/
namespace LuaLowering.Lexeme.LongBracket

def opening (level : Nat) : List Char := '[' :: List.replicate level '=' ++ ['[']

def closing (level : Nat) : List Char := ']' :: List.replicate level '=' ++ [']']

/-- The text before the first `stop` and the text after it. -/
def cut (stop : List Char) : List Char → Option (List Char × List Char)
  | [] => none
  | c :: s =>
    if stop.isPrefixOf (c :: s) then some ([], (c :: s).drop stop.length)
    else (cut stop s).map fun (before, after) => (c :: before, after)

/-- Level, inner text and what follows. -/
def parts? : List Char → Option (Nat × List Char × List Char)
  | '[' :: s =>
    let level := (s.takeWhile (· == '=')).length
    match s.dropWhile (· == '=') with
    | '[' :: s => (cut (closing level) s).map fun (inner, rest) => (level, inner, rest)
    | _ => none
  | _ => none

def scan : Peg.Scanner := fun s =>
  (parts? s).map fun (level, inner, rest) => (opening level ++ inner ++ closing level, rest)

/-- Drop one line break from the front. -/
def dropBreak : List Char → List Char
  | '\r' :: '\n' :: s => s
  | '\n' :: '\r' :: s => s
  | '\n' :: s => s
  | '\r' :: s => s
  | s => s

/-- The characters a long string stands for: what stands between its brackets, without a line break at the front. The
equals signs behind the first character tell how long a bracket is. -/
def content (literal : List Char) : List Char :=
  let bracket := ((literal.drop 1).takeWhile (· == '=')).length + 2
  dropBreak ((literal.drop bracket).take (literal.length - 2 * bracket))

end LuaLowering.Lexeme.LongBracket
