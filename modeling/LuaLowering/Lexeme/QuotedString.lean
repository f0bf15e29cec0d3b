import LuaLowering.Lexeme.Trivia
import LuaLowering.Text.Digits
/-!
Strings between quotes. `scan` finds the end of one and looks only for what a backslash hides;
`decode` gives the characters that a body stands for, or the escape sequence that is wrong. An
escape for a byte stands for the character of the same number.
-/
namespace LuaLowering.Lexeme.QuotedString
open Peg Text

/-- The rest of a string up to its quote. In the gap after `\z`, blanks may break the line. -/
def scanTail (quote : Char) : (gap : Bool) → Scanner
  | _, [] => none
  | gap, c :: s =>
    if gap && isBlank c then cons c (scanTail quote true s)
    else if c = '\\' then
      match s with
      | [] => none
      | 'z' :: s => cons c (cons 'z' (scanTail quote true s))
      | '\r' :: '\n' :: s => cons c (cons '\r' (cons '\n' (scanTail quote false s)))
      | '\n' :: '\r' :: s => cons c (cons '\n' (cons '\r' (scanTail quote false s)))
      | d :: s => cons c (cons d (scanTail quote false s))
    else if c = quote then some ([c], s)
    else if c = '\n' then none
    else cons c (scanTail quote false s)
where
  cons (c : Char) (found : Option (List Char × List Char)) : Option (List Char × List Char) :=
    found.map fun (text, rest) => (c :: text, rest)

def scan : Scanner
  | [] => none
  | q :: s =>
    if q = '"' || q = '\'' then (scanTail q false s).map fun (text, rest) => (q :: text, rest) else none

/-- What is wrong with an escape sequence. -/
inductive EscapeError where
  | hexadecimal (digits : List Char)
  | noBrace
  | unicode (digits : List Char)
  | decimal (value : Nat)
  | letter (c : Char)
  | unfinished
  deriving DecidableEq, Repr

def EscapeError.message : EscapeError → String
  | .hexadecimal digits => s!"invalid hexadecimal escape '\\x{String.ofList digits}'"
  | .noBrace => "missing '\x7b' in '\\u\x7bxxxx\x7d' escape"
  | .unicode digits => s!"invalid unicode escape '\\u\x7b{String.ofList digits}\x7d'"
  | .decimal value => s!"decimal escape '\\{value}' too large"
  | .letter c => s!"invalid escape sequence '\\{c}'"
  | .unfinished => "unfinished escape sequence"

/-- A hexadecimal number: at least one digit, after an optional plus sign. -/
def hexValue? (text : List Char) : Option Nat :=
  let digits := match text with
    | '+' :: digits => digits
    | digits => digits
  if digits.isEmpty || ! digits.all isHexDigit then none else some (natOfDigits 16 digits)

/-- The Unicode scalar value `n`. -/
def scalar? (n : Nat) : Option Char :=
  if h : n.isValidChar then some (Char.ofNatAux n h) else none

/-- A read escape: the characters it stands for and the text after it. -/
abbrev Escape := Except EscapeError (List Char × List Char)

/-- After `\x`, a byte in at most two hexadecimal digits. -/
def readByte (s : List Char) : Escape :=
  match hexValue? (s.take 2) with
  | some n => .ok ([Char.ofNat n], s.drop 2)
  | none => .error (.hexadecimal (s.take 2))

/-- After `\u`, a scalar value in braces. The end of the string closes the brace too. -/
def readScalar : List Char → Escape
  | '\x7b' :: s =>
    match (hexValue? (s.takeWhile (· != '\x7d'))).bind scalar? with
    | some c => .ok ([c], (s.dropWhile (· != '\x7d')).drop 1)
    | none => .error (.unicode (s.takeWhile (· != '\x7d')))
  | _ => .error .noBrace

/-- A byte in at most three decimal digits, of which `first` is read already. -/
def readDecimal (first : Char) (s : List Char) : Escape :=
  let more := (s.take 2).takeWhile Char.isDigit
  let value := natOfDigits 10 (first :: more)
  if value ≤ 255 then .ok ([Char.ofNat value], s.drop more.length) else .error (.decimal value)

/-- Read the escape sequence after a backslash. -/
def readEscape : List Char → Escape
  | [] => .error .unfinished
  | 'n' :: s => .ok (['\n'], s)
  | 't' :: s => .ok (['\t'], s)
  | 'r' :: s => .ok (['\r'], s)
  | 'a' :: s => .ok (['\x07'], s)
  | 'b' :: s => .ok (['\x08'], s)
  | 'f' :: s => .ok (['\x0c'], s)
  | 'v' :: s => .ok (['\x0b'], s)
  | '\\' :: s => .ok (['\\'], s)
  | '"' :: s => .ok (['"'], s)
  | '\'' :: s => .ok (['\''], s)
  | '\r' :: '\n' :: s => .ok (['\n'], s)
  | '\n' :: '\r' :: s => .ok (['\n'], s)
  | '\n' :: s => .ok (['\n'], s)
  | '\r' :: s => .ok (['\n'], s)
  | 'z' :: s => .ok ([], s.dropWhile isBlank)
  | 'x' :: s => readByte s
  | 'u' :: s => readScalar s
  | c :: s => if c.isDigit then readDecimal c s else .error (.letter c)

theorem readByte_length {s text rest : List Char} (h : readByte s = .ok (text, rest)) :
    rest.length ≤ s.length := by
  unfold readByte at h
  split at h <;> cases h
  simp

theorem readScalar_length {s text rest : List Char} (h : readScalar s = .ok (text, rest)) :
    rest.length ≤ s.length := by
  unfold readScalar at h
  split at h
  · rename_i s
    split at h <;> cases h
    have := (List.dropWhile_sublist (l := s) (· != '\x7d')).length_le
    simp only [List.length_drop, List.length_cons]
    omega
  · cases h

theorem readDecimal_length {c : Char} {s text rest : List Char} (h : readDecimal c s = .ok (text, rest)) :
    rest.length ≤ s.length := by
  simp only [readDecimal] at h
  split at h <;> cases h
  simp

theorem readEscape_length {s text rest : List Char} (h : readEscape s = .ok (text, rest)) :
    rest.length < s.length := by
  unfold readEscape at h
  split at h
  case h_1 => cases h
  case h_16 => cases h; exact Nat.lt_succ_of_le (List.dropWhile_sublist isBlank).length_le
  case h_17 => exact Nat.lt_succ_of_le (readByte_length h)
  case h_18 => exact Nat.lt_succ_of_le (readScalar_length h)
  case h_19 =>
    split at h
    · exact Nat.lt_succ_of_le (readDecimal_length h)
    · cases h
  all_goals
    cases h
    simp only [List.length_cons]
    omega

/-- The characters that the text between two quotes stands for. -/
def decode : List Char → Except EscapeError (List Char)
  | [] => .ok []
  | c :: s =>
    if c = '\\' then
      match _ : readEscape s with
      | .error e => .error e
      | .ok (text, rest) => (text ++ ·) <$> decode rest
    else (c :: ·) <$> decode s
termination_by s => s.length
decreasing_by
  · have := readEscape_length ‹_›
    simp only [List.length_cons]
    omega
  · simp

/-- The text between the quotes. -/
def body (literal : List Char) : List Char := (literal.drop 1).dropLast

end LuaLowering.Lexeme.QuotedString
