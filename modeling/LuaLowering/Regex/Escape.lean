import LuaLowering.Regex.Reader
/-!
What a backslash and the characters after it stand for: a character, a class or a condition.
-/
namespace LuaLowering.Regex.Reader

def isHexDigit (c : Char) : Bool := c.isDigit || ('a' ≤ c && c ≤ 'f') || ('A' ≤ c && c ≤ 'F')

def hexDigitValue (c : Char) : Nat :=
  if c.isDigit then c.toNat - '0'.toNat else c.toLower.toNat - 'a'.toNat + 10

/-- The character with a hexadecimal number. -/
def hexChar (digits : List Char) (extent : Extent) : Reader Char :=
  let value := digits.foldl (fun n c => 16 * n + hexDigitValue c) 0
  if value.isValidChar then return Char.ofNat value else fail .escapeHexInvalid extent

/-- So many hexadecimal digits. The first is there to be looked at. -/
def hexDigits : Nat → Reader (List Char)
  | 0 => return []
  | n + 1 => do
    match ← head? with
    | none => fail .escapeUnexpectedEnd (← here)
    | some c =>
      if ! isHexDigit c then fail .escapeHexInvalidDigit (← get).charExtent
      next
      return c :: (← hexDigits n)

/-- A number in hexadecimal after the letter of its escape: some digits, or any number in braces. -/
def hexLiteral (start : Position) (letter : Char) : Reader Literal := do
  next
  match ← head? with
  | none => fail .escapeUnexpectedEnd (← here)
  | some '\x7b' =>
    let brace ← position
    let inner := (← get).bump.position
    next
    let digits ← takeWhile isHexDigit Scan.next
    match ← head? with
    | none => fail .escapeUnexpectedEnd (← since brace)
    | some '\x7d' =>
      let extent ← since inner
      next
      if digits.isEmpty then fail .escapeHexEmpty (← since brace)
      return ⟨← hexChar digits extent, false, ← since start⟩
    | some _ => fail .escapeHexInvalidDigit (← get).charExtent
  | some _ =>
    let inner ← position
    let digits ← hexDigits (if letter = 'x' then 2 else if letter = 'u' then 4 else 8)
    return ⟨← hexChar digits (← since inner), letter = 'x', ← since start⟩

/-- A property after the letter of its escape: one letter, or a name in braces, perhaps with a value. -/
def property (start : Position) : Reader CharClass := do
  next
  match ← head? with
  | none => fail .escapeUnexpectedEnd (← here)
  | some '\x7b' =>
    next
    let text := String.ofList (← takeWhile (· != '\x7d') Scan.next)
    if ← atEnd then fail .escapeUnexpectedEnd (← here)
    bump
    let extent ← since start
    let named (divider : String) : List String :=
      match text.splitOn divider with
      | name :: value :: more => [name, divider.intercalate (value :: more)]
      | _ => []
    match named "!=", named ":", named "=" with
    | [name, value], _, _ | _, [name, value], _ | _, _, [name, value] => return .property name (some value) extent
    | _, _, _ => return .property text none extent
  | some '\\' => fail .unicodeClassInvalid (← get).charExtent
  | some c =>
    next
    return .property c.toString none (← since start)

/-- Characters that mean something in a pattern. -/
def isMeta (c : Char) : Bool := "\\.+*?()|[]\x7b\x7d^$#&-~".toList.contains c

/-- Whether a backslash before a character stands for the character itself. -/
def isEscapable (c : Char) : Bool :=
  isMeta c || (c.toNat < 0x80 && ! c.isAlphanum && c != '<' && c != '>')

/-- A word boundary may be followed by its kind in braces. Other braces are left for a repetition. -/
def boundaryKind (start : Position) : Reader Assertion := do
  let before ← get
  if before.rest.head? != some '\x7b' then return .wordBoundary
  let isKindChar (c : Char) : Bool := c.isAlpha || c == '-'
  next
  if ← atEnd then fail .wordBoundaryUnexpectedEnd (← since start)
  let inner ← position
  let kind ← takeWhile isKindChar Scan.next
  if kind.isEmpty then
    set before
    return .wordBoundary
  if (← head?) != some '\x7d' then fail .wordBoundaryUnclosed (← since before.position)
  let extent ← since inner
  bump
  match String.ofList kind with
  | "start" => return .wordStart
  | "end" => return .wordEnd
  | "start-half" => return .wordStartHalf
  | "end-half" => return .wordEndHalf
  | _ => fail .wordBoundaryUnrecognized extent

/-- What a backslash and the characters after it stand for. -/
def escape : Reader Pattern := do
  let start ← position
  bump
  match ← head? with
  | none => fail .escapeUnexpectedEnd (← since start)
  | some c =>
    let short (kind : ShortClass) : Reader Pattern := do
      bump
      return .charClass (.short kind c.isUpper (← since start)) (← since start)
    let special (c : Char) : Reader Pattern := do
      bump
      return .literal ⟨c, false, ← since start⟩
    let assertion (a : Assertion) : Reader Pattern := do
      bump
      return .assertion a (← since start)
    if c.isDigit then fail .unsupportedBackreference ⟨start, (← get).bump.position⟩
    if isEscapable c then return ← special c
    match c with
    | 'x' | 'u' | 'U' => return .literal (← hexLiteral start c)
    | 'p' | 'P' =>
      let property ← property start
      return .charClass property (← since start)
    | 'd' | 'D' => short .digit
    | 's' | 'S' => short .space
    | 'w' | 'W' => short .word
    | 'a' => special '\x07'
    | 'f' => special '\x0c'
    | 't' => special '\t'
    | 'n' => special '\n'
    | 'r' => special '\r'
    | 'v' => special '\x0b'
    | 'A' => assertion .textStart
    | 'z' => assertion .textEnd
    | 'b' =>
      bump
      let kind ← boundaryKind start
      return .assertion kind (← since start)
    | 'B' => assertion .notWordBoundary
    | '<' => assertion .wordStart
    | '>' => assertion .wordEnd
    | _ =>
      bump
      fail .escapeUnrecognized (← since start)

end LuaLowering.Regex.Reader
