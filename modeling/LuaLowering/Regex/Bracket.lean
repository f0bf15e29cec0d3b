import LuaLowering.Regex.Escape
/-!
Classes in brackets, which may hold others, with a stack of the brackets and operators that are open.
-/
namespace LuaLowering.Regex.Reader

/-- An open bracket, with the classes outside it, or an operator that waits for its second class. -/
inductive ClassFrame where
  | bracket (outer : CharClass) (negated : Bool) (extent : Extent)
  | operator (op : ClassOperator) (lhs : CharClass)

/-- The innermost open bracket is not closed. -/
def failUnclosed {α : Type} (frames : List ClassFrame) : Reader α := do
  let open? := frames.findSome? fun
    | .bracket _ _ extent => some extent
    | .operator .. => none
  fail .classUnclosed (open?.getD (← here))

/-- Give a waiting operator its second class. -/
def applyOperator (frames : List ClassFrame) (rhs : CharClass) : List ClassFrame × CharClass :=
  match frames with
  | .operator op lhs :: frames => (frames, .combine op lhs rhs)
  | _ => (frames, rhs)

def asciiClasses : List (String × AsciiClass) :=
  [("alnum", .alnum), ("alpha", .alpha), ("ascii", .ascii), ("blank", .blank), ("cntrl", .cntrl),
    ("digit", .digit), ("graph", .graph), ("lower", .lower), ("print", .print), ("punct", .punct),
    ("space", .space), ("upper", .upper), ("word", .word), ("xdigit", .xdigit)]

/-- A class by its name between brackets and colons, if there is one. -/
def asciiClass? : Reader (Option CharClass) := do
  let start ← position
  let before ← get
  if ! (← bumpIf "[:") then return none
  let negated ← bumpIf "^"
  let name ← takeWhile (· != ':') Scan.bump
  let closed ← bumpIf ":]"
  match asciiClasses.lookup (String.ofList name), closed with
  | some kind, true => return some (.ascii kind negated (← since start))
  | _, _ =>
    set before
    return none

/-- An opening bracket, a sign of negation, and dashes or a bracket that stand for themselves: the extent
of these, whether the class is negated, and its first characters. -/
def openBracket : Reader (Extent × Bool × CharClass) := do
  let start ← position
  next
  if ← atEnd then fail .classUnclosed (← since start)
  let negated := (← head?) == some '^'
  if negated then next
  if ← atEnd then fail .classUnclosed (← since start)
  let first ← get
  let dashes ← takeWhile (· == '-') Scan.next
  if ← atEnd then fail .classUnclosed ⟨start, start⟩
  let literal (c : Char) : CharClass := .literal ⟨c, false, first.charExtent⟩
  if dashes.isEmpty && (← head?) == some ']' then
    next
    if ← atEnd then fail .classUnclosed (← since start)
    return (← since start, negated, literal ']')
  return (← since start, negated, dashes.foldl (fun items c => .union items (literal c)) .nothing)

/-- One character or escape inside brackets. -/
def classItem : Reader Pattern := do
  match ← head? with
  | some '\\' => escape
  | some c =>
    let extent := (← get).charExtent
    bump
    return .literal ⟨c, false, extent⟩
  | none => return .empty (← here)

/-- The bound of a range. -/
def rangeBound : Pattern → Reader Literal
  | .literal l => return l
  | p => fail .classRangeLiteral p.extent

/-- A character, a class or a range inside brackets. -/
def classRange (frames : List ClassFrame) : Reader CharClass := do
  let first ← classItem
  modify Scan.pass
  if ← atEnd then failUnclosed frames
  let after := (← get).peekSpace
  if (← head?) != some '-' || after == some ']' || after == some '-' then
    match first with
    | .literal l => return .literal l
    | .charClass c _ => return c
    | p => fail .classEscapeInvalid p.extent
  next
  if ← atEnd then failUnclosed frames
  let last ← classItem
  let lo ← rangeBound first
  let hi ← rangeBound last
  if hi.char < lo.char then fail .classRangeInvalid ⟨lo.extent.start, hi.extent.stop⟩
  return .range lo hi

/-- The operator of classes that follows, if one does. -/
def classOperator? : Reader (Option ClassOperator) := do
  if ← bumpIf "&&" then return some .intersection
  if ← bumpIf "--" then return some .difference
  if ← bumpIf "~~" then return some .symmetricDifference
  return none

/-- A class in brackets, which may hold others. -/
def bracketed : Nat → List ClassFrame → CharClass → Reader (CharClass × Extent)
  | 0, frames, _ => failUnclosed frames
  | n + 1, frames, items => do
    modify Scan.pass
    match ← head? with
    | none => failUnclosed frames
    | some '[' =>
      let named ← if frames.isEmpty then pure none else asciiClass?
      match named with
      | some c => bracketed n frames (.union items c)
      | none =>
        let (extent, negated, first) ← openBracket
        bracketed n (.bracket items negated extent :: frames) first
    | some ']' =>
      match applyOperator frames items with
      | (.bracket outer negated extent :: frames, inner) =>
        bump
        let extent ← since extent.start
        let c := CharClass.bracketed negated inner extent
        if frames.isEmpty then return (c, extent) else bracketed n frames (.union outer c)
      | (frames, _) => failUnclosed frames
    | some _ =>
      match ← classOperator? with
      | some op =>
        let (frames, lhs) := applyOperator frames items
        bracketed n (.operator op lhs :: frames) .nothing
      | none => do bracketed n frames (.union items (← classRange frames))

end LuaLowering.Regex.Reader
