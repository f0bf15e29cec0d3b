import LuaLowering.Regex.Reader
import LuaLowering.Text.Alphabetic
/-!
What follows an opening parenthesis: flags, a name, or nothing special.
-/
namespace LuaLowering.Regex.Reader

def flagOf? : Char → Option Flag
  | 'i' => some .ignoreCase
  | 'm' => some .multiLine
  | 's' => some .dotAll
  | 'U' => some .swapGreed
  | 'u' => some .unicode
  | 'R' => some .carriageReturn
  | 'x' => some .ignoreSpace
  | _ => none

/-- Flags up to a colon or a parenthesis, each with its extent; a sign of negation has no flag. -/
def flagItems : Nat → List (Option Flag × Extent) → Reader (List (Option Flag × Extent))
  | 0, items => return items
  | n + 1, items => do
    match ← head? with
    | none | some ':' | some ')' => return items
    | some c =>
      let extent := (← get).charExtent
      let item := if c = '-' then none else flagOf? c
      if c != '-' && item.isNone then fail .flagUnrecognized extent
      if let some earlier := items.lookup item then
        throw ⟨if c = '-' then .flagRepeatedNegation else .flagDuplicate, extent, some earlier⟩
      bump
      if ← atEnd then fail .flagUnexpectedEnd (← here)
      flagItems n (items ++ [(item, extent)])

/-- Flags before a sign of negation are switched on, those after it off. -/
def flagChanges (items : List (Option Flag × Extent)) : FlagChanges :=
  let flags := items.map (·.1)
  let on := flags.takeWhile Option.isSome
  (on.filterMap id).map (·, true) ++ ((flags.drop on.length).filterMap id).map (·, false)

def isNameChar (first : Bool) (c : Char) : Bool :=
  c == '_' || Text.isAlphabetic c
    || (! first && (c == '.' || c == '[' || c == ']' || (Text.Category.ofChar c).isNumber))

/-- The name of a group, up to its closing sign. -/
def groupName : Reader Unit := do
  if ← atEnd then fail .groupNameUnexpectedEnd (← here)
  let start ← position
  let first ← takeWhile (fun c => c != '>' && isNameChar true c) Scan.bump
  let more ←
    if first.isEmpty then pure [] else takeWhile (fun c => c != '>' && isNameChar false c) Scan.bump
  let extent ← since start
  match ← head? with
  | none => fail .groupNameUnexpectedEnd (← here)
  | some '>' =>
    bump
    let name := String.ofList (first ++ more)
    if name.isEmpty then fail .groupNameEmpty ⟨start, start⟩
    if let some earlier := (← get).names.lookup name then throw ⟨.groupNameDuplicate, extent, some earlier⟩
    modify fun s => { s with names := s.names ++ [(name, extent)] }
  | some _ => fail .groupNameInvalid (← get).charExtent

/-- What an opening parenthesis begins: a group with changes of flags, or changes of flags alone. -/
inductive Opening where
  | group (changes : FlagChanges) (extent : Extent)
  | flags (changes : FlagChanges) (extent : Extent)

def opening : Reader Opening := do
  let extent := (← get).charExtent
  next
  let inner ← here
  if (← bumpIf "?=") || (← bumpIf "?!") || (← bumpIf "?<=") || (← bumpIf "?<!") then
    fail .unsupportedLookAround (← since extent.start)
  if (← bumpIf "?P<") || (← bumpIf "?<") then
    groupName
    return .group [] extent
  if ← bumpIf "?" then
    if ← atEnd then fail .groupUnclosed extent
    let items ← flagItems (← get).rest.length []
    if let some (none, extent) := items.getLast? then fail .flagDanglingNegation extent
    let closed := (← head?) == some ')'
    bump
    if closed && items.isEmpty then fail .repetitionMissing inner
    if closed then return .flags (flagChanges items) (← since extent.start)
    return .group (flagChanges items) extent
  return .group [] extent

end LuaLowering.Regex.Reader
