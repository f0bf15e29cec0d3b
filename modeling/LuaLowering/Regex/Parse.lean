import LuaLowering.Regex.Bracket
import LuaLowering.Regex.Group
import LuaLowering.Regex.Repetition
/-!
Reading a pattern. The reader goes through the text once, with a stack of the groups and choices that
are open; every round of a loop takes at least one character, so their bound is the length of the text.
-/
namespace LuaLowering.Regex

namespace Reader

/-- A group that is open, with what stands before it, or the choices so far. -/
inductive Frame where
  | group (before : List Pattern) (start : Position) (changes : FlagChanges) (extent : Extent)
      (ignoreSpace : Bool)
  | choice (branches : List Pattern) (start : Position)

/-- The sequence of items that were read, the last of which comes first. -/
def joined (items : List Pattern) (extent : Extent) : Pattern :=
  match items with
  | [] => .empty extent
  | [p] => p
  | _ => .sequence items.reverse extent

/-- The innermost group, if there is one, with what was chosen from inside it. -/
def innermost (frames : List Frame) (inner : Pattern) (stop : Position) : List Frame × Pattern :=
  match frames with
  | .choice branches start :: frames => (frames, .alternatives (branches ++ [inner]) ⟨start, stop⟩)
  | _ => (frames, inner)

/-- A pattern to its end, given the open groups and choices and the items read since the last of them. -/
def pattern : Nat → List Frame → List Pattern → Position → Reader Pattern
  | 0, _, items, start => do return joined items (← since start)
  | n + 1, frames, items, start => do
    modify Scan.pass
    match ← head? with
    | none =>
      let (frames, p) := innermost frames (joined items (← since start)) (← position)
      match frames with
      | .group _ _ _ extent _ :: _ => fail .groupUnclosed extent
      | _ => return p
    | some '(' =>
      match ← opening with
      | .flags changes extent =>
        modify fun s => { s with ignoreSpace := (changes.find? .ignoreSpace).getD s.ignoreSpace }
        pattern n frames (.flags changes extent :: items) start
      | .group changes extent =>
        let outer := (← get).ignoreSpace
        modify fun s => { s with ignoreSpace := (changes.find? .ignoreSpace).getD s.ignoreSpace }
        pattern n (.group items start changes extent outer :: frames) [] (← position)
    | some ')' =>
      match innermost frames (joined items (← since start)) (← position) with
      | (.group before outerStart changes extent ignoreSpace :: frames, p) =>
        modify fun s => { s with ignoreSpace }
        bump
        pattern n frames (.group changes p (← since extent.start) :: before) outerStart
      | _ => fail .groupUnopened (← get).charExtent
    | some '|' =>
      let branch := joined items (← since start)
      bump
      match frames with
      | .choice branches first :: frames =>
        pattern n (.choice (branches ++ [branch]) first :: frames) [] (← position)
      | _ => pattern n (.choice [branch] start :: frames) [] (← position)
    | some '[' =>
      let (c, extent) ← bracketed ((← get).rest.length + 1) [] .nothing
      pattern n frames (.charClass c extent :: items) start
    | some '?' => do pattern n frames (← repetition items '?') start
    | some '*' => do pattern n frames (← repetition items '*') start
    | some '+' => do pattern n frames (← repetition items '+') start
    | some '\x7b' => do pattern n frames (← repetition items '\x7b') start
    | some '\\' => do pattern n frames ((← escape) :: items) start
    | some c =>
      let extent := (← get).charExtent
      bump
      let p : Pattern :=
        match c with
        | '.' => .dot extent
        | '^' => .assertion .lineStart extent
        | '$' => .assertion .lineEnd extent
        | c => .literal ⟨c, false, extent⟩
      pattern n frames (p :: items) start

end Reader

/-- Groups, brackets, repetitions, choices and sequences may stand so deep inside each other. -/
def nestLimit : Nat := 250

namespace Pattern

/-- The first part that stands too deep, given how much deeper the parts may go. -/
def tooDeep (p : Pattern) (left : Nat) : Option Extent :=
  match p, left with
  | .charClass (.bracketed ..) e, 0 | .times _ _ _ e, 0 | .group _ _ e, 0 | .alternatives _ e, 0
  | .sequence _ e, 0 => some e
  | .times p _ _ _, left + 1 | .group _ p _, left + 1 => p.tooDeep left
  | .alternatives ps _, left + 1 | .sequence ps _, left + 1 =>
    ps.attach.findSome? fun ⟨p, _⟩ => p.tooDeep left
  | _, _ => none

/-- Read a pattern. -/
def parse (text : String) : Except Complaint Pattern := do
  let (p, _) ← (Reader.pattern (text.length + 1) [] [] ⟨1, 1⟩).run ⟨⟨1, 1⟩, text.toList, false, []⟩
  match p.tooDeep nestLimit with
  | some extent => throw ⟨.nestLimitExceeded nestLimit, extent, none⟩
  | none => return p

end Pattern

end LuaLowering.Regex
