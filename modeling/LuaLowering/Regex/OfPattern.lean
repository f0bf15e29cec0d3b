import LuaLowering.Regex.Basic
import LuaLowering.Regex.CharSet
import LuaLowering.Regex.Parse
import LuaLowering.Regex.Size
/-!
The regular expression that a pattern stands for. Flags hold from where they are set to the end of the
group around them.
-/
namespace LuaLowering.Regex

/-- Whether a condition holds between two characters. -/
def Assertion.holds (f : Flags) (a : Assertion) (before after : Option Char) : Bool :=
  let isWord (c : Option Char) : Bool := c.any isAsciiWord
  match a with
  | .textStart => before.isNone
  | .textEnd => after.isNone
  | .lineStart =>
    before.isNone || (f.multiLine && (before == some '\n'
      || (f.carriageReturn && before == some '\r' && after != some '\n')))
  | .lineEnd =>
    after.isNone || (f.multiLine &&
      (if f.carriageReturn then after == some '\r' || (after == some '\n' && before != some '\r')
        else after == some '\n'))
  | .wordBoundary => isWord before != isWord after
  | .notWordBoundary => isWord before == isWord after
  | .wordStart => ! isWord before && isWord after
  | .wordEnd => isWord before && ! isWord after
  | .wordStartHalf => ! isWord before
  | .wordEndHalf => ! isWord after

/-- Whether a condition depends on which characters are those of words. -/
def Assertion.needsWords : Assertion → Bool
  | .lineStart | .lineEnd | .textStart | .textEnd => false
  | _ => true

/-- What a point matches. -/
def Flags.isDot (f : Flags) (c : Char) : Bool :=
  f.dotAll || (c != '\n' && ! (f.carriageReturn && c == '\r'))

/-- What has been found on the way: the flags that hold, and whether some condition depends on the words of
Unicode. -/
structure Progress where
  flags : Flags
  needsWords : Bool

namespace Pattern

mutual

def toRegex : Pattern → StateT Progress (Except Complaint) Regex
  | .empty _ => return .empty
  | .flags changes _ => do
    modify fun s => { s with flags := s.flags.change changes }
    return .empty
  | .literal l => do
    let f := (← get).flags
    let c ← l.check f
    return .char (← f.close (· == c) (some l.extent))
  | .dot extent => do
    let f := (← get).flags
    if ! f.unicode then throw ⟨.invalidUtf8, extent, none⟩
    return .char f.isDot
  | .assertion a _ => do
    let f := (← get).flags
    modify fun s => { s with needsWords := s.needsWords || (f.unicode && a.needsWords) }
    return .look (a.holds f)
  | .charClass c _ => return .char (← c.holds (← get).flags)
  | .times p least most _ => return .times (← p.toRegex) least most
  | .group changes p _ => do
    let outer := (← get).flags
    modify fun s => { s with flags := outer.change changes }
    let r ← p.toRegex
    modify fun s => { s with flags := outer }
    return r
  | .alternatives ps _ => anyOf ps
  | .sequence ps _ => allOf ps

def anyOf : List Pattern → StateT Progress (Except Complaint) Regex
  | [] => return .char fun _ => false
  | p :: ps => return .alt (← p.toRegex) (← anyOf ps)

def allOf : List Pattern → StateT Progress (Except Complaint) Regex
  | [] => return .empty
  | p :: ps => return .seq (← p.toRegex) (← allOf ps)

end

end Pattern

/-- Why there is no regular expression for a text. -/
inductive Refusal where
  | complaint (c : Complaint)
  | tooBig
  | needsWords

def Refusal.message (text : String) : Refusal → String
  | .complaint c => c.render text
  | .tooBig => s!"Compiled regex exceeds size limit of {sizeLimit} bytes."
  | .needsWords => "error building NFA"

/-- Read a regular expression. -/
def ofPattern (text : String) : Except Refusal Regex :=
  let result := do
    let p ← Pattern.parse text
    return (p, ← p.toRegex.run ⟨.initial, false⟩)
  match result with
  | .error complaint => .error (.complaint complaint)
  | .ok (p, r, progress) =>
    if p.weight > sizeLimit then .error .tooBig
    else if progress.needsWords then .error .needsWords
    else .ok r

end LuaLowering.Regex
