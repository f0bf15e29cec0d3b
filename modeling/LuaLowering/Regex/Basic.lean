/-!
Regular expressions and the texts that contain a match. Positions in a text are counted from zero, and an
expression takes a set of positions to the positions where its matches from there end.
-/
namespace LuaLowering

inductive Regex where
  | empty
  /-- A condition on the characters before and after a position. -/
  | look (holds : Option Char → Option Char → Bool)
  | char (holds : Char → Bool)
  | seq (a b : Regex)
  | alt (a b : Regex)
  /-- At least so many times and, if there is a bound, at most so many. -/
  | times (r : Regex) (least : Nat) (most : Option Nat)

namespace Regex

/-- The members of two sets of positions. -/
def union (s t : List Nat) : List Nat := s ++ t.filter (! s.contains ·)

/-- Take exactly so many steps, or fewer if a step changes nothing. -/
def advance (step : List Nat → List Nat) : Nat → List Nat → List Nat
  | 0, s => s
  | n + 1, s =>
    let t := step s
    if t = s then s else advance step n t

/-- Take up to so many steps, and keep what was reached on the way. -/
def spread (step : List Nat → List Nat) : Nat → List Nat → List Nat
  | 0, s => s
  | n + 1, s =>
    let t := union s (step s)
    if t.length = s.length then s else spread step n t

def before (text : Array Char) (i : Nat) : Option Char := if i = 0 then none else text[i - 1]?

/-- Where the matches that start at some positions end. A match either moves forward or not at all, so
more rounds of a repetition than there are positions reach nothing new. -/
def ends (text : Array Char) : Regex → List Nat → List Nat
  | .empty, s => s
  | .look holds, s => s.filter fun i => holds (before text i) text[i]?
  | .char holds, s => (s.filter fun i => text[i]?.any holds).map (· + 1)
  | .seq a b, s => ends text b (ends text a s)
  | .alt a b, s => union (ends text a s) (ends text b s)
  | .times r least most, s =>
    let rounds := text.size + 1
    let s := advance (ends text r) (min least rounds) s
    spread (ends text r) (most.elim rounds fun most => min (most - least) rounds) s

/-- Whether some part of a text matches. -/
def isMatch (r : Regex) (text : String) : Bool :=
  let text := text.toList.toArray
  ! (ends text r (List.range (text.size + 1))).isEmpty

end Regex
end LuaLowering
