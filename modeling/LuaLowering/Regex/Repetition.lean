import LuaLowering.Regex.Reader
/-!
Signs and counts that repeat what stands before them.
-/
namespace LuaLowering.Regex.Reader

/-- A decimal number of 32 bits, with white space around it. -/
def decimal : Reader (Except Complaint Nat) := do
  let _ ← takeWhile Text.isWhiteSpace Scan.bump
  let start ← position
  let digits ← takeWhile Char.isDigit Scan.next
  let extent ← since start
  let _ ← takeWhile Text.isWhiteSpace Scan.next
  if digits.isEmpty then return .error ⟨.repetitionCountDecimalEmpty, extent, none⟩
  let value := digits.foldl (fun n c => 10 * n + (c.toNat - '0'.toNat)) 0
  if value < Nat.pow 2 32 then return .ok value else return .error ⟨.decimalInvalid, extent, none⟩

/-- The last item and the others, if it can be repeated. -/
def repeated (items : List Pattern) : Reader (Pattern × List Pattern) := do
  match items with
  | [] | .flags .. :: _ => fail .repetitionMissing (← here)
  | p :: items => return (p, items)

/-- A count in braces. -/
def count (start : Position) : Reader (Nat × Option Nat) := do
  next
  if ← atEnd then fail .repetitionCountUnclosed (← since start)
  let least ← decimal
  if ← atEnd then fail .repetitionCountUnclosed (← since start)
  let range ←
    if (← head?) == some ',' then do
      next
      if ← atEnd then fail .repetitionCountUnclosed (← since start)
      if (← head?) != some '\x7d' then do
        let least ← least
        let most ← decimal
        pure (least, some (← most))
      else pure (← least, none)
    else do
      let n ← least
      pure (n, some n)
  if (← head?) != some '\x7d' then fail .repetitionCountUnclosed (← since start)
  next
  if (← head?) == some '?' then bump
  if range.2.any (· < range.1) then fail .repetitionCountInvalid (← since start)
  return range

/-- A repetition of the last item. -/
def repetition (items : List Pattern) (sign : Char) : Reader (List Pattern) := do
  let (p, items) ← repeated items
  let start ← position
  let (least, most) ←
    if sign = '\x7b' then count start
    else do
      bump
      if (← head?) == some '?' then bump
      pure (if sign = '+' then 1 else 0, if sign = '?' then some 1 else none)
  return .times p least most (← since p.extent.start) :: items

end LuaLowering.Regex.Reader
