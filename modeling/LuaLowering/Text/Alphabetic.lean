import LuaLowering.Text.Category
/-!
Letters in any form: those of any script, and numbers and signs that show one.
-/
namespace LuaLowering.Text

/-- Signs that show a letter in a circle or a square. -/
def letterSignRuns : List (Nat × Nat × Nat) :=
  [(0x24b6, 0x24e9, 1), (0x1f130, 0x1f149, 1), (0x1f150, 0x1f169, 1), (0x1f170, 0x1f189, 1)]

def isAlphabetic (c : Char) : Bool :=
  let category := Category.ofChar c
  category.isLetter || category == .letterNumber || Category.inRuns letterSignRuns c.toNat

end LuaLowering.Text
