import LuaLowering.Text.Category
/-!
Characters without a visible form of their own: controls, format characters, private use, separators
other than the space, and numbers that stand for no character.
-/
namespace LuaLowering.Text

def isUnprintable (c : Char) : Bool :=
  let category := Category.ofChar c
  category.isOther || (category.isSeparator && c != ' ')

end LuaLowering.Text
