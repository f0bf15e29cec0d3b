/-!
Byte offsets into UTF-8 text. A text is a list of characters; `splitBytes` cuts it at a byte
offset and refuses an offset that falls inside a character.
-/
namespace LuaLowering.Text

/-- Number of bytes the characters take in UTF-8. -/
def byteSize (cs : List Char) : Nat := cs.foldr (fun c n => c.utf8Size + n) 0

/-- The characters before and after byte `n`, if a character begins or the text ends there. -/
def splitBytes : Nat → List Char → Option (List Char × List Char)
  | 0, cs => some ([], cs)
  | _ + 1, [] => none
  | n + 1, c :: cs =>
    if c.utf8Size ≤ n + 1 then
      (splitBytes (n + 1 - c.utf8Size) cs).map fun (before, after) => (c :: before, after)
    else none

@[simp] theorem byteSize_nil : byteSize [] = 0 := rfl

@[simp] theorem byteSize_cons (c : Char) (cs : List Char) :
    byteSize (c :: cs) = c.utf8Size + byteSize cs := rfl

@[simp] theorem byteSize_append (cs ds : List Char) :
    byteSize (cs ++ ds) = byteSize cs + byteSize ds := by
  induction cs with
  | nil => simp
  | cons c cs ih => simp [ih, Nat.add_assoc]

theorem splitBytes_eq_some {n : Nat} {cs before after : List Char}
    (h : splitBytes n cs = some (before, after)) : cs = before ++ after ∧ byteSize before = n := by
  fun_induction splitBytes n cs generalizing before with
  | case1 => simp_all
  | case2 => simp at h
  | case3 n c cs fits ih =>
    simp only [Option.map_eq_some_iff, Prod.mk.injEq, Prod.exists] at h
    obtain ⟨b, a, split, rfl, rfl⟩ := h
    have := ih split
    simp only [List.cons_append, this.1, byteSize_cons, this.2, true_and]
    omega
  | case4 => simp at h

theorem splitBytes_byteSize (before after : List Char) :
    splitBytes (byteSize before) (before ++ after) = some (before, after) := by
  induction before with
  | nil => simp [splitBytes]
  | cons c cs ih =>
    have positive : 0 < c.utf8Size := c.utf8Size_pos
    obtain ⟨n, hn⟩ : ∃ n, byteSize (c :: cs) = n + 1 :=
      ⟨byteSize (c :: cs) - 1, by simp only [byteSize_cons]; omega⟩
    have rest : n + 1 - c.utf8Size = byteSize cs := by simp only [byteSize_cons] at hn; omega
    have fits : c.utf8Size ≤ n + 1 := by simp only [byteSize_cons] at hn; omega
    simp [hn, splitBytes, fits, rest, ih]

end LuaLowering.Text
