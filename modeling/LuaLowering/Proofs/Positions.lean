import LuaLowering.Proofs.Segmentation
import Mathlib.Data.List.Induction
/-!
# Lines and columns

The place of a byte offset is found by going through the text from its start. Here it is said without that walk: the
line is the number of line feeds before the offset, the column the number of characters behind the last of them, both
counted from one. Places lie in the order of their offsets. Every offset has a place, unless it lies inside a character
(`Source.location_lineColumn`).
-/
namespace LuaLowering
open Lexeme

namespace Text

/-- The line that is reached after the characters. -/
def lineAfter (before : List Char) : Nat := before.count '\n' + 1

/-- The column that is reached after the characters. -/
def columnAfter (before : List Char) : Nat := (before.reverse.takeWhile (· != '\n')).length + 1

/-- The offset lies behind the first byte of a character and before its end. -/
def InsideChar (text : List Char) (offset : Nat) : Prop :=
  ∃ before c after, text = before ++ c :: after ∧ byteSize before < offset ∧ offset < byteSize before + c.utf8Size

theorem byteSize_toList (s : String) : byteSize s.toList = s.utf8ByteSize := by
  have sizes (cs : List Char) : byteSize cs = (String.ofList cs).utf8ByteSize := by
    induction cs with
    | nil => rfl
    | cons c cs ih =>
      rw [byteSize_cons, ih, String.ofList_cons, String.utf8ByteSize_append, String.utf8ByteSize_singleton]
  rw [sizes, String.ofList_toList]

theorem isBoundary_or_insideChar {text : List Char} {offset : Nat} (inside : offset ≤ byteSize text) :
    IsBoundary text offset ∨ InsideChar text offset := by
  induction text generalizing offset with
  | nil => exact .inl ⟨[], [], rfl, (Nat.le_zero.mp inside).symm⟩
  | cons c text ih =>
    rw [byteSize_cons] at inside
    by_cases start : offset = 0
    · exact .inl ⟨[], c :: text, rfl, start.symm⟩
    by_cases first : offset < c.utf8Size
    · exact .inr ⟨[], c, text, rfl, by simpa [Nat.pos_iff_ne_zero] using start, by simpa using first⟩
    -- behind the first character the offset counts from its end
    rcases @ih (offset - c.utf8Size) (by omega) with
      ⟨before, after, rfl, size⟩ | ⟨before, d, after, rfl, above, below⟩
    · exact .inl ⟨c :: before, after, rfl, by rw [byteSize_cons]; omega⟩
    · exact .inr ⟨c :: before, d, after, rfl, by rw [byteSize_cons]; omega, by rw [byteSize_cons]; omega⟩

theorem InsideChar.not_isBoundary {text : List Char} {offset : Nat} (inside : InsideChar text offset) :
    ¬ IsBoundary text offset := by
  obtain ⟨before, c, after, rfl, above, below⟩ := inside
  rintro ⟨before', after', same, rfl⟩
  rcases List.append_eq_append_iff.mp same with ⟨more, rfl, rest⟩ | ⟨more, rfl, -⟩
  · cases more with
    | nil => simp at above
    | cons d more =>
      cases rest
      rw [byteSize_append, byteSize_cons] at below
      omega
  · rw [byteSize_append] at above
    omega

end Text
open Text

namespace Position

theorem after_concat (before : List Char) (c : Char) : after (before ++ [c]) = (after before).advance c := by
  rw [after, List.foldl_append, ← after]
  rfl

theorem after_eq (before : List Char) : after before = ⟨lineAfter before, columnAfter before⟩ := by
  induction before using List.reverseRecOn with
  | nil => rfl
  | append_singleton before c ih =>
    rw [after_concat, ih, advance, lineAfter, columnAfter, lineAfter, columnAfter]
    by_cases feed : c = '\n'
    · simp [feed]
    · simp [feed]

/-- The walk that takes each line break, a line feed or a carriage return with its line feed, in one step. -/
def walk (p : Position) : List Char → Position
  | [] => p
  | '\r' :: '\n' :: cs => walk ⟨p.line + 1, 1⟩ cs
  | '\n' :: cs => walk ⟨p.line + 1, 1⟩ cs
  | _ :: cs => walk ⟨p.line, p.column + 1⟩ cs

/-- A carriage return adds a column, and the line feed behind it takes the column back. -/
theorem walk_eq_foldl (p : Position) (cs : List Char) : p.walk cs = cs.foldl advance p := by
  fun_induction walk p cs with
  | case1 => rfl
  | case2 p cs ih => rw [ih]; rfl
  | case3 p cs ih => rw [ih]; rfl
  | case4 p c cs pair feed ih => rw [ih, List.foldl_cons, advance, if_neg feed]

/-- One position comes before another. -/
def Lt (p q : Position) : Prop := p.line < q.line ∨ p.line = q.line ∧ p.column < q.column

theorem Lt.trans {p q r : Position} (first : p.Lt q) (second : q.Lt r) : p.Lt r := by
  unfold Lt at *
  omega

theorem lt_advance (p : Position) (c : Char) : p.Lt (p.advance c) := by
  unfold Lt advance
  split
  · exact .inl (Nat.lt_succ_self _)
  · exact .inr ⟨rfl, Nat.lt_succ_self _⟩

/-- Every further character moves on. -/
theorem after_lt (before : List Char) {more : List Char} (some : more ≠ []) :
    (after before).Lt (after (before ++ more)) := by
  induction more using List.reverseRecOn with
  | nil => exact absurd rfl some
  | append_singleton more c ih =>
    rw [← List.append_assoc, after_concat]
    by_cases one : more = []
    · rw [one, List.append_nil]
      exact lt_advance _ c
    · exact (ih one).trans (lt_advance _ c)

end Position

/-- The place is on an earlier line, or on the same one and no further. -/
def Location.NotAfter (a b : Location) : Prop := a.line < b.line ∨ a.line = b.line ∧ a.column ≤ b.column

/-- The place is on an earlier line, or on the same one and in an earlier column. -/
def Location.Before (a b : Location) : Prop := a.line < b.line ∨ a.line = b.line ∧ a.column < b.column

theorem Location.Before.irrefl {a : Location} : ¬ a.Before a := by
  unfold Before
  omega

theorem Location.Before.asymm {a b : Location} (before : a.Before b) : ¬ b.Before a := by
  unfold Before at *
  omega

namespace Source
variable {s : Source}

/-- The place is that of a byte offset at which a character begins or the text ends. -/
def At (s : Source) (offset : Nat) (place : Location) : Prop :=
  ∃ before after, s.text.toList = before ++ after ∧ byteSize before = offset ∧
    place = ⟨s.file, lineAfter before, columnAfter before⟩

theorem location_byteSize {before after : List Char} (whole : s.text.toList = before ++ after) :
    s.location (byteSize before) = ⟨s.file, lineAfter before, columnAfter before⟩ := by
  have inside : min (byteSize before) (byteSize s.text.toList) = byteSize before := by
    rw [whole, byteSize_append]
    omega
  unfold location
  simp only [inside]
  rw [whole, splitBytes_byteSize]
  simp only [Position.after_eq]

theorem at_location {offset : Nat} (boundary : IsBoundary s.text.toList offset) : s.At offset (s.location offset) := by
  obtain ⟨before, after, whole, rfl⟩ := boundary
  exact ⟨before, after, whole, rfl, location_byteSize whole⟩

theorem At.eq_location {offset : Nat} {place : Location} (at_offset : s.At offset place) :
    place = s.location offset := by
  obtain ⟨before, after, whole, rfl, rfl⟩ := at_offset
  exact (location_byteSize whole).symm

theorem At.known {offset : Nat} {place : Location} (at_offset : s.At offset place) :
    place.file = s.file ∧ 1 ≤ place.line := by
  obtain ⟨before, after, -, -, rfl⟩ := at_offset
  exact ⟨rfl, Nat.succ_le_succ (Nat.zero_le _)⟩

/-- Places lie in the order of their offsets. -/
theorem At.before {a b : Nat} {first last : Location} (at_a : s.At a first) (at_b : s.At b last) (lt : a < b) :
    first.Before last := by
  obtain ⟨before, after, whole, rfl, rfl⟩ := at_a
  obtain ⟨before', after', whole', rfl, rfl⟩ := at_b
  have sameText : before ++ after = before' ++ after' := whole ▸ whole'
  rcases List.append_eq_append_iff.mp sameText with ⟨more, rfl, -⟩ | ⟨more, rfl, -⟩
  · have some : more ≠ [] := by
      rintro rfl
      simp at lt
    have earlier := Position.after_lt before some
    rwa [Position.after_eq, Position.after_eq] at earlier
  · rw [byteSize_append] at lt
    omega

theorem At.notAfter {a b : Nat} {first last : Location} (at_a : s.At a first) (at_b : s.At b last) (le : a ≤ b) :
    first.NotAfter last := by
  rcases Nat.lt_or_eq_of_le le with lt | rfl
  · exact (at_a.before at_b lt).imp id fun ⟨line, column⟩ => ⟨line, Nat.le_of_lt column⟩
  · rw [at_a.eq_location, at_b.eq_location]
    exact .inr ⟨rfl, Nat.le_refl _⟩

/-! ## Every offset -/

theorem location_of_insideChar {offset : Nat} (inside : InsideChar s.text.toList (min offset s.text.utf8ByteSize)) :
    s.location offset = .unknown s.file := by
  rw [← byteSize_toList] at inside
  unfold location
  cases split : splitBytes (min offset (byteSize s.text.toList)) s.text.toList with
  | none => simp only [split]
  | some parts =>
    obtain ⟨whole, size⟩ := splitBytes_eq_some split
    exact absurd ⟨parts.1, parts.2, whole, size⟩ inside.not_isBoundary

/-- An offset past the end counts as the end. -/
theorem location_min (s : Source) (offset : Nat) : s.location (min offset s.text.utf8ByteSize) = s.location offset := by
  rw [location, location, byteSize_toList, Nat.min_assoc, Nat.min_self]

theorem at_of_not_insideChar {offset : Nat}
    (outside : ¬ InsideChar s.text.toList (min offset s.text.utf8ByteSize)) :
    s.At (min offset s.text.utf8ByteSize) (s.location offset) := by
  have inText : min offset s.text.utf8ByteSize ≤ byteSize s.text.toList := by
    rw [byteSize_toList]
    exact Nat.min_le_right ..
  rw [← location_min]
  exact at_location ((isBoundary_or_insideChar inText).resolve_right outside)

/-- An offset inside a character has no place. Every other offset, or the end where it lies past the end, has a line
and a column: they count line feeds, and characters behind the last one. To take a carriage return and its line feed for
one break would give the same. Where characters begin or the text ends, different offsets have different places, in the
same order. -/
theorem location_lineColumn (s : Source) :
    (∀ offset, (s.location offset).isUnknown = true ↔ InsideChar s.text.toList (min offset s.text.utf8ByteSize)) ∧
    (∀ offset, ¬ InsideChar s.text.toList (min offset s.text.utf8ByteSize) →
      s.At (min offset s.text.utf8ByteSize) (s.location offset)) ∧
    (∀ before, Position.walk ⟨1, 1⟩ before = ⟨lineAfter before, columnAfter before⟩) ∧
    (∀ a b, IsBoundary s.text.toList a → IsBoundary s.text.toList b → (a < b ↔ (s.location a).Before (s.location b))) ∧
    ∀ a b, IsBoundary s.text.toList a → IsBoundary s.text.toList b → s.location a = s.location b → a = b := by
  have ordered (a b : Nat) (first : IsBoundary s.text.toList a) (second : IsBoundary s.text.toList b) (lt : a < b) :
      (s.location a).Before (s.location b) := (at_location first).before (at_location second) lt
  refine ⟨fun offset => ⟨fun unknown => ?_, fun inside => ?_⟩, fun offset => at_of_not_insideChar, fun before => ?_,
    fun a b first second => ⟨ordered a b first second, fun before => ?_⟩, fun a b first second same => ?_⟩
  · by_contra outside
    have line := (at_of_not_insideChar outside).known.2
    have zero : (s.location offset).line = 0 := by simpa [Location.isUnknown] using unknown
    omega
  · rw [location_of_insideChar inside]
    rfl
  · rw [Position.walk_eq_foldl, ← Position.after_eq]
    rfl
  · rcases Nat.lt_trichotomy a b with lt | rfl | gt
    · exact lt
    · exact absurd before Location.Before.irrefl
    · exact absurd before (ordered b a second first gt).asymm
  · rcases Nat.lt_trichotomy a b with lt | equal | gt
    · exact absurd (same ▸ ordered a b first second lt) Location.Before.irrefl
    · exact equal
    · exact absurd (same ▸ ordered b a second first gt) Location.Before.irrefl

/-- An offset inside the first character, one between a carriage return and its line feed, one behind them, and one past
the end. -/
theorem location_lineColumn_breaks : ∃ s : Source, s.text = "é\r\n😀\rx" ∧ (s.location 1).isUnknown = true ∧
    s.location 3 = ⟨s.file, 1, 3⟩ ∧ s.location 4 = ⟨s.file, 2, 1⟩ ∧ (s.location 3).Before (s.location 4) ∧
    s.At 10 (s.location 99) ∧ s.location 99 = ⟨s.file, 2, 4⟩ ∧ s.location 8 ≠ s.location 9 := by
  let s : Source := ⟨"main.lua", "é\r\n😀\rx"⟩
  have letters : s.text.toList = ['é', '\r', '\n', '😀', '\r', 'x'] := by decide +kernel
  obtain ⟨unknown, known, -, ordered, injective⟩ := location_lineColumn s
  rw [letters] at ordered injective
  have boundary (count : Nat) {offset : Nat}
      (size : byteSize (['é', '\r', '\n', '😀', '\r', 'x'].take count) = offset) :
      IsBoundary ['é', '\r', '\n', '😀', '\r', 'x'] offset :=
    ⟨_, _, (List.take_append_drop count _).symm, size⟩
  refine ⟨s, rfl, (unknown 1).mpr ⟨[], 'é', _, letters, by decide, by decide⟩, by decide +kernel, by decide +kernel,
    (ordered 3 4 (boundary 2 rfl) (boundary 3 rfl)).mp (by decide), ?_, by decide +kernel, fun same => ?_⟩
  · refine known 99 fun inside => inside.not_isBoundary ?_
    rw [letters]
    exact boundary 6 rfl
  · exact absurd (injective 8 9 (boundary 4 rfl) (boundary 5 rfl) same) (by decide)

end Source
end LuaLowering
