import LuaLowering.Proofs.LoweringRun
import Mathlib.Order.Bounds.Basic
/-!
# Misplaced packs

Of the items that are grouped into a pack, only the last may be a pack itself. Another one is looked for from the back,
beginning with the last item but one, and its distance from there is turned back into a position. That position is the
greatest at which a misplaced pack stands (`misplacedPack?_eq_some_iff`). So grouping ends in one of two ways: it
reports this position and leaves everything as it was, or it leaves the decision to the builder, which places one
operation over all items or nothing (`pack_outcome`).
-/
namespace LuaLowering
namespace Lowered

/-- At the position stands a pack, and more items follow. -/
def Misplaced (items : List Lowered) (position : Nat) : Prop :=
  position + 1 < items.length ∧ items[position]?.any isPack = true

instance (items : List Lowered) (position : Nat) : Decidable (Misplaced items position) :=
  inferInstanceAs (Decidable (_ ∧ _))

section Search
variable {items : List Lowered} {position offset : Nat}

/-- What is found from the back is an item but the last, so it is at least two items away from the end. -/
theorem offset_add_two_le (found : (items.reverse.drop 1).findIdx? isPack = some offset) :
    offset + 2 ≤ items.length := by
  obtain ⟨inside, -, -⟩ := List.findIdx?_eq_some_iff_getElem.mp found
  simp only [List.length_drop, List.length_reverse] at inside
  omega

/-- A position and its distance from the last item but one. -/
theorem misplaced_iff_of_across (position offset : Nat) (across : position + offset + 2 = items.length) :
    Misplaced items position ↔ (items.reverse.drop 1)[offset]?.any isPack = true := by
  have same : (items.reverse.drop 1)[offset]? = items[position]? := by
    rw [List.getElem?_drop, List.getElem?_reverse (by omega)]
    congr 1
    omega
  rw [same, Misplaced, and_iff_right (by omega)]

theorem isGreatest_of_offset (found : (items.reverse.drop 1).findIdx? isPack = some offset) :
    IsGreatest {i | Misplaced items i} (items.length - 2 - offset) := by
  have away := offset_add_two_le found
  obtain ⟨inside, isPack, nearer⟩ := List.findIdx?_eq_some_iff_getElem.mp found
  constructor
  · apply (misplaced_iff_of_across _ offset (by omega)).mpr
    rw [List.getElem?_eq_getElem inside]
    exact isPack
  · intro i misplaced
    have before := misplaced.1
    by_contra beyond
    -- a pack further behind is nearer to the end, so it would have been found first
    have here := (misplaced_iff_of_across i (items.length - 2 - i) (by omega)).mp misplaced
    rw [List.getElem?_eq_getElem (by omega)] at here
    exact nearer _ (by omega) here

theorem misplacedPack?_eq_none_iff_forall : misplacedPack? items = none ↔ ∀ i, ¬ Misplaced items i := by
  unfold misplacedPack?
  cases found : (items.reverse.drop 1).findIdx? isPack with
  | some offset =>
    simp only [Option.map_some, reduceCtorEq, false_iff]
    intro none
    exact none _ (isGreatest_of_offset found).1
  | none =>
    simp only [Option.map_none, true_iff]
    intro i misplaced
    have before := misplaced.1
    have here := (misplaced_iff_of_across i (items.length - 2 - i) (by omega)).mp misplaced
    obtain ⟨item, listed, isPack⟩ := (Option.any_eq_true _ _).mp here
    have other := List.findIdx?_eq_none_iff.mp found item (List.mem_of_getElem? listed)
    rw [isPack] at other
    cases other

/-- The position found is the greatest of a misplaced pack. -/
theorem misplacedPack?_eq_some_iff :
    misplacedPack? items = some position ↔ IsGreatest {i | Misplaced items i} position := by
  cases found : misplacedPack? items with
  | none =>
    simp only [reduceCtorEq, false_iff]
    intro greatest
    exact misplacedPack?_eq_none_iff_forall.mp found position greatest.1
  | some position' =>
    obtain ⟨offset, search, rfl⟩ := Option.map_eq_some_iff.mp found
    have greatest := isGreatest_of_offset search
    rw [Option.some.injEq]
    constructor
    · rintro rfl
      exact greatest
    · intro greatest'
      exact greatest.unique greatest'

example : let items : List Lowered := [.pack ⟨⟨0⟩⟩, .value ⟨⟨1⟩⟩, .pack ⟨⟨2⟩⟩, .value ⟨⟨3⟩⟩, .pack ⟨⟨4⟩⟩]
    misplacedPack? items = some 2 ∧ Misplaced items 0 ∧ ¬ Misplaced items 4 := by decide

end Search
end Lowered

namespace Frame
open Lowered

section Grouping
variable {f : Frame} {items : List Lowered} {loc : Location} {s : LowerState}

theorem pack_of_misplaced {position : Nat} (found : misplacedPack? items = some position) :
    f.pack items loc s = .error (.invariant (.misplacedPack position items.length) loc) s := by
  rw [pack, found]
  rfl

theorem pack_of_refused {e : BuildError} (ordered : misplacedPack? items = none)
    (refused : f.site.concat (items.map Lowered.id) loc s.module = .error e) :
    f.pack items loc s = .error (.invariant (.build e) none) s := by
  simp only [pack, ordered]
  rw [Lowering.emit_run _ _ (f.site.places_concat loc _).atomic, refused]

theorem pack_of_accepted {packed : Pack} {m : Module} (ordered : misplacedPack? items = none)
    (accepted : f.site.concat (items.map Lowered.id) loc s.module = .ok (packed, m)) :
    f.pack items loc s = .ok packed { s with module := m, log := s.log.push (.emit .concat loc) } := by
  simp only [pack, ordered]
  rw [Lowering.emit_run _ _ (f.site.places_concat loc _).atomic, accepted]

/-- A reported pack is misplaced: what the builder refuses has another error. -/
theorem misplacedPack?_of_pack {position count : Nat} {place : Option Location} {s' : LowerState}
    (failed : f.pack items loc s = .error (.invariant (.misplacedPack position count) place) s') :
    misplacedPack? items = some position ∧ count = items.length ∧ place = some loc ∧ s' = s := by
  cases found : misplacedPack? items with
  | some position' =>
    rw [pack_of_misplaced found] at failed
    cases failed
    exact ⟨rfl, rfl, rfl, rfl⟩
  | none =>
    cases built : f.site.concat (items.map Lowered.id) loc s.module with
    | error e =>
      rw [pack_of_refused found built] at failed
      cases failed
    | ok made =>
      rw [pack_of_accepted found built] at failed
      cases failed

end Grouping

/-- Grouping reports a misplaced pack exactly if there is one: the one with the greatest position, and no subtraction on
the way there is cut off at zero. Nothing is changed then. If there is none, the builder decides: when it accepts the
items, one operation is placed, over all of them in order, and when it refuses, its error is passed on. -/
theorem pack_outcome (f : Frame) (items : List Lowered) (loc : Location) (s : LowerState) :
    ((∃ position count place s', f.pack items loc s = .error (.invariant (.misplacedPack position count) place) s') ↔
      ∃ i, Misplaced items i) ∧
    (∀ position count place s', f.pack items loc s = .error (.invariant (.misplacedPack position count) place) s' →
      IsGreatest {i | Misplaced items i} position ∧ count = items.length ∧ place = some loc ∧ s' = s) ∧
    (∀ offset, (items.reverse.drop 1).findIdx? isPack = some offset →
      misplacedPack? items = some (items.length - 2 - offset) ∧ offset + 2 ≤ items.length) ∧
    ((∀ i, ¬ Misplaced items i) →
      (∀ packed m, f.site.concat (items.map Lowered.id) loc s.module = .ok (packed, m) →
        packed.id = ⟨s.module.values.size⟩ ∧
        m = s.module.append f.site.block ⟨.concat, items.map Lowered.id, [], [.pack], loc⟩ ∧
        f.pack items loc s = .ok packed { s with module := m, log := s.log.push (.emit .concat loc) }) ∧
      ∀ e, f.site.concat (items.map Lowered.id) loc s.module = .error e →
        f.pack items loc s = .error (.invariant (.build e) none) s) := by
  refine ⟨⟨?_, ?_⟩, ?_, ?_, fun none => ⟨?_, ?_⟩⟩
  · rintro ⟨position, count, place, s', failed⟩
    have greatest := misplacedPack?_eq_some_iff.mp (misplacedPack?_of_pack failed).1
    exact ⟨position, greatest.1⟩
  · rintro ⟨i, misplaced⟩
    cases found : misplacedPack? items with
    | none => exact absurd misplaced (misplacedPack?_eq_none_iff_forall.mp found i)
    | some position => exact ⟨position, items.length, loc, s, pack_of_misplaced found⟩
  · intro position count place s' failed
    obtain ⟨found, same⟩ := misplacedPack?_of_pack failed
    exact ⟨misplacedPack?_eq_some_iff.mp found, same⟩
  · intro offset found
    refine ⟨?_, offset_add_two_le found⟩
    rw [misplacedPack?, found, Option.map_some]
  · intro packed m accepted
    obtain ⟨-, -, -, rfl, grown⟩ := ((f.site.places_concat loc _).eq_ok_iff s.module m packed).mp accepted
    exact ⟨rfl, grown, pack_of_accepted (misplacedPack?_eq_none_iff_forall.mpr none) accepted⟩
  · intro e refused
    exact pack_of_refused (misplacedPack?_eq_none_iff_forall.mpr none) refused

/-- The start of the script. -/
def scriptStart : Location := ⟨"main.lua", 1, 1⟩

/-- What `main` is lowered by. -/
def mainFrame : Frame := ⟨⟨.full, ⟨0⟩⟩, ⟨"main.lua", ""⟩, "main"⟩

/-- In the block of `main`, the single value `%0` and the pack `%1`. -/
def valueAndPack : LowerState :=
  .ofModule (.build [.addFunction "main" scriptStart, .addEntryBlock ⟨0⟩, .nil mainFrame.site scriptStart,
    .concat mainFrame.site [] scriptStart])

theorem pack_outcome_valueAndPack :
    mainFrame.pack [.pack ⟨⟨1⟩⟩, .value ⟨⟨0⟩⟩, .pack ⟨⟨1⟩⟩, .value ⟨⟨0⟩⟩] scriptStart valueAndPack =
      .error (.invariant (.misplacedPack 2 4) scriptStart) valueAndPack ∧
    mainFrame.pack [.value ⟨⟨0⟩⟩, .pack ⟨⟨1⟩⟩] scriptStart valueAndPack = .ok ⟨⟨2⟩⟩ { valueAndPack with
      module := valueAndPack.module.append ⟨0⟩ ⟨.concat, [⟨0⟩, ⟨1⟩], [], [.pack], scriptStart⟩
      log := valueAndPack.log.push (.emit .concat scriptStart) } := by
  constructor
  · have greatest : IsGreatest {i | Misplaced [.pack ⟨⟨1⟩⟩, .value ⟨⟨0⟩⟩, .pack ⟨⟨1⟩⟩, .value ⟨⟨0⟩⟩] i} 2 := by
      refine ⟨by decide, fun i misplaced => ?_⟩
      exact Nat.le_of_lt_succ (Nat.lt_of_succ_lt_succ misplaced.1)
    obtain ⟨fails, reported, -, -⟩ := pack_outcome mainFrame
      [.pack ⟨⟨1⟩⟩, .value ⟨⟨0⟩⟩, .pack ⟨⟨1⟩⟩, .value ⟨⟨0⟩⟩] scriptStart valueAndPack
    obtain ⟨position, count, place, s', failed⟩ := fails.mpr ⟨2, greatest.1⟩
    obtain ⟨greatest', rfl, rfl, rfl⟩ := reported position count place s' failed
    cases greatest'.unique greatest
    exact failed
  · have ordered : ∀ i, ¬ Misplaced [.value ⟨⟨0⟩⟩, .pack ⟨⟨1⟩⟩] i := by
      intro i misplaced
      obtain rfl : i = 0 := Nat.lt_one_iff.mp (Nat.lt_of_succ_lt_succ misplaced.1)
      exact absurd misplaced (by decide)
    obtain ⟨accepted, -⟩ := (pack_outcome mainFrame [.value ⟨⟨0⟩⟩, .pack ⟨⟨1⟩⟩] scriptStart valueAndPack).2.2.2 ordered
    exact (accepted _ _ rfl).2.2

end Frame
end LuaLowering
