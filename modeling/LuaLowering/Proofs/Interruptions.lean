import LuaLowering.Proofs.LoweringSteps
/-!
# Interrupted lowering

A function may be built step by step: factories, names, packs, expressions, statements and blocks in any order. A
step that fails midway is not undone, so its operations and cells stay. Nothing is broken by this: as long as only
handles are passed that the steps gave out, the module lacks at most the return at its end (`verify_of_reached`).
-/
namespace LuaLowering
namespace Frame
open Lowering Syntax

/-- A step that is made through an open function. -/
inductive Step where
  | place (k : Construction)
  | resolve (name : String) (loc : Location)
  | pack (items : List Lowered) (loc : Location)
  | unpack (pack : Pack) (count : Nat) (loc : Location)
  | adjustToOne (item : Lowered) (loc : Location)
  | exp (e : Exp)
  | exps (es : List Exp)
  | stat (stat : Stat)
  | block (block : Syntax.Block)
  | finish (loc : Location)

namespace Step

/-- The handles that a step takes. -/
def takes : Step → List Lowered
  | .place k => k.takes
  | .pack items _ => items
  | .unpack p _ _ => [.pack p]
  | .adjustToOne item _ => [item]
  | _ => []

/-- Make a step and give out its handles. A factory that fails gives out none. -/
def run (f : Frame) : Step → Lowering (List Lowered)
  | .place k => fun s => .ok (k.gives s.module) { s with module := k.after s.module }
  | .resolve name loc => return [.value (← f.resolve name loc)]
  | .pack items loc => return [.pack (← f.pack items loc)]
  | .unpack p count loc => return (← f.unpack p count loc).map .value
  | .adjustToOne item loc => return [.value (← f.adjustToOne item loc)]
  | .exp e => return [← f.lowerExp e]
  | .exps es => f.lowerExps es
  | .stat st => do f.lowerStat st; return []
  | .block b => do f.lowerBlock b; return []
  | .finish loc => do f.finish loc; return []

end Step

/-- Factories are called at the end of the function's block, and only handles are passed that were given out. -/
structure Permits (f : Frame) (handles : List Lowered) (step : Step) : Prop where
  site : ∀ k, step = .place k → k.site? = some f.site
  handles : ∀ h ∈ step.takes, h ∈ handles

/-- The states that permitted steps lead to, with the handles given out on the way. A step that fails leaves the
state in which it failed. -/
inductive Reached (f : Frame) (start : LowerState) : LowerState → List Lowered → Prop where
  | start : Reached f start start []
  | ok {s s' : LowerState} {handles given : List Lowered} {step : Step} (reached : Reached f start s handles)
      (permitted : f.Permits handles step) (run : step.run f s = .ok given s') :
      Reached f start s' (given ++ handles)
  | error {s s' : LowerState} {handles : List Lowered} {step : Step} {e : LowerError}
      (reached : Reached f start s handles) (permitted : f.Permits handles step) (run : step.run f s = .error e s') :
      Reached f start s' handles

/-- From a sound state in which `P` holds, a step leads to a sound state, whether it fails or not; handles stay typed,
and those that it gives out are typed. Other than `Safe`, this allows for the return at the end. -/
def Keeps (f : Frame) (P : Module → Prop) (x : Lowering (List Lowered)) : Prop :=
  ∀ s, f.Sound s → P s.module → match x s with
    | .ok given s' => f.Sound s' ∧ (∀ h : Lowered, h.Typed s.module → h.Typed s'.module) ∧
        ∀ h ∈ given, h.Typed s'.module
    | .error _ s' => f.Sound s' ∧ ∀ h : Lowered, h.Typed s.module → h.Typed s'.module

variable {f : Frame}

theorem Safe.keeps {P : Module → Prop} {x : Lowering (List Lowered)}
    (safe : f.Safe P x fun given m => ∀ h ∈ given, h.Typed m) : f.Keeps P x := by
  intro s sound holds
  have result := safe s sound holds
  cases run : x s with
  | ok given s' =>
    rw [run] at result
    exact ⟨result.1, fun h => result.2.1.stable h.stable_typed, result.2.2⟩
  | error e s' =>
    rw [run] at result
    exact ⟨result.1, fun h => result.2.stable h.stable_typed⟩

theorem Safe.keeps_map {α : Type} {P : Module → Prop} {Q : α → Module → Prop} {x : Lowering α}
    {given : α → List Lowered} (safe : f.Safe P x Q) (typed : ∀ a m, Q a m → ∀ h ∈ given a, h.Typed m) :
    f.Keeps P (x >>= fun a => Pure.pure (given a)) :=
  (Safe.bind safe fun a => .pure (typed a)).keeps

/-- A factory at the end of the block. -/
theorem place_keeps {k : Construction} (factory : k.site? = some f.site) :
    f.Keeps (fun m => ∀ h ∈ k.takes, h.Typed m) (Step.run f (.place k)) := by
  intro s sound typed
  have placed := k.placed factory typed
  simp only [Step.run]
  generalize k.after s.module = m' at placed
  generalize k.gives s.module = given at placed
  cases placed with
  | refused => exact ⟨sound, fun h typed => typed, by simp⟩
  | accepted block d given registered found opened operands fits typed =>
    rw [sound.block] at found typed ⊢
    rw [sound.main.block?_zero] at found
    cases found
    have unended := sound.main.isTerminated_eq_false_iff.mp opened
    exact ⟨sound.append unended registered operands fits _, fun h => h.stable_typed _ _ _, typed⟩

/-- The return at the end of the function. -/
theorem finish_keeps (loc : Location) : f.Keeps (fun _ => True) (Step.run f (.finish loc)) := by
  intro s sound _
  simp only [Step.run, finish, bind, EStateM.bind, emit_run _ _ (f.site.places_ret loc).atomic]
  cases made : f.site.ret loc s.module with
  | error e => exact ⟨sound, fun h typed => typed⟩
  | ok pair =>
    obtain ⟨_, m'⟩ := pair
    obtain ⟨registered, opened, operands, -, rfl⟩ := (sound.places_iff (f.site.places_ret loc) m' _).mp made
    exact ⟨sound.append opened registered operands (Draft.fits_ret _ loc) _, fun h => h.stable_typed _ _ _, by simp⟩

theorem step_keeps {step : Step} (site : ∀ k, step = .place k → k.site? = some f.site) :
    f.Keeps (fun m => ∀ h ∈ step.takes, h.Typed m) (step.run f) := by
  cases step with
  | place k => exact place_keeps (site k rfl)
  | resolve name loc =>
    refine ((resolve_safe f name loc).pre fun _ _ => trivial).keeps_map fun cell m isCell h member => ?_
    rw [List.mem_singleton.mp member]
    exact isCell.type?_eq
  | pack items loc =>
    refine ((pack_safe f items loc).pre fun _ _ => trivial).keeps_map fun p m isPack h member => ?_
    rw [List.mem_singleton.mp member]
    exact isPack
  | unpack p count loc =>
    refine ((unpack_safe f p count loc).pre fun m typed => typed (.pack p) (by simp [Step.takes])).keeps_map
      fun values m isRef h member => ?_
    obtain ⟨v, listed, rfl⟩ := List.mem_map.mp member
    exact isRef v listed
  | adjustToOne item loc =>
    refine ((adjustToOne_safe f item loc).pre fun m typed => typed item (by simp [Step.takes])).keeps_map
      fun v m isRef h member => ?_
    rw [List.mem_singleton.mp member]
    exact isRef
  | exp e =>
    refine ((lowerExp_safe f e).pre fun _ _ => trivial).keeps_map fun item m valid h member => ?_
    rw [List.mem_singleton.mp member]
    exact valid.typed
  | exps es =>
    refine Safe.keeps (((lowerExps_safe f es).pre fun _ _ => trivial).post fun items m valid h member => ?_)
    exact (valid h member).typed
  | stat stat => exact ((lowerStat_safe f stat).pre fun _ _ => trivial).keeps_map (by simp)
  | block block => exact ((lowerBlock_safe f block).pre fun _ _ => trivial).keeps_map (by simp)
  | finish loc => exact fun s sound _ => finish_keeps loc s sound trivial

/-- What the steps keep: the state is sound, and the handles are typed. -/
theorem Reached.sound {start s : LowerState} {handles : List Lowered} (reached : f.Reached start s handles)
    (sound : f.Sound start) : f.Sound s ∧ ∀ h ∈ handles, h.Typed s.module := by
  induction reached with
  | start => exact ⟨sound, by simp⟩
  | ok _ permitted run ih =>
    have kept := step_keeps permitted.site _ ih.1 fun h member => ih.2 h (permitted.handles h member)
    rw [run] at kept
    refine ⟨kept.1, fun h member => ?_⟩
    rcases List.mem_append.mp member with new | old
    · exact kept.2.2 h new
    · exact kept.2.1 h (ih.2 h old)
  | error _ permitted run ih =>
    have kept := step_keeps permitted.site _ ih.1 fun h member => ih.2 h (permitted.handles h member)
    rw [run] at kept
    exact ⟨kept.1, fun h member => kept.2 h (ih.2 h member)⟩

end Frame

/-- Of all kinds, only the return ends a block. -/
theorem OpKind.terminator_eq (kind : OpKind) : kind.definition.terminator = (kind = .ret : Bool) := by
  cases kind <;> rfl

namespace Module.OnlyMain
variable {c : Catalogue} {m : Module}

theorem entryBlock?_main (main : OnlyMain c m) : m.entryBlock? "main" = some ⟨0⟩ := by
  obtain ⟨loc, functions⟩ := main.functions
  simp [entryBlock?, function?, functions, region?, main.regions]

/-- The block of `main` passes the checks once its last operation is a return. -/
theorem verify_eq_ite (main : OnlyMain c m) :
    m.verify c = if (m.blockOps ⟨0⟩).getLast?.any (·.kind = .ret) then [] else [.missingTerminator "main" ⟨0⟩] := by
  have same : (m.ops.toList.getLast?.any fun op => c.endsBlock op.kind) =
      m.ops.toList.getLast?.any (·.kind = .ret) := by
    cases last : m.ops.toList.getLast? with
    | none => rfl
    | some op =>
      obtain ⟨i, listed⟩ := List.getElem?_of_mem (List.mem_of_getLast? last)
      have found : m.op? ⟨i⟩ = some op := by simpa [op?] using listed
      simp [Catalogue.endsBlock, Catalogue.get?, main.registered _ op found, OpKind.terminator_eq]
  rw [main.verify_eq, main.blockOps_zero, same]

end Module.OnlyMain

/-- A function `main` can always be opened in an empty module. Whatever steps are then made in it, and whichever of
them fail midway: the module passes the checks when its last operation is a return, and otherwise lacks just that. -/
theorem Frame.verify_of_reached (c : Catalogue) (source : Source) (loc : Location) :
    ∃ (f : Frame) (start : LowerState),
      Lowering.openFunction c source "main" loc (.ofModule .empty) = .ok f start ∧
      ∀ (s : LowerState) (handles : List Lowered), f.Reached start s handles →
        ∃ b, s.module.entryBlock? "main" = some b ∧ s.module.verify c =
          if (s.module.blockOps b).getLast?.any (·.kind = .ret) then [] else [.missingTerminator "main" b] := by
  refine ⟨_, _, Lowering.openFunction_main c source loc, fun s handles reached => ?_⟩
  obtain ⟨sound, -⟩ := reached.sound (sound_ofMain source c loc)
  exact ⟨⟨0⟩, sound.main.entryBlock?_main, sound.main.verify_eq_ite⟩

/-- The expression `g(nil, false)`, which is refused at its last argument. -/
def Syntax.Exp.refusedCall : Exp :=
  ⟨.prefixExp ⟨.var ⟨.name "g", [], none⟩, [⟨none, .list [⟨.nil, none⟩, ⟨.false, none⟩], none⟩]⟩, none⟩

/-- A call that is refused leaves a cell and a nil behind; a pack of that cell and a return can follow. -/
theorem Frame.verify_of_reached_refusedCall : ∃ (f : Frame) (start s : LowerState) (handles : List Lowered),
    Lowering.openFunction .full ⟨"main.lua", ""⟩ "main" ⟨"main.lua", 1, 1⟩ (.ofModule .empty) = .ok f start ∧
    f.Reached start s handles ∧ s.module.ops.toList.map (·.kind) = [.getOrAlloc, .nil, .concat, .ret] ∧
    s.module.verify .full = [] := by
  obtain ⟨f, start, opened, checked⟩ := verify_of_reached .full ⟨"main.lua", ""⟩ ⟨"main.lua", 1, 1⟩
  rw [Lowering.openFunction_main] at opened
  cases opened
  let f : Frame := .ofMain ⟨"main.lua", ""⟩ .full
  have site {step : Step} (other : ∀ k, step ≠ .place k) (k : Construction) (same : step = .place k) :
      k.site? = some f.site := absurd same (other k)
  have begun : f.Reached (.ofMain ⟨"main.lua", 1, 1⟩) (.ofMain ⟨"main.lua", 1, 1⟩) [] := .start
  have call : f.Permits [] (.exp .refusedCall) := ⟨site (by simp), by simp [Step.takes]⟩
  have refused := Reached.error begun call rfl
  have name : f.Permits [] (.resolve "g" ⟨"main.lua", 1, 1⟩) := ⟨site (by simp), by simp [Step.takes]⟩
  have resolved := Reached.ok refused name rfl
  have pack : f.Permits [.value ⟨⟨0⟩⟩] (.pack [.value ⟨⟨0⟩⟩] ⟨"main.lua", 1, 1⟩) :=
    ⟨site (by simp), by simp [Step.takes]⟩
  have packed := Reached.ok resolved pack rfl
  have finish : f.Permits [.pack ⟨⟨2⟩⟩, .value ⟨⟨0⟩⟩] (.finish ⟨"main.lua", 1, 1⟩) :=
    ⟨site (by simp), by simp [Step.takes]⟩
  obtain ⟨sound, -⟩ := packed.sound (sound_ofMain _ _ _)
  obtain ⟨log, ran⟩ := finish_run sound (sound.main.isTerminated_eq_false_iff.mp rfl) (by decide) ⟨"main.lua", 1, 1⟩
  have finished := Reached.ok packed finish (by
    simp only [Step.run, bind, EStateM.bind, ran]
    rfl)
  obtain ⟨b, entry, fine⟩ := checked _ _ finished
  cases entry
  exact ⟨_, _, _, _, rfl, finished, rfl, fine⟩

end LuaLowering
