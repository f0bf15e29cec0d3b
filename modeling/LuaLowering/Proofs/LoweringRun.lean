import LuaLowering.Proofs.Handles
/-!
# Runs of the lowering

The lowering of `main` works on a module whose only function is `main`, and appends operations that
pass the checks. `Frame.Sound` is the invariant of its states. `Frame.Safe` says of a lowering step that
it keeps the invariant and only appends operations, whether it succeeds or fails midway, and what holds of
its result; steps that are made one after the other are safe by `Safe.bind`.
-/
namespace LuaLowering

/-- The value of an item exists: a single value is a ref, and a pack is the result of a call. -/
def Lowered.Valid (m : Module) : Lowered → Prop
  | .value v => m.type? v.id = some .ref
  | .pack p => ∃ callee args loc, m.Gives p.id ⟨.call, [callee, args], [], [.pack], loc⟩

theorem Lowered.stable_valid (item : Lowered) : Module.Stable fun m => item.Valid m := by
  cases item with
  | value v => exact Module.stable_type? v.id .ref
  | pack p =>
    rintro m b d ⟨callee, args, loc, gives⟩
    exact ⟨callee, args, loc, Module.stable_gives _ _ m b d gives⟩

theorem Lowered.Valid.typed {m : Module} {item : Lowered} (valid : item.Valid m) : item.Typed m := by
  cases item with
  | value v => exact valid
  | pack p =>
    obtain ⟨callee, args, loc, gives⟩ := valid
    exact gives.type?_eq rfl

theorem Lowered.Valid.lt {m : Module} {item : Lowered} (valid : item.Valid m) : item.id.index < m.values.size := by
  cases item with
  | value v => exact Module.type?_lt valid.typed
  | pack p => exact Module.type?_lt valid.typed

namespace Frame
open LuaLowering.Module (Stable)

/-- The invariant of the states in which `main` is lowered. -/
structure Sound (f : Frame) (s : LowerState) : Prop where
  block : f.site.block = ⟨0⟩
  main : s.module.OnlyMain f.site.catalogue
  scope : ∀ name cell, s.scope.lookup name = some cell → s.module.IsCell name cell

/-- From one state to the next, operations are appended that do not end the block, and names keep
their cells. -/
structure Advance (s s' : LowerState) : Prop where
  grown : ∃ drafts, (∀ d ∈ drafts, d.kind.definition.terminator = false) ∧
    s'.module = s.module.appendAll ⟨0⟩ drafts
  scope : ∀ name cell, s.scope.lookup name = some cell → s'.scope.lookup name = some cell

theorem Advance.refl (s : LowerState) : Advance s s :=
  ⟨⟨[], by simp, rfl⟩, fun _ _ found => found⟩

theorem Advance.trans {s s' s'' : LowerState} (first : Advance s s') (second : Advance s' s'') : Advance s s'' := by
  obtain ⟨ds, goOn, grown⟩ := first.grown
  obtain ⟨es, goOn', grown'⟩ := second.grown
  refine ⟨⟨ds ++ es, ?_, ?_⟩, fun name cell found => second.scope name cell (first.scope name cell found)⟩
  · intro d member
    exact (List.mem_append.mp member).elim (goOn d) (goOn' d)
  · rw [Module.appendAll_append, ← grown, grown']

theorem Advance.stable {s s' : LowerState} (advance : Advance s s') {F : Module → Prop} (stable : Stable F)
    (holds : F s.module) : F s'.module := by
  obtain ⟨ds, -, grown⟩ := advance.grown
  exact grown ▸ stable.appendAll ⟨0⟩ ds holds

theorem Advance.opened {s s' : LowerState} (advance : Advance s s') (opened : s.module.Open) :
    s'.module.Open := by
  obtain ⟨ds, goOn, grown⟩ := advance.grown
  exact grown ▸ opened.appendAll goOn

/-- From a sound state in which `P` holds, a step leads to a sound state, whether it fails or not; it
only appends operations, and when it succeeds, `Q` holds of its result. -/
def Safe {α : Type} (f : Frame) (P : Module → Prop) (x : Lowering α) (Q : α → Module → Prop) : Prop :=
  ∀ s, f.Sound s → P s.module → match x s with
    | .ok a s' => f.Sound s' ∧ Advance s s' ∧ Q a s'.module
    | .error _ s' => f.Sound s' ∧ Advance s s'

theorem Safe.pure {α : Type} {f : Frame} {P : Module → Prop} {Q : α → Module → Prop} {a : α}
    (holds : ∀ m, P m → Q a m) : f.Safe P (Pure.pure a) Q :=
  fun s sound pre => ⟨sound, .refl s, holds _ pre⟩

theorem Safe.throw {α : Type} {f : Frame} {P : Module → Prop} {Q : α → Module → Prop} (e : LowerError) :
    f.Safe P (MonadExcept.throw e) Q :=
  fun s sound _ => ⟨sound, .refl s⟩

theorem Safe.bind {α β : Type} {f : Frame} {P : Module → Prop} {Q : α → Module → Prop} {R : β → Module → Prop}
    {x : Lowering α} {g : α → Lowering β} (first : f.Safe P x Q) (second : ∀ a, f.Safe (Q a) (g a) R) :
    f.Safe P (x >>= g) R := by
  intro s sound holds
  have before := first s sound holds
  simp only [Bind.bind, EStateM.bind]
  cases run : x s with
  | error e s' =>
    rw [run] at before
    exact before
  | ok a s' =>
    rw [run] at before
    have after := second a s' before.1 before.2.2
    simp only
    cases rest : g a s' with
    | error e s'' =>
      rw [rest] at after
      exact ⟨after.1, before.2.1.trans after.2⟩
    | ok b s'' =>
      rw [rest] at after
      exact ⟨after.1, before.2.1.trans after.2.1, after.2.2⟩

theorem Safe.weaken {α : Type} {f : Frame} {P P' : Module → Prop} {Q Q' : α → Module → Prop} {x : Lowering α}
    (safe : f.Safe P x Q) (pre : ∀ m, P' m → P m) (post : ∀ a m, Q a m → Q' a m) : f.Safe P' x Q' := by
  intro s sound holds
  have result := safe s sound (pre _ holds)
  cases run : x s with
  | error e s' =>
    rw [run] at result
    exact result
  | ok a s' =>
    rw [run] at result
    exact ⟨result.1, result.2.1, post a _ result.2.2⟩

theorem Safe.pre {α : Type} {f : Frame} {P P' : Module → Prop} {Q : α → Module → Prop} {x : Lowering α}
    (safe : f.Safe P x Q) (pre : ∀ m, P' m → P m) : f.Safe P' x Q :=
  safe.weaken pre fun _ _ holds => holds

theorem Safe.post {α : Type} {f : Frame} {P : Module → Prop} {Q Q' : α → Module → Prop} {x : Lowering α}
    (safe : f.Safe P x Q) (post : ∀ a m, Q a m → Q' a m) : f.Safe P x Q' :=
  safe.weaken (fun _ holds => holds) post

/-- What no operation takes away still holds after a step. -/
theorem Safe.frame {α : Type} {f : Frame} {P F : Module → Prop} {Q : α → Module → Prop} {x : Lowering α}
    (safe : f.Safe P x Q) (stable : Stable F) : f.Safe (fun m => P m ∧ F m) x fun a m => Q a m ∧ F m := by
  intro s sound holds
  have result := safe s sound holds.1
  cases run : x s with
  | error e s' =>
    rw [run] at result
    exact result
  | ok a s' =>
    rw [run] at result
    exact ⟨result.1, result.2.1, result.2.2, result.2.1.stable stable holds.2⟩

/-- A step that needs nothing, made where something holds that no operation takes away. -/
theorem Safe.keep {α : Type} {f : Frame} {F : Module → Prop} {Q : α → Module → Prop} {x : Lowering α}
    (safe : f.Safe (fun _ => True) x Q) (stable : Stable F) : f.Safe F x fun a m => Q a m ∧ F m :=
  (safe.frame stable).pre fun _ holds => ⟨trivial, holds⟩

theorem Safe.note {f : Frame} {P : Module → Prop} (e : Event) : f.Safe P (Lowering.note e) fun _ => P :=
  fun s sound holds => ⟨⟨sound.block, sound.main, sound.scope⟩, ⟨⟨[], by simp, rfl⟩, fun _ _ found => found⟩, holds⟩

theorem bind_ok {α β : Type} {x : Lowering α} {g : α → Lowering β} {s s' : LowerState} {b : β}
    (success : (x >>= g) s = .ok b s') : ∃ a t, x s = .ok a t ∧ g a t = .ok b s' := by
  simp only [Bind.bind, EStateM.bind] at success
  cases run : x s with
  | error e t =>
    rw [run] at success
    cases success
  | ok a t =>
    rw [run] at success
    exact ⟨a, t, rfl, success⟩

theorem Safe.ok {α : Type} {f : Frame} {P : Module → Prop} {x : Lowering α} {Q : α → Module → Prop}
    {s s' : LowerState} {a : α} (safe : f.Safe P x Q) (sound : f.Sound s) (holds : P s.module)
    (run : x s = .ok a s') :
    f.Sound s' ∧ Advance s s' ∧ Q a s'.module := by
  have result := safe s sound holds
  rw [run] at result
  exact result

end Frame

theorem Lowering.get_run (s : LowerState) : (get : Lowering LowerState) s = .ok s s := rfl

theorem Lowering.modify_run (change : LowerState → LowerState) (s : LowerState) :
    (modify change : Lowering PUnit) s = .ok () (change s) := rfl

theorem Lowering.emit_run {α : Type} (kind : OpKind) (loc : Location) {step : Build α} (atomic : step.Atomic)
    (s : LowerState) : Lowering.emit kind loc step s = match step s.module with
      | .ok (a, m) => .ok a { s with module := m, log := s.log.push (.emit kind loc) }
      | .error e => .error (.invariant (.build e) none) s := by
  simp only [emit, Bind.bind, EStateM.bind, Lowering.build, atomic.run_eq]
  cases step s.module with
  | error e => rfl
  | ok pair => rfl

namespace Frame
open LuaLowering.Module (Stable)

theorem Sound.append {f : Frame} {s : LowerState} (sound : f.Sound s) (opened : s.module.Open) {d : Draft}
    (registered : d.kind ∈ f.site.catalogue.kinds) (operands : ∀ v ∈ d.operands, v.index < s.module.values.size)
    (fits : d.Fits s.module) (log : Array Event) : f.Sound ⟨s.module.append ⟨0⟩ d, s.scope, log⟩ where
  block := sound.block
  main := sound.main.append opened registered operands fits
  scope name cell found := Module.stable_isCell name cell _ _ _ (sound.scope name cell found)

/-- In a sound state, an operation is placed exactly when its kind is registered, no operation ends the
block yet and its operands exist. -/
theorem Sound.places_iff {α : Type} {f : Frame} {s : LowerState} (sound : f.Sound s) {d : Draft} {step : Build α}
    {handle : Module → α} (places : f.site.Places d step handle) (m' : Module) (a : α) :
    step s.module = .ok (a, m') ↔ d.kind ∈ f.site.catalogue.kinds ∧ s.module.Open ∧
      (∀ v ∈ d.operands, v.index < s.module.values.size) ∧ a = handle s.module ∧ m' = s.module.append ⟨0⟩ d := by
  rw [places.eq_ok_iff, sound.block, ← sound.main.isTerminated_eq_false_iff]
  simp [sound.main.block?_zero]

theorem emit_safe {α : Type} {f : Frame} {P : Module → Prop} {kind : OpKind} {loc : Location} {d : Draft}
    {step : Build α} {handle : Module → α} (places : f.site.Places d step handle)
    (goesOn : d.kind.definition.terminator = false) (fits : ∀ m, P m → d.Fits m) :
    f.Safe P (Lowering.emit kind loc step) fun a m' => ∃ m, P m ∧ a = handle m ∧ m' = m.append ⟨0⟩ d := by
  intro s sound holds
  rw [Lowering.emit_run _ _ places.atomic]
  cases made : step s.module with
  | error e => exact ⟨sound, .refl s⟩
  | ok pair =>
    obtain ⟨a, m'⟩ := pair
    obtain ⟨registered, opened, operands, rfl, rfl⟩ := (sound.places_iff places m' a).mp made
    refine ⟨sound.append opened registered operands (fits _ holds) _, ⟨⟨[d], ?_, rfl⟩, fun _ _ found => found⟩,
      s.module, holds, rfl, rfl⟩
    simpa using goesOn

/-- An operation with one result. -/
theorem emit_one_safe {α : Type} {f : Frame} {P : Module → Prop} {kind : OpKind} {loc : Location} {d : Draft}
    {step : Build α} {g : ValueId → α} (places : f.site.Places d step fun m => g ⟨m.values.size⟩)
    (goesOn : d.kind.definition.terminator = false) (fits : ∀ m, P m → d.Fits m) {type : ValueType}
    (one : d.results = [type]) :
    f.Safe P (Lowering.emit kind loc step) fun a m => ∃ v, a = g v ∧ m.Gives v d := by
  refine (emit_safe places goesOn fits).post ?_
  rintro a _ ⟨m, -, rfl, rfl⟩
  exact ⟨_, rfl, Module.gives_append m ⟨0⟩ one⟩

/-- A placed operation stands at the end of the module. -/
theorem emit_ok {α : Type} {f : Frame} {s s' : LowerState} {kind : OpKind} {loc : Location} {d : Draft}
    {step : Build α} {handle : Module → α} {a : α} (main : f.site.block = ⟨0⟩) (places : f.site.Places d step handle)
    (success : Lowering.emit kind loc step s = .ok a s') :
    a = handle s.module ∧ s'.module = s.module.append ⟨0⟩ d ∧ s'.scope = s.scope := by
  rw [Lowering.emit_run _ _ places.atomic] at success
  cases made : step s.module with
  | error e =>
    rw [made] at success
    cases success
  | ok pair =>
    obtain ⟨a', m'⟩ := pair
    rw [made] at success
    cases success
    obtain ⟨-, -, -, rfl, rfl⟩ := (places.eq_ok_iff s.module m' _).mp made
    exact ⟨rfl, by rw [main], rfl⟩

end Frame
end LuaLowering
