import LuaLowering.Proofs.Handles
/-!
# Sessions

A session is a module together with the handles that were given out while it was built. Whoever keeps to one
catalogue and passes only handles of the session builds operations that conform to their kinds and stand after no
terminator (`Module.Regular`). What the checks can still find is how functions, blocks and uses of values are
arranged (`verify_structural`).
-/
namespace LuaLowering

structure Session where
  module : Module
  handles : List Lowered

namespace Session

def start : Session := ⟨.empty, []⟩

/-- The session after a call, whether it succeeds or not. -/
def after (s : Session) (k : Construction) : Session := ⟨k.after s.module, k.gives s.module ++ s.handles⟩

/-- Operations are placed from the catalogue, and only handles of the session are passed. -/
structure Permits (s : Session) (c : Catalogue) (k : Construction) : Prop where
  catalogue : ∀ site, k.site? = some site → site.catalogue = c
  handles : ∀ h ∈ k.takes, h ∈ s.handles

/-- Sessions that permitted calls lead to. -/
inductive Reached (c : Catalogue) : Session → Prop where
  | start : Reached c start
  | after {s : Session} {k : Construction} (reached : Reached c s) (permitted : s.Permits c k) : Reached c (s.after k)

end Session

/-- The error is about the arrangement of functions, blocks and uses, and not about the kind, the shape or the
place of an operation. -/
def VerifyError.Structural : VerifyError → Prop
  | .missingMain | .duplicateFunction _ | .emptyRegion _ | .entryBlockArguments .. | .missingTerminator .. => True
  | .op _ _ _ (.useBeforeDef _) => True
  | .terminatorNotLast .. | .op .. => False

namespace Module

/-! ## Regular modules -/

theorem type?_addArgument_of_lt {m : Module} {b : BlockId} {i : Nat} {type : ValueType} {v : ValueId}
    (inside : v.index < m.values.size) : (m.addArgument b i type).type? v = m.type? v := by
  rw [type?, value?_addArgument, if_neg (Nat.ne_of_lt inside), type?]

/-- Every operation is registered and conforms to its kind, and only the last one of a block may end it. -/
structure Regular (c : Catalogue) (m : Module) : Prop where
  linked : m.Linked
  registered : ∀ o op, m.op? o = some op → op.kind ∈ c.kinds
  conforms : ∀ o op, m.op? o = some op → m.Conforms op
  goesOn : ∀ b, ∀ op ∈ (m.blockOps b).dropLast, op.kind.definition.terminator = false

namespace Regular
variable {c : Catalogue} {m : Module}

theorem empty : Regular c .empty where
  linked := linked_empty
  registered _ _ found := absurd (op?_lt found) (Nat.not_lt_zero _)
  conforms _ _ found := absurd (op?_lt found) (Nat.not_lt_zero _)
  goesOn b op member := by simp [blockOps, block?, Module.empty] at member

/-- While a block is not ended, none of its operations is a terminator: all are registered, so the builder knows
them for what they are. -/
theorem terminator_eq_false (regular : Regular c m) {b : BlockId} {block : Block} (found : m.block? b = some block)
    (opened : m.isTerminated c block = false) {op : Operation} (member : op ∈ m.blockOps b) :
    op.kind.definition.terminator = false := by
  rcases List.eq_nil_or_concat' (m.blockOps b) with none | ⟨front, last, split⟩
  · rw [none] at member
    cases member
  · have goesOn := regular.goesOn b
    have back := regular.linked.ops.getLast?_blockOps found
    rw [split, List.dropLast_concat] at goesOn
    rw [split, List.getLast?_concat] at back
    rw [split] at member
    rcases List.mem_append.mp member with earlier | same
    · exact goesOn op earlier
    · rw [List.mem_singleton.mp same]
      obtain ⟨o, -, listed⟩ := Option.bind_eq_some_iff.mp back.symm
      simpa [isTerminated, ← back, Catalogue.endsBlock, Catalogue.get?, regular.registered o last listed] using opened

theorem append (regular : Regular c m) {b : BlockId} {block : Block} {d : Draft} (registered : d.kind ∈ c.kinds)
    (found : m.block? b = some block) (opened : m.isTerminated c block = false)
    (operands : ∀ v ∈ d.operands, v.index < m.values.size) (fits : d.Fits m) : Regular c (m.append b d) where
  linked := regular.linked.append found operands
  registered o op listed := by
    rw [op?_append] at listed
    split at listed
    · cases listed
      exact registered
    · exact regular.registered o op listed
  conforms _ _ := conforms_append regular.linked regular.conforms operands fits
  goesOn b' op member := by
    rw [regular.linked.ops.blockOps_append d found] at member
    split at member
    · rename_i same
      rw [List.dropLast_concat] at member
      exact regular.terminator_eq_false found opened (same ▸ member)
    · rw [List.append_nil] at member
      exact regular.goesOn b' op member

theorem addArgument (regular : Regular c m) {b : BlockId} {block : Block} (found : m.block? b = some block)
    (type : ValueType) : Regular c (m.addArgument b block.args.size type) where
  linked := regular.linked.addArgument found type
  registered := regular.registered
  conforms o op listed := by
    have kept {v : ValueId} : v.index < m.values.size →
        (m.addArgument b block.args.size type).type? v = m.type? v := type?_addArgument_of_lt
    have conforms := regular.conforms o op listed
    refine ⟨?_, ?_, conforms.attributes⟩
    · rw [List.map_congr_left fun v member => kept (regular.linked.operands.exist o op v listed member)]
      exact conforms.operands
    · rw [List.map_congr_left fun v member => kept (regular.linked.result_lt listed member)]
      exact conforms.results
  goesOn b' op member := by
    rw [blockOps_addArgument] at member
    exact regular.goesOn b' op member

theorem openBlock (regular : Regular c m) {r : RegionId} (free : m.region? r = some ⟨#[]⟩) :
    Regular c (m.openBlock r) where
  linked := regular.linked.openBlock free
  registered := regular.registered
  conforms o op listed := { regular.conforms o op listed with }
  goesOn b op member := by
    rw [blockOps_openBlock] at member
    exact regular.goesOn b op member

theorem pushFunction (regular : Regular c m) (f : Function) : Regular c (m.pushFunction f) where
  linked := regular.linked.pushFunction f
  registered := regular.registered
  conforms o op listed := { regular.conforms o op listed with }
  goesOn := regular.goesOn

theorem addFunction (regular : Regular c m) (name : String) (loc : Location) :
    Regular c (m.addFunction name loc).2 where
  linked := regular.linked.addFunction name loc
  registered := regular.registered
  conforms o op listed := { regular.conforms o op listed with }
  goesOn := regular.goesOn

end Regular

/-! ## What the checks find -/

section Errors
variable {c : Catalogue} {m : Module} {function : String}

/-- Of an operation that is registered, in its place and conforms to its kind, only operands that are not defined
before it are reported. -/
theorem verifyOp_eq_useBeforeDef {b : BlockId} {defined : List ValueId} {isLast : Bool} {op : Operation}
    (registered : op.kind ∈ c.kinds) (place : op.kind.definition.terminator = true → isLast = true)
    (conforms : m.Conforms op) : m.verifyOp c function b defined isLast op =
      (op.operands.filter (! defined.contains ·)).map fun v => .op function op.kind op.loc (.useBeforeDef v) := by
  have last : (op.kind.definition.terminator && ! isLast) = false := by
    cases ends : op.kind.definition.terminator with
    | false => rfl
    | true => rw [place ends]; rfl
  simp [verifyOp, Catalogue.get?, registered, last, opFaults, conforms.operands, conforms.results,
    conforms.attributes, Function.comp_def]

theorem verifyOps_structural {b : BlockId} {defined : List ValueId} {ops : List Operation}
    (fine : ∀ op ∈ ops, op.kind ∈ c.kinds ∧ m.Conforms op)
    (goesOn : ∀ op ∈ ops.dropLast, op.kind.definition.terminator = false) :
    ∀ e ∈ m.verifyOps c function b defined ops, e.Structural := by
  induction ops generalizing defined with
  | nil => simp [verifyOps]
  | cons op rest ih =>
    have place : op.kind.definition.terminator = true → rest.isEmpty = true := by
      intro ends
      cases rest with
      | nil => rfl
      | cons next rest =>
        rw [goesOn op (by simp)] at ends
        cases ends
    have later : ∀ op ∈ rest.dropLast, op.kind.definition.terminator = false := by
      cases rest with
      | nil => simp
      | cons next rest => exact fun op member => goesOn op (by simp [member])
    obtain ⟨registered, conforms⟩ := fine op (by simp)
    rw [verifyOps, verifyOp_eq_useBeforeDef registered place conforms]
    intro e member
    rcases List.mem_append.mp member with first | others
    · obtain ⟨v, -, rfl⟩ := List.mem_map.mp first
      trivial
    · exact ih (fun op member => fine op (by simp [member])) later e others

theorem Regular.verifyBlocks_structural (regular : Regular c m) {isEntry : Bool} {defined : List ValueId}
    {bs : List BlockId} : ∀ e ∈ m.verifyBlocks c function isEntry defined bs, e.Structural := by
  induction bs generalizing isEntry defined with
  | nil => simp [verifyBlocks]
  | cons b rest ih =>
    have fine : ∀ op ∈ m.blockOps b, op.kind ∈ c.kinds ∧ m.Conforms op := by
      intro op member
      obtain ⟨o, listed⟩ := mem_blockOps member
      exact ⟨regular.registered o op listed, regular.conforms o op listed⟩
    intro e member
    rw [verifyBlocks] at member
    split at member
    · rcases List.mem_cons.mp member with rfl | others
      · trivial
      · exact ih e others
    · simp only [List.mem_append, verifyBlock] at member
      rcases member with (entry | ending | ops) | others
      · split at entry
        · rw [List.mem_singleton.mp entry]
          trivial
        · cases entry
      · split at ending
        · cases ending
        · rw [List.mem_singleton.mp ending]
          trivial
      · exact verifyOps_structural fine (regular.goesOn b) e ops
      · exact ih e others

theorem duplicates_structural {seen : List String} {fs : List Function} : ∀ e ∈ duplicates seen fs, e.Structural := by
  induction fs generalizing seen with
  | nil => simp [duplicates]
  | cons f rest ih =>
    intro e member
    rcases List.mem_append.mp member with first | others
    · split at first
      · rw [List.mem_singleton.mp first]
        trivial
      · cases first
    · exact ih e others

theorem Regular.structural (regular : Regular c m) : ∀ e ∈ m.verify c, e.Structural := by
  intro e member
  simp only [verify, List.mem_append, List.mem_flatMap] at member
  rcases member with (duplicate | main) | ⟨f, -, inside⟩
  · exact duplicates_structural e duplicate
  · split at main
    · cases main
    · rw [List.mem_singleton.mp main]
      trivial
  · unfold verifyFunction at inside
    split at inside
    · rw [List.mem_singleton.mp inside]
      trivial
    · exact regular.verifyBlocks_structural e inside

end Errors
end Module

/-! ## Runs of sessions -/

namespace Session
open LuaLowering.Module (Regular)
variable {c : Catalogue}

/-- What a session keeps: a regular module, and handles that are typed in it. -/
structure Sound (c : Catalogue) (s : Session) : Prop where
  regular : Regular c s.module
  typed : ∀ h ∈ s.handles, h.Typed s.module

variable {m : Module} {handles : List Lowered}

theorem Sound.arrange (sound : Sound c ⟨m, handles⟩) {k : Construction} (other : k.site? = none) :
    Sound c ⟨k.after m, handles⟩ := by
  obtain ⟨regular, typed⟩ := sound
  cases k with
  | addFunction name loc =>
    exact ⟨regular.addFunction name loc, fun h member => (typed h member).of_type? fun _ _ => id⟩
  | pushFunction f =>
    exact ⟨regular.pushFunction f, fun h member => (typed h member).of_type? fun _ _ => id⟩
  | addEntryBlock r =>
    refine (Build.addEntryBlock_atomic r).after_of_ok (P := fun m => Sound c ⟨m, handles⟩) ⟨regular, typed⟩
      fun b m' success => ?_
    obtain ⟨free, -, rfl⟩ := Build.addEntryBlock_ok success
    exact ⟨regular.openBlock free, fun h member => (typed h member).of_type? fun _ _ => id⟩
  | addBlockArgument b type =>
    refine (Build.addBlockArgument_atomic b type).after_of_ok (P := fun m => Sound c ⟨m, handles⟩) ⟨regular, typed⟩
      fun v m' success => ?_
    obtain ⟨block, found, -, rfl⟩ := Build.addBlockArgument_ok success
    refine ⟨regular.addArgument found type, fun h member => (typed h member).of_type? fun v type' typed => ?_⟩
    rw [Module.type?_addArgument_of_lt (Module.type?_lt typed), typed]
  | _ => cases other

theorem Sound.place (sound : Sound c ⟨m, handles⟩) {site : Site} (same : site.catalogue = c) {m' : Module}
    {given : List Lowered} (placed : site.Placed m m' given) : Sound c ⟨m', given ++ handles⟩ := by
  cases placed with
  | refused => exact sound
  | accepted block d given registered found opened operands fits typed =>
    subst same
    refine ⟨sound.regular.append registered found opened operands fits, fun h member => ?_⟩
    rcases List.mem_append.mp member with new | old
    · exact typed h new
    · exact h.stable_typed _ _ _ (sound.typed h old)

theorem Sound.after {s : Session} (sound : Sound c s) {k : Construction} (permitted : s.Permits c k) :
    Sound c (s.after k) := by
  cases factory : k.site? with
  | none =>
    have none : k.gives s.module = [] := by cases k <;> simp [Construction.site?] at factory <;> rfl
    rw [Session.after, none]
    exact sound.arrange factory
  | some site =>
    have taken : ∀ h ∈ k.takes, h.Typed s.module := fun h member => sound.typed h (permitted.handles h member)
    exact sound.place (permitted.catalogue site factory) (k.placed factory taken)

theorem Reached.sound {s : Session} (reached : Reached c s) : Sound c s := by
  induction reached with
  | start => exact ⟨.empty, fun h member => by cases member⟩
  | after _ permitted ih => exact ih.after permitted

/-- In a session that keeps to one catalogue and to its own handles, the checks find no fault in the kind, the shape
or the place of an operation. -/
theorem verify_structural {s : Session} (reached : Reached c s) : ∀ e ∈ s.module.verify c, e.Structural :=
  reached.sound.regular.structural

theorem module_foldl_after (steps : List Construction) (s : Session) :
    (steps.foldl after s).module = s.module.extend steps := by
  induction steps generalizing s with
  | nil => rfl
  | cons k rest ih => exact ih (s.after k)

/-- Two functions of one name; the second uses a value of the first, and neither is ended. -/
def crossing (loc : Location) : List Construction :=
  [.addFunction "f" loc, .addEntryBlock ⟨0⟩, .concat ⟨.full, ⟨0⟩⟩ [] loc, .addFunction "f" loc, .addEntryBlock ⟨1⟩,
    .unpack ⟨.full, ⟨1⟩⟩ ⟨⟨0⟩⟩ 1 loc]

/-- A value of another function is reported, and with it only other faults of arrangement. -/
theorem verify_structural_crossing : ∃ (s : Session) (loc : Location), Reached .full s ∧
    s.module = Module.build (crossing loc) ∧ .op "f" .unpack loc (.useBeforeDef ⟨0⟩) ∈ s.module.verify .full ∧
    ∀ e ∈ s.module.verify .full, e.Structural := by
  let loc : Location := ⟨"main.lua", 1, 1⟩
  let s : Session := (crossing loc).foldl Session.after .start
  have reached : Reached .full s := by
    refine .after (.after (.after (.after (.after (.after .start ?_) ?_) ?_) ?_) ?_) ?_
    all_goals exact ⟨fun site found => by cases found <;> rfl, by decide⟩
  have built : s.module = Module.build (crossing loc) := module_foldl_after (crossing loc) .start
  have reported : .op "f" .unpack loc (.useBeforeDef ⟨0⟩) ∈ (Module.build (crossing loc)).verify .full := by
    decide +kernel
  exact ⟨s, loc, reached, built, built ▸ reported, verify_structural reached⟩

end Session
end LuaLowering
