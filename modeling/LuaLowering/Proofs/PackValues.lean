import LuaLowering.Proofs.PackContents
/-!
# Packs at run time

What is known about packs without running anything holds in every run. A `Valuation` says what a run puts into the
values of a module: one Lua value into a ref, a finite list of them into a pack. It respects the module when packs are
filled and taken apart as the operations say. `packContents` and `resolveUnpacked` are right about every such
valuation, and they know nothing only where a pack comes from something other than a concat
(`resolveUnpacked_sound`).

Handles are not checked when an operation is placed, so operands may be of any type; what a module owes to the
factories alone is the number of operands and the types of results (`Module.Arranged`).
-/
namespace LuaLowering

universe u

theorem mapM_congr {α β : Type} {g h : α → Option β} {l : List α} (same : ∀ a ∈ l, g a = h a) :
    l.mapM g = l.mapM h := by
  induction l with
  | nil => rfl
  | cons x rest ih =>
    rw [List.mapM_cons, List.mapM_cons, same x (by simp), ih fun a member => same a (by simp [member])]

theorem mapM_cons_eq_some {α β : Type} {g : α → Option β} {a : α} {l : List α} {ks : List β}
    (known : (a :: l).mapM g = some ks) : ∃ k rest, g a = some k ∧ l.mapM g = some rest ∧ ks = k :: rest := by
  rw [List.mapM_cons] at known
  obtain ⟨k, first, known⟩ := Option.bind_eq_some_iff.mp known
  obtain ⟨rest, others, known⟩ := Option.bind_eq_some_iff.mp known
  cases known
  exact ⟨k, rest, first, others, rfl⟩

theorem mapM_eq_none_iff {α β : Type} {g : α → Option β} {l : List α} : l.mapM g = none ↔ ∃ a ∈ l, g a = none := by
  constructor
  · intro unknown
    induction l with
    | nil => cases unknown
    | cons x rest ih =>
      cases first : g x with
      | none => exact ⟨x, by simp, first⟩
      | some b =>
        cases others : rest.mapM g with
        | none =>
          obtain ⟨a, member, missing⟩ := ih others
          exact ⟨a, by simp [member], missing⟩
        | some ks =>
          rw [List.mapM_cons, first, others] at unknown
          cases unknown
  · rintro ⟨a, member, unknown⟩
    exact mapM_eq_none_of_mem member unknown

/-- Lists that are found one by one, of which each is right, are right one after the other. -/
theorem flatMap_of_mapM {α β : Type} {γ : Type u} {g : α → Option (List β)} {elements : α → List γ} {r : β → γ}
    {l : List α} {parts : List (List β)} (known : l.mapM g = some parts)
    (right : ∀ a ∈ l, ∀ part, g a = some part → elements a = part.map r) :
    l.flatMap elements = parts.flatten.map r := by
  induction l generalizing parts with
  | nil =>
    cases known
    rfl
  | cons a rest ih =>
    obtain ⟨part, others, first, found, rfl⟩ := mapM_cons_eq_some known
    rw [List.flatMap_cons, List.flatten_cons, List.map_append, right a (by simp) part first,
      ih found fun b member => right b (by simp [member])]

theorem mem_flatten_of_mapM {α β : Type} {g : α → Option (List β)} {l : List α} {parts : List (List β)} {b : β}
    (known : l.mapM g = some parts) (member : b ∈ parts.flatten) : ∃ a ∈ l, ∃ part, g a = some part ∧ b ∈ part := by
  induction l generalizing parts with
  | nil =>
    cases known
    cases member
  | cons a rest ih =>
    obtain ⟨part, others, first, found, rfl⟩ := mapM_cons_eq_some known
    rw [List.flatten_cons, List.mem_append] at member
    rcases member with inside | inside
    · exact ⟨a, by simp, part, first, inside⟩
    · obtain ⟨a', among, part', first', inside⟩ := ih found inside
      exact ⟨a', by simp [among], part', first', inside⟩

/-! ## Operations as the factories place them -/

/-- The number of operands is one that the shape asks for. -/
def OperandShape.Counts : OperandShape → Nat → Prop
  | .fixed wanted, count => count = wanted.length
  | .variadic _, _ => True

/-- The types are those that the shape asks for. -/
def ResultShape.Allows : ResultShape → List ValueType → Prop
  | .fixed wanted, types => types = wanted
  | .variadic wanted, types => ∀ type ∈ types, type = wanted

/-- The number of operands and the types of the results are as the definition of the kind says. -/
structure Draft.Arranged (d : Draft) : Prop where
  operands : d.kind.definition.operands.Counts d.operands.length
  results : d.kind.definition.results.Allows d.results

namespace Module

/-- Every operation has as many operands and such results as the definition of its kind says. -/
structure Arranged (m : Module) : Prop where
  operands : ∀ o op, m.op? o = some op → op.kind.definition.operands.Counts op.operands.length
  results : ∀ o op, m.op? o = some op →
    ∃ types, op.kind.definition.results.Allows types ∧ op.results.map m.type? = types.map some

variable {m : Module}

/-- Operations stay arranged while values keep their types. -/
theorem Arranged.of_same_ops {m' : Module} (arranged : m.Arranged) (linked : m.Linked)
    (ops : ∀ o, m'.op? o = m.op? o) (types : ∀ v, v.index < m.values.size → m'.type? v = m.type? v) :
    m'.Arranged where
  operands o op found := arranged.operands o op (ops o ▸ found)
  results o op found := by
    have before : m.op? o = some op := ops o ▸ found
    obtain ⟨wanted, allowed, typed⟩ := arranged.results o op before
    refine ⟨wanted, allowed, ?_⟩
    rw [← typed]
    apply List.map_congr_left
    intro v member
    exact types v (linked.result_lt before member)

theorem Arranged.append (arranged : m.Arranged) (linked : m.Linked) (b : BlockId) {d : Draft} (new : d.Arranged) :
    (m.append b d).Arranged where
  operands o op found := by
    rw [op?_append] at found
    split at found
    · cases found
      exact new.operands
    · exact arranged.operands o op found
  results o op found := by
    rw [op?_append] at found
    split at found
    · cases found
      exact ⟨d.results, new.results, type?_append_resultIds b d⟩
    · obtain ⟨wanted, allowed, typed⟩ := arranged.results o op found
      refine ⟨wanted, allowed, ?_⟩
      rw [← typed]
      apply List.map_congr_left
      intro v member
      exact type?_append_of_lt (linked.result_lt found member)

theorem Arranged.places {α : Type} {site : Site} {d : Draft} {step : Build α} {handle : Module → α}
    (arranged : m.Arranged) (linked : m.Linked) (places : site.Places d step handle) (new : d.Arranged) :
    (step.after m).Arranged := by
  apply places.atomic.after_of_ok arranged
  intro a m' success
  obtain ⟨-, -, -, -, rfl⟩ := (places.eq_ok_iff m m' a).mp success
  exact arranged.append linked site.block new

/-- Whatever its arguments are, a call of the construction interface leaves operations arranged. -/
theorem Arranged.after (arranged : m.Arranged) (linked : m.Linked) (k : Construction) : (k.after m).Arranged := by
  cases k with
  | addFunction name loc => exact ⟨arranged.operands, arranged.results⟩
  | pushFunction f => exact ⟨arranged.operands, arranged.results⟩
  | addEntryBlock r =>
    apply (Build.addEntryBlock_atomic r).after_of_ok arranged
    intro b m' success
    obtain ⟨-, -, rfl⟩ := Build.addEntryBlock_ok success
    exact ⟨arranged.operands, arranged.results⟩
  | addBlockArgument b type =>
    apply (Build.addBlockArgument_atomic b type).after_of_ok arranged
    intro v m' success
    obtain ⟨block, -, -, rfl⟩ := Build.addBlockArgument_ok success
    refine arranged.of_same_ops linked (fun _ => rfl) fun v inside => ?_
    rw [type?, value?_addArgument, if_neg (Nat.ne_of_lt inside), type?]
  | nil site loc => exact arranged.places linked (site.places_nil loc) ⟨rfl, rfl⟩
  | number site n loc => exact arranged.places linked (site.places_number loc n) ⟨rfl, rfl⟩
  | getOrAlloc site name loc => exact arranged.places linked (site.places_getOrAlloc loc name) ⟨rfl, rfl⟩
  | concat site items loc => exact arranged.places linked (site.places_concat loc items) ⟨trivial, rfl⟩
  | unpack site pack count loc =>
    exact arranged.places linked (site.places_unpack loc pack count) ⟨rfl, fun _ => List.eq_of_mem_replicate⟩
  | assign site target value loc => exact arranged.places linked (site.places_assign loc target value) ⟨rfl, rfl⟩
  | call site callee args loc => exact arranged.places linked (site.places_call loc callee args) ⟨rfl, rfl⟩
  | ret site loc => exact arranged.places linked (site.places_ret loc) ⟨rfl, rfl⟩

theorem Arranged.extend (arranged : m.Arranged) (linked : m.Linked) (steps : List Construction) :
    (m.extend steps).Arranged := by
  induction steps generalizing m with
  | nil => exact arranged
  | cons k rest ih => exact ih (arranged.after linked k) (linked.change (k.after_change m))

theorem build_arranged (steps : List Construction) : (build steps).Arranged :=
  Arranged.extend ⟨by simp [op?, empty], by simp [op?, empty]⟩ linked_empty steps

theorem Arranged.unpack_operands (arranged : m.Arranged) {o : OpId} {op : Operation} (found : m.op? o = some op)
    (unpack : op.kind = .unpack) : ∃ pack, op.operands = [pack] := by
  have one := arranged.operands o op found
  rw [unpack] at one
  exact List.length_eq_one_iff.mp one

theorem Arranged.unpack_type? (arranged : m.Arranged) {o : OpId} {op : Operation} (found : m.op? o = some op)
    (unpack : op.kind = .unpack) {v : ValueId} (member : v ∈ op.results) : m.type? v = some .ref := by
  obtain ⟨types, allowed, typed⟩ := arranged.results o op found
  rw [unpack] at allowed
  have listed := List.mem_map_of_mem (f := m.type?) member
  rw [typed] at listed
  obtain ⟨type, inside, same⟩ := List.mem_map.mp listed
  rw [← same, allowed type inside]

theorem Arranged.concat_type? (arranged : m.Arranged) {o : OpId} {op : Operation} (found : m.op? o = some op)
    (concat : op.kind = .concat) {v : ValueId} (member : v ∈ op.results) : m.type? v = some .pack := by
  obtain ⟨types, allowed, typed⟩ := arranged.results o op found
  rw [concat] at allowed
  have listed := List.mem_map_of_mem (f := m.type?) member
  rw [typed, allowed] at listed
  simpa using listed

/-! ## Contents, inside out -/

/-- A pack, or one that a concat puts into it, at any depth. -/
inductive Nested (m : Module) : ValueId → ValueId → Prop where
  | self (pack : ValueId) : Nested m pack pack
  | inner {pack v inside : ValueId} {op : Operation} (defined : m.definingOp? pack = some op)
      (concat : op.kind = .concat) (member : v ∈ op.operands) (isPack : m.type? v = some .pack)
      (nested : Nested m v inside) : Nested m pack inside

/-- The value is the result of a concat. -/
def IsConcat (m : Module) (v : ValueId) : Prop := ∃ op, m.definingOp? v = some op ∧ op.kind = .concat

/-- What an operand of a concat adds to the contents. -/
def operandContents (m : Module) (v : ValueId) : Option (List ValueId) :=
  match m.type? v with
  | some .ref => some [v]
  | some .pack => m.packContents v
  | none => none

theorem Linked.definingOp?_eq_some (linked : m.Linked) {v : ValueId} {op : Operation}
    (defined : m.definingOp? v = some op) : ∃ o, m.op? o = some op ∧ v ∈ op.results := by
  unfold definingOp? at defined
  split at defined
  · rename_i type o i value
    obtain ⟨op', found, listed⟩ := linked.origins.ofResult v type o i value
    rw [found] at defined
    cases defined
    exact ⟨o, found, List.mem_of_getElem? listed⟩
  · cases defined

/-- The contents of a concat are those of its operands, one after the other: all of them are older than it. -/
theorem Linked.packContents_concat (linked : m.Linked) {pack : ValueId} {op : Operation}
    (defined : m.definingOp? pack = some op) (concat : op.kind = .concat) :
    m.packContents pack = List.flatten <$> op.operands.mapM m.operandContents := by
  obtain ⟨o, found, result⟩ := linked.definingOp?_eq_some defined
  rw [packContents, defined]
  simp only [concat, if_true]
  congr 1
  apply mapM_congr
  intro v member
  rw [if_pos (linked.operands.older o op v pack found member result)]
  rfl

theorem packContents_of_not_isConcat {pack : ValueId} (other : ¬ m.IsConcat pack) : m.packContents pack = none := by
  rw [packContents]
  split
  · rename_i op defined
    exact if_neg fun concat => other ⟨op, defined, concat⟩
  · rfl

/-- An operand of which nothing is known is a pack of which nothing is known. -/
theorem Linked.operandContents_eq_none (linked : m.Linked) {o : OpId} {op : Operation} (found : m.op? o = some op)
    {v : ValueId} (member : v ∈ op.operands) (unknown : m.operandContents v = none) :
    m.type? v = some .pack ∧ m.packContents v = none := by
  have inside : v.index < m.values.size := linked.operands.exist o op v found member
  unfold operandContents at unknown
  split at unknown
  · cases unknown
  · rename_i isPack
    exact ⟨isPack, unknown⟩
  · rename_i missing
    simp [type?, value?, inside] at missing

/-- Nothing is known of a pack exactly when it, or a pack that is put into it, is not made by a concat. -/
theorem Linked.packContents_eq_none_iff (linked : m.Linked) (pack : ValueId) :
    m.packContents pack = none ↔ ∃ inside, m.Nested pack inside ∧ ¬ m.IsConcat inside := by
  constructor
  · -- operands are older than the pack, so the induction is on its number
    induction number : pack.index using Nat.strongRecOn generalizing pack with
    | ind n ih =>
      intro unknown
      by_cases concat : m.IsConcat pack
      · obtain ⟨op, defined, isConcat⟩ := concat
        obtain ⟨o, found, result⟩ := linked.definingOp?_eq_some defined
        rw [linked.packContents_concat defined isConcat, Option.map_eq_map, Option.map_eq_none_iff,
          mapM_eq_none_iff] at unknown
        obtain ⟨v, member, missing⟩ := unknown
        obtain ⟨isPack, missing⟩ := linked.operandContents_eq_none found member missing
        have older : v.index < n := number ▸ linked.operands.older o op v pack found member result
        obtain ⟨inside, nested, other⟩ := ih v.index older v rfl missing
        exact ⟨inside, .inner defined isConcat member isPack nested, other⟩
      · exact ⟨pack, .self pack, concat⟩
  · rintro ⟨inside, nested, other⟩
    induction nested with
    | self pack => exact packContents_of_not_isConcat other
    | inner defined _ member isPack _ ih => exact packContents_of_unknown defined member isPack (ih other)

end Module

/-! ## Runs -/

/-- What a run puts into the values of a module: one Lua value into a ref, a finite list of them into a pack. -/
structure Valuation (V : Type u) where
  nil : V
  ref : ValueId → V
  pack : ValueId → List V

namespace Valuation
variable {V : Type u} {m : Module}

/-- What a value adds to a pack: a ref itself, a pack all that is in it. -/
def elements (ρ : Valuation V) (m : Module) (v : ValueId) : List V :=
  match m.type? v with
  | some .ref => [ρ.ref v]
  | some .pack => ρ.pack v
  | none => []

/-- Packs are filled by concats and taken apart by unpacks. Nothing is said about an unpack of something that is
not a pack. -/
structure Respects (ρ : Valuation V) (m : Module) : Prop where
  concat : ∀ op ∈ m.ops, op.kind = .concat → ∀ pack ∈ op.results,
    ρ.pack pack = op.operands.flatMap (ρ.elements m)
  unpack : ∀ op ∈ m.ops, op.kind = .unpack → ∀ pack ∈ op.operands, m.type? pack = some .pack →
    ∀ i, (inside : i < op.results.length) → ρ.ref op.results[i] = (ρ.pack pack)[i]?.getD ρ.nil

/-- In a run, a pack holds its contents, and these are single values. -/
theorem Respects.pack_eq {ρ : Valuation V} (respects : ρ.Respects m) (linked : m.Linked) {pack : ValueId}
    {contents : List ValueId} (known : m.packContents pack = some contents) :
    ρ.pack pack = contents.map ρ.ref ∧ ∀ v ∈ contents, m.type? v = some .ref := by
  induction number : pack.index using Nat.strongRecOn generalizing pack contents with
  | ind n ih =>
    by_cases concat : m.IsConcat pack
    · obtain ⟨op, defined, isConcat⟩ := concat
      obtain ⟨o, found, result⟩ := linked.definingOp?_eq_some defined
      rw [linked.packContents_concat defined isConcat, Option.map_eq_map, Option.map_eq_some_iff] at known
      obtain ⟨parts, each, rfl⟩ := known
      have operand : ∀ v ∈ op.operands, ∀ part, m.operandContents v = some part →
          ρ.elements m v = part.map ρ.ref ∧ ∀ u ∈ part, m.type? u = some .ref := by
        intro v member part found_part
        have older : v.index < n := number ▸ linked.operands.older o op v pack found member result
        unfold Module.operandContents at found_part
        unfold elements
        split at found_part
        · rename_i isRef
          cases found_part
          exact ⟨rfl, by simp [isRef]⟩
        · exact ih v.index older found_part rfl
        · cases found_part
      refine ⟨?_, fun u inside => ?_⟩
      · rw [respects.concat op (Array.mem_of_getElem? found) isConcat pack result]
        exact flatMap_of_mapM each fun v member part found_part => (operand v member part found_part).1
      · obtain ⟨v, member, part, found_part, inside⟩ := mem_flatten_of_mapM each inside
        exact (operand v member part found_part).2 u inside
    · rw [Module.packContents_of_not_isConcat concat] at known
      cases known

end Valuation

namespace Module
variable {m : Module}

/-- What is answered about a result of an unpack: the value at its place in the contents of the pack. -/
theorem Linked.resolveUnpacked_eq (linked : m.Linked) (arranged : m.Arranged) {v : ValueId} {o : OpId}
    {op : Operation} {i : Nat} {type : ValueType} (value : m.value? v = some ⟨type, .result o i⟩)
    (found : m.op? o = some op) (unpack : op.kind = .unpack) : ∃ pack, op.operands = [pack] ∧
      op.results[i]? = some v ∧
      m.resolveUnpacked v = (m.packContents pack).map fun contents => contents[i]?.elim .nil .value := by
  obtain ⟨pack, operands⟩ := arranged.unpack_operands found unpack
  obtain ⟨op', found', listed⟩ := linked.origins.ofResult v type o i value
  rw [found] at found'
  cases found'
  have inside : i < op.results.length := (List.getElem?_eq_some_iff.mp listed).1
  exact ⟨pack, operands, listed, resolveUnpacked_of_unpack value found unpack operands inside⟩

/-- Only results of unpacks are answered about. -/
theorem resolveUnpacked_eq_some {v : ValueId} {slot : Slot ValueId} (known : m.resolveUnpacked v = some slot) :
    ∃ type o i op, m.value? v = some ⟨type, .result o i⟩ ∧ m.op? o = some op ∧ op.kind = .unpack := by
  unfold resolveUnpacked at known
  split at known
  · rename_i type o i value
    obtain ⟨op, found, known⟩ := Option.bind_eq_some_iff.mp known
    split at known
    · exact ⟨type, o, i, op, value, found, ‹_›⟩
    · cases known
  · cases known

theorem Arranged.type?_of_packContents (arranged : m.Arranged) (linked : m.Linked) {pack : ValueId}
    {contents : List ValueId} (known : m.packContents pack = some contents) : m.type? pack = some .pack := by
  by_cases concat : m.IsConcat pack
  · obtain ⟨op, defined, isConcat⟩ := concat
    obtain ⟨o, found, result⟩ := linked.definingOp?_eq_some defined
    exact arranged.concat_type? found isConcat result
  · rw [packContents_of_not_isConcat concat] at known
    cases known

end Module

namespace Valuation
variable {V : Type u} {m : Module}

/-- What a slot holds in a run. -/
def slot (ρ : Valuation V) : Slot ValueId → V
  | .value v => ρ.ref v
  | .nil => ρ.nil

/-- In a run, a value that is answered about holds what the answer holds. -/
theorem Respects.ref_eq_slot {ρ : Valuation V} (respects : ρ.Respects m) (linked : m.Linked) (arranged : m.Arranged)
    {v : ValueId} {answer : Slot ValueId} (known : m.resolveUnpacked v = some answer) :
    m.type? v = some .ref ∧ ρ.ref v = ρ.slot answer ∧ ∀ u, answer = .value u → m.type? u = some .ref := by
  obtain ⟨type, o, i, op, value, found, unpack⟩ := Module.resolveUnpacked_eq_some known
  obtain ⟨pack, operands, listed, resolved⟩ := linked.resolveUnpacked_eq arranged value found unpack
  rw [resolved, Option.map_eq_some_iff] at known
  obtain ⟨contents, known, rfl⟩ := known
  have isPack : m.type? pack = some .pack := arranged.type?_of_packContents linked known
  obtain ⟨filled, refs⟩ := respects.pack_eq linked known
  obtain ⟨inside, rfl⟩ := List.getElem?_eq_some_iff.mp listed
  have taken := respects.unpack op (Array.mem_of_getElem? found) unpack pack (by simp [operands]) isPack i inside
  rw [filled] at taken
  refine ⟨arranged.unpack_type? found unpack (List.mem_of_getElem? listed), ?_, ?_⟩
  · rw [taken, List.getElem?_map]
    cases contents[i]? <;> rfl
  · intro u same
    cases present : contents[i]? with
    | none =>
      rw [present] at same
      cases same
    | some w =>
      rw [present] at same
      cases same
      exact refs u (List.mem_of_getElem? present)

end Valuation

namespace Module

/-- What is said about a value taken out of a pack is true in every run: it is the value it is said to stand for, or nil
if the pack is said to be too short. Nothing is said about a result of an unpack exactly when its pack, or one put into
that, is not made by a concat. -/
theorem resolveUnpacked_sound {V : Type u} (steps : List Construction) {ρ : Valuation V}
    (respects : ρ.Respects (build steps)) (v : ValueId) :
    (∀ u, (build steps).resolveUnpacked v = some (.value u) →
      (build steps).type? v = some .ref ∧ (build steps).type? u = some .ref ∧ ρ.ref v = ρ.ref u) ∧
    ((build steps).resolveUnpacked v = some .nil → (build steps).type? v = some .ref ∧ ρ.ref v = ρ.nil) ∧
    (∀ type o i op, (build steps).value? v = some ⟨type, .result o i⟩ → (build steps).op? o = some op →
      op.kind = .unpack → ∃ pack, op.operands = [pack] ∧
        ((build steps).resolveUnpacked v = none ↔
          ∃ inside, (build steps).Nested pack inside ∧ ¬ (build steps).IsConcat inside)) := by
  have linked : (build steps).Linked := linked_empty.extend steps
  have arranged := build_arranged steps
  refine ⟨fun u known => ?_, fun known => ?_, fun type o i op value found unpack => ?_⟩
  · obtain ⟨isRef, same, refs⟩ := respects.ref_eq_slot linked arranged known
    exact ⟨isRef, refs u rfl, same⟩
  · obtain ⟨isRef, same, -⟩ := respects.ref_eq_slot linked arranged known
    exact ⟨isRef, same⟩
  · obtain ⟨pack, operands, -, answer⟩ := linked.resolveUnpacked_eq arranged value found unpack
    refine ⟨pack, operands, ?_⟩
    rw [answer, Option.map_eq_none_iff]
    exact linked.packContents_eq_none_iff pack

/-- Packs within packs: `%4` puts the pack `%2` in twice and the empty pack `%3` in between, and `%12` ends with what
a call gives. -/
def nestedPacks : List Construction :=
  let loc : Location := ⟨"main.lua", 1, 1⟩
  let site : Site := ⟨.full, ⟨0⟩⟩
  [.addFunction "main" loc, .addEntryBlock ⟨0⟩, .nil site loc, .number site (.int 1) loc,
    .concat site [⟨0⟩, ⟨1⟩] loc, .concat site [] loc, .concat site [⟨2⟩, ⟨3⟩, ⟨1⟩, ⟨2⟩] loc, .unpack site ⟨⟨4⟩⟩ 6 loc,
    .call site ⟨⟨1⟩⟩ ⟨⟨4⟩⟩ loc, .concat site [⟨0⟩, ⟨11⟩] loc, .unpack site ⟨⟨12⟩⟩ 2 loc]

/-- A run in which nil is zero and the call gives three sevens. -/
def sevens : Valuation Nat where
  nil := 0
  ref v := [0, 1, 0, 0, 0, 0, 1, 1, 0, 1, 0, 0, 0, 0, 7].getD v.index 0
  pack v := [[], [], [0, 1], [], [0, 1, 1, 0, 1], [], [], [], [], [], [], [7, 7, 7], [0, 7, 7, 7]].getD v.index []

theorem sevens_respects : sevens.Respects (build nestedPacks) where
  concat := by decide
  unpack := by decide

/-- The third value out of `%4` is `%1`, the sixth is missing, and the second out of `%12` depends on the call. -/
theorem resolveUnpacked_sound_nested :
    sevens.Respects (build nestedPacks) ∧
    (build nestedPacks).resolveUnpacked ⟨7⟩ = some (.value ⟨1⟩) ∧ sevens.ref ⟨7⟩ = sevens.ref ⟨1⟩ ∧
    (build nestedPacks).resolveUnpacked ⟨10⟩ = some .nil ∧ sevens.ref ⟨10⟩ = sevens.nil ∧
    (build nestedPacks).resolveUnpacked ⟨14⟩ = none ∧
    ∃ inside, (build nestedPacks).Nested ⟨12⟩ inside ∧ ¬ (build nestedPacks).IsConcat inside := by
  have third : (build nestedPacks).resolveUnpacked ⟨7⟩ = some (.value ⟨1⟩) := by decide +kernel
  have sixth : (build nestedPacks).resolveUnpacked ⟨10⟩ = some .nil := by decide +kernel
  have unknown : (build nestedPacks).resolveUnpacked ⟨14⟩ = none := by decide +kernel
  refine ⟨sevens_respects, third, ?_, sixth, ?_, unknown, ?_⟩
  · exact ((resolveUnpacked_sound nestedPacks sevens_respects ⟨7⟩).1 ⟨1⟩ third).2.2
  · exact ((resolveUnpacked_sound nestedPacks sevens_respects ⟨10⟩).2.1 sixth).2
  · obtain ⟨pack, operands, answer⟩ :=
      (resolveUnpacked_sound nestedPacks sevens_respects ⟨14⟩).2.2 .ref ⟨8⟩ 1 _ rfl rfl rfl
    cases operands
    exact answer.mp unknown

end Module
end LuaLowering
