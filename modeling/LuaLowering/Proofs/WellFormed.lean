import LuaLowering.Proofs.Verification
import Mathlib.Data.List.Forall2
/-!
# Well-formed modules

`Module.WellFormed` says what a module that is fit for use looks like, without the lists and sets that the checks
work with: who may use which value is said by positions in a function, and types are those of the definition of
each kind. In a module whose parts refer to one another consistently, the checks find nothing exactly when it is
well formed, so this holds of every module that was built (`build_verify_eq_nil_iff`).
-/
namespace LuaLowering

/-- The value has a type that the constraint admits. -/
def TypeConstraint.Admitted (m : Module) (constraint : TypeConstraint) (v : ValueId) : Prop :=
  ∃ type, m.type? v = some type ∧ constraint.admits type = true

/-- Operands in the number and of the types that the shape asks for. -/
def OperandShape.Matches (m : Module) : OperandShape → List ValueId → Prop
  | .fixed wanted, operands => List.Forall₂ (·.Admitted m ·) wanted operands
  | .variadic wanted, operands => ∀ v ∈ operands, wanted.Admitted m v

/-- Results in the number and of the types that the shape asks for. -/
def ResultShape.Matches (m : Module) : ResultShape → List ValueId → Prop
  | .fixed wanted, results => List.Forall₂ (fun type v => m.type? v = some type) wanted results
  | .variadic wanted, results => ∀ v ∈ results, m.type? v = some wanted

/-- An operation is as a definition of its kind says. -/
structure OpDef.Describes (d : OpDef) (m : Module) (op : Operation) : Prop where
  operands : d.operands.Matches m op.operands
  results : d.results.Matches m op.results
  attributes : ∀ spec ∈ d.attributes, ∃ a, op.attribute? spec.name = some a ∧ a.kind ∈ spec.kinds

namespace Module

/-- The value is an argument of one of the blocks or a result of one of the operations. -/
def Available (m : Module) (blocks : List BlockId) (ops : List Operation) (v : ValueId) : Prop :=
  (∃ b ∈ blocks, ∃ block, m.block? b = some block ∧ v ∈ block.args) ∨ ∃ op ∈ ops, v ∈ op.results

/-- A block of a function, given the blocks before it. -/
structure WellFormedBlock (m : Module) (c : Catalogue) (before : List BlockId) (b : BlockId) : Prop where
  ended : ∃ op d, (m.blockOps b).getLast? = some op ∧ c.get? op.kind = some d ∧ d.terminator = true
  endedOnce : ∀ earlier op later d, m.blockOps b = earlier ++ op :: later → later ≠ [] →
    c.get? op.kind = some d → d.terminator = false
  described : ∀ op ∈ m.blockOps b, ∃ d, c.get? op.kind = some d ∧ d.Describes m op
  operands : ∀ earlier op later, m.blockOps b = earlier ++ op :: later → ∀ v ∈ op.operands,
    m.Available (before ++ [b]) (before.flatMap m.blockOps ++ earlier) v

/-- A function has a body with blocks, of which the first takes no arguments. -/
structure WellFormedFunction (m : Module) (c : Catalogue) (f : Function) : Prop where
  body : ∃ region, m.region? f.body = some region ∧ region.blocks.size ≠ 0
  entry : ∀ region b block, m.region? f.body = some region → region.blocks[0]? = some b →
    m.block? b = some block → block.args = #[]
  blocks : ∀ region before b after, m.region? f.body = some region →
    region.blocks.toList = before ++ b :: after → m.WellFormedBlock c before b

structure WellFormed (m : Module) (c : Catalogue) : Prop where
  distinct : (m.functions.toList.map (·.name)).Nodup
  main : ∃ f ∈ m.functions, f.name = "main"
  functions : ∀ f ∈ m.functions, m.WellFormedFunction c f

end Module

/-! ## Single operations -/

theorem mistyped_eq_nil_iff {fault : Nat → ValueType → OpFault} {admits : Nat → ValueType → Bool} {i : Nat}
    {types : List (Option ValueType)} :
    mistyped fault admits i types = [] ↔
      ∀ j type, types[j]? = some (some type) → admits (i + j) type = true := by
  induction types generalizing i with
  | nil => simp [mistyped]
  | cons first rest ih =>
    have shift (j : Nat) : i + 1 + j = i + (j + 1) := by omega
    cases first with
    | none =>
      simp only [mistyped, ih, shift]
      constructor
      · intro later j type found
        cases j with
        | zero => cases found
        | succ j => exact later j type found
      · exact fun all j type found => all (j + 1) type found
    | some first =>
      by_cases admitted : admits i first = true
      · simp only [mistyped, admitted, if_true, ih, shift]
        constructor
        · intro later j type found
          cases j with
          | zero =>
            cases found
            exact admitted
          | succ j => exact later j type found
        · exact fun all j type found => all (j + 1) type found
      · simp only [mistyped, admitted, Bool.false_eq_true, if_false, List.cons_ne_nil, false_iff]
        exact fun all => admitted (all 0 first rfl)

namespace Module
variable {m : Module}

/-- An existing value has a type. -/
theorem type?_of_lt {v : ValueId} (inside : v.index < m.values.size) : ∃ type, m.type? v = some type :=
  ⟨m.values[v.index].type, by simp [type?, value?, inside]⟩

/-- Of existing values, the types are all looked at. -/
theorem mistyped_type?_eq_nil_iff {fault : Nat → ValueType → OpFault} {admits : Nat → ValueType → Bool}
    {vs : List ValueId} (exist : ∀ v ∈ vs, v.index < m.values.size) :
    mistyped fault admits 0 (vs.map m.type?) = [] ↔
      ∀ i v, vs[i]? = some v → ∃ type, m.type? v = some type ∧ admits i type = true := by
  simp only [mistyped_eq_nil_iff, Nat.zero_add, List.getElem?_map, Option.map_eq_some_iff]
  constructor
  · intro admitted i v listed
    obtain ⟨type, typed⟩ := type?_of_lt (exist v (List.mem_of_getElem? listed))
    exact ⟨type, typed, admitted i type ⟨v, listed, typed⟩⟩
  · rintro admitted i type ⟨v, listed, typed⟩
    obtain ⟨type', typed', admits⟩ := admitted i v listed
    rw [typed] at typed'
    cases typed'
    exact admits

end Module

theorem forall_mem_iff_getElem? {α : Type} {P : α → Prop} {l : List α} :
    (∀ a ∈ l, P a) ↔ ∀ (i : Nat) a, l[i]? = some a → P a := by
  constructor
  · exact fun all i a listed => all a (List.mem_of_getElem? listed)
  · intro all a member
    obtain ⟨i, listed⟩ := List.getElem?_of_mem member
    exact all i a listed

/-- Two lists agree by position when they are of one length and each place of the second has its partner. -/
theorem forall₂_iff_getElem? {α β : Type} {R : α → β → Prop} {l : List α} {k : List β}
    (count : l.length = k.length) :
    List.Forall₂ R l k ↔ ∀ (i : Nat) b, k[i]? = some b → ∃ a, l[i]? = some a ∧ R a b := by
  rw [List.forall₂_iff_get]
  constructor
  · rintro ⟨-, related⟩ i b listed
    obtain ⟨inside', rfl⟩ := List.getElem?_eq_some_iff.mp listed
    have inside : i < l.length := by omega
    exact ⟨l[i], List.getElem?_eq_getElem inside, related i inside inside'⟩
  · intro partner
    refine ⟨count, fun i inside inside' => ?_⟩
    obtain ⟨a, listed, related⟩ := partner i k[i] (List.getElem?_eq_getElem inside')
    rw [List.getElem?_eq_getElem inside] at listed
    cases listed
    exact related

namespace OpDef
variable {m : Module} {d : OpDef}

theorem operandFaults_eq_nil_iff {operands : List ValueId} (exist : ∀ v ∈ operands, v.index < m.values.size) :
    d.operandFaults (operands.map m.type?) = [] ↔ d.operands.Matches m operands := by
  unfold operandFaults
  cases d.operands with
  | variadic wanted =>
    rw [Module.mistyped_type?_eq_nil_iff exist, OperandShape.Matches, forall_mem_iff_getElem?]
    rfl
  | fixed wanted =>
    simp only [OperandShape.Matches, List.length_map]
    by_cases count : wanted.length = operands.length
    · rw [if_pos count, Module.mistyped_type?_eq_nil_iff exist, forall₂_iff_getElem? count]
      refine forall₃_congr fun i v listed => ?_
      simp only [TypeConstraint.Admitted, Option.any_eq_true]
      exact ⟨fun ⟨type, typed, w, found, admits⟩ => ⟨w, found, type, typed, admits⟩,
        fun ⟨w, found, type, typed, admits⟩ => ⟨type, typed, w, found, admits⟩⟩
    · rw [if_neg count]
      simp only [List.cons_ne_nil, false_iff]
      exact fun related => count related.length_eq

theorem resultFaults_eq_nil_iff {results : List ValueId} (exist : ∀ v ∈ results, v.index < m.values.size) :
    d.resultFaults (results.map m.type?) = [] ↔ d.results.Matches m results := by
  unfold resultFaults
  cases d.results with
  | variadic wanted =>
    rw [Module.mistyped_type?_eq_nil_iff exist, ResultShape.Matches, forall_mem_iff_getElem?]
    simp
  | fixed wanted =>
    simp only [ResultShape.Matches, List.length_map]
    by_cases count : wanted.length = results.length
    · rw [if_pos count, List.nil_append, Module.mistyped_type?_eq_nil_iff exist, forall₂_iff_getElem? count]
      refine forall₃_congr fun i v listed => ?_
      have inside : i < wanted.length := count ▸ (List.getElem?_eq_some_iff.mp listed).1
      simp only [List.getElem?_eq_getElem inside, Option.all_some, beq_iff_eq, Option.some.injEq, exists_eq_right',
        exists_eq_left']
    · rw [if_neg count]
      simp only [List.cons_append, List.cons_ne_nil, false_iff]
      exact fun related => count related.length_eq

theorem attributeFaults_eq_nil_iff {op : Operation} :
    d.attributeFaults op = [] ↔
      ∀ spec ∈ d.attributes, ∃ a, op.attribute? spec.name = some a ∧ a.kind ∈ spec.kinds := by
  simp only [attributeFaults, List.filterMap_eq_nil_iff]
  refine forall₂_congr fun spec _ => ?_
  cases op.attribute? spec.name with
  | none => simp
  | some a => by_cases admitted : a.kind ∈ spec.kinds <;> simp [admitted]

end OpDef

namespace Module
variable {m : Module} {c : Catalogue}

/-- The checks of operands, results and attributes against the definition of the kind. -/
theorem Linked.conforms_iff (linked : m.Linked) {o : OpId} {op : Operation} (found : m.op? o = some op) :
    m.Conforms op ↔ op.kind.definition.Describes m op := by
  have operands := OpDef.operandFaults_eq_nil_iff (d := op.kind.definition)
    fun v member => linked.operands.exist o op v found member
  have results := OpDef.resultFaults_eq_nil_iff (d := op.kind.definition)
    fun v member => linked.result_lt found member
  constructor
  · rintro ⟨fine, fine', fine''⟩
    exact ⟨operands.mp fine, results.mp fine', OpDef.attributeFaults_eq_nil_iff.mp fine''⟩
  · rintro ⟨described, described', described''⟩
    exact ⟨operands.mpr described, results.mpr described', OpDef.attributeFaults_eq_nil_iff.mpr described''⟩

end Module

/-! ## Blocks -/

theorem Catalogue.get?_eq_some_iff {c : Catalogue} {kind : OpKind} {d : OpDef} :
    c.get? kind = some d ↔ kind ∈ c.kinds ∧ d = kind.definition := by
  by_cases registered : kind ∈ c.kinds <;> simp [get?, registered, eq_comm]

theorem Catalogue.endsBlock_iff {c : Catalogue} {kind : OpKind} :
    c.endsBlock kind = true ↔ ∃ d, c.get? kind = some d ∧ d.terminator = true := by
  simp [endsBlock, Option.any_eq_true]

namespace Module
variable {m : Module} {c : Catalogue}

/-- What a block makes available beside the blocks before it: its arguments and the results of its operations. -/
theorem available_iff {before : List BlockId} {b : BlockId} {block : Block} {defined : List ValueId}
    (found : m.block? b = some block)
    (known : ∀ v, v ∈ defined ↔ m.Available before (before.flatMap m.blockOps) v) (ops : List Operation)
    (v : ValueId) :
    m.Available (before ++ [b]) (before.flatMap m.blockOps ++ ops) v ↔
      v ∈ block.args.toList ++ defined ∨ ∃ op ∈ ops, v ∈ op.results := by
  simp only [List.mem_append, Array.mem_toList_iff, known, Available, List.mem_singleton]
  constructor
  · rintro (⟨b', listed | rfl, block', found', argument⟩ | ⟨op, listed | listed, result⟩)
    · exact .inl (.inr (.inl ⟨b', listed, block', found', argument⟩))
    · rw [found] at found'
      cases found'
      exact .inl (.inl argument)
    · exact .inl (.inr (.inr ⟨op, listed, result⟩))
    · exact .inr ⟨op, listed, result⟩
  · rintro ((argument | ⟨b', listed, block', found', argument⟩ | ⟨op, listed, result⟩) | ⟨op, listed, result⟩)
    · exact .inl ⟨b, .inr rfl, block, found, argument⟩
    · exact .inl ⟨b', .inl listed, block', found', argument⟩
    · exact .inr ⟨op, .inl listed, result⟩
    · exact .inr ⟨op, .inr listed, result⟩

/-- A block passes the checks when it is well formed; which values are defined before it is known from the blocks
before it. -/
theorem Linked.verifyBlock_eq_nil_iff (linked : m.Linked) {function : String} {before : List BlockId} {b : BlockId}
    {block : Block} {defined : List ValueId} (found : m.block? b = some block)
    (known : ∀ v, v ∈ defined ↔ m.Available before (before.flatMap m.blockOps) v) :
    m.verifyBlock c function b (block.args.toList ++ defined) (m.blockOps b) = [] ↔
      m.WellFormedBlock c before b := by
  have ending : (m.blockOps b).getLast?.any (fun op => c.endsBlock op.kind) = true ↔
      ∃ op d, (m.blockOps b).getLast? = some op ∧ c.get? op.kind = some d ∧ d.terminator = true := by
    simp only [Option.any_eq_true, Catalogue.endsBlock_iff, exists_and_left]
  have described {op : Operation} (member : op ∈ m.blockOps b) :
      (op.kind ∈ c.kinds ∧ m.Conforms op) ↔ ∃ d, c.get? op.kind = some d ∧ d.Describes m op := by
    obtain ⟨o, listed⟩ := mem_blockOps member
    simp [Catalogue.get?_eq_some_iff, linked.conforms_iff listed, and_assoc]
  unfold verifyBlock
  rw [List.append_eq_nil_iff, ite_eq_left_iff]
  simp only [List.cons_ne_nil, imp_false, not_not, ending, verifyOps_eq_nil_iff]
  constructor
  · rintro ⟨ended, passes⟩
    refine ⟨ended, ?_, ?_, ?_⟩
    · intro earlier op later d split more registered
      obtain ⟨-, rfl⟩ := Catalogue.get?_eq_some_iff.mp registered
      obtain ⟨-, last, -, -⟩ := passes earlier op later split
      exact Bool.eq_false_iff.mpr fun ends => more (last ends)
    · intro op member
      obtain ⟨earlier, later, split⟩ := List.append_of_mem member
      obtain ⟨registered, -, -, conforms⟩ := passes earlier op later split
      exact (described member).mp ⟨registered, conforms⟩
    · intro earlier op later split v operand
      obtain ⟨-, -, operands, -⟩ := passes earlier op later split
      exact (available_iff found known earlier v).mpr (operands v operand)
  · intro wellFormed
    refine ⟨wellFormed.ended, fun earlier op later split => ?_⟩
    have member : op ∈ m.blockOps b := by simp [split]
    obtain ⟨registered, conforms⟩ := (described member).mpr (wellFormed.described op member)
    refine ⟨registered, fun ends => ?_, fun v operand => ?_, conforms⟩
    · by_contra more
      have goesOn := wellFormed.endedOnce earlier op later op.kind.definition split more
        (Catalogue.get?_eq_some_iff.mpr ⟨registered, rfl⟩)
      rw [ends] at goesOn
      cases goesOn
    · exact (available_iff found known earlier v).mp (wellFormed.operands earlier op later split v operand)

/-- Blocks in a row pass the checks when each is well formed after those before it. The induction goes over the
blocks that are left, and `defined` holds what the blocks `before` them make available. -/
theorem Linked.verifyBlocks_eq_nil_iff (linked : m.Linked) {function : String} {isEntry : Bool}
    {before bs : List BlockId} {defined : List ValueId} (exist : ∀ b ∈ bs, ∃ block, m.block? b = some block)
    (known : ∀ v, v ∈ defined ↔ m.Available before (before.flatMap m.blockOps) v) :
    m.verifyBlocks c function isEntry defined bs = [] ↔
      (isEntry = true → ∀ b block, bs[0]? = some b → m.block? b = some block → block.args = #[]) ∧
        ∀ between b after, bs = between ++ b :: after → m.WellFormedBlock c (before ++ between) b := by
  induction bs generalizing isEntry before defined with
  | nil => simp [verifyBlocks]
  | cons b rest ih =>
    obtain ⟨block, found⟩ := exist b (by simp)
    have known' (v : ValueId) : v ∈ (m.blockOps b).flatMap (·.results) ++ (block.args.toList ++ defined) ↔
        m.Available (before ++ [b]) ((before ++ [b]).flatMap m.blockOps) v := by
      have results : v ∈ (m.blockOps b).flatMap (·.results) ↔ ∃ op ∈ m.blockOps b, v ∈ op.results :=
        List.mem_flatMap
      rw [List.flatMap_append, List.flatMap_singleton, available_iff found known, List.mem_append, results,
        or_comm]
    simp only [verifyBlocks, found, List.append_eq_nil_iff, linked.verifyBlock_eq_nil_iff found known,
      ih (fun b' member => exist b' (by simp [member])) known', Bool.false_eq_true, false_implies, true_and,
      ite_eq_right_iff, List.cons_ne_nil, imp_false, Bool.and_eq_true, not_and, List.append_assoc]
    constructor
    · rintro ⟨entry, first, others⟩
      refine ⟨fun isFirst b' block' head found' => ?_, fun between b' after split => ?_⟩
      · cases head
        rw [found] at found'
        cases found'
        simpa using entry isFirst
      · cases between with
        | nil =>
          cases split
          simpa using first
        | cons b'' between =>
          cases split
          exact others between b' after rfl
    · rintro ⟨entry, all⟩
      refine ⟨fun isFirst => ?_, by simpa using all [] b rest rfl, fun between b' after split => ?_⟩
      · simpa using entry isFirst b block rfl found
      · exact all (b :: between) b' after (by rw [split, List.cons_append])

/-! ## Functions and modules -/

theorem Linked.verifyFunction_eq_nil_iff (linked : m.Linked) (f : Function) :
    m.verifyFunction c f = [] ↔ m.WellFormedFunction c f := by
  cases found : m.region? f.body with
  | none =>
    simp only [verifyFunction, found, Option.elim_none, List.cons_ne_nil, false_iff]
    rintro ⟨⟨region, listed, -⟩, -, -⟩
    rw [found] at listed
    cases listed
  | some region =>
    have exist : ∀ b ∈ region.blocks.toList, ∃ block, m.block? b = some block := by
      intro b member
      obtain ⟨block, listed, -⟩ := linked.blocks.named f.body region b found (by simpa using member)
      exact ⟨block, listed⟩
    have known (v : ValueId) : v ∈ [] ↔ m.Available [] ([].flatMap m.blockOps) v := by simp [Available]
    have unique {region' : Region} (found' : m.region? f.body = some region') : region' = region := by
      rw [found] at found'
      exact (Option.some.inj found').symm
    cases blocks : region.blocks.toList with
    | nil =>
      have empty : region.blocks.size = 0 := by rw [← Array.length_toList, blocks, List.length_nil]
      simp only [verifyFunction, found, Option.elim_some, blocks, List.cons_ne_nil, false_iff]
      rintro ⟨⟨region', listed, filled⟩, -, -⟩
      rw [unique listed] at filled
      exact filled empty
    | cons b rest =>
      have filled : region.blocks.size ≠ 0 := by rw [← Array.length_toList, blocks]; simp
      have unfolded : m.verifyFunction c f = m.verifyBlocks c f.name true [] region.blocks.toList := by
        simp [verifyFunction, found, blocks]
      rw [unfolded, linked.verifyBlocks_eq_nil_iff exist known]
      simp only [Array.getElem?_toList, List.nil_append, true_implies]
      constructor
      · rintro ⟨entry, each⟩
        refine ⟨⟨region, found, filled⟩, fun region' b block listed => ?_, fun region' before b after listed => ?_⟩
        · rw [unique listed]
          exact entry b block
        · rw [unique listed]
          exact each before b after
      · rintro ⟨-, entry, each⟩
        exact ⟨fun b block => entry region b block found, fun before b after => each region before b after found⟩

theorem duplicates_eq_nil_iff {seen : List String} {fs : List Function} :
    duplicates seen fs = [] ↔ (fs.map (·.name)).Nodup ∧ ∀ f ∈ fs, f.name ∉ seen := by
  induction fs generalizing seen with
  | nil => simp [duplicates]
  | cons f rest ih =>
    simp only [duplicates, List.append_eq_nil_iff, ih, List.contains_iff_mem, ite_eq_right_iff, List.cons_ne_nil,
      imp_false, List.mem_cons, not_or, List.map_cons, List.nodup_cons, forall_eq_or_imp,
      List.mem_map, not_exists, not_and]
    constructor
    · rintro ⟨fresh, distinct, others⟩
      exact ⟨⟨fun g member => (others g member).1, distinct⟩, fresh, fun g member => (others g member).2⟩
    · rintro ⟨⟨apart, distinct⟩, fresh, others⟩
      exact ⟨fresh, distinct, fun g member => ⟨apart g member, others g member⟩⟩

theorem Linked.verify_eq_nil_iff (linked : m.Linked) : m.verify c = [] ↔ m.WellFormed c := by
  have hasMain : (m.functions.toList.any fun f => f.name == "main") = true ↔ ∃ f ∈ m.functions, f.name = "main" := by
    simp only [List.any_eq_true, Array.mem_toList_iff, beq_iff_eq]
  simp only [verify, List.append_eq_nil_iff, duplicates_eq_nil_iff, List.not_mem_nil, not_false_eq_true,
    implies_true, and_true, ite_eq_left_iff, List.cons_ne_nil, imp_false, not_not, hasMain, List.flatMap_eq_nil_iff,
    linked.verifyFunction_eq_nil_iff, Array.mem_toList_iff]
  constructor
  · rintro ⟨⟨distinct, main⟩, functions⟩
    exact ⟨distinct, main, functions⟩
  · rintro ⟨distinct, main, functions⟩
    exact ⟨⟨distinct, main⟩, functions⟩

/-- However a module was built, the checks find nothing exactly when it is well formed. -/
theorem build_verify_eq_nil_iff (steps : List Construction) (c : Catalogue) :
    (build steps).verify c = [] ↔ (build steps).WellFormed c :=
  (linked_empty.extend steps).verify_eq_nil_iff

end Module
end LuaLowering
