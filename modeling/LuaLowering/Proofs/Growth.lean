import LuaLowering.Proofs.Verification
/-!
# Growing modules

Operations are only ever added, so what has been built stays: `Module.Stable` names the properties that no
further operation takes away. The result of an operation (`Module.Gives`) and the cell of a name
(`Module.IsCell`) are such.
-/
namespace LuaLowering

namespace Module
variable {m : Module}

/-- Place operations one after the other. -/
def appendAll (m : Module) (b : BlockId) (drafts : List Draft) : Module :=
  drafts.foldl (fun m d => m.append b d) m

theorem appendAll_append (m : Module) (b : BlockId) (ds es : List Draft) :
    m.appendAll b (ds ++ es) = (m.appendAll b ds).appendAll b es := by
  simp [appendAll]

/-- A property that no further operation takes away. -/
def Stable (F : Module → Prop) : Prop := ∀ m b d, F m → F (m.append b d)

theorem Stable.appendAll {F : Module → Prop} (stable : Stable F) {m : Module} (b : BlockId)
    (drafts : List Draft) (holds : F m) : F (m.appendAll b drafts) := by
  induction drafts generalizing m with
  | nil => exact holds
  | cons d rest ih => exact ih (stable m b d holds)

theorem size_ops_appendAll (m : Module) (b : BlockId) (drafts : List Draft) :
    (m.appendAll b drafts).ops.size = m.ops.size + drafts.length := by
  induction drafts generalizing m with
  | nil => rfl
  | cons d rest ih =>
    rw [appendAll, List.foldl_cons, ← appendAll, ih, size_ops_append, List.length_cons]
    omega

theorem stable_op? (o : OpId) (op : Operation) : Stable fun m => m.op? o = some op :=
  fun _ _ _ found => op?_append_of_some found

theorem stable_value? (v : ValueId) (value : Value) : Stable fun m => m.value? v = some value :=
  fun _ _ _ found => value?_append_of_some found

/-- Operations without results follow each other. -/
theorem op?_appendAll {b : BlockId} {drafts : List Draft} {i : Nat} {d : Draft} (listed : drafts[i]? = some d)
    (silent : d.results = []) :
    (m.appendAll b drafts).op? ⟨m.ops.size + i⟩ = some ⟨d.kind, b, d.operands, d.attributes, [], d.loc⟩ := by
  induction drafts generalizing m i with
  | nil => cases listed
  | cons first rest ih =>
    rw [appendAll, List.foldl_cons, ← appendAll]
    cases i with
    | zero =>
      cases listed
      refine (stable_op? _ _).appendAll b rest ?_
      simp [op?_append, resultIds, silent]
    | succ i =>
      have later := ih (m := m.append b first) listed
      rw [size_ops_append] at later
      rw [← later]
      congr 2
      omega

theorem value?_append_resultIds (b : BlockId) {d : Draft} {i : Nat} {v : ValueId} {type : ValueType}
    (listed : (m.resultIds d.results)[i]? = some v) (typed : d.results[i]? = some type) :
    (m.append b d).value? v = some ⟨type, .result ⟨m.ops.size⟩ i⟩ := by
  have index := (getElem?_resultIds.mp listed).2
  rw [value?_append, if_neg (by omega), index, Nat.add_sub_cancel_left, typed]
  rfl

theorem Open.appendAll {b : BlockId} {drafts : List Draft} (opened : m.Open)
    (goOn : ∀ d ∈ drafts, d.kind.definition.terminator = false) : (m.appendAll b drafts).Open := by
  induction drafts generalizing m with
  | nil => exact opened
  | cons d rest ih => exact ih (opened.append (goOn d (by simp))) fun e member => goOn e (by simp [member])

/-- The value is the only result of an operation like the draft. -/
def Gives (m : Module) (v : ValueId) (d : Draft) : Prop :=
  ∃ o b type, d.results = [type] ∧ m.value? v = some ⟨type, .result o 0⟩ ∧
    m.op? o = some ⟨d.kind, b, d.operands, d.attributes, [v], d.loc⟩

theorem gives_append (m : Module) (b : BlockId) {d : Draft} {type : ValueType} (one : d.results = [type]) :
    (m.append b d).Gives ⟨m.values.size⟩ d := by
  refine ⟨⟨m.ops.size⟩, b, type, one, ?_, ?_⟩
  · simp [value?_append, one]
  · simp [op?_append, resultIds, one]

theorem stable_gives (v : ValueId) (d : Draft) : Stable fun m => m.Gives v d := by
  rintro m b e ⟨o, home, type, one, value, found⟩
  exact ⟨o, home, type, one, value?_append_of_some value, op?_append_of_some found⟩

theorem Gives.type?_eq {v : ValueId} {d : Draft} {type : ValueType} (gives : m.Gives v d)
    (one : d.results = [type]) : m.type? v = some type := by
  obtain ⟨o, b, type', one', value, -⟩ := gives
  rw [one] at one'
  cases one'
  simp [type?, value]

theorem stable_type? (v : ValueId) (type : ValueType) : Stable fun m => m.type? v = some type := by
  intro m b d found
  rw [type?_append_of_lt (type?_lt found), found]

/-- The value is the cell of a name. -/
def IsCell (m : Module) (name : String) (cell : Ref) : Prop :=
  ∃ loc, m.Gives cell.id ⟨.getOrAlloc, [], [("var", .str name)], [.ref], loc⟩

theorem stable_isCell (name : String) (cell : Ref) : Stable fun m => m.IsCell name cell := by
  rintro m b d ⟨loc, gives⟩
  exact ⟨loc, stable_gives _ _ m b d gives⟩

theorem IsCell.type?_eq {name : String} {cell : Ref} (isCell : m.IsCell name cell) :
    m.type? cell.id = some .ref := by
  obtain ⟨loc, gives⟩ := isCell
  exact gives.type?_eq rfl

end Module

end LuaLowering
