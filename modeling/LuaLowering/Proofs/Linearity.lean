import LuaLowering.Proofs.Cells
import LuaLowering.Proofs.Phrases
/-!
# Linear use of values

Every value but a cell is used once. A position in `main` has some values in hand: those that were given and still have
to be taken. `Module.Passes` says what a stretch of operations makes of them, and each construct passes on just what it
gives (`Exp.LaidOut.passes` and the like). At the end of a chunk, only the packs of call statements are left over.
`Source.compile_linear` counts the uses that follow from this.
-/
namespace LuaLowering

namespace Module
variable {m : Module}

/-- How often a value is an operand. -/
def uses (m : Module) (v : ValueId) : Nat := (m.ops.toList.flatMap (·.operands)).count v

/-- How often the first `n` operations take a value. -/
def taken (m : Module) (v : ValueId) (n : Nat) : Nat := ((m.ops.toList.take n).flatMap (·.operands)).count v

/-- How often the first `n` operations give a value. -/
def given (m : Module) (v : ValueId) (n : Nat) : Nat := ((m.ops.toList.take n).flatMap (·.results)).count v

theorem taken_succ {n : Nat} {op : Operation} (found : m.op? ⟨n⟩ = some op) (v : ValueId) :
    m.taken v (n + 1) = m.taken v n + op.operands.count v := by
  have listed : m.ops.toList[n]? = some op := by simpa [op?] using found
  simp [taken, List.take_add_one, listed]

theorem given_succ {n : Nat} {op : Operation} (found : m.op? ⟨n⟩ = some op) (v : ValueId) :
    m.given v (n + 1) = m.given v n + op.results.count v := by
  have listed : m.ops.toList[n]? = some op := by simpa [op?] using found
  simp [given, List.take_add_one, listed]

/-- The value is not a cell. -/
def Temporary (m : Module) (v : ValueId) : Prop :=
  ∀ o op, m.op? o = some op → op.kind = .getOrAlloc → v ∉ op.results

/-- A concat is taken right away, by a call as its arguments or by an unpack. Of its operands only the last may be a
pack, and only one that a call gives. -/
structure ConcatUsed (m : Module) (i : Nat) (op : Operation) : Prop where
  next : ∃ packed after, op.results = [packed] ∧ m.op? ⟨i + 1⟩ = some after ∧
    ((after.kind = .call ∧ ∃ callee, after.operands = [callee, packed]) ∨
      (after.kind = .unpack ∧ after.operands = [packed]))
  packs : ∀ j v, op.operands[j]? = some v → m.type? v = some .pack → j + 1 = op.operands.length ∧
    ∃ o call, m.op? o = some call ∧ call.kind = .call ∧ v ∈ call.results

/-- From `lo` to `hi`, the values in hand go from `before` to `after`: what is given is taken, or it is in hand. This
counts the values that are not cells. And the concats on the way are used as they should be. -/
structure Passes (m : Module) (lo : Nat) (before : List ValueId) (hi : Nat) (after : List ValueId) : Prop where
  balance : ∀ v, m.Temporary v →
    m.taken v hi + after.count v + m.given v lo = m.taken v lo + before.count v + m.given v hi
  concats : ∀ i op, lo ≤ i → i < hi → m.op? ⟨i⟩ = some op → op.kind = .concat → m.ConcatUsed i op

namespace Passes
variable {lo mid hi : Nat} {before between after : List ValueId}

theorem refl (m : Module) (lo : Nat) (hand : List ValueId) : m.Passes lo hand lo hand where
  balance v _ := by omega
  concats i op above below := by omega

theorem trans (first : m.Passes lo before mid between) (second : m.Passes mid between hi after) :
    m.Passes lo before hi after where
  balance v temporary := by
    have front := first.balance v temporary
    have back := second.balance v temporary
    omega
  concats i op above below found isConcat := by
    by_cases early : i < mid
    · exact first.concats i op above early found isConcat
    · exact second.concats i op (Nat.le_of_not_lt early) below found isConcat

/-- What else is in hand stays there. -/
theorem frame (passes : m.Passes lo before hi after) (others : List ValueId) :
    m.Passes lo (others ++ before) hi (others ++ after) where
  balance v temporary := by
    have balance := passes.balance v temporary
    simp only [List.count_append]
    omega
  concats := passes.concats

/-- A stretch that takes nothing adds to what is in hand. -/
theorem more (first : m.Passes lo before mid between) (second : m.Passes mid [] hi after) :
    m.Passes lo before hi (between ++ after) := by
  have rest := second.frame between
  rw [List.append_nil] at rest
  exact first.trans rest

/-- An operation takes its operands and gives its results. -/
theorem op {i : Nat} {op : Operation} (found : m.op? ⟨i⟩ = some op)
    (used : op.kind = .concat → m.ConcatUsed i op) : m.Passes i op.operands (i + 1) op.results where
  balance v _ := by
    rw [taken_succ found, given_succ found]
    omega
  concats j op' above below found' isConcat := by
    have same : j = i := by omega
    rw [same, found] at found'
    cases found'
    rw [same]
    exact used isConcat

end Passes

theorem GivesAt.passes {i : Nat} {v : ValueId} {d : Draft} (gives : m.GivesAt i v d) (other : d.kind ≠ .concat) :
    m.Passes i d.operands (i + 1) [v] := by
  obtain ⟨-, -, -, found⟩ := gives
  exact .op found fun isConcat => absurd isConcat other

theorem GivesAt.gives {i : Nat} {v : ValueId} {d : Draft} (gives : m.GivesAt i v d) : m.Gives v d := by
  obtain ⟨type, one, value, found⟩ := gives
  exact ⟨⟨i⟩, ⟨0⟩, type, one, value, found⟩

/-- A cell does not count. -/
theorem Refers.passes {name : String} {loc : Location} {lo hi : Nat} {cell : Ref}
    (refers : m.Refers name loc lo cell hi) : m.Passes lo [] hi [cell.id] := by
  cases refers with
  | again _ isCell =>
    obtain ⟨o, b, there, -, found⟩ := isCell.op?_eq
    refine ⟨fun v temporary => ?_, fun i op above below => by omega⟩
    have other : [cell.id].count v = 0 := List.count_eq_zero.mpr (temporary o _ found rfl)
    rw [other]
    rfl
  | first _ gives => exact gives.passes (by simp)

theorem Adjusts.passes {loc : Location} {lo hi : Nat} {item : Lowered} {v : Ref}
    (adjusts : m.Adjusts loc lo item v hi) : m.Passes lo [item.id] hi [v.id] := by
  cases adjusts with
  | value => exact .refl m lo _
  | pack p _ gives => exact gives.passes (by simp)

theorem Adjusts.valid {loc : Location} {lo hi : Nat} {item : Lowered} {v : Ref}
    (adjusts : m.Adjusts loc lo item v hi) (valid : item.Valid m) : (Lowered.value v).Valid m := by
  cases adjusts with
  | value => exact valid
  | pack p _ gives => exact gives.gives.type?_eq rfl

theorem Refers.type?_eq {name : String} {loc : Location} {lo hi : Nat} {cell : Ref}
    (refers : m.Refers name loc lo cell hi) : m.type? cell.id = some .ref := by
  cases refers with
  | again _ isCell => exact isCell.type?_eq
  | first _ gives => exact gives.gives.type?_eq rfl

/-! ## Lists of values -/

/-- Items as constructs give them: only the last may be a pack. -/
inductive Listed (m : Module) : List Lowered → Prop where
  | nil : Listed m []
  | cons {item : Lowered} {rest : List Lowered} (valid : item.Valid m) (last : item.isPack = true → rest = [])
      (others : Listed m rest) : Listed m (item :: rest)

theorem Listed.packs {items : List Lowered} (listed : m.Listed items) {j : Nat} {v : ValueId}
    (found : (items.map Lowered.id)[j]? = some v) (isPack : m.type? v = some .pack) :
    j + 1 = (items.map Lowered.id).length ∧ ∃ o call, m.op? o = some call ∧ call.kind = .call ∧ v ∈ call.results := by
  induction listed generalizing j with
  | nil => simp at found
  | @cons item rest valid last others ih =>
    cases j with
    | succ j =>
      rw [List.map_cons, List.getElem?_cons_succ] at found
      obtain ⟨final, call⟩ := ih found
      exact ⟨by simpa using final, call⟩
    | zero =>
      rw [List.map_cons, List.getElem?_cons_zero, Option.some.injEq] at found
      cases item with
      | value u =>
        have single : m.type? u.id = some .ref := valid
        rw [show u.id = v from found, isPack] at single
        cases single
      | pack p =>
        obtain ⟨callee, args, loc, o, b, type, -, -, call⟩ := valid
        rw [last rfl]
        refine ⟨rfl, o, _, call, rfl, ?_⟩
        rw [← found]
        exact List.mem_singleton_self _

theorem Listed.concatUsed {items : List Lowered} (listed : m.Listed items) {i : Nat} {packed : ValueId}
    {loc : Location} {after : Operation} (next : m.op? ⟨i + 1⟩ = some after)
    (takes : (after.kind = .call ∧ ∃ callee, after.operands = [callee, packed]) ∨
      (after.kind = .unpack ∧ after.operands = [packed])) :
    m.ConcatUsed i ⟨.concat, ⟨0⟩, items.map Lowered.id, [], [packed], loc⟩ where
  next := ⟨packed, after, rfl, next, takes⟩
  packs _ _ := listed.packs

/-- A concat of such items that a call takes. -/
theorem Listed.concat_call {items : List Lowered} (listed : m.Listed items) {i : Nat} {packed : ValueId} {callee : Ref}
    {p : Pack} {loc : Location} (concat : m.GivesAt i packed ⟨.concat, items.map Lowered.id, [], [.pack], loc⟩)
    (call : m.GivesAt (i + 1) p.id ⟨.call, [callee.id, packed], [], [.pack], loc⟩) :
    m.Passes i ([callee.id] ++ items.map Lowered.id) (i + 2) [p.id] := by
  obtain ⟨-, -, -, found⟩ := concat
  obtain ⟨-, -, -, next⟩ := call
  have concat := Passes.op found fun _ => listed.concatUsed next (.inl ⟨rfl, callee.id, rfl⟩)
  exact (concat.frame [callee.id]).trans (.op next (by simp))

/-- An assignment of such items takes them and its cells. -/
theorem Assigns.passes {first : Nat} {cells : List ValueId} {items : List Lowered} {packed : ValueId}
    {unpacked : List ValueId} {loc : Location}
    (assigns : m.Assigns first cells (items.map Lowered.id) packed unpacked loc) (listed : m.Listed items) :
    m.Passes first (cells ++ items.map Lowered.id) (first + 2 + cells.length) [] := by
  have concat := (Passes.op assigns.concat fun _ => listed.concatUsed assigns.unpack (.inr ⟨rfl, rfl⟩)).frame cells
  have unpack := (Passes.op assigns.unpack (by simp)).frame cells
  have assigned (n : Nat) (bound : n ≤ cells.length) :
      m.Passes (first + 2) (cells ++ unpacked) (first + 2 + n) (cells.drop n ++ unpacked.drop n) := by
    induction n with
    | zero => exact .refl m _ _
    | succ n ih =>
      have counted : n < unpacked.length := assigns.count ▸ bound
      have placed := assigns.assign n _ _ (List.getElem?_eq_getElem bound) (List.getElem?_eq_getElem counted)
      have step := Passes.op placed (by simp)
      rw [← Nat.add_assoc]
      refine (ih (Nat.le_of_lt bound)).trans ⟨fun v temporary => ?_, step.concats⟩
      have balance := step.balance v temporary
      rw [List.drop_eq_getElem_cons bound, List.drop_eq_getElem_cons counted]
      simp only [List.count_append, List.count_cons, List.count_nil] at balance ⊢
      omega
  have all := assigned cells.length (Nat.le_refl _)
  rw [List.drop_length, ← assigns.count, List.drop_length] at all
  rw [← assigns.count]
  exact (concat.trans unpack).trans all

end Module

/-! ## Constructs -/

namespace Syntax
variable {source : Source} {m : Module}

theorem Var.LaidOut.passes {v : Var} {lo hi : Nat} {cell : Ref} (laid : v.LaidOut source m lo cell hi) :
    m.Passes lo [] hi [cell.id] := by
  obtain ⟨name, -, refers⟩ := laid
  exact refers.passes

theorem varsLaidOut_passes {vs : List Var} {lo hi : Nat} {cells : List Ref}
    (laid : varsLaidOut source m vs lo cells hi) : m.Passes lo [] hi (cells.map Ref.id) := by
  induction vs generalizing lo cells with
  | nil =>
    obtain ⟨rfl, rfl⟩ := laid
    exact .refl m _ _
  | cons v vs ih =>
    obtain ⟨cell, rest, mid, rfl, first, others⟩ := laid
    exact first.passes.more (ih others)

mutual

theorem Exp.LaidOut.passes : ∀ {e : Exp} {lo : Nat} {item : Lowered} {hi : Nat},
    e.LaidOut source m lo item hi → m.Passes lo [] hi [item.id] ∧ item.Valid m
  | ⟨.nil, _⟩, _, _, _, laid => by
    rw [Exp.LaidOut] at laid
    obtain ⟨v, rfl, gives, rfl⟩ := laid
    exact ⟨gives.passes (by simp), gives.gives.type?_eq rfl⟩
  | ⟨.number n, _⟩, _, _, _, laid => by
    rw [Exp.LaidOut] at laid
    obtain ⟨c, v, -, rfl, gives, rfl⟩ := laid
    exact ⟨gives.passes (by simp), gives.gives.type?_eq rfl⟩
  | ⟨.prefixExp p, _⟩, _, _, _, laid => by
    rw [Exp.LaidOut] at laid
    exact PrefixExp.LaidOut.passes laid

theorem expsLaidOut_passes : ∀ {es : List Exp} {lo : Nat} {items : List Lowered} {hi : Nat},
    expsLaidOut source m es lo items hi → m.Passes lo [] hi (items.map Lowered.id) ∧ m.Listed items
  | [], _, _, _, laid => by
    rw [expsLaidOut] at laid
    obtain ⟨rfl, rfl⟩ := laid
    exact ⟨.refl m _ _, .nil⟩
  | e :: es, _, _, _, laid => by
    rw [expsLaidOut] at laid
    obtain ⟨item, rest, mid, rfl, last, first, others⟩ := laid
    obtain ⟨passes, valid⟩ := Exp.LaidOut.passes first
    obtain ⟨more, listed⟩ := expsLaidOut_passes others
    refine ⟨passes.more more, .cons valid (fun isPack => ?_) listed⟩
    rw [last isPack, expsLaidOut] at others
    exact others.1

theorem PrefixExp.LaidOut.passes : ∀ {p : PrefixExp} {range : Option TextRange} {lo : Nat} {item : Lowered}
    {hi : Nat}, p.LaidOut source m range lo item hi → m.Passes lo [] hi [item.id] ∧ item.Valid m
  | ⟨head, []⟩, _, _, _, _, laid => by
    rw [PrefixExp.LaidOut] at laid
    obtain ⟨v, rfl, laid⟩ := laid
    exact Head.LaidOut.passes laid
  | ⟨head, [call]⟩, _, _, _, _, laid => by
    rw [PrefixExp.LaidOut] at laid
    obtain ⟨callee, mid, p, rfl, laid, called⟩ := laid
    obtain ⟨passes, -⟩ := Head.LaidOut.passes laid
    obtain ⟨more, valid⟩ := Call.LaidOut.passes called
    exact ⟨passes.trans more, valid⟩

theorem Head.LaidOut.passes : ∀ {head : Head} {lo : Nat} {v : Ref} {hi : Nat},
    head.LaidOut source m lo v hi → m.Passes lo [] hi [v.id] ∧ (Lowered.value v).Valid m
  | .var v, _, _, _, laid => by
    rw [Head.LaidOut] at laid
    have passes := Var.LaidOut.passes laid
    obtain ⟨name, -, refers⟩ := laid
    exact ⟨passes, refers.type?_eq⟩
  | .paren e, _, _, _, laid => by
    rw [Head.LaidOut] at laid
    obtain ⟨item, mid, laid, adjusts⟩ := laid
    obtain ⟨passes, valid⟩ := Exp.LaidOut.passes laid
    exact ⟨passes.trans adjusts.passes, adjusts.valid valid⟩

theorem Call.LaidOut.passes : ∀ {call : Call} {callee : Ref} {loc : Location} {lo : Nat} {p : Pack} {hi : Nat},
    call.LaidOut source m callee loc lo p hi → m.Passes lo [callee.id] hi [p.id] ∧ (Lowered.pack p).Valid m
  | ⟨none, args, _⟩, _, _, _, _, _, laid => by
    rw [Call.LaidOut] at laid
    obtain ⟨items, mid, packed, laid, concat, call, rfl⟩ := laid
    obtain ⟨passes, listed⟩ := Args.LaidOut.passes laid
    exact ⟨(passes.frame [_]).trans (listed.concat_call concat call), _, _, _, call.gives⟩

theorem Args.LaidOut.passes : ∀ {args : Args} {lo : Nat} {items : List Lowered} {hi : Nat},
    args.LaidOut source m lo items hi → m.Passes lo [] hi (items.map Lowered.id) ∧ m.Listed items
  | .list es, _, _, _, laid => by
    rw [Args.LaidOut] at laid
    exact expsLaidOut_passes laid
  | .table e, _, _, _, laid | .str e, _, _, _, laid => by
    rw [Args.LaidOut] at laid
    obtain ⟨item, mid, v, rfl, laid, adjusts⟩ := laid
    obtain ⟨passes, valid⟩ := Exp.LaidOut.passes laid
    exact ⟨passes.trans adjusts.passes, .cons (adjusts.valid valid) (fun isPack => by cases isPack) .nil⟩

end

/-- A call statement leaves the pack of its call, an assignment nothing. -/
theorem Stat.LaidOut.passes {stat : Stat} {lo hi : Nat} (laid : stat.LaidOut source m lo hi) (calls : stat.Calls) :
    m.Passes lo [] hi [] ∨ ∃ p range pack, stat = ⟨.call p, range⟩ ∧ p.LaidOut source m range lo (.pack pack) hi := by
  obtain ⟨kind, range⟩ := stat
  cases kind with
  | assign targets values =>
    obtain ⟨cells, mid, items, first, packed, unpacked, ofTargets, ofValues, assigns, rfl⟩ := laid
    obtain ⟨passes, listed⟩ := expsLaidOut_passes ofValues
    have stored := assigns.passes listed
    rw [List.length_map] at stored
    exact .inl (((varsLaidOut_passes ofTargets).more passes).trans stored)
  | call p =>
    obtain ⟨item, laid⟩ := laid
    obtain ⟨head, called⟩ := p
    match called with
    | [] => exact (calls _ rfl rfl).elim
    | [call] =>
      have ⟨callee, mid, pack, isPack, _⟩ := laid
      exact .inr ⟨_, range, pack, rfl, isPack ▸ laid⟩
    | _ :: _ :: _ => simp [PrefixExp.LaidOut] at laid
  | _ => exact laid.elim

/-- Among statements laid out from `lo` to `hi`, the value is the pack that a call statement gives. -/
def Discards (source : Source) (m : Module) (stats : List Stat) (lo hi : Nat) (v : ValueId) : Prop :=
  ∃ before p range after mid pack next, stats = before ++ ⟨.call p, range⟩ :: after ∧
    statsLaidOut source m before lo mid ∧ p.LaidOut source m range mid (.pack pack) next ∧
    statsLaidOut source m after next hi ∧ pack.id = v

theorem Discards.cons {stat : Stat} {stats : List Stat} {lo mid hi : Nat} {v : ValueId}
    (laid : stat.LaidOut source m lo mid) (discards : Discards source m stats mid hi v) :
    Discards source m (stat :: stats) lo hi v := by
  obtain ⟨before, p, range, after, start, pack, next, rfl, front, called, back, same⟩ := discards
  exact ⟨stat :: before, p, range, after, start, pack, next, rfl, ⟨mid, laid, front⟩, called, back, same⟩

/-- What statements leave over are packs of call statements. -/
theorem statsLaidOut_passes {stats : List Stat} {lo hi : Nat} (laid : statsLaidOut source m stats lo hi)
    (calls : ∀ stat ∈ stats, stat.Calls) :
    ∃ left, m.Passes lo [] hi left ∧ ∀ v ∈ left, Discards source m stats lo hi v := by
  induction stats generalizing lo with
  | nil =>
    cases laid
    exact ⟨[], .refl m _ _, by simp⟩
  | cons stat rest ih =>
    obtain ⟨mid, first, others⟩ := laid
    obtain ⟨left, passes, discarded⟩ := ih others fun s member => calls s (List.mem_cons_of_mem _ member)
    rcases first.passes (calls stat List.mem_cons_self) with none | ⟨p, range, pack, rfl, called⟩
    · exact ⟨left, none.trans passes, fun v member => .cons first (discarded v member)⟩
    · refine ⟨pack.id :: left, called.passes.1.more passes, fun v member => ?_⟩
      rcases List.mem_cons.mp member with rfl | later
      · exact ⟨[], p, range, rest, lo, pack, mid, rfl, rfl, called, others, rfl⟩
      · exact .cons first (discarded v later)

/-- The pack of a call statement is left over. -/
theorem Discards.passes {stats : List Stat} {lo hi : Nat} {v : ValueId} (discards : Discards source m stats lo hi v)
    (calls : ∀ stat ∈ stats, stat.Calls) : ∃ left, m.Passes lo [] hi left ∧ v ∈ left := by
  obtain ⟨before, p, range, after, mid, pack, next, rfl, front, called, back, rfl⟩ := discards
  obtain ⟨left, passes, -⟩ := statsLaidOut_passes front fun s member => calls s (by simp [member])
  obtain ⟨more, others, -⟩ := statsLaidOut_passes back fun s member => calls s (by simp [member])
  exact ⟨_, (passes.more called.passes.1).more others, by simp [Lowered.id]⟩

/-- A call gives the pack of a call statement. -/
theorem Discards.given_by_call {stats : List Stat} {lo hi : Nat} {v : ValueId} (discards : Discards source m stats lo hi v) :
    ∃ o op, m.op? o = some op ∧ op.kind = .call ∧ v ∈ op.results := by
  obtain ⟨before, p, range, after, mid, pack, next, -, -, called, -, rfl⟩ := discards
  obtain ⟨-, callee, args, loc, o, b, type, -, -, found⟩ := called.passes
  exact ⟨o, _, found, rfl, List.mem_singleton_self _⟩

end Syntax

/-! ## Whole modules -/

namespace Module
variable {m : Module}

/-- Only one operation gives a value. -/
theorem Linked.op_eq (linked : m.Linked) {o o' : OpId} {op op' : Operation} {v : ValueId} (found : m.op? o = some op)
    (found' : m.op? o' = some op') (result : v ∈ op.results) (result' : v ∈ op'.results) : o = o' ∧ op = op' := by
  obtain ⟨i, listed⟩ := List.getElem?_of_mem result
  obtain ⟨i', listed'⟩ := List.getElem?_of_mem result'
  obtain ⟨type, value⟩ := linked.origins.result o op i v found listed
  obtain ⟨type', value'⟩ := linked.origins.result o' op' i' v found' listed'
  rw [value] at value'
  cases value'
  rw [found] at found'
  cases found'
  exact ⟨rfl, rfl⟩

theorem Linked.nodup_results (linked : m.Linked) : (m.ops.toList.flatMap (·.results)).Nodup := by
  rw [List.nodup_flatMap]
  constructor
  · intro op listed
    obtain ⟨i, found⟩ := List.getElem?_of_mem listed
    obtain ⟨first, range⟩ := linked.origins.consecutive ⟨i⟩ op (by simpa [op?] using found)
    rw [range]
    exact (List.nodup_range' 1).map fun a b same => congrArg ValueId.index same
  · rw [List.pairwise_iff_getElem]
    intro i j bound bound' before v result result'
    rw [Array.length_toList] at bound bound'
    have found : m.op? ⟨i⟩ = some m.ops.toList[i] := by simp [op?, bound]
    have found' : m.op? ⟨j⟩ = some m.ops.toList[j] := by simp [op?, bound']
    have same := congrArg OpId.index (linked.op_eq found found' result result').1
    exact Nat.ne_of_lt before same

/-- A result is given once. -/
theorem Linked.given_eq_one (linked : m.Linked) {o : OpId} {op : Operation} {v : ValueId}
    (found : m.op? o = some op) (result : v ∈ op.results) : m.given v m.ops.size = 1 := by
  rw [given, List.take_of_length_le (by simp)]
  have listed := Array.mem_toList_iff.mpr (Array.mem_of_getElem? found)
  exact List.count_eq_one_of_mem linked.nodup_results (List.mem_flatMap.mpr ⟨op, listed, result⟩)

end Module

namespace Syntax.Chunk
variable {chunk : Chunk} {source : Source} {m : Module} {v : ValueId}

/-- The value is the pack that a call statement of the chunk gives. -/
def Discards (chunk : Chunk) (source : Source) (m : Module) (v : ValueId) : Prop :=
  ∃ n, m.ops.size = n + 1 ∧ Syntax.Discards source m chunk.block.stats 0 n v

/-- What the statements leave over is not used, and everything else is used once. -/
theorem uses_of_passes {n : Nat} {left : List ValueId} {loc : Location} (linked : m.Linked)
    (passes : m.Passes 0 [] n left) (size : m.ops.size = n + 1)
    (ended : m.op? ⟨n⟩ = some ⟨.ret, ⟨0⟩, [], [], [], loc⟩) {o : OpId} {op : Operation}
    (found : m.op? o = some op) (result : v ∈ op.results) (other : op.kind ≠ .getOrAlloc) :
    m.uses v + left.count v = 1 := by
  have temporary : m.Temporary v := fun o' op' found' cell result' =>
    other ((linked.op_eq found found' result result').2 ▸ cell)
  have ret := Module.Passes.op ended (by simp)
  have balance := (passes.more ret).balance v temporary
  have once := linked.given_eq_one found result
  have all : m.taken v (n + 1) = m.uses v := by
    rw [Module.taken, ← size, List.take_of_length_le (by simp), Module.uses]
  rw [size] at once
  have start : m.taken v 0 = 0 ∧ m.given v 0 = 0 := by simp [Module.taken, Module.given]
  simp only [List.append_nil, List.count_nil] at balance
  omega

/-- Where the call statements of a chunk call something, a value that is not a cell is used at most once, and not at all
just if it is the pack of a call statement. -/
theorem uses_of_lower {c : Catalogue} (lowered : chunk.lower source c = .ok m)
    (calls : ∀ stat ∈ chunk.block.stats, stat.Calls) {o : OpId} {op : Operation} (found : m.op? o = some op)
    (result : v ∈ op.results) (other : op.kind ≠ .getOrAlloc) :
    m.uses v ≤ 1 ∧ (m.uses v = 0 ↔ chunk.Discards source m v) := by
  have linked := (onlyMain_of_lower lowered).linked
  obtain ⟨n, stats, size, ended⟩ := laidOut_of_lower lowered
  obtain ⟨left, passes, discarded⟩ := statsLaidOut_passes stats calls
  have counted := uses_of_passes linked passes size ended found result other
  refine ⟨by omega, fun unused => ?_, fun ⟨n', size', discards⟩ => ?_⟩
  · exact ⟨n, size, discarded v (List.count_pos_iff.mp (by omega))⟩
  · have same : n' = n := by omega
    rw [same] at discards
    obtain ⟨left', passes', member⟩ := discards.passes calls
    have counted' := uses_of_passes linked passes' size ended found result other
    have positive := List.count_pos_iff.mpr member
    omega

theorem Discards.kind_eq (discards : chunk.Discards source m v) (linked : m.Linked) {o : OpId} {op : Operation}
    (found : m.op? o = some op) (result : v ∈ op.results) : op.kind = .call := by
  obtain ⟨n, -, discards⟩ := discards
  obtain ⟨o', op', found', isCall, result'⟩ := discards.given_by_call
  rw [(linked.op_eq found found' result result').2]
  exact isCall

theorem concatUsed_of_lower {c : Catalogue} (lowered : chunk.lower source c = .ok m)
    (calls : ∀ stat ∈ chunk.block.stats, stat.Calls) {i : Nat} {op : Operation} (found : m.op? ⟨i⟩ = some op)
    (isConcat : op.kind = .concat) : m.ConcatUsed i op := by
  obtain ⟨n, stats, size, ended⟩ := laidOut_of_lower lowered
  obtain ⟨left, passes, -⟩ := statsLaidOut_passes stats calls
  have bound : i < n + 1 := size ▸ Module.op?_lt found
  exact (passes.more (.op ended (by simp))).concats i op (Nat.zero_le i) bound found isConcat

end Syntax.Chunk

open Syntax

/-- In the module of a script, values are used linearly. A nil, a number, a concat and what is unpacked are used once,
and so is what a call gives, but for the outermost call of a call statement, whose pack is not used. Only cells are used
more than once. A concat is used by the operation right after it, and only its last operand may be a pack, which a call
gives. -/
theorem Source.compile_linear {source : Source} {m : Module} (compiled : source.compile = .ok m) :
    ∃ chunk, Chunk.parse source = .ok chunk ∧
      (∀ o op v, m.op? o = some op → v ∈ op.results →
        (op.kind ∈ ([.nil, .number, .concat, .unpack] : List OpKind) → m.uses v = 1) ∧
        (op.kind = .call → m.uses v ≤ 1 ∧ (m.uses v = 0 ↔ chunk.Discards source m v)) ∧
        (1 < m.uses v → op.kind = .getOrAlloc)) ∧
      ∀ i op, m.op? ⟨i⟩ = some op → op.kind = .concat → m.ConcatUsed i op := by
  obtain ⟨chunk, read, lowered⟩ := lower_of_compile compiled
  have calls := Chunk.parse_calls read
  refine ⟨chunk, read, fun o op v found result => ⟨fun once => ?_, fun isCall => ?_, fun twice => ?_⟩,
    fun i op found isConcat => Chunk.concatUsed_of_lower lowered calls found isConcat⟩
  · have uses := Chunk.uses_of_lower lowered calls found result (by rintro isCell; simp [isCell] at once)
    have used : m.uses v ≠ 0 := by
      intro unused
      have linked := (Chunk.onlyMain_of_lower lowered).linked
      have isCall := (uses.2.mp unused).kind_eq linked found result
      simp [isCall] at once
    omega
  · exact Chunk.uses_of_lower lowered calls found result (by simp [isCall])
  · by_contra other
    have uses := Chunk.uses_of_lower lowered calls found result other
    omega

/-- A script with three calls: in parentheses, as the last argument and as a statement. -/
def Source.threeCalls : Source := ⟨"main.lua", "x = (f(1)) g(nil, f(x))"⟩

/-- Only the pack of the statement is discarded. -/
theorem Source.compile_linear_threeCalls : ∃ m chunk, threeCalls.compile = .ok m ∧
    Chunk.parse threeCalls = .ok chunk ∧ m.uses ⟨11⟩ = 1 ∧ ¬ chunk.Discards threeCalls m ⟨11⟩ ∧
    m.uses ⟨13⟩ = 0 ∧ chunk.Discards threeCalls m ⟨13⟩ := by
  have placed (i : Nat) (listed : i ∈ [12, 14]) : threeCalls.compile.toOption.bind (fun m =>
      (m.op? ⟨i⟩).map fun op => (op.kind, op.results, op.results.map m.uses)) =
      some (.call, [⟨i - 1⟩], [if i = 12 then 1 else 0]) := by
    revert i
    decide +kernel
  cases compiled : threeCalls.compile with
  | error e =>
    rw [compiled] at placed
    cases placed 12 (by simp)
  | ok m =>
    simp only [compiled, Except.toOption, Option.bind_some, Option.map_eq_some_iff, Prod.mk.injEq] at placed
    obtain ⟨inner, found, isCall, given, used⟩ := placed 12 (by simp)
    obtain ⟨outer, found', isCall', given', unused⟩ := placed 14 (by simp)
    simp only [given, given', List.map_cons, List.map_nil, List.cons.injEq, and_true] at used unused
    obtain ⟨chunk, read, linear, -⟩ := compile_linear compiled
    have ofInner := (linear ⟨12⟩ inner ⟨11⟩ found (by simp [given])).2.1 isCall
    have ofOuter := (linear ⟨14⟩ outer ⟨13⟩ found' (by simp [given'])).2.1 isCall'
    refine ⟨m, chunk, rfl, read, used, fun discards => ?_, unused, ofOuter.2.mp unused⟩
    exact absurd (ofInner.2.mpr discards) (by simp [used])

end LuaLowering
