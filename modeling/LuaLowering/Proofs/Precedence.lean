import LuaLowering.Proofs.Grouping
import LuaLowering.Proofs.Placement
/-!
# Precedence of operators

The operators of an expression are grouped as Lua's table of operators prescribes. `precedence` is the table, and
`Exp.Prescribed` says of each operator with its operands that they stand as the table wants. Read from left to right,
the expression made of a phrase is the row of operators and operands in the phrase, it is prescribed, and there is no
other prescribed expression with this row (`expOf_prescribed`).
-/
namespace LuaLowering.Syntax
open Peg

/-! ## The table -/

/-- Operators from the loosest to the tightest; `none` stands for the unary ones. -/
def precedence : List (List (Option BinaryOp)) :=
  [[some .or], [some .and], [some .lt, some .gt, some .le, some .ge, some .ne, some .eq], [some .bor], [some .bxor],
    [some .band], [some .shl, some .shr], [some .concat], [some .add, some .sub],
    [some .mul, some .div, some .idiv, some .mod], [none], [some .pow]]

/-- The line of the table in which an operator stands. -/
def tier (op : Option BinaryOp) : Nat := precedence.findIdx (·.contains op)

theorem BinaryOp.level_eq_tier (op : BinaryOp) : op.level = tier (some op) + 1 := by
  cases op <;> rfl

theorem UnaryOp.level_eq_tier : UnaryOp.level = tier none + 1 := rfl

theorem BinaryOp.groupsRight_iff (op : BinaryOp) : op.groupsRight = true ↔ op = .concat ∨ op = .pow := by
  cases op <;> simp [groupsRight]

/-- No binary operator stands in the line of the unary ones, and only the power stands below. -/
theorem tier_binary (op : BinaryOp) : tier (some op) < tier none ∨ op = .pow := by
  cases op <;> first | exact .inl (by decide) | exact .inr rfl

namespace Exp

/-- The operator that an expression consists of, if any; `some none` is a unary one. -/
def operator? : Exp → Option (Option BinaryOp)
  | ⟨.binary op _ _, _⟩ => some (some op)
  | ⟨.unary _ _, _⟩ => some none
  | _ => none

/-- Every operator has the operands that it should have. To the left of a binary operator, an operator binds tighter, or
as tightly if they group to the left; to the right, a binary operator binds tighter, or as tightly if they group to
the right. Behind a unary operator, the only binary operator is the power. -/
inductive Prescribed : Exp → Prop where
  | primary {e : Exp} (primary : e.operator? = none) : Prescribed e
  | unary {op : UnaryOp} {a : Exp} {range : Option TextRange} (inner : a.Prescribed)
      (power : ∀ o, a.operator? = some (some o) → o = .pow) : Prescribed ⟨.unary op a, range⟩
  | binary {op : BinaryOp} {a b : Exp} {range : Option TextRange} (ofLeft : a.Prescribed) (ofRight : b.Prescribed)
      (left : ∀ o, a.operator? = some o →
        tier (some op) < tier o ∨ tier (some op) = tier o ∧ ¬ (op = .concat ∨ op = .pow))
      (right : ∀ o, b.operator? = some (some o) →
        tier (some op) < tier (some o) ∨ tier (some op) = tier (some o) ∧ (op = .concat ∨ op = .pow)) :
      Prescribed ⟨.binary op a b, range⟩

/-- Induction along the operators of an expression. -/
theorem operator_induction {P : Exp → Prop} (primary : ∀ e : Exp, e.operator? = none → P e)
    (unary : ∀ op a range, P a → P ⟨.unary op a, range⟩)
    (binary : ∀ op a b range, P a → P b → P ⟨.binary op a b, range⟩) : ∀ e : Exp, P e
  | ⟨.binary op a b, range⟩ =>
    binary op a b range (operator_induction primary unary binary a) (operator_induction primary unary binary b)
  | ⟨.unary op a, range⟩ => unary op a range (operator_induction primary unary binary a)
  | ⟨.nil, _⟩ | ⟨.false, _⟩ | ⟨.true, _⟩ | ⟨.varArgs, _⟩ | ⟨.number _, _⟩ | ⟨.str _, _⟩ | ⟨.function _, _⟩
  | ⟨.prefixExp _, _⟩ | ⟨.table _, _⟩ => primary _ rfl

theorem operator?_eq_unary {e : Exp} (unary : e.operator? = some none) : ∃ op a range, e = ⟨.unary op a, range⟩ := by
  obtain ⟨kind, range⟩ := e
  cases kind with
  | unary op a => exact ⟨op, a, range, rfl⟩
  | _ => cases unary

theorem operator?_eq_binary {e : Exp} {o : BinaryOp} (binary : e.operator? = some (some o)) :
    ∃ a b range, e = ⟨.binary o a b, range⟩ := by
  obtain ⟨kind, range⟩ := e
  cases kind with
  | binary op a b =>
    cases binary
    exact ⟨a, b, range, rfl⟩
  | _ => cases binary

theorem operator?_erase (e : Exp) : e.erase.operator? = e.operator? := by
  obtain ⟨kind, range⟩ := e
  cases kind <;> simp only [relabel, ExpKind.relabel, operator?]

theorem operator?_eq_of_erase {e e' : Exp} (same : e'.erase = e.erase) : e'.operator? = e.operator? := by
  rw [← operator?_erase, same, operator?_erase]

/-! The table agrees with the levels by which operators are grouped. -/

theorem fitsUnary_of_power {a : Exp} (power : ∀ o, a.operator? = some (some o) → o = .pow) : a.fitsUnary = true := by
  obtain ⟨kind, range⟩ := a
  cases kind with
  | binary o l r =>
    cases power o rfl
    rfl
  | _ => rfl

theorem fitsLeft_of_tier {op : BinaryOp} {a : Exp} (left : ∀ o, a.operator? = some o →
    tier (some op) < tier o ∨ tier (some op) = tier o ∧ ¬ (op = .concat ∨ op = .pow)) : a.fitsLeft op = true := by
  obtain ⟨kind, range⟩ := a
  cases kind with
  | binary o l r =>
    have tighter := left _ rfl
    simp only [Exp.fitsLeft, BinaryOp.level_eq_tier, Bool.or_eq_true, decide_eq_true_eq, Bool.and_eq_true,
      beq_iff_eq, Bool.not_eq_true', Nat.add_lt_add_iff_right, Nat.add_right_cancel_iff]
    rwa [← BinaryOp.groupsRight_iff, Bool.not_eq_true] at tighter
  | unary o l =>
    have tighter := left _ rfl
    rcases tier_binary op with looser | rfl
    · rw [Exp.fitsLeft, BinaryOp.level_eq_tier, UnaryOp.level_eq_tier]
      exact decide_eq_true (Nat.add_lt_add_right looser 1)
    · exact absurd tighter (by decide)
  | _ => rfl

theorem fitsRight_of_tier {op : BinaryOp} {b : Exp} (right : ∀ o, b.operator? = some (some o) →
    tier (some op) < tier (some o) ∨ tier (some op) = tier (some o) ∧ (op = .concat ∨ op = .pow)) :
    b.fitsRight op = true := by
  obtain ⟨kind, range⟩ := b
  cases kind with
  | binary o l r =>
    have tighter := right _ rfl
    simp only [Exp.fitsRight, BinaryOp.level_eq_tier, Bool.or_eq_true, decide_eq_true_eq, Bool.and_eq_true,
      beq_iff_eq, Nat.add_lt_add_iff_right, Nat.add_right_cancel_iff]
    rwa [← BinaryOp.groupsRight_iff] at tighter
  | _ => rfl

theorem Prescribed.isGrouped {e : Exp} (prescribed : e.Prescribed) : e.isGrouped = true := by
  induction prescribed with
  | @primary e primary =>
    obtain ⟨kind, range⟩ := e
    cases kind with
    | unary op a => cases primary
    | binary op a b => cases primary
    | _ => rfl
  | unary inner power ih =>
    rw [Exp.isGrouped, ih, fitsUnary_of_power power]
    rfl
  | binary ofLeft ofRight left right ihLeft ihRight =>
    rw [Exp.isGrouped, ihLeft, ihRight, fitsLeft_of_tier left, fitsRight_of_tier right]
    rfl

/-! ## Grafting keeps to the table -/

theorem operator?_graft (op : BinaryOp) (rhs lhs : Exp) :
    (graft op rhs lhs).operator? = lhs.operator? ∨ (graft op rhs lhs).operator? = some (some op) := by
  unfold graft
  split
  · split
    · exact .inl rfl
    · exact .inr rfl
  · split
    · exact .inl rfl
    · exact .inr rfl
  · exact .inr rfl

theorem graft_of_primary {op : BinaryOp} {lhs : Exp} (rhs : Exp) (primary : lhs.operator? = none) :
    graft op rhs lhs = Exp.binary op lhs rhs := by
  unfold graft
  split
  · cases primary
  · cases primary
  · rfl

/-- An operand that is no binary operation is put where the table wants it. -/
theorem Prescribed.graft {op : BinaryOp} {rhs lhs : Exp} (ofLeft : lhs.Prescribed) (ofRight : rhs.Prescribed)
    (single : ∀ o, rhs.operator? ≠ some (some o)) : (Exp.graft op rhs lhs).Prescribed := by
  have right (o : BinaryOp) (binary : rhs.operator? = some (some o)) :
      tier (some op) < tier (some o) ∨ tier (some op) = tier (some o) ∧ (op = .concat ∨ op = .pow) :=
    (single o binary).elim
  induction ofLeft with
  | primary primary =>
    rw [graft_of_primary rhs primary]
    refine .binary (.primary primary) ofRight (fun o operator => ?_) right
    rw [primary] at operator
    cases operator
  | @unary o a range inner power ih =>
    rw [Exp.graft]
    split
    · refine .unary ih fun p operator => ?_
      rcases operator?_graft op rhs a with same | same
      · exact power p (same ▸ operator)
      · cases same.symm.trans operator
        rename_i tighter
        rw [BinaryOp.level_eq_tier, UnaryOp.level_eq_tier] at tighter
        exact (tier_binary op).resolve_left (by omega)
    · rename_i looser
      refine .binary (.unary inner power) ofRight (fun p operator => ?_) right
      cases operator
      rcases tier_binary op with below | rfl
      · exact .inl below
      · exact (looser (by decide)).elim
  | @binary o a b range left _ fitsLeft fitsRight _ ih =>
    rw [Exp.graft]
    split
    · rename_i yields
      refine .binary left ih fitsLeft fun p operator => ?_
      rcases operator?_graft op rhs b with same | same
      · exact fitsRight p (same ▸ operator)
      · cases same.symm.trans operator
        simp only [BinaryOp.yieldsTo, Bool.or_eq_true, decide_eq_true_eq, Bool.and_eq_true, beq_iff_eq] at yields
        rcases yields with tighter | ⟨level, groups⟩
        · rw [BinaryOp.level_eq_tier, BinaryOp.level_eq_tier] at tighter
          exact .inl (by omega)
        · have side : o.groupsRight = true := (BinaryOp.groupsRight_of_level_eq level).trans groups
          rw [BinaryOp.level_eq_tier, BinaryOp.level_eq_tier] at level
          exact .inr ⟨by omega, (BinaryOp.groupsRight_iff o).mp side⟩
    · rename_i stays
      refine .binary (.binary left ‹_› fitsLeft fitsRight) ofRight (fun p operator => ?_) right
      cases operator
      simp only [BinaryOp.yieldsTo, Bool.or_eq_true, decide_eq_true_eq, Bool.and_eq_true, beq_iff_eq, not_or,
        not_and, BinaryOp.level_eq_tier] at stays
      rcases Nat.lt_or_eq_of_le (Nat.le_of_not_lt (fun less => stays.1 (Nat.add_lt_add_right less 1))) with below | same
      · exact .inl below
      · exact .inr ⟨same, fun side => stays.2 (congrArg (· + 1) same.symm) ((BinaryOp.groupsRight_iff op).mpr side)⟩

end Exp

/-! ## Rows -/

/-- What an expression is made of, as written. -/
inductive RowItem where
  | unary (op : UnaryOp)
  | binary (op : BinaryOp)
  | operand (e : Exp)

/-- The operators and operands of an expression from left to right. -/
def Exp.row : Exp → List RowItem
  | ⟨.binary op a b, _⟩ => a.row ++ .binary op :: b.row
  | ⟨.unary op a, _⟩ => .unary op :: a.row
  | e => [.operand e]

def Operand.row (o : Operand) : List RowItem := o.unary.map (fun pair => .unary pair.1) ++ [.operand o.exp]

def FlatExp.row (f : FlatExp) : List RowItem :=
  f.first.row ++ f.rest.flatMap fun pair => .binary pair.1 :: pair.2.row

/-- The operands themselves are no operations. -/
def FlatExp.Primary (f : FlatExp) : Prop :=
  f.first.exp.operator? = none ∧ ∀ pair ∈ f.rest, pair.2.exp.operator? = none

namespace Exp

theorem row_of_primary {e : Exp} (primary : e.operator? = none) : e.row = [.operand e] := by
  obtain ⟨kind, range⟩ := e
  cases kind with
  | unary op a => cases primary
  | binary op a b => cases primary
  | _ => rfl

theorem row_unary (op : UnaryOp) (range : Option TextRange) (a : Exp) :
    (Exp.unary op range a).row = .unary op :: a.row := by
  rw [Exp.unary, row]

theorem row_binary (op : BinaryOp) (a b : Exp) : (Exp.binary op a b).row = a.row ++ .binary op :: b.row := by
  rw [Exp.binary, row]

theorem row_graft (op : BinaryOp) (rhs lhs : Exp) : (graft op rhs lhs).row = lhs.row ++ .binary op :: rhs.row := by
  fun_induction graft op rhs lhs with
  | case1 o a b range _ ih => rw [row_binary, ih, row, List.append_assoc, List.cons_append]
  | case2 o a b range _ => rw [row_binary]
  | case3 o a range _ ih => rw [row_unary, ih, row, List.cons_append]
  | case4 o a range _ => rw [row_binary]
  | case5 lhs _ _ => rw [row_binary]

theorem row_flat (e : Exp) : e.flat.row = e.row := by
  induction e using operator_induction with
  | primary e primary =>
    obtain ⟨kind, range⟩ := e
    cases kind with
    | unary op a => cases primary
    | binary op a b => cases primary
    | _ => rfl
  | unary op a range ih =>
    rw [flat, row, ← ih]
    rfl
  | binary op a b range ihLeft ihRight =>
    rw [flat, row, ← ihLeft, ← ihRight]
    simp [FlatExp.row]

end Exp

theorem Operand.row_toExp {o : Operand} (primary : o.exp.operator? = none) : o.toExp.row = o.row := by
  obtain ⟨ops, e⟩ := o
  change e.operator? = none at primary
  simp only [toExp, row]
  induction ops with
  | nil => exact Exp.row_of_primary primary
  | cons pair ops ih => rw [List.foldr_cons, Exp.row_unary, ih, List.map_cons, List.cons_append]

theorem Operand.prescribed_toExp {o : Operand} (primary : o.exp.operator? = none) :
    o.toExp.Prescribed ∧ ∀ p, o.toExp.operator? ≠ some (some p) := by
  obtain ⟨ops, e⟩ := o
  change e.operator? = none at primary
  simp only [toExp]
  induction ops with
  | nil => exact ⟨.primary primary, fun p operator => by cases primary.symm.trans operator⟩
  | cons pair ops ih =>
    rw [List.foldr_cons]
    exact ⟨.unary ih.1 fun p operator => (ih.2 p operator).elim, fun p operator => by cases operator⟩

/-- Grouping keeps the row and keeps to the table: each operand is added at the end of the row, where the table wants
it. -/
theorem FlatExp.assemble_prescribed {f : FlatExp} (primary : f.Primary) :
    f.assemble.row = f.row ∧ f.assemble.Prescribed := by
  obtain ⟨first, rest⟩ := f
  obtain ⟨ofFirst, ofRest⟩ := primary
  simp only [assemble, row]
  have firstRow := Operand.row_toExp ofFirst
  have prescribed := (Operand.prescribed_toExp ofFirst).1
  rw [← firstRow]
  clear firstRow ofFirst
  generalize first.toExp = lhs at prescribed
  induction rest generalizing lhs with
  | nil => exact ⟨by simp, prescribed⟩
  | cons pair rest ih =>
    obtain ⟨here, later⟩ := List.forall_mem_cons.mp ofRest
    obtain ⟨single, notBinary⟩ := Operand.prescribed_toExp here
    obtain ⟨row, grouped⟩ := ih later (Exp.graft pair.1 pair.2.toExp lhs) (prescribed.graft single notBinary)
    refine ⟨?_, grouped⟩
    rw [List.foldl_cons, row, Exp.row_graft, Operand.row_toExp here, List.flatMap_cons, List.append_assoc]

/-! ## There is no other -/

/-- An operand ends where its row ends. -/
theorem Operand.erase_eq_of_row {o o' : Operand} {s s' : List RowItem} (same : o.row ++ s = o'.row ++ s') :
    o.erase = o'.erase ∧ s = s' := by
  obtain ⟨ops, e⟩ := o
  obtain ⟨ops', e'⟩ := o'
  simp only [row, erase] at same ⊢
  induction ops generalizing ops' with
  | nil =>
    cases ops' with
    | nil =>
      simp only [List.map_nil, List.nil_append, List.cons_append, List.cons.injEq, RowItem.operand.injEq] at same
      simp [same]
    | cons pair' ops' => simp at same
  | cons pair ops ih =>
    cases ops' with
    | nil => simp at same
    | cons pair' ops' =>
      simp only [List.map_cons, List.cons_append, List.cons.injEq, RowItem.unary.injEq] at same
      obtain ⟨here, later⟩ := ih ops' same.2
      simp only [Operand.mk.injEq] at here
      simp [same.1, here, later]

theorem FlatExp.erase_eq_of_row {f f' : FlatExp} (same : f.row = f'.row) : f.erase = f'.erase := by
  obtain ⟨first, rest⟩ := f
  obtain ⟨first', rest'⟩ := f'
  simp only [row, erase] at same ⊢
  induction rest generalizing first first' rest' with
  | nil =>
    cases rest' with
    | nil =>
      obtain ⟨here, -⟩ := Operand.erase_eq_of_row same
      simp [here]
    | cons pair' rest' =>
      obtain ⟨-, later⟩ := Operand.erase_eq_of_row same
      simp at later
  | cons pair rest ih =>
    cases rest' with
    | nil =>
      obtain ⟨-, later⟩ := Operand.erase_eq_of_row same
      simp at later
    | cons pair' rest' =>
      obtain ⟨here, later⟩ := Operand.erase_eq_of_row same
      simp only [List.flatMap_cons, List.cons_append, List.cons.injEq, RowItem.binary.injEq] at later
      have rest_eq := ih pair.2 pair'.2 rest' later.2
      simp only [FlatExp.mk.injEq] at rest_eq
      simp [here, later.1, rest_eq]

namespace Exp

/-- The expression with its operands as they are, but without the ranges of its operators. -/
def bare : Exp → Exp
  | ⟨.binary op a b, _⟩ => ⟨.binary op a.bare b.bare, none⟩
  | ⟨.unary op a, _⟩ => ⟨.unary op a.bare, none⟩
  | e => e

theorem length_row_erase (e : Exp) : e.erase.row.length = e.row.length := by
  induction e using operator_induction with
  | primary e primary =>
    rw [row_of_primary primary, row_of_primary ((operator?_erase e).trans primary)]
    rfl
  | unary op a range ih =>
    rw [erase, relabel, ExpKind.relabel, row, row, List.length_cons, List.length_cons, ih]
  | binary op a b range ihLeft ihRight =>
    rw [erase, relabel, ExpKind.relabel, row, row, List.length_append, List.length_append, List.length_cons,
      List.length_cons, ihLeft, ihRight]

/-- Of the same form and with the same row, expressions differ at most in the ranges of their operators. -/
theorem bare_eq_of_row {e e' : Exp} (same : e'.erase = e.erase) (sameRow : e'.row = e.row) : e'.bare = e.bare := by
  have operator := operator?_eq_of_erase same
  induction e using operator_induction generalizing e' with
  | primary e primary =>
    rw [primary] at operator
    rw [row_of_primary primary, row_of_primary operator] at sameRow
    cases sameRow
    rfl
  | unary op a range ih =>
    obtain ⟨op', a', range', rfl⟩ := operator?_eq_unary operator
    simp only [relabel, ExpKind.relabel, Exp.mk.injEq, ExpKind.unary.injEq, and_true] at same
    rw [row, row, List.cons.injEq] at sameRow
    have inner := ih same.2 sameRow.2 (operator?_eq_of_erase same.2)
    rw [bare, bare, same.1, inner]
  | binary op a b range ihLeft ihRight =>
    obtain ⟨a', b', range', rfl⟩ := operator?_eq_binary operator
    simp only [relabel, ExpKind.relabel, Exp.mk.injEq, ExpKind.binary.injEq, and_true, true_and] at same
    obtain ⟨left, right⟩ : a'.erase = a.erase ∧ b'.erase = b.erase := same
    have length : a'.row.length = a.row.length := by rw [← length_row_erase, left, length_row_erase]
    rw [row, row] at sameRow
    obtain ⟨leftRow, rest⟩ := List.append_inj sameRow length
    rw [List.cons.injEq] at rest
    have ofLeft := ihLeft left leftRow (operator?_eq_of_erase left)
    have ofRight := ihRight right rest.2 (operator?_eq_of_erase right)
    rw [bare, bare, ofLeft, ofRight]

theorem Prescribed.unique {e e' : Exp} (prescribed : e.Prescribed) (prescribed' : e'.Prescribed)
    (sameRow : e'.row = e.row) : e'.bare = e.bare := by
  have flats : e'.flat.erase = e.flat.erase := FlatExp.erase_eq_of_row (by rw [row_flat, row_flat, sameRow])
  have same : e'.erase = e.erase := by
    rw [← assemble_flat prescribed'.isGrouped, flats, assemble_flat prescribed.isGrouped]
  exact bare_eq_of_row same sameRow

end Exp

/-! ## Expressions from trees -/

/-- What a tree in a phrase for an expression stands for. -/
def rowItemOf : ParseTree Rule → FromTree RowItem
  | .token (.unary op) _ _ => .ok (.unary op)
  | .token (.binary op) _ _ => .ok (.binary op)
  | t => .operand <$> primaryOf t

theorem primaryOf_operator? {t : ParseTree Rule} {e : Exp} (made : primaryOf t = .ok e) : e.operator? = none := by
  unfold primaryOf at made
  split at made
  case h_10 => cases made
  all_goals
    repeat obtain ⟨_, -, made⟩ := bind_ok made
    cases made
    rfl

theorem rowItemOf_of_primaryOf {t : ParseTree Rule} {e : Exp} (made : primaryOf t = .ok e) :
    rowItemOf t = .ok (.operand e) := by
  unfold rowItemOf
  split
  · cases made
  · cases made
  · rw [made]
    rfl

/-- The operands and operators of a phrase are its row. -/
theorem flatExpOf_mapM {range : TextRange} {ts : List (ParseTree Rule)} {f : FlatExp}
    (made : flatExpOf range ts = .ok f) : ts.mapM rowItemOf = .ok f.row ∧ f.Primary := by
  rw [flatExpOf.eq_def] at made
  split at made
  next op start text ts =>
    obtain ⟨more, rest, made⟩ := bind_ok made
    cases made
    obtain ⟨items, primary⟩ := flatExpOf_mapM rest
    rw [List.mapM_cons, items]
    exact ⟨rfl, primary⟩
  next t other =>
    obtain ⟨e, operand, made⟩ := bind_ok made
    cases made
    rw [List.mapM_cons, rowItemOf_of_primaryOf operand]
    exact ⟨rfl, primaryOf_operator? operand, by simp⟩
  next t op start text ts other =>
    obtain ⟨e, operand, made⟩ := bind_ok made
    obtain ⟨more, rest, made⟩ := bind_ok made
    cases made
    obtain ⟨items, primary⟩ := flatExpOf_mapM rest
    rw [List.mapM_cons, rowItemOf_of_primaryOf operand, List.mapM_cons, items]
    exact ⟨rfl, primaryOf_operator? operand, List.forall_mem_cons.mpr primary⟩
  · cases made
termination_by ts.length

/-! ## Rows of the grammar -/

/-- The rules of operands. -/
def primaryRules : List Rule :=
  [.nil, .false, .true, .number, .string, .varArgs, .functionDef, .table, .prefixExp]

/-- The rules in a phrase for an expression: operands behind unary operators, with a binary operator between two. -/
inductive ExpRow : List Rule → Prop where
  | last {r : Rule} (operand : r ∈ primaryRules) : ExpRow [r]
  | unary (op : UnaryOp) {rs : List Rule} (rest : ExpRow rs) : ExpRow (.unary op :: rs)
  | more {r : Rule} (operand : r ∈ primaryRules) (op : BinaryOp) {rs : List Rule} (rest : ExpRow rs) :
      ExpRow (r :: .binary op :: rs)

theorem yields_any {α : Type} (f : α → Rule) (xs : List α) {rs : List Rule} (nonempty : xs ≠ [])
    (yields : (Pattern.any (xs.map fun x => Pattern.rule (f x))).Yields rs) : ∃ x ∈ xs, rs = [f x] := by
  induction xs with
  | nil => exact absurd rfl nonempty
  | cons x xs ih =>
    cases xs with
    | nil =>
      cases yields
      exact ⟨x, by simp, rfl⟩
    | cons x' xs =>
      cases yields with
      | altFirst first =>
        cases first
        exact ⟨x, by simp, rfl⟩
      | altSecond second =>
        obtain ⟨y, member, rfl⟩ := ih (by simp) second
        exact ⟨y, by simp [member], rfl⟩

theorem yields_star_unaryOp {rs : List Rule} (yields : (Pattern.star Grammar.unaryOp).Yields rs) :
    ∃ ops : List UnaryOp, rs = ops.map Rule.unary := by
  generalize pattern : Pattern.star Grammar.unaryOp = p at yields
  induction yields with
  | starDone _ => exact ⟨[], rfl⟩
  | starMore round rest _ ih =>
    cases pattern
    obtain ⟨op, -, rfl⟩ := yields_any Rule.unary UnaryOp.all (by decide) round
    obtain ⟨ops, rfl⟩ := ih rfl
    exact ⟨op :: ops, rfl⟩
  | _ => cases pattern

theorem yields_operand {rs : List Rule} (yields : Grammar.operand.Yields rs) :
    ∃ (ops : List UnaryOp) (r : Rule), r ∈ primaryRules ∧ rs = ops.map Rule.unary ++ [r] := by
  cases yields with
  | seq first second =>
    obtain ⟨ops, rfl⟩ := yields_star_unaryOp first
    obtain ⟨r, member, rfl⟩ := yields_any id primaryRules (by decide) second
    exact ⟨ops, r, member, rfl⟩

theorem ExpRow.unaries (ops : List UnaryOp) {rs : List Rule} (row : ExpRow rs) : ExpRow (ops.map Rule.unary ++ rs) := by
  induction ops with
  | nil => exact row
  | cons op ops ih => exact .unary op ih

theorem expRow_of_star {rs : List Rule}
    (yields : (Pattern.star (.seq Grammar.binaryOp Grammar.operand)).Yields rs) {r : Rule}
    (operand : r ∈ primaryRules) : ExpRow (r :: rs) := by
  generalize pattern : Pattern.star (.seq Grammar.binaryOp Grammar.operand) = p at yields
  induction yields generalizing r with
  | starDone _ => exact .last operand
  | starMore round rest _ ih =>
    cases pattern
    cases round with
    | seq first second =>
      obtain ⟨op, -, rfl⟩ := yields_any Rule.binary _ (by decide) first
      obtain ⟨ops, r', next, rfl⟩ := yields_operand second
      rw [List.append_assoc, List.append_assoc]
      exact .more operand op (.unaries ops (ih next rfl))
  | _ => cases pattern

theorem expRow_of_formed {range : TextRange} {ts : List (ParseTree Rule)}
    (formed : (ParseTree.phrase Rule.exp range ts).Formed grammar) : ExpRow (ts.map ParseTree.rule) := by
  cases formed with
  | phrase rule yields _ =>
    cases rule
    generalize ts.map ParseTree.rule = rs at yields
    cases yields with
    | seq first second =>
      obtain ⟨ops, r, operand, rfl⟩ := yields_operand first
      rw [List.append_assoc]
      exact .unaries ops (expRow_of_star second operand)

theorem primaryOf_of_rowItemOf {t : ParseTree Rule} {item : RowItem} (operand : t.rule ∈ primaryRules)
    (made : rowItemOf t = .ok item) : ∃ e, primaryOf t = .ok e := by
  unfold rowItemOf at made
  split at made
  · simp [ParseTree.rule, primaryRules] at operand
  · simp [ParseTree.rule, primaryRules] at operand
  · cases found : primaryOf t with
    | ok e => exact ⟨e, rfl⟩
    | error e =>
      rw [found] at made
      cases made

/-- If the operands of a row can be made, so can the row. -/
theorem flatExpOf_of_mapM {rs : List Rule} (row : ExpRow rs) {ts : List (ParseTree Rule)}
    (rules : ts.map ParseTree.rule = rs) (formed : ∀ t ∈ ts, t.Formed grammar) {items : List RowItem}
    (made : ts.mapM rowItemOf = .ok items) (range : TextRange) : ∃ f, flatExpOf range ts = .ok f := by
  induction row generalizing ts items with
  | last operand =>
    obtain ⟨t, rfl, rfl⟩ := List.map_eq_singleton_iff.mp rules
    rw [List.mapM_cons] at made
    obtain ⟨item, first, -⟩ := bind_ok made
    obtain ⟨e, primary⟩ := primaryOf_of_rowItemOf operand first
    rw [flatExpOf, primary]
    · exact ⟨_, rfl⟩
    · rintro op start text rfl
      cases primary
  | unary op _ ih =>
    obtain ⟨t, ts, rfl, same, rest⟩ := List.map_eq_cons_iff.mp rules
    rw [List.mapM_cons] at made
    obtain ⟨item, -, made⟩ := bind_ok made
    obtain ⟨items, later, -⟩ := bind_ok made
    obtain ⟨f, found⟩ := ih rest (fun u member => formed u (by simp [member])) later
    cases formed t (by simp) with
    | token _ =>
      cases same
      rw [flatExpOf, found]
      exact ⟨_, rfl⟩
    | phrase body _ _ =>
      cases same
      cases body
  | more operand op _ ih =>
    obtain ⟨t, us, rfl, rfl, behind⟩ := List.map_eq_cons_iff.mp rules
    obtain ⟨u, ts, rfl, same, rest⟩ := List.map_eq_cons_iff.mp behind
    rw [List.mapM_cons] at made
    obtain ⟨item, first, made⟩ := bind_ok made
    obtain ⟨items, made, -⟩ := bind_ok made
    rw [List.mapM_cons] at made
    obtain ⟨_, -, made⟩ := bind_ok made
    obtain ⟨_, later, -⟩ := bind_ok made
    obtain ⟨e, primary⟩ := primaryOf_of_rowItemOf operand first
    obtain ⟨f, found⟩ := ih rest (fun u member => formed u (by simp [member])) later
    cases formed u (by simp) with
    | token _ =>
      cases same
      rw [flatExpOf, primary, found]
      · exact ⟨_, rfl⟩
      · rintro op start text rfl
        cases primary
    | phrase body _ _ =>
      cases same
      cases body

theorem throughout_formed {t : ParseTree Rule} (formed : t.Formed grammar) : t.Throughout (·.Formed grammar) := by
  induction formed with
  | token rule => exact .intro (.token rule) (by simp [ParseTree.children])
  | phrase rule yields inner ih => exact .intro (.phrase rule yields inner) ih

/-- Wherever an expression stands in a script, it is made if all its operands are. It then reads from left to right as
the phrase does, its operators stand as the table prescribes, and any other expression of which both are true is
the same but for the ranges of its operators. -/
theorem expOf_prescribed {text : List Char} {tree : ParseTree Rule} (matched : matchChunk text = some tree) :
    tree.Throughout fun t => ∀ range ts, t = .phrase .exp range ts →
      ((∃ e, expOf t = .ok e) ↔ ∃ row, ts.mapM rowItemOf = .ok row) ∧
      ∀ e, expOf t = .ok e → ts.mapM rowItemOf = .ok e.row ∧ e.Prescribed ∧
        ∀ e' : Exp, e'.row = e.row → e'.Prescribed → e'.bare = e.bare := by
  refine (throughout_formed (matchChunk_formed matched)).mono ?_
  rintro _ formed range ts rfl
  have facts (e : Exp) (made : expOf (.phrase .exp range ts) = .ok e) :
      ts.mapM rowItemOf = .ok e.row ∧ e.Prescribed := by
    rw [expOf] at made
    obtain ⟨f, flat, made⟩ := bind_ok made
    cases made
    obtain ⟨items, primary⟩ := flatExpOf_mapM flat
    obtain ⟨row, prescribed⟩ := FlatExp.assemble_prescribed primary
    exact ⟨row ▸ items, prescribed⟩
  refine ⟨⟨?_, ?_⟩, fun e made => ?_⟩
  · rintro ⟨e, made⟩
    exact ⟨e.row, (facts e made).1⟩
  · rintro ⟨row, made⟩
    have inner : ∀ t ∈ ts, t.Formed grammar := by
      cases formed with | phrase _ _ inner => exact inner
    obtain ⟨f, flat⟩ := flatExpOf_of_mapM (expRow_of_formed formed) rfl inner made range
    refine ⟨f.assemble, ?_⟩
    rw [expOf, flat]
    rfl
  · obtain ⟨row, prescribed⟩ := facts e made
    exact ⟨row, prescribed, fun e' same prescribed' => prescribed.unique prescribed' same⟩

/-- The one value of a script that is one assignment, as a phrase. -/
def assignedPhrase? : ParseTree Rule → Option (TextRange × List (ParseTree Rule))
  | .phrase .chunk _ [.phrase .block _ [.phrase .assignStat _ [_, .phrase .exps _ [.phrase .exp range ts]]], _] =>
    some (range, ts)
  | _ => none

theorem throughout_assignedPhrase {P : ParseTree Rule → Prop} {tree : ParseTree Rule} {range : TextRange}
    {ts : List (ParseTree Rule)} (throughout : tree.Throughout P) (assigned : assignedPhrase? tree = some (range, ts)) :
    P (.phrase .exp range ts) := by
  unfold assignedPhrase? at assigned
  split at assigned
  · cases assigned
    have block := throughout.inner _ List.mem_cons_self
    have stat := block.inner _ List.mem_cons_self
    have values := stat.inner _ (List.mem_cons_of_mem _ List.mem_cons_self)
    exact (values.inner _ List.mem_cons_self).here
  · cases assigned

/-- A negated power to the right of a power, and a product. -/
def negatedPower : List Char := "x = 2 ^ -y ^ 3 * z".toList

theorem expOf_prescribed_negatedPower : ∃ tree range ts e, matchChunk negatedPower = some tree ∧
    assignedPhrase? tree = some (range, ts) ∧ expOf (.phrase .exp range ts) = .ok e ∧ e.operator? = some (some .mul) ∧
    ts.mapM rowItemOf = .ok e.row ∧ e.Prescribed ∧ ∀ e' : Exp, e'.row = e.row → e'.Prescribed → e'.bare = e.bare := by
  have product : ((matchChunk negatedPower).bind assignedPhrase?).bind
      (fun value => (expOf (.phrase .exp value.1 value.2)).toOption.bind Exp.operator?) = some (some .mul) := by
    decide +kernel
  obtain ⟨value, assigned, product⟩ := Option.bind_eq_some_iff.mp product
  obtain ⟨tree, matched, assigned⟩ := Option.bind_eq_some_iff.mp assigned
  cases made : expOf (.phrase .exp value.1 value.2) with
  | error e =>
    rw [made] at product
    cases product
  | ok e =>
    rw [made] at product
    have facts := throughout_assignedPhrase (expOf_prescribed matched) assigned
    exact ⟨tree, value.1, value.2, e, matched, assigned, made, product, (facts value.1 value.2 rfl).2 e made⟩

end LuaLowering.Syntax
