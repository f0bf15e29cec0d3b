import LuaLowering.Proofs.Erasure
/-!
# Grouping of operators

An expression is grouped when its operators lie inside one another as tightly as they bind. `Exp.flat` lists the
operands and operators of an expression in their order. From this list, grouping gives the expression back
(`Exp.assemble_flat`).
-/
namespace LuaLowering.Syntax

namespace BinaryOp

theorem level_le (op : BinaryOp) : op.level ≤ 12 := by
  cases op <;> decide

/-- Operators of the same level group to the same side. -/
theorem groupsRight_of_level_eq {o p : BinaryOp} (same : o.level = p.level) : o.groupsRight = p.groupsRight := by
  cases o <;> cases p <;> first | rfl | cases same

theorem yieldsTo_of_lt {o p : BinaryOp} (looser : o.level < p.level) : o.yieldsTo p = true := by
  simp [yieldsTo, looser]

theorem yieldsTo_of_le {o p : BinaryOp} (notTighter : o.level ≤ p.level) (right : o.groupsRight = true) :
    o.yieldsTo p = true := by
  rcases Nat.lt_or_eq_of_le notTighter with looser | same
  · exact yieldsTo_of_lt looser
  · simp [yieldsTo, same, ← groupsRight_of_level_eq same, right]

/-- To a power, every operator yields. -/
theorem yieldsTo_of_twelve_le {o p : BinaryOp} (power : 12 ≤ p.level) : o.yieldsTo p = true := by
  rcases Nat.lt_or_eq_of_le (Nat.le_trans o.level_le power) with looser | same
  · exact yieldsTo_of_lt looser
  · have last : o.level = 12 := by
      have := p.level_le
      omega
    refine yieldsTo_of_le (Nat.le_of_eq same) ?_
    cases o <;> first | rfl | cases last

end BinaryOp

namespace Exp

/-- The expression may stand to the left of the operator: it binds tighter, or as tightly if the operator groups to the
left. -/
def fitsLeft (op : BinaryOp) : Exp → Bool
  | ⟨.binary o _ _, _⟩ => op.level < o.level || (op.level == o.level && !op.groupsRight)
  | ⟨.unary _ _, _⟩ => op.level < UnaryOp.level
  | _ => true

/-- The expression may stand to the right of the operator: it is not made by a binary operator, or by one that binds
tighter, or as tightly if the operator groups to the right. -/
def fitsRight (op : BinaryOp) : Exp → Bool
  | ⟨.binary o _ _, _⟩ => op.level < o.level || (op.level == o.level && op.groupsRight)
  | _ => true

/-- The expression may stand after a unary operator: the only binary operator that binds tighter is the power. -/
def fitsUnary : Exp → Bool
  | ⟨.binary o _ _, _⟩ => UnaryOp.level < o.level
  | _ => true

/-- The operators of an expression are grouped as they bind. -/
def isGrouped : Exp → Bool
  | ⟨.binary op a b, _⟩ => a.isGrouped && b.isGrouped && a.fitsLeft op && b.fitsRight op
  | ⟨.unary _ a, _⟩ => a.isGrouped && a.fitsUnary
  | _ => true

/-- The operands and operators of an expression in their order. -/
def flat : Exp → FlatExp
  | ⟨.binary op a b, _⟩ => ⟨a.flat.first, a.flat.rest ++ (op, b.flat.first) :: b.flat.rest⟩
  | ⟨.unary op a, _⟩ => ⟨⟨(op, ⟨0, 0, 0⟩) :: a.flat.first.unary, a.flat.first.exp⟩, a.flat.rest⟩
  | e => ⟨⟨[], e⟩, []⟩

/-- No binary operator outside of parentheses binds looser than this. -/
def floor : Exp → Nat
  | ⟨.binary o _ _, _⟩ => o.level
  | _ => 12

theorem le_floor_of_fitsLeft {op : BinaryOp} {e : Exp} (fits : e.fitsLeft op = true) : op.level ≤ e.floor := by
  obtain ⟨kind, range⟩ := e
  cases kind with
  | binary o a b =>
    simp only [fitsLeft, Bool.or_eq_true, decide_eq_true_eq, Bool.and_eq_true, beq_iff_eq] at fits
    rw [floor]
    omega
  | _ => exact op.level_le

theorem le_floor_of_fitsRight {op : BinaryOp} {e : Exp} (fits : e.fitsRight op = true) : op.level ≤ e.floor := by
  obtain ⟨kind, range⟩ := e
  cases kind with
  | binary o a b =>
    simp only [fitsRight, Bool.or_eq_true, decide_eq_true_eq, Bool.and_eq_true, beq_iff_eq] at fits
    rw [floor]
    omega
  | _ => exact op.level_le

theorem twelve_le_floor_of_fitsUnary {e : Exp} (fits : e.fitsUnary = true) : 12 ≤ e.floor := by
  obtain ⟨kind, range⟩ := e
  cases kind with
  | binary o a b => cases o <;> first | exact Nat.le_refl _ | cases fits
  | _ => exact Nat.le_refl _

/-- The operators of a grouped expression bind at least as tightly as the outermost one. -/
theorem floor_le : ∀ {e : Exp}, e.isGrouped = true → ∀ pair ∈ e.flat.rest, e.floor ≤ pair.1.level
  | ⟨.binary op a b, _⟩, grouped, pair, listed => by
    simp only [isGrouped, Bool.and_eq_true] at grouped
    obtain ⟨⟨⟨ofLeft, ofRight⟩, left⟩, right⟩ := grouped
    rw [flat] at listed
    rcases List.mem_append.mp listed with inLeft | here
    · exact Nat.le_trans (le_floor_of_fitsLeft left) (floor_le ofLeft pair inLeft)
    · rcases List.mem_cons.mp here with rfl | inRight
      · exact Nat.le_refl _
      · exact Nat.le_trans (le_floor_of_fitsRight right) (floor_le ofRight pair inRight)
  | ⟨.unary op a, _⟩, grouped, pair, listed => by
    simp only [isGrouped, Bool.and_eq_true] at grouped
    rw [flat] at listed
    exact Nat.le_trans (twelve_le_floor_of_fitsUnary grouped.2) (floor_le grouped.1 pair listed)
  | ⟨.nil, _⟩, _, pair, listed | ⟨.false, _⟩, _, pair, listed | ⟨.true, _⟩, _, pair, listed
  | ⟨.varArgs, _⟩, _, pair, listed | ⟨.number _, _⟩, _, pair, listed | ⟨.str _, _⟩, _, pair, listed
  | ⟨.function _, _⟩, _, pair, listed | ⟨.prefixExp _, _⟩, _, pair, listed | ⟨.table _, _⟩, _, pair, listed => by
    simp [flat] at listed

/-- To the right of an operator, it yields to all that binds the right operand together. -/
theorem yieldsTo_of_fitsRight {op : BinaryOp} {e : Exp} (grouped : e.isGrouped = true) (fits : e.fitsRight op = true) :
    ∀ pair ∈ e.flat.rest, op.yieldsTo pair.1 = true := by
  intro pair listed
  have above := floor_le grouped pair listed
  obtain ⟨kind, range⟩ := e
  cases kind with
  | binary o a b =>
    simp only [fitsRight, Bool.or_eq_true, decide_eq_true_eq, Bool.and_eq_true, beq_iff_eq] at fits
    rcases fits with looser | ⟨level, right⟩
    · exact BinaryOp.yieldsTo_of_lt (Nat.lt_of_lt_of_le looser above)
    · exact BinaryOp.yieldsTo_of_le (level ▸ above) right
  | _ => exact BinaryOp.yieldsTo_of_twelve_le above

/-! ## Grouping gives the expression back -/

theorem graft_of_fitsLeft {op : BinaryOp} {lhs : Exp} (rhs : Exp) (fits : lhs.fitsLeft op = true) :
    graft op rhs lhs = binary op lhs rhs := by
  obtain ⟨kind, range⟩ := lhs
  cases kind with
  | binary o a b =>
    simp only [fitsLeft, Bool.or_eq_true, decide_eq_true_eq, Bool.and_eq_true, beq_iff_eq, Bool.not_eq_true'] at fits
    rw [graft, if_neg]
    simp only [BinaryOp.yieldsTo, Bool.or_eq_true, decide_eq_true_eq, Bool.and_eq_true, beq_iff_eq]
    rintro (looser | ⟨same, right⟩)
    · omega
    · rcases fits with tighter | ⟨-, left⟩
      · omega
      · rw [right] at left
        cases left
  | unary o a =>
    simp only [fitsLeft, decide_eq_true_eq] at fits
    rw [graft, if_neg (by omega)]
  | _ => rw [graft] <;> simp

/-- Operands that are added to an expression. -/
def extend (lhs : Exp) (rest : List (BinaryOp × Operand)) : Exp :=
  rest.foldl (fun lhs (op, operand) => graft op operand.toExp lhs) lhs

theorem extend_cons (lhs : Exp) (op : BinaryOp) (operand : Operand) (rest : List (BinaryOp × Operand)) :
    lhs.extend ((op, operand) :: rest) = (graft op operand.toExp lhs).extend rest := rfl

theorem extend_binary {op : BinaryOp} (lhs rhs : Exp) {rest : List (BinaryOp × Operand)}
    (yields : ∀ pair ∈ rest, op.yieldsTo pair.1 = true) :
    (binary op lhs rhs).extend rest = binary op lhs (rhs.extend rest) := by
  induction rest generalizing rhs with
  | nil => rfl
  | cons pair rest ih =>
    obtain ⟨p, operand⟩ := pair
    have first : graft p operand.toExp (binary op lhs rhs) = binary op lhs (graft p operand.toExp rhs) := by
      rw [binary, graft, if_pos (yields (p, operand) List.mem_cons_self)]
    rw [extend_cons, first]
    exact ih _ fun other member => yields other (List.mem_cons_of_mem _ member)

theorem extend_unary {op : UnaryOp} (operand : Exp) {rest : List (BinaryOp × Operand)}
    (powers : ∀ pair ∈ rest, UnaryOp.level < pair.1.level) :
    (unary op none operand).extend rest = unary op none (operand.extend rest) := by
  induction rest generalizing operand with
  | nil => rfl
  | cons pair rest ih =>
    obtain ⟨p, right⟩ := pair
    have first : graft p right.toExp (unary op none operand) = unary op none (graft p right.toExp operand) := by
      rw [unary, graft, if_pos (powers (p, right) List.mem_cons_self), TextRange.join]
      simp
    rw [extend_cons, first]
    exact ih _ fun other member => powers other (List.mem_cons_of_mem _ member)

theorem toExp_erase_unary (op : UnaryOp) (range : TextRange) (operand : Operand) :
    (Operand.erase ⟨(op, range) :: operand.unary, operand.exp⟩).toExp = unary op none operand.erase.toExp := by
  rw [← Operand.erase_toExp, ← Operand.erase_toExp]
  exact erase_unary op (some range) none operand.toExp

theorem fitsLeft_erase (op : BinaryOp) (e : Exp) : e.erase.fitsLeft op = e.fitsLeft op := by
  obtain ⟨kind, range⟩ := e
  cases kind <;> simp only [relabel, ExpKind.relabel, fitsLeft]

theorem assemble_flat : ∀ {e : Exp}, e.isGrouped = true → e.flat.erase.assemble = e.erase
  | ⟨.binary op a b, range⟩, grouped => by
    simp only [isGrouped, Bool.and_eq_true] at grouped
    obtain ⟨⟨⟨ofLeft, ofRight⟩, left⟩, right⟩ := grouped
    have leftBack : (a.flat.first.erase.toExp).extend (a.flat.erase.rest) = a.erase := assemble_flat ofLeft
    have rightBack : (b.flat.first.erase.toExp).extend (b.flat.erase.rest) = b.erase := assemble_flat ofRight
    have yields : ∀ pair ∈ b.flat.erase.rest, op.yieldsTo pair.1 = true := by
      intro pair listed
      obtain ⟨original, member, rfl⟩ := List.mem_map.mp listed
      exact yieldsTo_of_fitsRight ofRight right original member
    calc FlatExp.assemble (FlatExp.erase (flat ⟨.binary op a b, range⟩))
        = ((a.flat.first.erase.toExp).extend (a.flat.erase.rest)
            |> graft op b.flat.first.erase.toExp).extend (b.flat.erase.rest) := by
          simp only [FlatExp.assemble, FlatExp.erase, flat, extend, List.map_append, List.map_cons, List.foldl_append,
            List.foldl_cons]
      _ = (binary op a.erase b.flat.first.erase.toExp).extend (b.flat.erase.rest) := by
          rw [leftBack, graft_of_fitsLeft _ (by rwa [fitsLeft_erase])]
      _ = binary op a.erase b.erase := by rw [extend_binary _ _ yields, rightBack]
      _ = erase ⟨.binary op a b, range⟩ := by simp [binary, TextRange.join]
  | ⟨.unary op a, range⟩, grouped => by
    simp only [isGrouped, Bool.and_eq_true] at grouped
    have back : (a.flat.first.erase.toExp).extend (a.flat.erase.rest) = a.erase := assemble_flat grouped.1
    have powers : ∀ pair ∈ a.flat.erase.rest, UnaryOp.level < pair.1.level := by
      intro pair listed
      obtain ⟨original, member, rfl⟩ := List.mem_map.mp listed
      exact Nat.lt_of_lt_of_le (by decide) (Nat.le_trans (twelve_le_floor_of_fitsUnary grouped.2)
        (floor_le grouped.1 original member))
    calc FlatExp.assemble (FlatExp.erase (flat ⟨.unary op a, range⟩))
        = (unary op none a.flat.first.erase.toExp).extend (a.flat.erase.rest) := by
          rw [← toExp_erase_unary op ⟨0, 0, 0⟩]
          rfl
      _ = unary op none a.erase := by rw [extend_unary _ powers, back]
      _ = erase ⟨.unary op a, range⟩ := by simp [unary, TextRange.join]
  | ⟨.nil, _⟩, _ | ⟨.false, _⟩, _ | ⟨.true, _⟩, _ | ⟨.varArgs, _⟩, _ | ⟨.number _, _⟩, _ | ⟨.str _, _⟩, _
  | ⟨.function _, _⟩, _ | ⟨.prefixExp _, _⟩, _ | ⟨.table _, _⟩, _ => by
    simp [flat, FlatExp.assemble, FlatExp.erase, Operand.erase, Operand.toExp]

end Exp
end LuaLowering.Syntax
