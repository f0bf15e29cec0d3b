import LuaLowering.Proofs.Precedence
/-!
# The loop over binding powers

The usual way to group a row of operators goes by binding powers. Each line of the table of operators has a power, and
an expression goes on as long as the next operator has more power than the operator to the left of it (`climb`).
Grafting one operator after the other into the right edge gives the same tree with the same ranges
(`FlatExp.climb_items`), so the expression of a phrase is what the loop makes of the trees in it (`climb_of_expOf`).
-/
namespace LuaLowering

/-! ## Joined ranges -/

namespace TextRange
variable (a b c : Option TextRange)

theorem join_self : join a a = a := by
  cases a with
  | none => rfl
  | some a => simp [join]

theorem join_assoc : join (join a b) c = join a (join b c) := by
  cases a with
  | none => rfl
  | some a =>
    cases b with
    | none => rfl
    | some b =>
      cases c with
      | none => rfl
      | some c =>
        simp only [join, Option.some.injEq, TextRange.mk.injEq]
        refine ⟨by omega, ?_, by omega⟩
        repeat' split
        all_goals first | rfl | omega

variable {b c} in
/-- A range that covers another one still does when it is joined to a third. -/
theorem join_join_of_covers (covers : join b c = c) : join b (join a c) = join a c := by
  cases a with
  | none => cases b <;> rfl
  | some a =>
    cases c with
    | none => cases b <;> rfl
    | some c =>
      cases b with
      | none => cases covers
      | some b =>
        simp only [join, Option.some.injEq] at covers ⊢
        obtain ⟨start, last, stop⟩ := c
        simp only [TextRange.mk.injEq] at covers ⊢
        refine ⟨by omega, ?_, by omega⟩
        rw [if_pos (by omega)]

end TextRange

namespace Syntax
open Peg TextRange

namespace Exp

/-- The ranges of operators are joined from those of their operands. -/
def Spanned : Exp → Prop
  | ⟨.binary _ a b, range⟩ => range = join a.range b.range ∧ a.Spanned ∧ b.Spanned
  | ⟨.unary _ a, range⟩ => (∃ r, range = join r a.range) ∧ a.Spanned
  | _ => True

theorem spanned_of_primary {e : Exp} (primary : e.operator? = none) : e.Spanned := by
  obtain ⟨kind, range⟩ := e
  cases kind with
  | unary op a => cases primary
  | binary op a b => cases primary
  | _ => simp only [Spanned]

theorem spanned_unary (op : UnaryOp) (range : Option TextRange) {a : Exp} (inner : a.Spanned) :
    (unary op range a).Spanned := by
  rw [unary, Spanned]
  exact ⟨⟨range, rfl⟩, inner⟩

theorem spanned_binary (op : BinaryOp) {a b : Exp} (left : a.Spanned) (right : b.Spanned) :
    (binary op a b).Spanned := by
  rw [binary, Spanned]
  exact ⟨rfl, left, right⟩

/-- Grafting joins ranges and covers the tree that was there. -/
theorem spanned_graft (op : BinaryOp) {lhs rhs : Exp} (left : lhs.Spanned) (right : rhs.Spanned) :
    (graft op rhs lhs).Spanned ∧ join lhs.range (graft op rhs lhs).range = (graft op rhs lhs).range := by
  have outside (e : Exp) (spanned : e.Spanned) :
      (binary op e rhs).Spanned ∧ join e.range (binary op e rhs).range = (binary op e rhs).range := by
    refine ⟨spanned_binary op spanned right, ?_⟩
    rw [binary, ← join_assoc, join_self]
  fun_induction graft op rhs lhs with
  | case1 o a b range yields ih =>
    rw [Spanned] at left
    obtain ⟨rfl, ofLeft, ofRight⟩ := left
    obtain ⟨spanned, covers⟩ := ih ofRight
    refine ⟨spanned_binary o ofLeft spanned, ?_⟩
    rw [binary, join_assoc, join_join_of_covers _ covers, ← join_assoc, join_self]
  | case3 o a range tighter ih =>
    rw [Spanned] at left
    obtain ⟨⟨r, rfl⟩, inner⟩ := left
    obtain ⟨spanned, -⟩ := ih inner
    refine ⟨spanned_unary o _ spanned, ?_⟩
    rw [unary, ← join_assoc, join_self]
  | case2 | case4 | case5 => exact outside _ left

theorem spanned_toExp {o : Operand} (primary : o.exp.operator? = none) : o.toExp.Spanned := by
  obtain ⟨ops, e⟩ := o
  change e.operator? = none at primary
  simp only [Operand.toExp]
  induction ops with
  | nil => exact spanned_of_primary primary
  | cons pair ops ih => exact spanned_unary _ _ ih

theorem extend_append (lhs : Exp) (xs ys : List (BinaryOp × Operand)) :
    lhs.extend (xs ++ ys) = (lhs.extend xs).extend ys := List.foldl_append

/-- Powers go into the operand of a unary operator. -/
theorem extend_unary_of_spanned (op : UnaryOp) (range : Option TextRange) {operand : Exp} (spanned : operand.Spanned)
    {rest : List (BinaryOp × Operand)} (primary : ∀ pair ∈ rest, pair.2.exp.operator? = none)
    (powers : ∀ pair ∈ rest, UnaryOp.level < pair.1.level) :
    (unary op range operand).extend rest = unary op range (operand.extend rest) := by
  induction rest generalizing operand with
  | nil => rfl
  | cons pair rest ih =>
    obtain ⟨p, right⟩ := pair
    obtain ⟨here, later⟩ := List.forall_mem_cons.mp primary
    obtain ⟨first, others⟩ := List.forall_mem_cons.mp powers
    obtain ⟨grafted, covers⟩ := spanned_graft p spanned (spanned_toExp here)
    have step : graft p right.toExp (unary op range operand) = unary op range (graft p right.toExp operand) := by
      rw [unary, graft, if_pos first, unary, unary, join_assoc, covers]
    rw [extend_cons, step]
    exact ih grafted later others

end Exp

/-! ## The loop -/

/-- Operators and operands as written. -/
inductive Item where
  | unary (op : UnaryOp) (range : TextRange)
  | binary (op : BinaryOp)
  | operand (e : Exp)

/-- The power of an operator: each line of the table has ten more than the line above. -/
def power (op : Option BinaryOp) : Nat := 10 * (tier op + 1)

/-- The power that operators to the right of an operator must exceed. If the operator groups to the right, another one
of its line does. -/
def rightPower (op : BinaryOp) : Nat := if op.groupsRight then power (some op) - 1 else power (some op)

mutual

/-- Read an expression up to the first operator whose power does not exceed the bound. -/
def climb : (steps bound : Nat) → List Item → Option (Exp × List Item)
  | steps + 1, bound, .operand e :: items => climbOn steps bound e items
  | steps + 1, bound, .unary op range :: items =>
    match climb steps (power none - 1) items with
    | none => none
    | some (operand, items) => climbOn steps bound (.unary op (some range) operand) items
  | _, _, _ => none

/-- Go on with an expression as long as operators exceed the bound. -/
def climbOn : (steps bound : Nat) → Exp → List Item → Option (Exp × List Item)
  | _ + 1, _, lhs, [] => some (lhs, [])
  | steps + 1, bound, lhs, .binary op :: items =>
    if bound < power (some op) then
      match climb steps (rightPower op) items with
      | none => none
      | some (rhs, items) => climbOn steps bound (.binary op lhs rhs) items
    else some (lhs, .binary op :: items)
  | _, _, _, _ => none

end

def Operand.items (o : Operand) : List Item := o.unary.map (fun (op, range) => .unary op range) ++ [.operand o.exp]

/-- Operators with their right operands. -/
def itemsOf (rest : List (BinaryOp × Operand)) : List Item := rest.flatMap fun pair => .binary pair.1 :: pair.2.items

def FlatExp.items (f : FlatExp) : List Item := f.first.items ++ itemsOf f.rest

/-! ## Powers and levels -/

theorem power_binary (op : BinaryOp) : power (some op) = 10 * op.level := by
  rw [power, BinaryOp.level_eq_tier]

theorem power_pos (op : Option BinaryOp) : 0 < power op := Nat.mul_pos (by decide) (Nat.succ_pos _)

/-- An operator yields to those that exceed its right power. -/
theorem rightPower_lt_iff (o p : BinaryOp) : rightPower o < power (some p) ↔ o.yieldsTo p = true := by
  have positive := power_pos (some o)
  rw [power_binary] at positive
  rw [rightPower, power_binary, power_binary, BinaryOp.yieldsTo, Bool.or_eq_true, decide_eq_true_eq, Bool.and_eq_true,
    beq_iff_eq]
  by_cases same : o.level = p.level
  · rw [BinaryOp.groupsRight_of_level_eq same]
    by_cases right : p.groupsRight = true
    · rw [if_pos right]
      exact iff_of_true (by omega) (.inr ⟨same, right⟩)
    · rw [if_neg right]
      refine iff_of_false (by omega) ?_
      rintro (less | both)
      · omega
      · exact right both.2
  · split <;> omega

theorem le_rightPower {bound : Nat} {op : BinaryOp} (exceeds : bound < power (some op)) : bound ≤ rightPower op := by
  rw [rightPower]
  split <;> omega

/-- Only the power exceeds the bound that unary operators set. -/
theorem unaryBound_lt_iff (op : BinaryOp) : power none - 1 < power (some op) ↔ UnaryOp.level < op.level := by
  cases op <;> decide

theorem lt_power_of_tighter {bound : Nat} {op : BinaryOp} (below : bound < power (some .pow))
    (tighter : UnaryOp.level < op.level) : bound < power (some op) := by
  cases op <;> first | exact below | exact absurd tighter (by decide)

/-! ## The loop and grafting -/

/-- The part of a row that exceeds a bound, and what is left. -/
def above (bound : Nat) (pair : BinaryOp × Operand) : Bool := bound < power (some pair.1)

/-- What exceeds a higher bound comes first. -/
theorem takeWhile_above (low high : Nat) {rest : List (BinaryOp × Operand)}
    (higher : ∀ pair ∈ rest, above high pair = true → above low pair = true) :
    rest.takeWhile (above low) = rest.takeWhile (above high) ++ (rest.dropWhile (above high)).takeWhile (above low) ∧
      rest.dropWhile (above low) = (rest.dropWhile (above high)).dropWhile (above low) := by
  induction rest with
  | nil => exact ⟨rfl, rfl⟩
  | cons pair rest ih =>
    obtain ⟨here, later⟩ := List.forall_mem_cons.mp higher
    by_cases exceeds : above high pair = true
    · obtain ⟨first, second⟩ := ih later
      rw [List.takeWhile_cons_of_pos (here exceeds), List.dropWhile_cons_of_pos (here exceeds),
        List.takeWhile_cons_of_pos exceeds, List.dropWhile_cons_of_pos exceeds, first, second]
      exact ⟨rfl, rfl⟩
    · rw [List.takeWhile_cons_of_neg exceeds, List.dropWhile_cons_of_neg exceeds]
      exact ⟨rfl, rfl⟩

/-- The next operator takes the whole expression as its left operand. -/
def Waits (lhs : Exp) (rest : List (BinaryOp × Operand)) : Prop :=
  ∀ pair ∈ rest.head?, ∀ rhs, Exp.graft pair.1 rhs lhs = Exp.binary pair.1 lhs rhs

theorem waits_of_primary {lhs : Exp} (primary : lhs.operator? = none) (rest : List (BinaryOp × Operand)) :
    Waits lhs rest := fun _ _ rhs => Exp.graft_of_primary rhs primary

theorem not_above_of_head? {bound : Nat} {rest : List (BinaryOp × Operand)} {pair : BinaryOp × Operand}
    (first : pair ∈ (rest.dropWhile (above bound)).head?) : ¬ bound < power (some pair.1) := by
  have stops := List.head?_dropWhile_not (above bound) rest
  rw [Option.mem_def.mp first] at stops
  simpa [above] using stops

theorem waits_unary (op : UnaryOp) (range : Option TextRange) (operand : Exp) (rest : List (BinaryOp × Operand)) :
    Waits (.unary op range operand) (rest.dropWhile (above (power none - 1))) := by
  intro pair first rhs
  have looser := not_above_of_head? first
  rw [unaryBound_lt_iff] at looser
  rw [Exp.unary, Exp.graft, if_neg looser]

theorem waits_binary (op : BinaryOp) (lhs rhs : Exp) (rest : List (BinaryOp × Operand)) :
    Waits (.binary op lhs rhs) (rest.dropWhile (above (rightPower op))) := by
  intro pair first other
  have looser := not_above_of_head? first
  rw [rightPower_lt_iff] at looser
  rw [Exp.binary, Exp.graft, if_neg looser]

theorem length_itemsOf_dropWhile (p : BinaryOp × Operand → Bool) (rest : List (BinaryOp × Operand)) :
    (itemsOf (rest.dropWhile p)).length ≤ (itemsOf rest).length := by
  have whole : itemsOf (rest.takeWhile p) ++ itemsOf (rest.dropWhile p) = itemsOf rest := by
    rw [itemsOf, itemsOf, ← List.flatMap_append, List.takeWhile_append_dropWhile, itemsOf]
  rw [← whole, List.length_append]
  exact Nat.le_add_left ..

/-- Behind a unary operator, the powers go into its operand and the other operators behind it. -/
theorem extend_above_unary {bound : Nat} (below : bound < power (some .pow)) (op : UnaryOp) (range : Option TextRange)
    {operand : Exp} (spanned : operand.Spanned) {rest : List (BinaryOp × Operand)}
    (primary : ∀ pair ∈ rest, pair.2.exp.operator? = none) :
    (Exp.unary op range operand).extend (rest.takeWhile (above bound)) =
        (Exp.unary op range (operand.extend (rest.takeWhile (above (power none - 1))))).extend
          ((rest.dropWhile (above (power none - 1))).takeWhile (above bound)) ∧
      rest.dropWhile (above bound) = (rest.dropWhile (above (power none - 1))).dropWhile (above bound) := by
  have tighter {pair : BinaryOp × Operand} (exceeds : above (power none - 1) pair = true) :
      UnaryOp.level < pair.1.level := (unaryBound_lt_iff pair.1).mp (of_decide_eq_true exceeds)
  obtain ⟨taken, left⟩ := takeWhile_above bound (power none - 1)
    fun pair (_ : pair ∈ rest) exceeds => decide_eq_true (lt_power_of_tighter below (tighter exceeds))
  have inner := Exp.extend_unary_of_spanned op range spanned
    (fun pair member => primary pair (List.takeWhile_subset _ member))
    fun pair member => tighter (List.mem_takeWhile_imp member)
  rw [taken, Exp.extend_append, inner]
  exact ⟨rfl, left⟩

/-- Behind a binary operator, the operators that exceed its right power go into its right operand. -/
theorem extend_above_binary {bound : Nat} {op : BinaryOp} (exceeds : bound < power (some op)) (lhs rhs : Exp)
    (rest : List (BinaryOp × Operand)) :
    (Exp.binary op lhs rhs).extend (rest.takeWhile (above bound)) =
        (Exp.binary op lhs (rhs.extend (rest.takeWhile (above (rightPower op))))).extend
          ((rest.dropWhile (above (rightPower op))).takeWhile (above bound)) ∧
      rest.dropWhile (above bound) = (rest.dropWhile (above (rightPower op))).dropWhile (above bound) := by
  have higher := le_rightPower exceeds
  obtain ⟨taken, left⟩ := takeWhile_above bound (rightPower op)
    fun pair (_ : pair ∈ rest) more => decide_eq_true (Nat.lt_of_le_of_lt higher (of_decide_eq_true more))
  have yields : ∀ pair ∈ rest.takeWhile (above (rightPower op)), op.yieldsTo pair.1 = true := by
    intro pair member
    have more : above (rightPower op) pair = true := List.mem_takeWhile_imp member
    exact (rightPower_lt_iff op pair.1).mp (of_decide_eq_true more)
  have inner := Exp.extend_binary lhs rhs yields
  rw [taken, Exp.extend_append, inner]
  exact ⟨rfl, left⟩

theorem climb_unary {steps bound : Nat} {op : UnaryOp} {range : TextRange} {items behind : List Item} {operand : Exp}
    (found : climb steps (power none - 1) items = some (operand, behind)) :
    climb (steps + 1) bound (.unary op range :: items) =
      climbOn steps bound (.unary op (some range) operand) behind := by
  rw [climb, found]

theorem climbOn_binary {steps bound : Nat} {op : BinaryOp} {items behind : List Item} {lhs rhs : Exp}
    (exceeds : bound < power (some op)) (found : climb steps (rightPower op) items = some (rhs, behind)) :
    climbOn (steps + 1) bound lhs (.binary op :: items) = climbOn steps bound (.binary op lhs rhs) behind := by
  rw [climbOn, if_pos exceeds, found]

/-- The loop takes the operators that exceed the bound, and makes of them what grafting them makes. -/
theorem climb_eq_extend (steps : Nat) :
    (∀ (bound : Nat) (o : Operand) (rest : List (BinaryOp × Operand)), bound < power (some .pow) →
      o.exp.operator? = none → (∀ pair ∈ rest, pair.2.exp.operator? = none) →
      o.items.length + (itemsOf rest).length < steps →
      climb steps bound (o.items ++ itemsOf rest) =
        some (o.toExp.extend (rest.takeWhile (above bound)), itemsOf (rest.dropWhile (above bound)))) ∧
    ∀ (bound : Nat) (lhs : Exp) (rest : List (BinaryOp × Operand)), bound < power (some .pow) → Waits lhs rest →
      (∀ pair ∈ rest, pair.2.exp.operator? = none) → (itemsOf rest).length < steps →
      climbOn steps bound lhs (itemsOf rest) =
        some (lhs.extend (rest.takeWhile (above bound)), itemsOf (rest.dropWhile (above bound))) := by
  induction steps with
  | zero => exact ⟨fun _ _ _ _ _ _ short => absurd short (by omega), fun _ _ _ _ _ _ short => absurd short (by omega)⟩
  | succ steps ih =>
    obtain ⟨ihFirst, ihRest⟩ := ih
    constructor
    · rintro bound ⟨ops, e⟩ rest below primary ofRest short
      cases ops with
      | nil =>
        rw [Operand.items, List.length_append, List.length_singleton] at short
        exact ihRest bound e rest below (waits_of_primary primary rest) ofRest (by omega)
      | cons pair ops =>
        obtain ⟨op, range⟩ := pair
        have fewer := length_itemsOf_dropWhile (above (power none - 1)) rest
        have short' : (Operand.items ⟨ops, e⟩).length + (itemsOf rest).length < steps := by
          simp only [Operand.items, List.map_cons, List.cons_append, List.length_cons] at short ⊢
          omega
        have first := ihFirst (power none - 1) ⟨ops, e⟩ rest (by decide) primary ofRest short'
        have spanned := Exp.spanned_toExp (o := ⟨ops, e⟩) primary
        obtain ⟨made, left⟩ := extend_above_unary below op (some range) spanned ofRest
        refine (climb_unary first).trans ((ihRest bound _ _ below (waits_unary _ _ _ _) ?_ (by omega)).trans ?_)
        · exact fun pair member => ofRest pair (List.dropWhile_subset _ member)
        · rw [left, ← made]
          rfl
    · intro bound lhs rest below waits ofRest short
      cases rest with
      | nil => rfl
      | cons pair rest =>
        obtain ⟨op, o⟩ := pair
        obtain ⟨primary, ofRest⟩ := List.forall_mem_cons.mp ofRest
        have whole : itemsOf ((op, o) :: rest) = .binary op :: (o.items ++ itemsOf rest) := by simp [itemsOf]
        rw [whole] at short ⊢
        rw [List.length_cons, List.length_append] at short
        by_cases exceeds : bound < power (some op)
        · have fewer := length_itemsOf_dropWhile (above (rightPower op)) rest
          have pow : rightPower op < power (some .pow) := by cases op <;> decide
          have first := ihFirst (rightPower op) o rest pow primary ofRest (by omega)
          obtain ⟨made, left⟩ := extend_above_binary exceeds lhs o.toExp rest
          refine (climbOn_binary exceeds first).trans
            ((ihRest bound _ _ below (waits_binary _ _ _ _) ?_ (by omega)).trans ?_)
          · exact fun pair member => ofRest pair (List.dropWhile_subset _ member)
          · have here : above bound (op, o) = true := decide_eq_true exceeds
            rw [List.takeWhile_cons_of_pos here, List.dropWhile_cons_of_pos here, Exp.extend_cons,
              waits (op, o) rfl o.toExp, left, made]
        · have here : ¬ above bound (op, o) = true := by simpa [above] using exceeds
          rw [climbOn, if_neg exceeds, List.takeWhile_cons_of_neg here, List.dropWhile_cons_of_neg here, whole]
          rfl

/-- The loop over binding powers and grafting give the same expression. -/
theorem FlatExp.climb_items {f : FlatExp} (primary : f.Primary) :
    climb (f.items.length + 1) 0 f.items = some (f.assemble, []) := by
  obtain ⟨ofFirst, ofRest⟩ := primary
  have all : ∀ pair ∈ f.rest, above 0 pair = true := fun pair _ => decide_eq_true (power_pos _)
  have made := (climb_eq_extend (f.items.length + 1)).1 0 f.first f.rest (power_pos _) ofFirst ofRest
    (by rw [FlatExp.items, List.length_append]; omega)
  rwa [List.takeWhile_eq_self_iff.mpr all, List.dropWhile_eq_nil_iff.mpr all] at made

/-! ## Phrases -/

/-- What a tree in a phrase for an expression is to the loop. -/
def itemOf : ParseTree Rule → FromTree Item
  | .token (.unary op) start text => .ok (.unary op (ParseTree.tokenRange start text))
  | .token (.binary op) _ _ => .ok (.binary op)
  | t => .operand <$> primaryOf t

theorem itemOf_of_primaryOf {t : ParseTree Rule} {e : Exp} (made : primaryOf t = .ok e) :
    itemOf t = .ok (.operand e) := by
  unfold itemOf
  split
  · cases made
  · cases made
  · rw [made]
    rfl

theorem items_of_flatExpOf {range : TextRange} {ts : List (ParseTree Rule)} {f : FlatExp}
    (made : flatExpOf range ts = .ok f) : ts.mapM itemOf = .ok f.items := by
  rw [flatExpOf.eq_def] at made
  split at made
  next op start text ts =>
    obtain ⟨more, rest, made⟩ := bind_ok made
    cases made
    rw [List.mapM_cons, items_of_flatExpOf rest]
    rfl
  next t other =>
    obtain ⟨e, operand, made⟩ := bind_ok made
    cases made
    rw [List.mapM_cons, itemOf_of_primaryOf operand]
    rfl
  next t op start text ts other =>
    obtain ⟨e, operand, made⟩ := bind_ok made
    obtain ⟨more, rest, made⟩ := bind_ok made
    cases made
    rw [List.mapM_cons, itemOf_of_primaryOf operand, List.mapM_cons, items_of_flatExpOf rest]
    rfl
  · cases made
termination_by ts.length

/-- The expression of a phrase is what the loop makes of the trees in the phrase. -/
theorem climb_of_expOf {range : TextRange} {ts : List (ParseTree Rule)} {e : Exp}
    (made : expOf (.phrase .exp range ts) = .ok e) :
    ∃ items, ts.mapM itemOf = .ok items ∧ climb (items.length + 1) 0 items = some (e, []) := by
  rw [expOf] at made
  obtain ⟨f, flat, made⟩ := bind_ok made
  cases made
  exact ⟨f.items, items_of_flatExpOf flat, FlatExp.climb_items (flatExpOf_mapM flat).2⟩

end Syntax
end LuaLowering
