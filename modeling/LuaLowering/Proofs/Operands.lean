import LuaLowering.Proofs.Shapes
/-!
# Reading expressions back

An expression is read back from its tokens if its operands are: `Exp.reads_of_operands`. What is read is the same up to
ranges (`Gives`). The operators of the row that the grammar matches are grouped as in the expression.
-/
namespace LuaLowering.Syntax
open Peg Peg.Pattern Lexeme

/-! ## Results up to ranges -/

/-- The result of a conversion is this, up to ranges. -/
def Gives {α : Type} (erase : α → α) (out : FromTree α) (a : α) : Prop := ∃ x, out = .ok x ∧ erase x = erase a

section
variable {α β : Type} {erase : α → α} {erase' : β → β} {out : FromTree α} {next : α → FromTree β} {a x : α} {b : β}

theorem Gives.ok (same : erase x = erase a) : Gives erase (.ok x) a := ⟨x, rfl, same⟩

theorem Gives.bind (given : Gives erase out a) (then_ : ∀ x, erase x = erase a → Gives erase' (next x) b) :
    Gives erase' (out >>= next) b := by
  obtain ⟨x, rfl, same⟩ := given
  exact then_ x same

theorem Gives.bind_ok (found : out = .ok a) (then_ : Gives erase' (next a) b) : Gives erase' (out >>= next) b := by
  rw [found]
  exact then_

end

/-! ## What follows -/

/-- The first token is one of these. -/
def StartsWith (firsts tokens : List String) : Prop := ∃ t rest, tokens = t :: rest ∧ t ∈ firsts

/-- What may follow an expression. -/
def expEnds : List String := [",", ";", ")", "]", "\x7d", "do", "then"]

/-- What may follow an operand. -/
def operandEnds : List String := expEnds ++ BinaryOp.all.map BinaryOp.text

theorem StartsWith.mono {firsts others tokens : List String} (starts : StartsWith firsts tokens)
    (subset : ∀ t ∈ firsts, t ∈ others) : StartsWith others tokens := by
  obtain ⟨t, rest, split, member⟩ := starts
  exact ⟨t, rest, split, subset t member⟩

theorem Fails.of_first {firsts tokens : List String} {p : Pattern Rule} (starts : StartsWith firsts tokens)
    (rejects : firsts.all (fun t => (Shape.token t.toList).rejects p) = true) : Fails p tokens := by
  obtain ⟨t, rest, rfl, member⟩ := starts
  exact .of_shape (opens_token t rest) (List.all_eq_true.mp rejects t member)

theorem startsWith_operandEnds_of_exp {more : List String} (ends : StartsWith expEnds more) :
    StartsWith operandEnds more :=
  ends.mono fun _ member => List.mem_append_left _ member

theorem startsWith_operandEnds_binary (op : BinaryOp) (more : List String) : StartsWith operandEnds (op.text :: more) :=
  ⟨op.text, more, rfl, List.mem_append_right _ (List.mem_map_of_mem (by cases op <;> decide))⟩

/-! ## Single tokens -/

theorem isClean_of_isIdentifier {n : String} (identifier : isIdentifier n = true) : isClean n = true := by
  obtain ⟨c, s, letters, starts, -, -⟩ := isIdentifier_iff.mp identifier
  have char : isWordChar c = true := by
    simp only [isWordStart, isWordChar, Char.isAlphanum, Bool.or_eq_true] at starts ⊢
    exact starts.imp .inl id
  obtain ⟨visible, dash, -⟩ := isWordChar_visible char
  simp [isClean, letters, visible, List.isPrefixOf, dash.symm]

theorem matches_name {n : String} (identifier : isIdentifier n = true) (more : List String) :
    Matches (.rule .name) [n] more (One fun t => nameOf t = .ok n) := by
  refine (Matches.blind_token rfl blind_name (isClean_of_isIdentifier identifier)
    (name_of_isIdentifier identifier)).post ?_
  rintro ts ⟨t, rfl, start, rfl⟩
  exact ⟨_, rfl, by simp [nameOf]⟩

/-- The rule of a token that is always the same. -/
theorem matches_constant {r : Rule} {scan : Scanner} (t : String) (body : grammar.body r = .token scan)
    (special : r ∉ ([.finish, .shebang, .longString, .quotedString] : List Rule)) (clean : isClean t = true)
    (whole : scan t.toList = some (t.toList, [])) (more : List String) :
    Matches (.rule r) [t] more (One fun tree => ∃ start, tree = .token r start t.toList) := by
  simp only [List.mem_cons, List.not_mem_nil, or_false, not_or] at special
  exact .blind_token body (blind_token body special.1 special.2.1 special.2.2.1 special.2.2.2) clean whole

theorem matches_unaryOp (op : UnaryOp) (more : List String) :
    Matches Grammar.unaryOp [op.text] more
      (One fun tree => ∃ start, tree = .token (.unary op) start op.text.toList) := by
  have picks : (Shape.token op.text.toList).pick [] Grammar.unaryOp = some (.unary op) := by
    cases op <;> decide +kernel
  refine .pick (opens_token op.text more) picks (matches_constant op.text rfl ?_ ?_ ?_ more)
  · simp
  · cases op <;> decide
  · cases op <;> decide +kernel

theorem matches_binaryOp (op : BinaryOp) (more : List String) :
    Matches Grammar.binaryOp [op.text] more
      (One fun tree => ∃ start, tree = .token (.binary op) start op.text.toList) := by
  have picks : (Shape.token op.text.toList).pick [] Grammar.binaryOp = some (.binary op) := by
    cases op <;> decide +kernel
  refine .pick (opens_token op.text more) picks (matches_constant op.text rfl ?_ ?_ ?_ more)
  · simp
  · cases op <;> decide
  · cases op <;> decide +kernel

/-! ## Rows of operands and operators -/

def Operand.tokens (o : Operand) : List String := o.unary.flatMap (fun pair => [pair.1.text]) ++ o.exp.tokens

/-- The tokens behind the first operand. -/
def tailTokens (rest : List (BinaryOp × Operand)) : List String := rest.flatMap fun pair => pair.1.text :: pair.2.tokens

theorem Exp.tokens_flat : ∀ e : Exp, e.tokens = e.flat.first.tokens ++ tailTokens e.flat.rest
  | ⟨.binary op a b, _⟩ => by
    rw [tokens, ExpKind.tokens, a.tokens_flat, b.tokens_flat, flat]
    simp [tailTokens]
  | ⟨.unary op a, _⟩ => by
    rw [tokens, ExpKind.tokens, a.tokens_flat, flat]
    simp [Operand.tokens]
  | ⟨.nil, _⟩ | ⟨.false, _⟩ | ⟨.true, _⟩ | ⟨.varArgs, _⟩ | ⟨.number _, _⟩ | ⟨.str _, _⟩ | ⟨.function _, _⟩
  | ⟨.prefixExp _, _⟩ | ⟨.table _, _⟩ => by
    simp [flat, Operand.tokens, tailTokens]

def IsUnary (pair : UnaryOp × TextRange) (ts : List (ParseTree Rule)) : Prop :=
  ∃ start text, ts = [.token (.unary pair.1) start text]

def IsOperand (o : Operand) (ts : List (ParseTree Rule)) : Prop :=
  ∃ us t, ts = us ++ [t] ∧ Rows IsUnary o.unary us ∧ Gives Exp.erase (primaryOf t) o.exp

def IsTail (pair : BinaryOp × Operand) (ts : List (ParseTree Rule)) : Prop :=
  ∃ start text us, ts = .token (.binary pair.1) start text :: us ∧ IsOperand pair.2 us

theorem not_unary_of_primary {t : ParseTree Rule} {x : Exp} (given : Gives Exp.erase (primaryOf t) x) (op : UnaryOp)
    (start : Nat) (text : List Char) : t ≠ .token (.unary op) start text := by
  rintro rfl
  obtain ⟨y, made, -⟩ := given
  simp [primaryOf, misplaced] at made

theorem flatExpOf_unaries {pairs : List (UnaryOp × TextRange)} {us ts : List (ParseTree Rule)} {x : Exp}
    {rest : List (BinaryOp × Operand)} {range : TextRange} (unary : Rows IsUnary pairs us)
    (given : Gives FlatExp.erase (flatExpOf range ts) ⟨⟨[], x⟩, rest⟩) :
    Gives FlatExp.erase (flatExpOf range (us ++ ts)) ⟨⟨pairs, x⟩, rest⟩ := by
  induction unary with
  | nil => exact given
  | cons first _ ih =>
    obtain ⟨start, text, rfl⟩ := first
    rw [List.append_assoc, List.singleton_append, flatExpOf]
    refine ih.bind fun f same => .ok ?_
    simp only [FlatExp.erase, Operand.erase, FlatExp.mk.injEq, Operand.mk.injEq] at same ⊢
    simp [same]

/-- The row of an expression is converted to its operands and operators. -/
theorem flatExpOf_row {o : Operand} {rest : List (BinaryOp × Operand)} {us vs : List (ParseTree Rule)}
    (operand : IsOperand o us) (tail : Rows IsTail rest vs) (range : TextRange) :
    Gives FlatExp.erase (flatExpOf range (us ++ vs)) ⟨o, rest⟩ := by
  induction tail generalizing o us with
  | nil =>
    obtain ⟨us, t, rfl, unary, given⟩ := operand
    rw [List.append_nil]
    refine flatExpOf_unaries unary ?_
    rw [flatExpOf]
    · refine given.bind fun x same => .ok ?_
      simp [FlatExp.erase, Operand.erase, same]
    · exact not_unary_of_primary given
  | cons first _ ih =>
    obtain ⟨us, t, rfl, unary, given⟩ := operand
    obtain ⟨start, text, ws, rfl, next⟩ := first
    rw [List.append_assoc]
    refine flatExpOf_unaries unary ?_
    rw [List.singleton_append, List.cons_append, flatExpOf]
    · refine given.bind fun x same => (ih next).bind fun f same' => .ok ?_
      have single : Operand.erase ⟨[], x⟩ = Operand.erase ⟨[], o.exp⟩ := by simp [Operand.erase, same]
      simp only [FlatExp.erase, FlatExp.mk.injEq] at same'
      simp only [FlatExp.erase, List.map_cons, single, same'.1, same'.2]
    · exact not_unary_of_primary given

/-! ## Expressions -/

/-- An operand can be read back, and is neither an operator nor a field with a key. -/
structure Exp.Operates (x : Exp) : Prop where
  notUnary : ∀ more, Fails Grammar.unaryOp (x.tokens ++ more)
  notKeyed : ∀ more, Fails (.rule .keyedField) (x.tokens ++ more)
  notNamed : ∀ more, StartsWith operandEnds more → Fails (.rule .namedField) (x.tokens ++ more)
  read : ∀ more, StartsWith operandEnds more →
    Matches Grammar.primary x.tokens more (One fun t => Gives Exp.erase (primaryOf t) x)

/-- An expression can be read back, and is not a field with a key. -/
structure Exp.Reads (e : Exp) : Prop where
  notKeyed : ∀ more, Fails (.rule .keyedField) (e.tokens ++ more)
  notNamed : ∀ more, StartsWith expEnds more → Fails (.rule .namedField) (e.tokens ++ more)
  read : ∀ more, StartsWith expEnds more →
    Matches (.rule .exp) e.tokens more (One fun t => Gives Exp.erase (expOf t) e)

/-- The operands of an expression. -/
def Exp.operands (e : Exp) : List Exp := e.flat.first.exp :: e.flat.rest.map (·.2.exp)

theorem matches_operand {o : Operand} (operates : o.exp.Operates) {more : List String}
    (ends : StartsWith operandEnds more) : Matches Grammar.operand o.tokens more (IsOperand o) := by
  have each : Items Grammar.unaryOp (fun _ => True) (fun pair => [pair.1.text]) IsUnary o.unary := by
    refine ⟨fun pair _ rest _ => (matches_unaryOp pair.1 rest).post ?_, fun _ _ _ => trivial⟩
    rintro ts ⟨t, rfl, start, rfl⟩
    exact ⟨start, _, rfl⟩
  refine ((each.star (by decide) trivial (operates.notUnary more)).seq (operates.read more ends)).post ?_
  rintro ts ⟨us, vs, rfl, unary, t, rfl, given⟩
  exact ⟨us, t, rfl, unary, given⟩

/-- A pattern that fails at operators and at the first operand fails at the expression. -/
theorem Exp.fails_flat {e : Exp} {p : Pattern Rule} {more : List String}
    (unary : ∀ op : UnaryOp, (Shape.token op.text.toList).rejects p = true)
    (first : Fails p (e.flat.first.exp.tokens ++ (tailTokens e.flat.rest ++ more))) : Fails p (e.tokens ++ more) := by
  rw [e.tokens_flat, Operand.tokens]
  cases before : e.flat.first.unary with
  | nil => simpa using first
  | cons pair _ => exact .of_shape (opens_token pair.1.text _) (unary pair.1)

theorem Exp.reads_of_operands {e : Exp} (grouped : e.isGrouped = true) (operate : ∀ x ∈ e.operands, x.Operates) :
    e.Reads := by
  have first : e.flat.first.exp.Operates := operate _ List.mem_cons_self
  have follow (more : List String) (ends : StartsWith expEnds more) :
      StartsWith operandEnds (tailTokens e.flat.rest ++ more) := by
    cases e.flat.rest with
    | nil => exact startsWith_operandEnds_of_exp ends
    | cons pair _ => exact startsWith_operandEnds_binary pair.1 _
  refine ⟨fun more => ?_, fun more ends => ?_, fun more ends => ?_⟩
  · exact fails_flat (fun op => by cases op <;> decide +kernel) (first.notKeyed _)
  · exact fails_flat (fun op => by cases op <;> decide +kernel) (first.notNamed _ (follow more ends))
  · have each : Items (.seq Grammar.binaryOp Grammar.operand) (StartsWith operandEnds)
        (fun pair => pair.1.text :: pair.2.tokens) IsTail e.flat.rest := by
      refine ⟨fun pair member rest ends => ?_, fun pair _ rest => startsWith_operandEnds_binary pair.1 _⟩
      have operates : pair.2.exp.Operates := operate _ (List.mem_cons_of_mem _ (List.mem_map_of_mem member))
      refine ((matches_binaryOp pair.1 _).seq (matches_operand operates ends)).post ?_
      rintro ts ⟨us, vs, rfl, ⟨t, rfl, start, rfl⟩, operand⟩
      exact ⟨start, _, vs, rfl, operand⟩
    have fails : Fails (.seq Grammar.binaryOp Grammar.operand) more := .seq (.of_first ends (by rfl))
    rw [e.tokens_flat]
    refine Matches.phrase (r := .exp) rfl ((matches_operand first (follow more ends)).seq
      (each.star (by decide) (startsWith_operandEnds_of_exp ends) fails)) ?_
    rintro range ts ⟨us, vs, rfl, operand, tail⟩
    refine (flatExpOf_row operand tail range).bind fun f same => .ok ?_
    rw [FlatExp.erase_assemble, same]
    exact assemble_flat grouped

end LuaLowering.Syntax
