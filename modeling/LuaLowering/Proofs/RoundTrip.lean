import LuaLowering.Proofs.Statements
/-!
# Printed chunks are read back

Every tree that can be written is read back from its script, up to ranges (`Chunk.parse_print`). The kinds of operands
are told apart by their first token; everything else is assembled from the parts along the tree.
-/
namespace LuaLowering.Syntax
open Peg Peg.Pattern Lexeme

/-! ## Operands -/

namespace Exp

/-- What the grammar tries at the beginning of a field or an operand, before it comes to the operand itself. -/
def beforeOperand : List (Pattern Rule) := [Grammar.unaryOp, .rule .keyedField, .rule .namedField]

/-- An operand that its first token tells apart from all that the grammar tries before it. -/
theorem operates_of_shape {x : Exp} {shape : Shape} {r : Rule} (opens : ∀ more, shape.Opens (joined (x.tokens ++ more)))
    (rejects : beforeOperand.all shape.rejects = true) (picks : shape.pick [] Grammar.primary = some r)
    (read : ∀ more, Matches (.rule r) x.tokens more (One fun t => Gives Exp.erase (primaryOf t) x)) : x.Operates where
  notUnary more := .of_shape (opens more) (List.all_eq_true.mp rejects _ (by simp [beforeOperand]))
  notKeyed more := .of_shape (opens more) (List.all_eq_true.mp rejects _ (by simp [beforeOperand]))
  notNamed more _ := .of_shape (opens more) (List.all_eq_true.mp rejects _ (by simp [beforeOperand]))
  read more _ := .pick (opens more) picks (read more)

/-- An operand that is one token, always the same. -/
theorem operates_constant {kind : ExpKind} {r : Rule} {scan : Scanner} (t : String) (range : Option TextRange)
    (written : kind.tokens = [t]) (body : grammar.body r = .token scan)
    (special : r ∉ ([.finish, .shebang, .longString, .quotedString] : List Rule)) (clean : isClean t = true)
    (whole : scan t.toList = some (t.toList, []))
    (rejects : beforeOperand.all (Shape.token t.toList).rejects = true)
    (picks : (Shape.token t.toList).pick [] Grammar.primary = some r)
    (given : ∀ start, Gives Exp.erase (primaryOf (.token r start t.toList)) ⟨kind, range⟩) :
    Operates ⟨kind, range⟩ := by
  have tokens : (Exp.mk kind range).tokens = [t] := written
  refine operates_of_shape (fun more => tokens ▸ opens_token t more) rejects picks fun more => ?_
  rw [tokens]
  refine (matches_constant t body special clean whole more).post ?_
  rintro ts ⟨tree, rfl, start, rfl⟩
  exact ⟨_, rfl, given start⟩

theorem operates_nil (range : Option TextRange) : Operates ⟨.nil, range⟩ :=
  operates_constant (r := .nil) "nil" range rfl rfl (by decide) (by decide) (by rfl) (by rfl)
    (by rfl) fun _ => .ok rfl

theorem operates_false (range : Option TextRange) : Operates ⟨.false, range⟩ :=
  operates_constant (r := .false) "false" range rfl rfl (by decide) (by decide) (by rfl) (by rfl)
    (by rfl) fun _ => .ok rfl

theorem operates_true (range : Option TextRange) : Operates ⟨.true, range⟩ :=
  operates_constant (r := .true) "true" range rfl rfl (by decide) (by decide) (by rfl) (by rfl)
    (by rfl) fun _ => .ok rfl

theorem operates_varArgs (range : Option TextRange) : Operates ⟨.varArgs, range⟩ :=
  operates_constant (r := .varArgs) "..." range rfl rfl (by decide) (by decide) (by rfl) (by rfl)
    (by rfl) fun _ => .ok rfl

end Exp

theorem isClean_of_inClass {n : Numeral} (inClass : n.inClass = true) : isClean n.text = true := by
  obtain ⟨c, s, letters, digit | rfl⟩ := NumeralClass.first_of_reads ⟨_, _, Numeral.scan_of_inClass inClass⟩
  · obtain ⟨visible, dash, -⟩ := isWordChar_visible (c := c) (by simp [isWordChar, Char.isAlphanum, digit])
    simp [isClean, letters, visible, List.isPrefixOf, dash.symm]
  · simp [isClean, letters, List.isPrefixOf]
    decide

/-- The classes that are tried first do not read the numeral. -/
theorem fails_earlier {n : Numeral} (inClass : n.inClass = true) {other : NumeralClass}
    (before : other ∈ n.kind.earlier) (more : List String) : Fails (.rule other.rule) (n.text :: more) := by
  intro _ c here
  have scanned : other.scan n.text.toList = none :=
    NumeralClass.none_of_earlier ⟨_, _, Numeral.scan_of_inClass inClass⟩ before
  rw [tries_rule]
  refine read_token_none other.body_rule ?_
  rw [here, joined, other.blind_scan _ _ (ends_spaced more), scanned]
  rfl

theorem matches_numeral {n : Numeral} (inClass : n.inClass = true) (more : List String) :
    Matches (.rule .number) [n.text] more
      (One fun t => ∃ range u, t = .phrase .number range [u] ∧ numeralOf u = .ok n) := by
  have token : Matches (.rule n.kind.rule) [n.text] more _ :=
    .blind_token n.kind.body_rule n.kind.blind_scan (isClean_of_inClass inClass) (Numeral.scan_of_inClass inClass)
  have fails (other : NumeralClass) (before : other ∈ n.kind.earlier) := fails_earlier inClass before more
  have choice : Matches (any [.rule .hexFloat, .rule .hexInt, .rule .float, .rule .int]) [n.text] more
      (One fun tree => ∃ start, tree = .token n.kind.rule start n.text.toList) := by
    obtain ⟨kind, text⟩ := n
    cases kind with
    | hexFloat => exact .first token
    | hex => exact .second (fails .hexFloat (by simp [NumeralClass.earlier])) (.first token)
    | float =>
      have notHex := fails .hex (by simp [NumeralClass.earlier])
      exact .second (fails .hexFloat (by simp [NumeralClass.earlier])) (.second notHex (.first token))
    | int =>
      have notHex := fails .hex (by simp [NumeralClass.earlier])
      have notFloat := fails .float (by simp [NumeralClass.earlier])
      exact .second (fails .hexFloat (by simp [NumeralClass.earlier])) (.second notHex (.second notFloat token))
  refine Matches.phrase (r := .number) rfl choice ?_
  rintro range ts ⟨t, rfl, start, rfl⟩
  refine ⟨range, _, rfl, ?_⟩
  obtain ⟨kind, text⟩ := n
  cases kind <;> simp [NumeralClass.rule, numeralOf]

namespace Exp

theorem operates_number {n : Numeral} (inClass : n.inClass = true) (range : Option TextRange) :
    Operates ⟨.number n, range⟩ := by
  refine operates_of_shape (r := .number) (opens_numeral inClass) (by rfl) (by rfl) fun more =>
    (matches_numeral inClass more).post ?_
  rintro ts ⟨t, rfl, range', u, rfl, given⟩
  exact ⟨_, rfl, .bind_ok given (.ok rfl)⟩

theorem operates_str (value : String) (range : Option TextRange) : Operates ⟨.str value, range⟩ := by
  refine operates_of_shape (r := .string) (opens_string value) (by rfl) (by rfl) fun more =>
    (matches_string value more).post ?_
  rintro ts ⟨t, rfl, range', us, rfl, given⟩
  exact ⟨_, rfl, .bind_ok given (.ok rfl)⟩

theorem operates_table {fields : List Field} (each : ∀ f ∈ fields, f.Reads) (range : Option TextRange) :
    Operates ⟨.table fields, range⟩ := by
  refine operates_of_shape (r := .table) (fun more => opens_token "\x7b" _) (by rfl) (by rfl)
    fun more => (matches_table each more).post ?_
  rintro ts ⟨t, rfl, range', us, rfl, given⟩
  exact ⟨_, rfl, given.bind fun fs same => .ok (by simp [same])⟩

theorem operates_function {body : FuncBody} (inner : body.Reads) (range : Option TextRange) :
    Operates ⟨.function body, range⟩ := by
  refine operates_of_shape (r := .functionDef) (fun more => opens_token "function" _) (by rfl) (by rfl)
    fun more => Matches.phrase rfl (.text_seq (by decide) (inner more)) ?_
  rintro range' ts ⟨b, rfl, given⟩
  exact given.bind fun x same => .ok (by simp [same])

/-- A name alone is also the beginning of a field with a name: there the sign behind it is missing. -/
theorem operates_prefixExp {h : Head} {calls : List Call} (head : h.Reads) (each : ∀ c ∈ calls, c.Reads)
    (range : Option TextRange) : Operates ⟨.prefixExp ⟨h, calls⟩, range⟩ := by
  have split (more : List String) : (Exp.mk (.prefixExp ⟨h, calls⟩) range).tokens ++ more =
      h.tokens ++ ((callsTokens calls).flatten ++ more) := List.append_assoc _ _ _
  have opening (more : List String) : Opening ((Exp.mk (.prefixExp ⟨h, calls⟩) range).tokens ++ more) :=
    split more ▸ head.opening _
  refine ⟨fun more => .of_opening (opening more) (by rfl) (by rfl),
    fun more => .of_opening (opening more) (by rfl) (by rfl), fun more ends => ?_, fun more ends => ?_⟩
  · rw [split]
    refine head.notNamed _ ?_
    cases calls with
    | nil => exact .inr ends
    | cons c calls => exact .inl (continues_calls (by simp) each more)
  · refine .pick_of_opening [] (r := .prefixExp) (opening more) (fun _ member => by cases member) (by rfl) (by rfl)
      ((matches_prefixExp head each ends).post ?_)
    rintro ts ⟨t, rfl, range', us, rfl, given⟩
    exact ⟨_, rfl, given.bind fun x same => .ok (by simp [same])⟩

theorem isGrouped_of_wellFormed : ∀ {e : Exp}, e.wellFormed = true → e.isGrouped = true
  | ⟨.binary op a b, _⟩, wellFormed => by
    simp only [Exp.wellFormed, ExpKind.wellFormed, Bool.and_eq_true] at wellFormed
    obtain ⟨⟨⟨ofLeft, ofRight⟩, left⟩, right⟩ := wellFormed
    simp [isGrouped, isGrouped_of_wellFormed ofLeft, isGrouped_of_wellFormed ofRight, left, right]
  | ⟨.unary op a, _⟩, wellFormed => by
    simp only [Exp.wellFormed, ExpKind.wellFormed, Bool.and_eq_true] at wellFormed
    simp [isGrouped, isGrouped_of_wellFormed wellFormed.1, wellFormed.2]
  | ⟨.nil, _⟩, _ | ⟨.false, _⟩, _ | ⟨.true, _⟩, _ | ⟨.varArgs, _⟩, _ | ⟨.number _, _⟩, _ | ⟨.str _, _⟩, _
  | ⟨.function _, _⟩, _ | ⟨.prefixExp _, _⟩, _ | ⟨.table _, _⟩, _ => rfl

theorem reads {e : Exp} (wellFormed : e.wellFormed = true) (operate : ∀ x ∈ e.operands, x.Operates) : e.Reads :=
  reads_of_operands (isGrouped_of_wellFormed wellFormed) operate

theorem operands_binary (op : BinaryOp) (a b : Exp) (range : Option TextRange) :
    operands ⟨.binary op a b, range⟩ = a.operands ++ b.operands := by
  simp [operands, flat]

theorem operands_unary (op : UnaryOp) (a : Exp) (range : Option TextRange) :
    operands ⟨.unary op a, range⟩ = a.operands := by
  simp [operands, flat]

end Exp

/-! ## Trees -/

theorem ne_nil_of_not_isEmpty {α : Type} {xs : List α} (some_item : (!xs.isEmpty) = true) : xs ≠ [] := by
  rintro rfl
  cases some_item

mutual

-- The recursion is on the tree, and each case hands the readings of its parts to the lemma of the construct. For an
-- expression it goes through the operators to the operands, as the grammar sees only a row of them.
theorem Exp.operates : ∀ e : Exp, e.wellFormed = true → ∀ x ∈ e.operands, x.Operates
  | ⟨.binary op a b, range⟩, wellFormed => by
    obtain ⟨fits, -⟩ := Bool.and_eq_true_iff.mp wellFormed
    obtain ⟨fits, -⟩ := Bool.and_eq_true_iff.mp fits
    obtain ⟨ofLeft, ofRight⟩ := Bool.and_eq_true_iff.mp fits
    rw [Exp.operands_binary]
    exact List.forall_mem_append.mpr ⟨Exp.operates a ofLeft, Exp.operates b ofRight⟩
  | ⟨.unary op a, range⟩, wellFormed => by
    rw [Exp.operands_unary]
    exact Exp.operates a (Bool.and_eq_true_iff.mp wellFormed).1
  | ⟨.nil, range⟩, _ => List.forall_mem_singleton.mpr (Exp.operates_nil range)
  | ⟨.false, range⟩, _ => List.forall_mem_singleton.mpr (Exp.operates_false range)
  | ⟨.true, range⟩, _ => List.forall_mem_singleton.mpr (Exp.operates_true range)
  | ⟨.varArgs, range⟩, _ => List.forall_mem_singleton.mpr (Exp.operates_varArgs range)
  | ⟨.number n, range⟩, wellFormed => List.forall_mem_singleton.mpr (Exp.operates_number wellFormed range)
  | ⟨.str value, range⟩, _ => List.forall_mem_singleton.mpr (Exp.operates_str value range)
  | ⟨.function body, range⟩, wellFormed =>
    List.forall_mem_singleton.mpr (Exp.operates_function (FuncBody.reads_of_wellFormed body wellFormed) range)
  | ⟨.table fields, range⟩, wellFormed =>
    List.forall_mem_singleton.mpr (Exp.operates_table (fields_read fields wellFormed) range)
  | ⟨.prefixExp ⟨head, calls⟩, range⟩, wellFormed => by
    obtain ⟨ofHead, ofCalls⟩ := Bool.and_eq_true_iff.mp wellFormed
    exact List.forall_mem_singleton.mpr
      (Exp.operates_prefixExp (Head.reads_of_wellFormed head ofHead) (calls_read calls ofCalls) range)

theorem exps_read : ∀ es : List Exp, expsWellFormed es = true → ∀ e ∈ es, e.Reads
  | [], _ => nofun
  | e :: es, wellFormed => by
    obtain ⟨first, rest⟩ := Bool.and_eq_true_iff.mp wellFormed
    exact List.forall_mem_cons.mpr ⟨Exp.reads first (Exp.operates e first), exps_read es rest⟩

theorem Head.reads_of_wellFormed : ∀ h : Head, h.wellFormed = true → h.Reads
  | .var v, wellFormed => Head.reads_var (Var.reads_of_wellFormed v wellFormed)
  | .paren e, wellFormed => Head.reads_paren (Exp.reads wellFormed (Exp.operates e wellFormed))

theorem Var.reads_of_wellFormed : ∀ v : Var, v.wellFormed = true → v.Reads
  | ⟨.name n, suffixes, range⟩, wellFormed => by
    obtain ⟨identifier, ofSuffixes⟩ := Bool.and_eq_true_iff.mp (Bool.and_eq_true_iff.mp wellFormed).1
    exact Var.reads_name identifier (suffixes_read suffixes ofSuffixes) range
  | ⟨.paren e, [], range⟩, wellFormed => by
    cases (Bool.and_eq_true_iff.mp wellFormed).2
  | ⟨.paren e, s :: suffixes, range⟩, wellFormed => by
    obtain ⟨ofExp, ofSuffixes⟩ := Bool.and_eq_true_iff.mp (Bool.and_eq_true_iff.mp wellFormed).1
    exact Var.reads_paren (Exp.reads ofExp (Exp.operates e ofExp)) (suffixes_read (s :: suffixes) ofSuffixes) range

theorem vars_read : ∀ vs : List Var, varsWellFormed vs = true → ∀ v ∈ vs, v.Reads
  | [], _ => nofun
  | v :: vs, wellFormed => by
    obtain ⟨first, rest⟩ := Bool.and_eq_true_iff.mp wellFormed
    exact List.forall_mem_cons.mpr ⟨Var.reads_of_wellFormed v first, vars_read vs rest⟩

theorem suffixes_read : ∀ ss : List Suffix, suffixesWellFormed ss = true → ∀ s ∈ ss, s.Reads
  | [], _ => nofun
  | ⟨calls, access⟩ :: ss, wellFormed => by
    obtain ⟨first, rest⟩ := Bool.and_eq_true_iff.mp wellFormed
    obtain ⟨ofCalls, ofAccess⟩ := Bool.and_eq_true_iff.mp first
    exact List.forall_mem_cons.mpr
      ⟨Suffix.reads (calls_read calls ofCalls) (Access.reads_of_wellFormed access ofAccess), suffixes_read ss rest⟩

theorem Access.reads_of_wellFormed : ∀ a : Access, a.wellFormed = true → a.Reads
  | .index e, wellFormed => Access.reads_index (Exp.reads wellFormed (Exp.operates e wellFormed))
  | .member _, wellFormed => Access.reads_member wellFormed

theorem calls_read : ∀ cs : List Call, callsWellFormed cs = true → ∀ c ∈ cs, c.Reads
  | [], _ => nofun
  | ⟨none, args, range⟩ :: cs, wellFormed => by
    obtain ⟨ofArgs, rest⟩ := Bool.and_eq_true_iff.mp wellFormed
    exact List.forall_mem_cons.mpr ⟨Call.reads_plain (Args.reads_of_wellFormed args ofArgs) range, calls_read cs rest⟩
  | ⟨some method, args, range⟩ :: cs, wellFormed => by
    obtain ⟨first, rest⟩ := Bool.and_eq_true_iff.mp wellFormed
    obtain ⟨identifier, ofArgs⟩ := Bool.and_eq_true_iff.mp first
    exact List.forall_mem_cons.mpr
      ⟨Call.reads_method identifier (Args.reads_of_wellFormed args ofArgs) range, calls_read cs rest⟩

theorem Args.reads_of_wellFormed : ∀ a : Args, a.wellFormed = true → a.Reads
  | .list es, wellFormed => Args.reads_list (exps_read es wellFormed)
  | .table ⟨.table fields, range⟩, wellFormed => Args.reads_table (fields_read fields wellFormed) range
  | .str ⟨.str value, range⟩, _ => Args.reads_str value range
  | .table ⟨.nil, _⟩, wellFormed | .table ⟨.false, _⟩, wellFormed | .table ⟨.true, _⟩, wellFormed
  | .table ⟨.varArgs, _⟩, wellFormed | .table ⟨.number _, _⟩, wellFormed | .table ⟨.str _, _⟩, wellFormed
  | .table ⟨.function _, _⟩, wellFormed | .table ⟨.prefixExp _, _⟩, wellFormed | .table ⟨.unary _ _, _⟩, wellFormed
  | .table ⟨.binary _ _ _, _⟩, wellFormed | .str ⟨.nil, _⟩, wellFormed | .str ⟨.false, _⟩, wellFormed
  | .str ⟨.true, _⟩, wellFormed | .str ⟨.varArgs, _⟩, wellFormed | .str ⟨.number _, _⟩, wellFormed
  | .str ⟨.function _, _⟩, wellFormed | .str ⟨.prefixExp _, _⟩, wellFormed | .str ⟨.table _, _⟩, wellFormed
  | .str ⟨.unary _ _, _⟩, wellFormed | .str ⟨.binary _ _ _, _⟩, wellFormed => by
    cases wellFormed

theorem fields_read : ∀ fs : List Field, fieldsWellFormed fs = true → ∀ f ∈ fs, f.Reads
  | [], _ => nofun
  | .keyed k v :: fs, wellFormed => by
    obtain ⟨first, rest⟩ := Bool.and_eq_true_iff.mp wellFormed
    obtain ⟨ofKey, ofValue⟩ := Bool.and_eq_true_iff.mp first
    have key := Exp.reads ofKey (Exp.operates k ofKey)
    have value := Exp.reads ofValue (Exp.operates v ofValue)
    exact List.forall_mem_cons.mpr ⟨Field.reads_keyed key value, fields_read fs rest⟩
  | .named n v :: fs, wellFormed => by
    obtain ⟨first, rest⟩ := Bool.and_eq_true_iff.mp wellFormed
    obtain ⟨identifier, ofValue⟩ := Bool.and_eq_true_iff.mp first
    exact List.forall_mem_cons.mpr
      ⟨Field.reads_named identifier (Exp.reads ofValue (Exp.operates v ofValue)), fields_read fs rest⟩
  | .positional v :: fs, wellFormed => by
    obtain ⟨ofValue, rest⟩ := Bool.and_eq_true_iff.mp wellFormed
    exact List.forall_mem_cons.mpr
      ⟨Field.reads_positional (Exp.reads ofValue (Exp.operates v ofValue)), fields_read fs rest⟩

theorem FuncBody.reads_of_wellFormed : ∀ b : FuncBody, b.wellFormed = true → b.Reads
  | ⟨params, _, body⟩, wellFormed => by
    obtain ⟨identifiers, ofBody⟩ := Bool.and_eq_true_iff.mp wellFormed
    exact FuncBody.reads (List.all_eq_true.mp identifiers) (Block.reads_of_wellFormed body ofBody)

theorem Block.reads_of_wellFormed : ∀ b : Block, b.wellFormed = true → b.Reads
  | ⟨stats, none, range⟩, wellFormed => Block.reads (stats_read stats wellFormed) range
  | ⟨stats, some ⟨values, range'⟩, range⟩, wellFormed => by
    obtain ⟨ofStats, ofValues⟩ := Bool.and_eq_true_iff.mp wellFormed
    exact Block.reads_ret (stats_read stats ofStats) (Ret.reads (exps_read values ofValues) range') range

theorem stats_read : ∀ ss : List Stat, statsWellFormed ss = true → ∀ s ∈ ss, s.Reads
  | [], _ => nofun
  | s :: ss, wellFormed => by
    obtain ⟨first, rest⟩ := Bool.and_eq_true_iff.mp wellFormed
    exact List.forall_mem_cons.mpr ⟨Stat.reads_of_wellFormed s first, stats_read ss rest⟩

theorem Stat.reads_of_wellFormed : ∀ s : Stat, s.wellFormed = true → s.Reads
  | ⟨.assign targets values, range⟩, wellFormed => by
    obtain ⟨parts, some_value⟩ := Bool.and_eq_true_iff.mp wellFormed
    obtain ⟨parts, some_target⟩ := Bool.and_eq_true_iff.mp parts
    obtain ⟨ofTargets, ofValues⟩ := Bool.and_eq_true_iff.mp parts
    exact Stat.reads_assign (ne_nil_of_not_isEmpty some_target) (ne_nil_of_not_isEmpty some_value)
      (vars_read targets ofTargets) (exps_read values ofValues) range
  | ⟨.call ⟨head, calls⟩, range⟩, wellFormed => by
    obtain ⟨parts, some_call⟩ := Bool.and_eq_true_iff.mp wellFormed
    obtain ⟨ofHead, ofCalls⟩ := Bool.and_eq_true_iff.mp parts
    exact Stat.reads_call (ne_nil_of_not_isEmpty some_call) (Head.reads_of_wellFormed head ofHead)
      (calls_read calls ofCalls) range
  | ⟨.label _, range⟩, wellFormed => Stat.reads_label wellFormed range
  | ⟨.breakLoop, range⟩, _ => Stat.reads_break range
  | ⟨.gotoLabel _, range⟩, wellFormed => Stat.reads_goto wellFormed range
  | ⟨.enclosed body, range⟩, wellFormed => Stat.reads_enclosed (Block.reads_of_wellFormed body wellFormed) range
  | ⟨.whileLoop c body, range⟩, wellFormed => by
    obtain ⟨ofCond, ofBody⟩ := Bool.and_eq_true_iff.mp wellFormed
    exact Stat.reads_while (Exp.reads ofCond (Exp.operates c ofCond)) (Block.reads_of_wellFormed body ofBody) range
  | ⟨.repeatLoop body c, range⟩, wellFormed => by
    obtain ⟨ofBody, ofCond⟩ := Bool.and_eq_true_iff.mp wellFormed
    exact Stat.reads_repeat (Block.reads_of_wellFormed body ofBody) (Exp.reads ofCond (Exp.operates c ofCond)) range
  | ⟨.ifChain [] none, _⟩, wellFormed => by cases wellFormed
  | ⟨.ifChain [] (some _), _⟩, wellFormed => by cases (Bool.and_eq_true_iff.mp wellFormed).2
  | ⟨.ifChain (c :: clauses) none, range⟩, wellFormed => by
    have each := clauses_read (c :: clauses) (Bool.and_eq_true_iff.mp wellFormed).1
    exact Stat.reads_if (each c List.mem_cons_self) (fun d member => each d (List.mem_cons_of_mem _ member))
      (by rintro b ⟨⟩) range
  | ⟨.ifChain (c :: clauses) (some b), range⟩, wellFormed => by
    obtain ⟨ofClauses, ofLast⟩ := Bool.and_eq_true_iff.mp (Bool.and_eq_true_iff.mp wellFormed).1
    have each := clauses_read (c :: clauses) ofClauses
    have last := Block.reads_of_wellFormed b ofLast
    exact Stat.reads_if (each c List.mem_cons_self) (fun d member => each d (List.mem_cons_of_mem _ member))
      (by rintro b ⟨⟩; exact last) range
  | ⟨.numericFor _ a l none body, range⟩, wellFormed => by
    obtain ⟨parts, ofBody⟩ := Bool.and_eq_true_iff.mp wellFormed
    obtain ⟨parts, ofLimit⟩ := Bool.and_eq_true_iff.mp parts
    obtain ⟨identifier, ofStart⟩ := Bool.and_eq_true_iff.mp parts
    have start := Exp.reads ofStart (Exp.operates a ofStart)
    have limit := Exp.reads ofLimit (Exp.operates l ofLimit)
    exact Stat.reads_numericFor identifier start limit (Block.reads_of_wellFormed body ofBody) range
  | ⟨.numericFor _ a l (some s) body, range⟩, wellFormed => by
    obtain ⟨parts, ofBody⟩ := Bool.and_eq_true_iff.mp wellFormed
    obtain ⟨parts, ofStep⟩ := Bool.and_eq_true_iff.mp parts
    obtain ⟨parts, ofLimit⟩ := Bool.and_eq_true_iff.mp parts
    obtain ⟨identifier, ofStart⟩ := Bool.and_eq_true_iff.mp parts
    have start := Exp.reads ofStart (Exp.operates a ofStart)
    have limit := Exp.reads ofLimit (Exp.operates l ofLimit)
    have step := Exp.reads ofStep (Exp.operates s ofStep)
    exact Stat.reads_numericFor_step identifier start limit step (Block.reads_of_wellFormed body ofBody) range
  | ⟨.genericFor names es body, range⟩, wellFormed => by
    obtain ⟨parts, some_exp⟩ := Bool.and_eq_true_iff.mp wellFormed
    obtain ⟨parts, some_name⟩ := Bool.and_eq_true_iff.mp parts
    obtain ⟨parts, ofBody⟩ := Bool.and_eq_true_iff.mp parts
    obtain ⟨identifiers, ofExps⟩ := Bool.and_eq_true_iff.mp parts
    exact Stat.reads_genericFor (ne_nil_of_not_isEmpty some_name) (ne_nil_of_not_isEmpty some_exp)
      (List.all_eq_true.mp identifiers) (exps_read es ofExps) (Block.reads_of_wellFormed body ofBody) range
  | ⟨.function name body, range⟩, wellFormed => by
    obtain ⟨ofName, ofBody⟩ := Bool.and_eq_true_iff.mp wellFormed
    exact Stat.reads_function ofName (FuncBody.reads_of_wellFormed body ofBody) range
  | ⟨.localFunction name body, range⟩, wellFormed => by
    obtain ⟨identifier, ofBody⟩ := Bool.and_eq_true_iff.mp wellFormed
    exact Stat.reads_localFunction identifier (FuncBody.reads_of_wellFormed body ofBody) range
  | ⟨.localVars names values, range⟩, wellFormed => by
    obtain ⟨parts, some_name⟩ := Bool.and_eq_true_iff.mp wellFormed
    obtain ⟨ofNames, ofValues⟩ := Bool.and_eq_true_iff.mp parts
    exact Stat.reads_local (ne_nil_of_not_isEmpty some_name) (List.all_eq_true.mp ofNames)
      (exps_read values ofValues) range

theorem clauses_read : ∀ cs : List Clause, clausesWellFormed cs = true → ∀ c ∈ cs, c.Reads
  | [], _ => nofun
  | ⟨cond, body⟩ :: cs, wellFormed => by
    obtain ⟨first, rest⟩ := Bool.and_eq_true_iff.mp wellFormed
    obtain ⟨ofCond, ofBody⟩ := Bool.and_eq_true_iff.mp first
    exact List.forall_mem_cons.mpr
      ⟨⟨Exp.reads ofCond (Exp.operates cond ofCond), Block.reads_of_wellFormed body ofBody⟩, clauses_read cs rest⟩

end

/-! ## Chunks -/

/-- No statement begins like a line for another program. -/
theorem Stat.notShebang {s : Stat} (wellFormed : s.wellFormed = true) (more : List String) :
    Fails (.rule .shebang) (s.tokens ++ more) := by
  obtain ⟨kind, range⟩ := s
  cases kind with
  | assign targets values =>
    simp only [Stat.wellFormed, StatKind.wellFormed, Bool.and_eq_true] at wellFormed
    obtain ⟨⟨⟨ofTargets, -⟩, some_target⟩, -⟩ := wellFormed
    cases targets with
    | nil => cases some_target
    | cons v targets =>
      have first := (vars_read (v :: targets) ofTargets v List.mem_cons_self).opening
      rw [tokens, StatKind.tokens, varsTokens, separated]
      simp only [List.append_assoc]
      exact .of_opening (first _) (by rfl) (by rfl)
  | call p =>
    obtain ⟨head, calls⟩ := p
    simp only [Stat.wellFormed, StatKind.wellFormed, PrefixExp.wellFormed, Bool.and_eq_true] at wellFormed
    have first := (Head.reads_of_wellFormed head wellFormed.1.1).opening
    rw [tokens, StatKind.tokens, PrefixExp.tokens, List.append_assoc]
    exact .of_opening (first _) (by rfl) (by rfl)
  | ifChain clauses otherwise =>
    cases clauses with
    | nil => cases otherwise <;> simp [Stat.wellFormed, StatKind.wellFormed] at wellFormed
    | cons c clauses => cases otherwise <;> exact .of_shape (opens_token "if" _) (by rfl)
  | numericFor v a l step body => cases step <;> exact .of_shape (opens_token "for" _) (by rfl)
  | label n => exact .of_shape (opens_token "::" _) (by rfl)
  | breakLoop => exact .of_shape (opens_token "break" _) (by rfl)
  | gotoLabel n => exact .of_shape (opens_token "goto" _) (by rfl)
  | enclosed body => exact .of_shape (opens_token "do" _) (by rfl)
  | whileLoop c body => exact .of_shape (opens_token "while" _) (by rfl)
  | repeatLoop body c => exact .of_shape (opens_token "repeat" _) (by rfl)
  | genericFor names es body => exact .of_shape (opens_token "for" _) (by rfl)
  | function name body => exact .of_shape (opens_token "function" _) (by rfl)
  | localFunction name body => exact .of_shape (opens_token "local" _) (by rfl)
  | localVars names values => exact .of_shape (opens_token "local" _) (by rfl)

theorem Block.notShebang {b : Block} (wellFormed : b.wellFormed = true) : Fails (.rule .shebang) b.tokens := by
  obtain ⟨stats, ret, range⟩ := b
  cases stats with
  | nil =>
    cases ret with
    | none => exact .of_shape opens_nothing (by rfl)
    | some ret =>
      obtain ⟨values, range'⟩ := ret
      exact .of_shape (opens_token "return" _) (by rfl)
  | cons s stats =>
    have first : s.wellFormed = true := by
      cases ret <;> simp only [Block.wellFormed, statsWellFormed, Bool.and_eq_true] at wellFormed
      · exact wellFormed.1
      · exact wellFormed.1.1
    have split : ∃ more, (Block.mk (s :: stats) ret range).tokens = s.tokens ++ more := by
      cases ret with
      | none => exact ⟨_, rfl⟩
      | some ret => exact ⟨_, List.append_assoc _ _ _⟩
    obtain ⟨more, split⟩ := split
    exact split ▸ s.notShebang first more

theorem matches_nothing (more : List String) : Matches (.text "") [] more (· = []) :=
  ⟨clean_nil, fun _ c here => ⟨[], c, tries_text rfl, .inl here, rfl⟩⟩

theorem matches_finish : Matches (.rule .finish) [] [] (One fun _ => True) := by
  refine ⟨clean_nil, fun _ c here => ⟨[.token .finish c.offset []], c, ?_, .inl here, _, rfl, trivial⟩⟩
  obtain ⟨offset, rest⟩ := c
  obtain rfl : rest = [] := here
  rw [tries_rule, Peg.Grammar.read_token layered_grammar (r := .finish) rfl]
  rfl

/-- What is converted to a block is a phrase of that rule. -/
theorem eq_phrase_of_block {t : ParseTree Rule} {b : Block} (given : Gives Block.erase (blockOf t) b) :
    ∃ range ts, t = .phrase .block range ts := by
  obtain ⟨x, made, -⟩ := given
  rw [blockOf.eq_def] at made
  split at made
  · exact ⟨_, _, rfl⟩
  · cases made

theorem matches_chunk {chunk : Chunk} (wellFormed : chunk.wellFormed = true) :
    Matches (.rule .chunk) chunk.block.tokens [] (One fun t => Gives Chunk.erase (chunkOf t) chunk) := by
  have noShebang : Fails (.rule .shebang) (chunk.block.tokens ++ []) := by
    rw [List.append_nil]
    exact chunk.block.notShebang wellFormed
  have whole := (chunk.block.reads_of_wellFormed wellFormed ([] ++ []) (.inl rfl)).seq matches_finish
  rw [List.append_nil] at whole
  refine Matches.phrase (r := .chunk) rfl
    (.seq_of_nil (matches_nothing _) (.seq_of_nil (.opt_nil noShebang) whole)) ?_
  rintro range ts ⟨us, vs, rfl, ⟨t, rfl, given⟩, e, rfl, -⟩
  obtain ⟨range', ts, rfl⟩ := eq_phrase_of_block given
  exact given.bind fun b same => .ok (by simp [Chunk.relabel, same])

namespace Chunk

/-- A chunk that can be written is read back from its script, up to ranges. -/
theorem parse_print {chunk : Chunk} (wellFormed : chunk.wellFormed = true) (file : String) :
    ∃ read, Chunk.parse ⟨file, chunk.print⟩ = .ok read ∧ read.erase = chunk.erase := by
  have text : chunk.print.toList = joined (chunk.block.tokens ++ []) := by
    rw [List.append_nil, print, toList_intercalate]
  obtain ⟨ts, d, found, -, t, rfl, read, made, same⟩ :=
    (matches_chunk wellFormed).found clean_nil ⟨0, chunk.print.toList⟩ text
  rw [tries_rule] at found
  have parsed : grammar.parse (depthBound chunk.print.toList) .chunk ⟨0, chunk.print.toList⟩ = some ([t], d) := found
  have matched : matchChunk chunk.print.toList = some t := by rw [matchChunk, parsed]
  refine ⟨read, ?_, same⟩
  simp only [parse, matched, made]
  rfl

/-- A table with all kinds of fields, operators of several levels, a string that needs escapes, names that begin like
reserved words, and a call whose result is assigned to. -/
def assorted : Chunk := ⟨⟨[
    ⟨.localVars [⟨"functions", none⟩, ⟨"nilly", some "const"⟩] [
      binary .concat (unary .neg (binary .pow (number .int "2") (unary .neg (number .hex "0xA"))))
        (text "say \"\\\n\""),
      ⟨.table [.keyed ⟨.varArgs, none⟩ (binary .eq (named "a") (named "b")), .named "k" ⟨.nil, none⟩,
        .positional (named "k")], none⟩], none⟩,
    ⟨.assign [⟨.paren (named "f"), [⟨[⟨none, .list [], none⟩, ⟨some "m", .str (text "s"), none⟩], .member "y"⟩], none⟩]
      [binary .mul ⟨.prefixExp ⟨.paren (binary .add (named "x") (number .float ".5")), []⟩, none⟩ (named "y")], none⟩,
    ⟨.call ⟨.var ⟨.name "endless", [], none⟩, [⟨none, .table ⟨.table [], none⟩, none⟩]⟩, none⟩,
    ⟨.genericFor ["k", "v"] [named "pairs"] ⟨[⟨.breakLoop, none⟩], none, none⟩, none⟩],
    some ⟨[⟨.function ⟨["x"], true, ⟨[], none, none⟩⟩, none⟩], none⟩, none⟩, none⟩
where
  named (n : String) : Exp := ⟨.prefixExp ⟨.var ⟨.name n, [], none⟩, []⟩, none⟩
  number (k : NumeralClass) (digits : String) : Exp := ⟨.number ⟨k, digits⟩, none⟩
  text (s : String) : Exp := ⟨.str s, none⟩
  unary (op : UnaryOp) (e : Exp) : Exp := ⟨.unary op e, none⟩
  binary (op : BinaryOp) (a b : Exp) : Exp := ⟨.binary op a b, none⟩

theorem parse_print_assorted : assorted.wellFormed = true ∧
    ∃ read, Chunk.parse ⟨"main.lua", assorted.print⟩ = .ok read ∧ read.erase = assorted := by
  have wellFormed : assorted.wellFormed = true := by decide +kernel
  exact ⟨wellFormed, parse_print wellFormed "main.lua"⟩

end Chunk
end LuaLowering.Syntax
