import LuaLowering.Proofs.Cells
import LuaLowering.Proofs.Interruptions
import Mathlib.Algebra.Ring.Nat
/-!
# Templates

The kinds of the operations in `main`, and how many results each has, can be read off the tree of a chunk: every
construct has a template, and the templates follow each other in the order of lowering (`Chunk.template`). All that a
template has to know of what came before it are the names that were referred to. So no operation is lost and none is
placed twice, and the number of operations of each kind is that of the constructs that need it (`lower_template`).
-/
namespace LuaLowering

/-- The kind of an operation and the number of its results. -/
structure Outline where
  kind : OpKind
  results : Nat
  deriving DecidableEq, Repr

def Operation.outline (op : Operation) : Outline := ⟨op.kind, op.results.length⟩

namespace Syntax

/-- A name that was not seen before gets a cell. -/
def nameTemplate (seen : List String) (name : String) : List Outline :=
  if name ∈ seen then [] else [⟨.getOrAlloc, 1⟩]

/-- One value is taken out of what a call gives. -/
def Exp.adjustment (e : Exp) : List Outline := if e.isCall then [⟨.unpack, 1⟩] else []

def Var.template (v : Var) (seen : List String) : List Outline := v.bareName?.toList.flatMap (nameTemplate seen)

def varsTemplate : List Var → (seen : List String) → List Outline
  | [], _ => []
  | v :: vs, seen => v.template seen ++ varsTemplate vs (seen ++ v.bareName?.toList)

mutual

/-- The operations of an expression, after references to the names in `seen`. What is not lowered has none. -/
def Exp.template : Exp → (seen : List String) → List Outline
  | ⟨.nil, _⟩, _ => [⟨.nil, 1⟩]
  | ⟨.number _, _⟩, _ => [⟨.number, 1⟩]
  | ⟨.prefixExp p, _⟩, seen => p.template seen
  | _, _ => []

def expsTemplate : List Exp → (seen : List String) → List Outline
  | [], _ => []
  | e :: es, seen => e.template seen ++ expsTemplate es (seen ++ e.names)

def PrefixExp.template : PrefixExp → (seen : List String) → List Outline
  | ⟨head, calls⟩, seen => head.template seen ++ callsTemplate calls (seen ++ head.names)

def Head.template : Head → (seen : List String) → List Outline
  | .var v, seen => v.template seen
  | .paren e, seen => e.template seen ++ e.adjustment

def callsTemplate : List Call → (seen : List String) → List Outline
  | [], _ => []
  | call :: calls, seen => call.template seen ++ callsTemplate calls (seen ++ call.names)

/-- The arguments from left to right, their concat and the call. -/
def Call.template : Call → (seen : List String) → List Outline
  | ⟨_, args, _⟩, seen => args.template seen ++ [⟨.concat, 1⟩, ⟨.call, 1⟩]

def Args.template : Args → (seen : List String) → List Outline
  | .list es, seen => expsTemplate es seen
  | .table e, seen => e.template seen ++ e.adjustment
  | .str e, seen => e.template seen ++ e.adjustment

end

/-- The names of the targets of an assignment. -/
def targetNames (targets : List Var) : List String := targets.flatMap (·.bareName?.toList)

/-- An assignment has its targets, its values, their concat, an unpack with a result for each target and an assign for
each target. -/
def Stat.template (stat : Stat) (seen : List String) : List Outline :=
  match stat.kind with
  | .assign targets values =>
    varsTemplate targets seen ++ expsTemplate values (seen ++ targetNames targets) ++
      ([⟨.concat, 1⟩, ⟨.unpack, targets.length⟩] ++ List.replicate targets.length ⟨.assign, 0⟩)
  | .call p => p.template seen
  | _ => []

def statsTemplate : List Stat → (seen : List String) → List Outline
  | [], _ => []
  | stat :: rest, seen => stat.template seen ++ statsTemplate rest (seen ++ stat.names)

/-- The operations of a chunk. -/
def Chunk.template (chunk : Chunk) : List Outline := statsTemplate chunk.block.stats [] ++ [⟨.ret, 0⟩]

/-! ## Constructs that need operations -/

mutual

/-- The number of calls in an expression. What is not lowered counts as having none. -/
def Exp.callCount : Exp → Nat
  | ⟨.prefixExp p, _⟩ => p.callCount
  | _ => 0

def expsCallCount : List Exp → Nat
  | [] => 0
  | e :: es => e.callCount + expsCallCount es

def PrefixExp.callCount : PrefixExp → Nat
  | ⟨head, calls⟩ => head.callCount + callsCallCount calls

def Head.callCount : Head → Nat
  | .var _ => 0
  | .paren e => e.callCount

/-- Each call counts, and so do the calls in its arguments. -/
def callsCallCount : List Call → Nat
  | [] => 0
  | call :: calls => call.callCount + 1 + callsCallCount calls

def Call.callCount : Call → Nat
  | ⟨_, args, _⟩ => args.callCount

def Args.callCount : Args → Nat
  | .list es => expsCallCount es
  | .table e => e.callCount
  | .str e => e.callCount

end

/-- The number of calls in a statement. -/
def Stat.callCount (stat : Stat) : Nat :=
  match stat.kind with
  | .assign _ values => expsCallCount values
  | .call p => p.callCount
  | _ => 0

/-- The targets of a statement, if it is an assignment. -/
def Stat.targets? (stat : Stat) : Option (List Var) :=
  match stat.kind with
  | .assign targets _ => some targets
  | _ => none

def Chunk.callCount (chunk : Chunk) : Nat := (chunk.block.stats.map Stat.callCount).sum

/-- The targets of each assignment of a chunk. -/
def Chunk.assignments (chunk : Chunk) : List (List Var) := chunk.block.stats.filterMap Stat.targets?

end Syntax

/-! ## Templates and layout -/

namespace Module
variable {m : Module}

/-- The first `n` operations. -/
def outline (m : Module) (n : Nat) : List Outline := (m.ops.toList.take n).map Operation.outline

/-- The first `n` operations place the cells of the names, and no others. -/
def Knows (m : Module) (n : Nat) (seen : List String) : Prop :=
  ∀ name, some (.str name) ∈ m.vars n ↔ name ∈ seen

/-- From `lo` to `hi` stand the operations of the template, and the names are referred to. -/
def Unfolds (m : Module) (lo : Nat) (names : List String) (template : List String → List Outline) (hi : Nat) : Prop :=
  ∀ seen, m.Knows lo seen → m.outline hi = m.outline lo ++ template seen ∧ m.Knows hi (seen ++ names)

theorem unfolds_nil (lo : Nat) : m.Unfolds lo [] (fun _ => []) lo := by
  intro seen known
  simpa using known

theorem Unfolds.trans {lo mid hi : Nat} {names others : List String} {first second : List String → List Outline}
    (front : m.Unfolds lo names first mid) (back : m.Unfolds mid others second hi) :
    m.Unfolds lo (names ++ others) (fun seen => first seen ++ second (seen ++ names)) hi := by
  intro seen known
  obtain ⟨placed, known'⟩ := front seen known
  obtain ⟨placed', known''⟩ := back _ known'
  rw [placed', placed, List.append_assoc, ← List.append_assoc seen]
  exact ⟨rfl, known''⟩

/-- Operations that refer to no name. -/
theorem Unfolds.trans_nil {lo mid hi : Nat} {names : List String} {first : List String → List Outline}
    {tail : List Outline} (front : m.Unfolds lo names first mid) (back : m.Unfolds mid [] (fun _ => tail) hi) :
    m.Unfolds lo names (fun seen => first seen ++ tail) hi := by
  have whole := front.trans back
  rwa [List.append_nil] at whole

theorem outline_succ {n : Nat} {op : Operation} (found : m.op? ⟨n⟩ = some op) :
    m.outline (n + 1) = m.outline n ++ [op.outline] := by
  have listed : m.ops.toList[n]? = some op := by simpa [op?] using found
  simp [outline, List.take_add_one, listed]

/-- One operation that places no cell. -/
theorem unfolds_op {i : Nat} {op : Operation} (found : m.op? ⟨i⟩ = some op) (other : op.kind ≠ .getOrAlloc) :
    m.Unfolds i [] (fun _ => [op.outline]) (i + 1) := by
  intro seen known
  refine ⟨outline_succ found, fun name => ?_⟩
  rw [vars_succ_of_ne found other, List.append_nil]
  exact known name

theorem GivesAt.unfolds {i : Nat} {v : ValueId} {d : Draft} (gives : m.GivesAt i v d) (other : d.kind ≠ .getOrAlloc) :
    m.Unfolds i [] (fun _ => [⟨d.kind, 1⟩]) (i + 1) := by
  obtain ⟨-, -, -, found⟩ := gives
  exact unfolds_op found other

theorem Refers.unfolds {name : String} {loc : Location} {lo hi : Nat} {cell : Ref}
    (refers : m.Refers name loc lo cell hi) :
    m.Unfolds lo [name] (fun seen => Syntax.nameTemplate seen name) hi := by
  intro seen known
  cases refers with
  | again placed _ =>
    have listed := (known name).mp placed
    simp only [Syntax.nameTemplate, if_pos listed, List.append_nil, true_and]
    intro other
    rw [known other, List.mem_append, List.mem_singleton]
    constructor
    · exact .inl
    · rintro (earlier | rfl)
      · exact earlier
      · exact listed
  | first fresh gives =>
    have unlisted : name ∉ seen := fun listed => fresh ((known name).mpr listed)
    obtain ⟨-, -, -, found⟩ := gives
    refine ⟨?_, fun other => ?_⟩
    · simp only [Syntax.nameTemplate, if_neg unlisted, outline_succ found]
      rfl
    · rw [vars_succ found, if_pos rfl, List.mem_append, known other, List.mem_append]
      simp [Operation.attribute?]

theorem Adjusts.unfolds {loc : Location} {lo hi : Nat} {item : Lowered} {v : Ref}
    (adjusts : m.Adjusts loc lo item v hi) :
    m.Unfolds lo [] (fun _ => if item.isPack then [⟨.unpack, 1⟩] else []) hi := by
  cases adjusts with
  | value => exact unfolds_nil lo
  | pack p _ gives => exact gives.unfolds (by simp)

theorem Assigns.unfolds {first : Nat} {cells items : List ValueId} {packed : ValueId} {unpacked : List ValueId}
    {loc : Location} (assigns : m.Assigns first cells items packed unpacked loc) :
    m.Unfolds first [] (fun _ => [⟨.concat, 1⟩, ⟨.unpack, cells.length⟩] ++ List.replicate cells.length ⟨.assign, 0⟩)
      (first + 2 + cells.length) := by
  have assigned (n : Nat) (bound : n ≤ cells.length) :
      m.Unfolds (first + 2) [] (fun _ => List.replicate n ⟨.assign, 0⟩) (first + 2 + n) := by
    induction n with
    | zero => exact unfolds_nil _
    | succ n ih =>
      have counted : n < unpacked.length := assigns.count ▸ bound
      have placed := assigns.assign n _ _ (List.getElem?_eq_getElem bound) (List.getElem?_eq_getElem counted)
      rw [List.replicate_succ']
      exact (ih (Nat.le_of_lt bound)).trans_nil (unfolds_op placed (by simp))
  have two := (unfolds_op assigns.concat (by simp)).trans_nil (unfolds_op assigns.unpack (by simp))
  have whole := two.trans_nil (assigned cells.length (Nat.le_refl _))
  rw [← assigns.count] at whole ⊢
  exact whole

end Module

namespace Syntax
variable {source : Source} {m : Module}

theorem Var.LaidOut.unfolds {v : Var} {lo hi : Nat} {cell : Ref} (laid : v.LaidOut source m lo cell hi) :
    m.Unfolds lo v.bareName?.toList v.template hi := by
  obtain ⟨name, bare, refers⟩ := laid
  have template : v.template = fun seen => nameTemplate seen name := by
    funext seen
    simp [Var.template, bare]
  rw [bare, template]
  exact refers.unfolds

theorem varsLaidOut_unfolds {vs : List Var} {lo hi : Nat} {cells : List Ref}
    (laid : varsLaidOut source m vs lo cells hi) :
    m.Unfolds lo (targetNames vs) (varsTemplate vs) hi ∧ cells.length = vs.length := by
  induction vs generalizing lo cells with
  | nil =>
    obtain ⟨rfl, rfl⟩ := laid
    exact ⟨Module.unfolds_nil _, rfl⟩
  | cons v vs ih =>
    obtain ⟨cell, rest, mid, rfl, first, others⟩ := laid
    obtain ⟨unfolds, counted⟩ := ih others
    exact ⟨first.unfolds.trans unfolds, congrArg (· + 1) counted⟩

/-- A call gives a pack, and everything else one value. -/
theorem Exp.LaidOut.isPack_eq {e : Exp} {lo hi : Nat} {item : Lowered} (laid : e.LaidOut source m lo item hi) :
    item.isPack = e.isCall := by
  obtain ⟨kind, range⟩ := e
  cases kind with
  | nil =>
    rw [Exp.LaidOut] at laid
    obtain ⟨v, rfl, -⟩ := laid
    rfl
  | number n =>
    rw [Exp.LaidOut] at laid
    obtain ⟨c, v, -, rfl, -⟩ := laid
    rfl
  | prefixExp p =>
    obtain ⟨head, calls⟩ := p
    rw [Exp.LaidOut] at laid
    match calls with
    | [] =>
      rw [PrefixExp.LaidOut] at laid
      obtain ⟨v, rfl, -⟩ := laid
      rfl
    | [call] =>
      rw [PrefixExp.LaidOut] at laid
      obtain ⟨callee, mid, p, rfl, -⟩ := laid
      rfl
    | _ :: _ :: _ => simp [PrefixExp.LaidOut] at laid
  | _ => simp [Exp.LaidOut] at laid

theorem Exp.LaidOut.adjust {e : Exp} {lo mid hi : Nat} {item : Lowered} {v : Ref} {loc : Location}
    {template : List String → List Outline} (laid : e.LaidOut source m lo item mid)
    (unfolds : m.Unfolds lo e.names template mid) (adjusts : m.Adjusts loc mid item v hi) :
    m.Unfolds lo e.names (fun seen => template seen ++ e.adjustment) hi := by
  have tail := adjusts.unfolds
  rw [laid.isPack_eq] at tail
  exact unfolds.trans_nil tail

mutual

theorem Exp.LaidOut.unfolds : ∀ {e : Exp} {lo : Nat} {item : Lowered} {hi : Nat},
    e.LaidOut source m lo item hi → m.Unfolds lo e.names e.template hi
  | ⟨.nil, _⟩, _, _, _, laid => by
    rw [Exp.LaidOut] at laid
    obtain ⟨v, -, gives, rfl⟩ := laid
    exact gives.unfolds (by simp)
  | ⟨.number n, _⟩, _, _, _, laid => by
    rw [Exp.LaidOut] at laid
    obtain ⟨c, v, -, -, gives, rfl⟩ := laid
    exact gives.unfolds (by simp)
  | ⟨.prefixExp p, _⟩, _, _, _, laid => by
    rw [Exp.LaidOut] at laid
    exact PrefixExp.LaidOut.unfolds laid

theorem expsLaidOut_unfolds : ∀ {es : List Exp} {lo : Nat} {items : List Lowered} {hi : Nat},
    expsLaidOut source m es lo items hi → m.Unfolds lo (expsNames es) (expsTemplate es) hi
  | [], _, _, _, laid => by
    rw [expsLaidOut] at laid
    obtain ⟨-, rfl⟩ := laid
    exact Module.unfolds_nil _
  | e :: es, _, _, _, laid => by
    rw [expsLaidOut] at laid
    obtain ⟨item, rest, mid, -, -, first, others⟩ := laid
    exact first.unfolds.trans (expsLaidOut_unfolds others)

theorem PrefixExp.LaidOut.unfolds : ∀ {p : PrefixExp} {range : Option TextRange} {lo : Nat} {item : Lowered}
    {hi : Nat}, p.LaidOut source m range lo item hi → m.Unfolds lo p.names p.template hi
  | ⟨head, []⟩, _, _, _, _, laid => by
    rw [PrefixExp.LaidOut] at laid
    obtain ⟨v, -, laid⟩ := laid
    exact laid.unfolds.trans (Module.unfolds_nil _)
  | ⟨head, [call]⟩, _, _, _, _, laid => by
    rw [PrefixExp.LaidOut] at laid
    obtain ⟨callee, mid, p, -, laid, called⟩ := laid
    exact laid.unfolds.trans (called.unfolds.trans (Module.unfolds_nil _))

theorem Head.LaidOut.unfolds : ∀ {head : Head} {lo : Nat} {v : Ref} {hi : Nat},
    head.LaidOut source m lo v hi → m.Unfolds lo head.names head.template hi
  | .var v, _, _, _, laid => by
    rw [Head.LaidOut] at laid
    exact Var.LaidOut.unfolds laid
  | .paren e, _, _, _, laid => by
    rw [Head.LaidOut] at laid
    obtain ⟨item, mid, laid, adjusts⟩ := laid
    exact laid.adjust laid.unfolds adjusts

theorem Call.LaidOut.unfolds : ∀ {call : Call} {callee : Ref} {loc : Location} {lo : Nat} {p : Pack} {hi : Nat},
    call.LaidOut source m callee loc lo p hi → m.Unfolds lo call.names call.template hi
  | ⟨none, args, _⟩, _, _, _, _, _, laid => by
    rw [Call.LaidOut] at laid
    obtain ⟨items, mid, packed, laid, concat, call, rfl⟩ := laid
    have two := (concat.unfolds (by simp)).trans_nil (call.unfolds (by simp))
    exact laid.unfolds.trans_nil two

theorem Args.LaidOut.unfolds : ∀ {args : Args} {lo : Nat} {items : List Lowered} {hi : Nat},
    args.LaidOut source m lo items hi → m.Unfolds lo args.names args.template hi
  | .list es, _, _, _, laid => by
    rw [Args.LaidOut] at laid
    exact expsLaidOut_unfolds laid
  | .table e, _, _, _, laid | .str e, _, _, _, laid => by
    rw [Args.LaidOut] at laid
    obtain ⟨item, mid, v, -, laid, adjusts⟩ := laid
    exact laid.adjust laid.unfolds adjusts

end

theorem Stat.LaidOut.unfolds {stat : Stat} {lo hi : Nat} (laid : stat.LaidOut source m lo hi) :
    m.Unfolds lo stat.names stat.template hi := by
  obtain ⟨kind, range⟩ := stat
  cases kind with
  | assign targets values =>
    obtain ⟨cells, mid, items, first, packed, unpacked, ofTargets, ofValues, assigns, rfl⟩ := laid
    obtain ⟨unfolds, counted⟩ := varsLaidOut_unfolds ofTargets
    have stored := assigns.unfolds
    rw [List.length_map, counted] at stored
    rw [counted]
    exact (unfolds.trans (expsLaidOut_unfolds ofValues)).trans_nil stored
  | call p =>
    obtain ⟨item, laid⟩ := laid
    exact laid.unfolds
  | _ => exact laid.elim

theorem statsLaidOut_unfolds {stats : List Stat} {lo hi : Nat} (laid : statsLaidOut source m stats lo hi) :
    m.Unfolds lo (stats.flatMap Stat.names) (statsTemplate stats) hi := by
  induction stats generalizing lo with
  | nil =>
    cases laid
    exact Module.unfolds_nil _
  | cons stat rest ih =>
    obtain ⟨mid, first, others⟩ := laid
    exact first.unfolds.trans (ih others)

theorem Chunk.LaidOut.template_eq {chunk : Chunk} (laid : chunk.LaidOut source m) :
    m.ops.toList.map Operation.outline = chunk.template := by
  obtain ⟨n, stats, size, ended⟩ := laid
  have known : m.Knows 0 [] := by simp [Module.Knows, Module.vars]
  obtain ⟨placed, -⟩ := statsLaidOut_unfolds stats [] known
  have whole : m.outline (n + 1) = m.ops.toList.map Operation.outline := by
    rw [Module.outline, ← size, List.take_of_length_le (by simp)]
  rw [← whole, Module.outline_succ ended, placed, Chunk.template]
  rfl

end Syntax

/-! ## Numbers of operations -/

/-- The numbers of operations of some kinds in a template without a return. -/
structure Tally (template : List Outline) (calls assignments targets : Nat) : Prop where
  call : template.countP (·.kind = .call) = calls
  concat : template.countP (·.kind = .concat) = calls + assignments
  assign : template.countP (·.kind = .assign) = targets
  ret : template.countP (·.kind = .ret) = 0

theorem tally_nil : Tally [] 0 0 0 := ⟨rfl, rfl, rfl, rfl⟩

theorem Tally.append {front back : List Outline} {calls assignments targets calls' assignments' targets' : Nat}
    (first : Tally front calls assignments targets) (second : Tally back calls' assignments' targets') :
    Tally (front ++ back) (calls + calls') (assignments + assignments') (targets + targets') where
  call := by rw [List.countP_append, first.call, second.call]
  concat := by
    rw [List.countP_append, first.concat, second.concat]
    omega
  assign := by rw [List.countP_append, first.assign, second.assign]
  ret := by rw [List.countP_append, first.ret, second.ret]

namespace Syntax

theorem tally_nameTemplate (seen : List String) (name : String) : Tally (nameTemplate seen name) 0 0 0 := by
  rw [nameTemplate]
  split
  · exact tally_nil
  · exact ⟨rfl, rfl, rfl, rfl⟩

theorem Exp.tally_adjustment (e : Exp) : Tally e.adjustment 0 0 0 := by
  rw [adjustment]
  split
  · exact ⟨rfl, rfl, rfl, rfl⟩
  · exact tally_nil

theorem Var.tally_template (v : Var) (seen : List String) : Tally (v.template seen) 0 0 0 := by
  rw [template]
  cases v.bareName? with
  | none => exact tally_nil
  | some name => simpa using tally_nameTemplate seen name

theorem tally_varsTemplate (vs : List Var) (seen : List String) : Tally (varsTemplate vs seen) 0 0 0 := by
  induction vs generalizing seen with
  | nil => exact tally_nil
  | cons v vs ih => exact (v.tally_template seen).append (ih _)

mutual

theorem Exp.tally_template : ∀ (e : Exp) (seen : List String), Tally (e.template seen) e.callCount 0 0
  | ⟨.prefixExp p, _⟩, seen => p.tally_template seen
  | ⟨.nil, _⟩, _ | ⟨.number _, _⟩, _ => ⟨rfl, rfl, rfl, rfl⟩
  | ⟨.false, _⟩, _ | ⟨.true, _⟩, _ | ⟨.varArgs, _⟩, _ | ⟨.str _, _⟩, _ | ⟨.function _, _⟩, _ | ⟨.table _, _⟩, _
  | ⟨.unary .., _⟩, _ | ⟨.binary .., _⟩, _ => tally_nil

theorem tally_expsTemplate : ∀ (es : List Exp) (seen : List String), Tally (expsTemplate es seen) (expsCallCount es) 0 0
  | [], _ => tally_nil
  | e :: es, seen => (e.tally_template seen).append (tally_expsTemplate es _)

theorem PrefixExp.tally_template : ∀ (p : PrefixExp) (seen : List String), Tally (p.template seen) p.callCount 0 0
  | ⟨head, calls⟩, seen => (head.tally_template seen).append (tally_callsTemplate calls _)

theorem Head.tally_template : ∀ (head : Head) (seen : List String), Tally (head.template seen) head.callCount 0 0
  | .var v, seen => v.tally_template seen
  | .paren e, seen => (e.tally_template seen).append e.tally_adjustment

theorem tally_callsTemplate : ∀ (calls : List Call) (seen : List String),
    Tally (callsTemplate calls seen) (callsCallCount calls) 0 0
  | [], _ => tally_nil
  | call :: calls, seen => (call.tally_template seen).append (tally_callsTemplate calls _)

theorem Call.tally_template : ∀ (call : Call) (seen : List String), Tally (call.template seen) (call.callCount + 1) 0 0
  | ⟨_, args, _⟩, seen => by
    have two : Tally [⟨.concat, 1⟩, ⟨.call, 1⟩] 1 0 0 := ⟨rfl, rfl, rfl, rfl⟩
    exact (args.tally_template seen).append two

theorem Args.tally_template : ∀ (args : Args) (seen : List String), Tally (args.template seen) args.callCount 0 0
  | .list es, seen => tally_expsTemplate es seen
  | .table e, seen | .str e, seen => (e.tally_template seen).append e.tally_adjustment

end

theorem Stat.tally_template (stat : Stat) (seen : List String) :
    Tally (stat.template seen) stat.callCount stat.targets?.toList.length (stat.targets?.toList.map List.length).sum := by
  obtain ⟨kind, range⟩ := stat
  cases kind with
  | assign targets values =>
    have parts := (tally_varsTemplate targets seen).append (tally_expsTemplate values (seen ++ targetNames targets))
    have stored : Tally ([⟨.concat, 1⟩, ⟨.unpack, targets.length⟩] ++ List.replicate targets.length ⟨.assign, 0⟩)
        0 1 targets.length := by
      constructor <;> simp [List.countP_replicate]
    have whole := parts.append stored
    simpa [Stat.template, Stat.callCount, Stat.targets?] using whole
  | call p => exact p.tally_template seen
  | _ => exact tally_nil

theorem tally_statsTemplate (stats : List Stat) (seen : List String) :
    Tally (statsTemplate stats seen) (stats.map Stat.callCount).sum (stats.filterMap Stat.targets?).length
      ((stats.filterMap Stat.targets?).map List.length).sum := by
  induction stats generalizing seen with
  | nil => exact tally_nil
  | cons stat rest ih =>
    have whole := (stat.tally_template seen).append (ih (seen ++ stat.names))
    rw [List.map_cons, List.sum_cons, List.filterMap_cons]
    cases targets : stat.targets? <;> simpa [targets, statsTemplate, Nat.add_comm] using whole

namespace Chunk

/-- The operations of a lowered chunk are those of its template: kinds, order and numbers of results. So there is a
call for each call of the chunk, a concat for each call and each assignment, an assign for each target, a cell for each
name and one return. -/
theorem lower_template {chunk : Chunk} {source : Source} {c : Catalogue} {m : Module}
    (lowered : chunk.lower source c = .ok m) :
    ∃ b, m.entryBlock? "main" = some b ∧ (m.blockOps b).map Operation.outline = chunk.template ∧
      (m.blockOps b).countP (·.kind = .call) = chunk.callCount ∧
      (m.blockOps b).countP (·.kind = .concat) = chunk.callCount + chunk.assignments.length ∧
      (m.blockOps b).countP (·.kind = .assign) = (chunk.assignments.map List.length).sum ∧
      (m.blockOps b).countP (·.kind = .getOrAlloc) = chunk.names.eraseDups.length ∧
      (m.blockOps b).countP (·.kind = .ret) = 1 := by
  have main := onlyMain_of_lower lowered
  have laid := laidOut_of_lower lowered
  have tally := tally_statsTemplate chunk.block.stats []
  have counted (kind : OpKind) :
      m.ops.toList.countP (·.kind = kind) = chunk.template.countP (·.kind = kind) := by
    rw [← laid.template_eq, List.countP_map]
    rfl
  refine ⟨⟨0⟩, main.entryBlock?_main, ?_⟩
  rw [main.blockOps_zero]
  refine ⟨laid.template_eq, ?_, ?_, ?_, ?_, ?_⟩
  · rw [counted, template, List.countP_append, tally.call]
    rfl
  · rw [counted, template, List.countP_append, tally.concat]
    rfl
  · rw [counted, template, List.countP_append, tally.assign]
    rfl
  · have cells := congrArg List.length laid.vars_eq
    rw [Module.vars, List.take_of_length_le (by simp), List.length_map, List.length_map,
      ← List.countP_eq_length_filter] at cells
    exact cells
  · rw [counted, template, List.countP_append, tally.ret]
    rfl

/-- The chunk `x, y = (f(x)), 1; g(nil, f(y))`. -/
def nestedCalls : Chunk :=
  ⟨⟨[⟨.assign [named "x", named "y"] [⟨.prefixExp ⟨.paren (calling "f" [reading "x"]), []⟩, none⟩,
      ⟨.number ⟨.int, "1"⟩, none⟩], none⟩,
    ⟨.call ⟨.var (named "g"), [⟨none, .list [⟨.nil, none⟩, calling "f" [reading "y"]], none⟩]⟩, none⟩],
    none, none⟩, none⟩
where
  reading (name : String) : Exp := ⟨.prefixExp ⟨.var (named name), []⟩, none⟩
  calling (name : String) (args : List Exp) : Exp := ⟨.prefixExp ⟨.var (named name), [⟨none, .list args, none⟩]⟩, none⟩

/-- Only the call in parentheses is unpacked to one result, and only the first reference to `f` has a cell placed. -/
theorem lower_template_nestedCalls : ∃ m b, nestedCalls.lower ⟨"main.lua", ""⟩ .full = .ok m ∧
    m.entryBlock? "main" = some b ∧
    (m.blockOps b).map Operation.outline =
      [⟨.getOrAlloc, 1⟩, ⟨.getOrAlloc, 1⟩, ⟨.getOrAlloc, 1⟩, ⟨.concat, 1⟩, ⟨.call, 1⟩, ⟨.unpack, 1⟩, ⟨.number, 1⟩,
        ⟨.concat, 1⟩, ⟨.unpack, 2⟩, ⟨.assign, 0⟩, ⟨.assign, 0⟩,
        ⟨.getOrAlloc, 1⟩, ⟨.nil, 1⟩, ⟨.concat, 1⟩, ⟨.call, 1⟩, ⟨.concat, 1⟩, ⟨.call, 1⟩, ⟨.ret, 0⟩] ∧
    (m.blockOps b).countP (·.kind = .call) = 3 ∧ (m.blockOps b).countP (·.kind = .concat) = 3 + 1 := by
  have fine : nestedCalls.problem? ⟨"main.lua", ""⟩ = none := by rfl
  obtain ⟨m, lowered⟩ := lower_of_problem?_eq_none fine
  obtain ⟨b, entry, template, calls, concats, -⟩ := lower_template lowered
  exact ⟨m, b, lowered, entry, template, calls, concats⟩

end Chunk
end Syntax
end LuaLowering
