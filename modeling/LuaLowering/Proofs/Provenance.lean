import LuaLowering.Proofs.NodeRanges
import LuaLowering.Proofs.Positions
import LuaLowering.Proofs.Templates
/-!
# Where operations and errors are placed

Every operation of `main` is placed for a node of the tree: the cell of a name for the variable, a constant for its
expression, a call and its arguments for the expression or statement that is the call, a single value for the
expression that is cut down to it, and what brings values and targets together for the assignment. `Chunk.emissions`
lists the operations with these nodes, in the order of lowering. In a compiled script each operation stands where its
node starts, the return where the last token of the script starts, and an unsupported construct is reported from the
start to the last token of a node (`compile_located`). Nodes of a script that was read lie on its characters, so none
of these places is unknown.
-/
namespace LuaLowering

open Lexeme

namespace Syntax

/-- What an operation is, apart from the values that it takes and gives. -/
inductive Opcode where
  | plain (kind : OpKind)
  | number (c : Constant)
  | cell (name : String)

def Opcode.kind : Opcode → OpKind
  | .plain kind => kind
  | .number _ => .number
  | .cell _ => .getOrAlloc

def Opcode.attributes : Opcode → List (String × Attribute)
  | .plain _ => []
  | .number c => [("value", c.attribute)]
  | .cell name => [("var", .str name)]

/-- An operation that a construct places, and the node that it is placed for. -/
structure Emission where
  code : Opcode
  node : Sketch

/-- The cell of a name that was not seen before is placed for the variable. -/
def Var.emissions (v : Var) (seen : List String) : List Emission :=
  v.bareName?.toList.flatMap fun name => if name ∈ seen then [] else [⟨.cell name, v.sketch⟩]

def varsEmissions : List Var → (seen : List String) → List Emission
  | [], _ => []
  | v :: vs, seen => v.emissions seen ++ varsEmissions vs (seen ++ v.bareName?.toList)

/-- One value is taken out of what a call gives. -/
def Exp.narrowing (e : Exp) : List Emission := if e.isCall then [⟨.plain .unpack, e.sketch⟩] else []

mutual

/-- The operations of an expression, after references to the names in `seen`. What is not lowered has none. -/
def Exp.emissions : Exp → (seen : List String) → List Emission
  | ⟨.nil, range⟩, _ => [⟨.plain .nil, Exp.sketch ⟨.nil, range⟩⟩]
  | ⟨.number n, range⟩, _ => n.constant?.toList.map fun c => ⟨.number c, Exp.sketch ⟨.number n, range⟩⟩
  | ⟨.prefixExp p, range⟩, seen => p.emissions (Exp.sketch ⟨.prefixExp p, range⟩) seen
  | _, _ => []

def expsEmissions : List Exp → (seen : List String) → List Emission
  | [], _ => []
  | e :: es, seen => e.emissions seen ++ expsEmissions es (seen ++ e.names)

/-- The call is placed for `node`, the expression or statement around it. -/
def PrefixExp.emissions : PrefixExp → (node : Sketch) → (seen : List String) → List Emission
  | ⟨head, calls⟩, node, seen => head.emissions seen ++ callsEmissions calls node (seen ++ head.names)

def Head.emissions : Head → (seen : List String) → List Emission
  | .var v, seen => v.emissions seen
  | .paren e, seen => e.emissions seen ++ e.narrowing

def callsEmissions : List Call → (node : Sketch) → (seen : List String) → List Emission
  | [], _, _ => []
  | call :: calls, node, seen => call.emissions node seen ++ callsEmissions calls node (seen ++ call.names)

def Call.emissions : Call → (node : Sketch) → (seen : List String) → List Emission
  | ⟨_, args, _⟩, node, seen => args.emissions seen ++ [⟨.plain .concat, node⟩, ⟨.plain .call, node⟩]

def Args.emissions : Args → (seen : List String) → List Emission
  | .list es, seen => expsEmissions es seen
  | .table e, seen => e.emissions seen ++ e.narrowing
  | .str e, seen => e.emissions seen ++ e.narrowing

end

def Stat.emissions (stat : Stat) (seen : List String) : List Emission :=
  match stat.kind with
  | .assign targets values =>
    varsEmissions targets seen ++ expsEmissions values (seen ++ targetNames targets) ++
      ([⟨.plain .concat, stat.sketch⟩, ⟨.plain .unpack, stat.sketch⟩] ++
        List.replicate targets.length ⟨.plain .assign, stat.sketch⟩)
  | .call p => p.emissions stat.sketch seen
  | _ => []

def statsEmissions : List Stat → (seen : List String) → List Emission
  | [], _ => []
  | stat :: rest, seen => stat.emissions seen ++ statsEmissions rest (seen ++ stat.names)

/-- The operations of a chunk but for the return at its end. -/
def Chunk.emissions (chunk : Chunk) : List Emission := statsEmissions chunk.block.stats []

/-! ## Nodes -/

@[simp] theorem Var.range_sketch (v : Var) : v.sketch.range = v.range := by
  obtain ⟨root, suffixes, range⟩ := v
  rfl

@[simp] theorem Exp.range_sketch (e : Exp) : e.sketch.range = e.range := by
  obtain ⟨kind, range⟩ := e
  rfl

@[simp] theorem Call.range_sketch (c : Call) : c.sketch.range = c.range := by
  obtain ⟨method, args, range⟩ := c
  rfl

@[simp] theorem Stat.range_sketch (s : Stat) : s.sketch.range = s.range := by
  obtain ⟨kind, range⟩ := s
  rfl

@[simp] theorem Block.range_sketch (b : Block) : b.sketch.range = b.range := by
  obtain ⟨stats, ret, range⟩ := b
  cases ret <;> rfl

theorem Sketch.self_mem_nodes (o : Sketch) : o ∈ o.nodes := by
  cases o with
  | node kind range children => exact List.mem_cons_self

theorem mem_nodesOf_append {o : Sketch} {os os' : List Sketch} :
    o ∈ nodesOf (os ++ os') ↔ o ∈ nodesOf os ∨ o ∈ nodesOf os' := by
  induction os with
  | nil => simp [nodesOf]
  | cons first rest ih => simp [nodesOf, ih, or_assoc]

theorem Var.mem_emissions {v : Var} {seen : List String} {em : Emission} (member : em ∈ v.emissions seen) :
    em.node = v.sketch := by
  obtain ⟨name, -, placed⟩ := List.mem_flatMap.mp member
  split at placed
  · cases placed
  · obtain rfl := List.mem_singleton.mp placed
    rfl

theorem mem_varsEmissions {vs : List Var} {seen : List String} {em : Emission} (member : em ∈ varsEmissions vs seen) :
    em.node ∈ nodesOf (varsSketches vs) := by
  induction vs generalizing seen with
  | nil => cases member
  | cons v vs ih =>
    simp only [varsSketches, nodesOf, List.mem_append]
    rcases List.mem_append.mp member with first | later
    · rw [Var.mem_emissions first]
      exact .inl v.sketch.self_mem_nodes
    · exact .inr (ih later)

theorem Exp.mem_narrowing {e : Exp} {em : Emission} (member : em ∈ e.narrowing) : em.node = e.sketch := by
  unfold narrowing at member
  split at member
  · obtain rfl := List.mem_singleton.mp member
    rfl
  · cases member

mutual

theorem Exp.mem_emissions : ∀ {e : Exp} {seen : List String} {em : Emission}, em ∈ e.emissions seen →
    em.node ∈ e.sketch.nodes
  | ⟨.nil, _⟩, _, _, member => by
    obtain rfl := List.mem_singleton.mp member
    exact Sketch.self_mem_nodes _
  | ⟨.number _, _⟩, _, _, member => by
    rw [Exp.emissions] at member
    obtain ⟨c, -, rfl⟩ := List.mem_map.mp member
    exact Sketch.self_mem_nodes _
  | ⟨.prefixExp p, range⟩, _, _, member => by
    rw [Exp.emissions] at member
    rcases PrefixExp.mem_emissions member with same | inside
    · rw [same]
      exact Sketch.self_mem_nodes _
    · exact List.mem_cons_of_mem _ inside

theorem mem_expsEmissions : ∀ {es : List Exp} {seen : List String} {em : Emission}, em ∈ expsEmissions es seen →
    em.node ∈ nodesOf (expsSketches es)
  | e :: es, _, _, member => by
    rw [expsEmissions] at member
    rw [expsSketches, nodesOf, List.mem_append]
    exact (List.mem_append.mp member).imp Exp.mem_emissions mem_expsEmissions

/-- What is not placed for the call is placed for a node inside it. -/
theorem PrefixExp.mem_emissions : ∀ {p : PrefixExp} {node : Sketch} {seen : List String} {em : Emission},
    em ∈ p.emissions node seen → em.node = node ∨ em.node ∈ nodesOf p.sketches
  | ⟨head, calls⟩, _, _, _, member => by
    rw [PrefixExp.emissions] at member
    rw [PrefixExp.sketches, nodesOf, List.mem_append]
    rcases List.mem_append.mp member with first | later
    · exact .inr (.inl (Head.mem_emissions first))
    · exact (mem_callsEmissions later).imp id .inr

theorem Head.mem_emissions : ∀ {head : Head} {seen : List String} {em : Emission}, em ∈ head.emissions seen →
    em.node ∈ head.sketch.nodes
  | .var v, _, _, member => by
    rw [Head.emissions] at member
    rw [Var.mem_emissions member]
    exact v.sketch.self_mem_nodes
  | .paren e, _, _, member => by
    rw [Head.emissions] at member
    rcases List.mem_append.mp member with first | last
    · exact Exp.mem_emissions first
    · rw [Exp.mem_narrowing last]
      exact e.sketch.self_mem_nodes

theorem mem_callsEmissions : ∀ {calls : List Call} {node : Sketch} {seen : List String} {em : Emission},
    em ∈ callsEmissions calls node seen → em.node = node ∨ em.node ∈ nodesOf (callsSketches calls)
  | call :: calls, _, _, _, member => by
    rw [callsEmissions] at member
    rw [callsSketches, nodesOf, List.mem_append]
    rcases List.mem_append.mp member with first | later
    · exact (Call.mem_emissions first).imp id .inl
    · exact (mem_callsEmissions later).imp id .inr

theorem Call.mem_emissions : ∀ {call : Call} {node : Sketch} {seen : List String} {em : Emission},
    em ∈ call.emissions node seen → em.node = node ∨ em.node ∈ call.sketch.nodes
  | ⟨_, args, _⟩, _, _, _, member => by
    rw [Call.emissions] at member
    rcases List.mem_append.mp member with inside | last
    · exact .inr (List.mem_cons_of_mem _ (Args.mem_emissions inside))
    · simp only [List.mem_cons, List.not_mem_nil, or_false] at last
      rcases last with rfl | rfl
      · exact .inl rfl
      · exact .inl rfl

theorem Args.mem_emissions : ∀ {args : Args} {seen : List String} {em : Emission}, em ∈ args.emissions seen →
    em.node ∈ nodesOf args.sketches
  | .list es, _, _, member => by
    rw [Args.emissions] at member
    exact mem_expsEmissions member
  | .table e, _, _, member | .str e, _, _, member => by
    rw [Args.emissions] at member
    rw [Args.sketches, nodesOf, nodesOf, List.append_nil]
    rcases List.mem_append.mp member with first | last
    · exact Exp.mem_emissions first
    · rw [Exp.mem_narrowing last]
      exact e.sketch.self_mem_nodes

end

theorem Stat.mem_emissions {stat : Stat} {seen : List String} {em : Emission} (member : em ∈ stat.emissions seen) :
    em.node ∈ stat.sketch.nodes := by
  obtain ⟨kind, range⟩ := stat
  cases kind with
  | assign targets values =>
    rcases List.mem_append.mp member with inside | stored
    · apply List.mem_cons_of_mem
      rw [StatKind.sketches, mem_nodesOf_append]
      exact (List.mem_append.mp inside).imp mem_varsEmissions mem_expsEmissions
    · have same : em.node = Stat.sketch ⟨.assign targets values, range⟩ := by
        simp only [List.mem_append, List.mem_cons, List.not_mem_nil, or_false, List.mem_replicate] at stored
        rcases stored with (rfl | rfl) | ⟨-, rfl⟩ <;> rfl
      rw [same]
      exact Sketch.self_mem_nodes _
  | call p =>
    rcases PrefixExp.mem_emissions member with same | inside
    · rw [same]
      exact Sketch.self_mem_nodes _
    · exact List.mem_cons_of_mem _ inside
  | _ => cases member

theorem mem_statsEmissions {stats : List Stat} {seen : List String} {em : Emission}
    (member : em ∈ statsEmissions stats seen) : em.node ∈ nodesOf (statsSketches stats) := by
  induction stats generalizing seen with
  | nil => cases member
  | cons stat rest ih =>
    rw [statsSketches, nodesOf, List.mem_append]
    exact (List.mem_append.mp member).imp Stat.mem_emissions ih

theorem Block.nodes_stats {b : Block} {o : Sketch} (member : o ∈ nodesOf (statsSketches b.stats)) :
    o ∈ b.sketch.nodes := by
  obtain ⟨stats, ret, range⟩ := b
  cases ret with
  | none => exact List.mem_cons_of_mem _ member
  | some ret => exact List.mem_cons_of_mem _ (mem_nodesOf_append.mpr (.inl member))

/-- Operations are placed for nodes of the chunk. -/
theorem Chunk.mem_emissions {chunk : Chunk} {em : Emission} (member : em ∈ chunk.emissions) :
    em.node ∈ chunk.block.sketch.nodes :=
  Block.nodes_stats (mem_statsEmissions member)

end Syntax

/-! ## Operations stand where their nodes start -/

open Syntax

/-- The kind, the attributes and the place of an operation. -/
abbrev Mark := OpKind × List (String × Attribute) × Location

def Operation.mark (op : Operation) : Mark := (op.kind, op.attributes, op.loc)

def Draft.mark (d : Draft) : Mark := (d.kind, d.attributes, d.loc)

def Syntax.Emission.mark (em : Emission) (source : Source) : Mark :=
  (em.code.kind, em.code.attributes, source.startLoc em.node.range)

namespace Module
variable {source : Source} {m : Module}

def marks (m : Module) (n : Nat) : List Mark := (m.ops.toList.take n).map Operation.mark

/-- From `lo` to `hi` stand the operations of the emissions, each where its node starts. -/
def Stands (source : Source) (m : Module) (lo : Nat) (emissions : List String → List Emission) (hi : Nat) : Prop :=
  ∀ seen, m.Knows lo seen → m.marks hi = m.marks lo ++ (emissions seen).map (·.mark source)

theorem stands_nil (lo : Nat) : m.Stands source lo (fun _ => []) lo := by
  intro seen known
  simp

/-- What comes second has to know the names that came first. -/
theorem Stands.trans {lo mid hi : Nat} {names : List String} {template : List String → List Outline}
    {first second : List String → List Emission} (front : m.Stands source lo first mid)
    (unfolds : m.Unfolds lo names template mid) (back : m.Stands source mid second hi) :
    m.Stands source lo (fun seen => first seen ++ second (seen ++ names)) hi := by
  intro seen known
  have known' := (unfolds seen known).2
  rw [back _ known', front seen known, List.map_append, List.append_assoc]

theorem Stands.trans_nil {lo mid hi : Nat} {names : List String} {template : List String → List Outline}
    {first : List String → List Emission} {tail : List Emission} (front : m.Stands source lo first mid)
    (unfolds : m.Unfolds lo names template mid) (back : m.Stands source mid (fun _ => tail) hi) :
    m.Stands source lo (fun seen => first seen ++ tail) hi :=
  front.trans unfolds back

theorem marks_succ {n : Nat} {op : Operation} (found : m.op? ⟨n⟩ = some op) :
    m.marks (n + 1) = m.marks n ++ [op.mark] := by
  have listed : m.ops.toList[n]? = some op := by simpa [op?] using found
  simp [marks, List.take_add_one, listed]

theorem stands_op {i : Nat} {op : Operation} {em : Emission} (found : m.op? ⟨i⟩ = some op)
    (same : op.mark = em.mark source) : m.Stands source i (fun _ => [em]) (i + 1) := by
  intro seen known
  rw [marks_succ found, same]
  rfl

theorem GivesAt.stands {i : Nat} {v : ValueId} {d : Draft} {em : Emission} (gives : m.GivesAt i v d)
    (same : d.mark = em.mark source) : m.Stands source i (fun _ => [em]) (i + 1) := by
  obtain ⟨-, -, -, found⟩ := gives
  exact stands_op found same

theorem Adjusts.stands {e : Exp} {lo hi : Nat} {item : Lowered} {v : Ref}
    (adjusts : m.Adjusts (source.startLoc e.range) lo item v hi) (same : item.isPack = e.isCall) :
    m.Stands source lo (fun _ => e.narrowing) hi := by
  unfold Exp.narrowing
  rw [← same]
  cases adjusts with
  | value => exact stands_nil lo
  | pack p _ gives =>
    apply gives.stands
    rw [Emission.mark, Exp.range_sketch]
    rfl

theorem Assigns.stands {first : Nat} {cells items : List ValueId} {packed : ValueId} {unpacked : List ValueId}
    (node : Sketch) (assigns : m.Assigns first cells items packed unpacked (source.startLoc node.range)) :
    m.Stands source first
      (fun _ => [⟨.plain .concat, node⟩, ⟨.plain .unpack, node⟩] ++ List.replicate cells.length ⟨.plain .assign, node⟩)
      (first + 2 + cells.length) := by
  intro seen known
  have assigned (n : Nat) (bound : n ≤ cells.length) : m.marks (first + 2 + n) =
      m.marks (first + 2) ++ List.replicate n (.assign, [], source.startLoc node.range) := by
    induction n with
    | zero => simp
    | succ n ih =>
      have counted : n < unpacked.length := assigns.count ▸ bound
      have placed := assigns.assign n _ _ (List.getElem?_eq_getElem bound) (List.getElem?_eq_getElem counted)
      rw [← Nat.add_assoc, marks_succ placed, ih (Nat.le_of_lt bound), List.replicate_succ', List.append_assoc]
      rfl
  rw [assigned _ (Nat.le_refl _), marks_succ assigns.unpack, marks_succ assigns.concat]
  simp [Operation.mark, Emission.mark, Opcode.kind, Opcode.attributes]

end Module

namespace Syntax
variable {source : Source} {m : Module}

theorem Var.LaidOut.stands {v : Var} {lo hi : Nat} {cell : Ref} (laid : v.LaidOut source m lo cell hi) :
    m.Stands source lo v.emissions hi := by
  obtain ⟨name, bare, refers⟩ := laid
  intro seen known
  have listed := known name
  cases refers with
  | again placed _ => simp [Var.emissions, bare, listed.mp placed]
  | first fresh gives =>
    have unlisted : name ∉ seen := fun member => fresh (listed.mpr member)
    obtain ⟨-, -, -, found⟩ := gives
    simp [Var.emissions, bare, unlisted, Module.marks_succ found, Operation.mark, Emission.mark, Opcode.kind,
      Opcode.attributes]

theorem varsLaidOut_stands {vs : List Var} {lo hi : Nat} {cells : List Ref}
    (laid : varsLaidOut source m vs lo cells hi) : m.Stands source lo (varsEmissions vs) hi := by
  induction vs generalizing lo cells with
  | nil =>
    obtain ⟨-, rfl⟩ := laid
    exact Module.stands_nil _
  | cons v vs ih =>
    obtain ⟨cell, rest, mid, -, first, others⟩ := laid
    exact first.stands.trans first.unfolds (ih others)

mutual

theorem Exp.LaidOut.stands : ∀ {e : Exp} {lo : Nat} {item : Lowered} {hi : Nat},
    e.LaidOut source m lo item hi → m.Stands source lo e.emissions hi
  | ⟨.nil, _⟩, _, _, _, laid => by
    rw [Exp.LaidOut] at laid
    obtain ⟨v, -, gives, rfl⟩ := laid
    exact gives.stands rfl
  | ⟨.number n, _⟩, _, _, _, laid => by
    rw [Exp.LaidOut] at laid
    obtain ⟨c, v, known, -, gives, rfl⟩ := laid
    simp only [Module.Stands, Exp.emissions, known]
    exact gives.stands rfl
  | ⟨.prefixExp p, range⟩, _, _, _, laid => by
    rw [Exp.LaidOut] at laid
    exact PrefixExp.LaidOut.stands (Exp.sketch ⟨.prefixExp p, range⟩) laid

theorem expsLaidOut_stands : ∀ {es : List Exp} {lo : Nat} {items : List Lowered} {hi : Nat},
    expsLaidOut source m es lo items hi → m.Stands source lo (expsEmissions es) hi
  | [], _, _, _, laid => by
    rw [expsLaidOut] at laid
    obtain ⟨-, rfl⟩ := laid
    exact Module.stands_nil _
  | e :: es, _, _, _, laid => by
    rw [expsLaidOut] at laid
    obtain ⟨item, rest, mid, -, -, first, others⟩ := laid
    exact first.stands.trans first.unfolds (expsLaidOut_stands others)

theorem PrefixExp.LaidOut.stands : ∀ {p : PrefixExp} (node : Sketch) {lo : Nat} {item : Lowered} {hi : Nat},
    p.LaidOut source m node.range lo item hi → m.Stands source lo (p.emissions node) hi
  | ⟨head, []⟩, _, _, _, _, laid => by
    rw [PrefixExp.LaidOut] at laid
    obtain ⟨v, -, laid⟩ := laid
    exact laid.stands.trans laid.unfolds (Module.stands_nil _)
  | ⟨head, [call]⟩, _, _, _, _, laid => by
    rw [PrefixExp.LaidOut] at laid
    obtain ⟨callee, mid, p, -, laid, called⟩ := laid
    exact laid.stands.trans laid.unfolds (called.stands.trans called.unfolds (Module.stands_nil _))

theorem Head.LaidOut.stands : ∀ {head : Head} {lo : Nat} {v : Ref} {hi : Nat},
    head.LaidOut source m lo v hi → m.Stands source lo head.emissions hi
  | .var v, _, _, _, laid => by
    rw [Head.LaidOut] at laid
    exact Var.LaidOut.stands laid
  | .paren e, _, _, _, laid => by
    rw [Head.LaidOut] at laid
    obtain ⟨item, mid, laid, adjusts⟩ := laid
    exact laid.stands.trans_nil laid.unfolds (adjusts.stands laid.isPack_eq)

theorem Call.LaidOut.stands : ∀ {call : Call} {callee : Ref} {node : Sketch} {lo : Nat} {p : Pack} {hi : Nat},
    call.LaidOut source m callee (source.startLoc node.range) lo p hi →
      m.Stands source lo (call.emissions node) hi
  | ⟨none, args, _⟩, _, node, _, _, _, laid => by
    rw [Call.LaidOut] at laid
    obtain ⟨items, mid, packed, laid, concat, call, rfl⟩ := laid
    have first : m.Stands source mid (fun _ => [⟨.plain .concat, node⟩]) (mid + 1) := concat.stands rfl
    have second : m.Stands source (mid + 1) (fun _ => [⟨.plain .call, node⟩]) (mid + 2) := call.stands rfl
    exact laid.stands.trans_nil laid.unfolds (first.trans_nil (concat.unfolds (by simp)) second)

theorem Args.LaidOut.stands : ∀ {args : Args} {lo : Nat} {items : List Lowered} {hi : Nat},
    args.LaidOut source m lo items hi → m.Stands source lo args.emissions hi
  | .list es, _, _, _, laid => by
    rw [Args.LaidOut] at laid
    exact expsLaidOut_stands laid
  | .table e, _, _, _, laid | .str e, _, _, _, laid => by
    rw [Args.LaidOut] at laid
    obtain ⟨item, mid, v, -, laid, adjusts⟩ := laid
    exact laid.stands.trans_nil laid.unfolds (adjusts.stands laid.isPack_eq)

end

theorem Stat.LaidOut.stands {stat : Stat} {lo hi : Nat} (laid : stat.LaidOut source m lo hi) :
    m.Stands source lo stat.emissions hi := by
  obtain ⟨kind, range⟩ := stat
  cases kind with
  | assign targets values =>
    obtain ⟨cells, mid, items, first, packed, unpacked, ofTargets, ofValues, assigns, rfl⟩ := laid
    obtain ⟨unfolds, counted⟩ := varsLaidOut_unfolds ofTargets
    have front := (varsLaidOut_stands ofTargets).trans unfolds (expsLaidOut_stands ofValues)
    have known := unfolds.trans (expsLaidOut_unfolds ofValues)
    have stored := Module.Assigns.stands (Stat.sketch ⟨.assign targets values, range⟩) assigns
    rw [List.length_map, counted] at stored
    rw [counted]
    exact front.trans_nil known stored
  | call p =>
    obtain ⟨item, laid⟩ := laid
    exact PrefixExp.LaidOut.stands (Stat.sketch ⟨.call p, range⟩) laid
  | _ => exact laid.elim

theorem statsLaidOut_stands {stats : List Stat} {lo hi : Nat} (laid : statsLaidOut source m stats lo hi) :
    m.Stands source lo (statsEmissions stats) hi := by
  induction stats generalizing lo with
  | nil =>
    cases laid
    exact Module.stands_nil _
  | cons stat rest ih =>
    obtain ⟨mid, first, others⟩ := laid
    exact first.stands.trans first.unfolds (ih others)

/-- The operations of a chunk are those of its emissions and a return. -/
theorem Chunk.LaidOut.marks_eq {chunk : Chunk} (laid : chunk.LaidOut source m) : m.ops.toList.map Operation.mark =
    chunk.emissions.map (·.mark source) ++ [(.ret, [], source.endLoc chunk.block.range)] := by
  obtain ⟨n, stats, size, ended⟩ := laid
  have known : m.Knows 0 [] := by simp [Module.Knows, Module.vars]
  have placed := statsLaidOut_stands stats [] known
  have whole : m.marks (n + 1) = m.ops.toList.map Operation.mark := by
    rw [Module.marks, ← size, List.take_of_length_le (by simp)]
  rw [← whole, Module.marks_succ ended, placed]
  rfl

/-! ## Problems are reported for nodes -/

/-- An unsupported construct is reported with the range of one of the nodes. -/
def Reported (source : Source) (os : List Sketch) (problem : Option LowerError) : Prop :=
  ∀ construct span, problem = some (.unsupported construct span) → ∃ o ∈ os, span = source.span o.range

namespace Reported
variable {os os' : List Sketch} {p q : Option LowerError}

theorem none : Reported source os none := by
  intro construct span found
  cases found

theorem node {o : Sketch} (member : o ∈ os) (construct : String) :
    Reported source os (some (.unsupported construct (source.span o.range))) := by
  intro construct span found
  cases found
  exact ⟨o, member, rfl⟩

theorem or (first : Reported source os p) (second : Reported source os q) : Reported source os (p.or q) := by
  cases p with
  | none => exact second
  | some e => exact first

theorem mono (reported : Reported source os p) (sub : os ⊆ os') : Reported source os' p := by
  intro construct span found
  obtain ⟨o, member, same⟩ := reported construct span found
  exact ⟨o, sub member, same⟩

end Reported

theorem Var.reported (v : Var) : Reported source v.sketch.nodes (v.problem? source) := by
  unfold Var.problem?
  split
  · exact .none
  · rw [← Var.range_sketch]
    exact .node (Sketch.self_mem_nodes _) _

theorem varsReported (vs : List Var) :
    Reported source (nodesOf (varsSketches vs)) (vs.findSome? (·.problem? source)) := by
  induction vs with
  | nil => exact .none
  | cons v vs ih =>
    rw [findSome?_cons_or, varsSketches, nodesOf]
    exact .or (v.reported.mono (List.subset_append_left _ _)) (ih.mono (List.subset_append_right _ _))

theorem Numeral.reported (n : Numeral) (o : Sketch) : Reported source o.nodes (n.problem? source o.range) := by
  unfold Numeral.problem?
  split
  · exact .none
  · split
    · exact .node o.self_mem_nodes _
    · intro construct span found
      cases found

mutual

theorem Exp.reported : ∀ e : Exp, Reported source e.sketch.nodes (e.problem? source)
  | ⟨.nil, _⟩ => by
    rw [Exp.problem?]
    exact .none
  | ⟨.number n, range⟩ => by
    rw [Exp.problem?]
    exact n.reported (Exp.sketch ⟨.number n, range⟩)
  | ⟨.prefixExp p, range⟩ => by
    rw [Exp.problem?]
    exact p.reported.mono (List.subset_cons_self _ _)
  | ⟨.false, range⟩ | ⟨.true, range⟩ | ⟨.varArgs, range⟩ | ⟨.str _, range⟩ | ⟨.function _, range⟩ | ⟨.table _, range⟩
  | ⟨.unary _ _, range⟩ | ⟨.binary _ _ _, range⟩ => by
    simp only [Exp.problem?]
    exact .node (Sketch.self_mem_nodes (Exp.sketch ⟨_, range⟩)) _

theorem expsReported : ∀ es : List Exp, Reported source (nodesOf (expsSketches es)) (expsProblem? source es)
  | [] => by
    rw [expsProblem?]
    exact .none
  | e :: es => by
    rw [expsProblem?, expsSketches, nodesOf]
    have inside : e.sketch ∈ e.sketch.nodes ++ nodesOf (expsSketches es) :=
      List.mem_append_left _ e.sketch.self_mem_nodes
    refine .or (e.reported.mono (List.subset_append_left _ _))
      (.or ?_ ((expsReported es).mono (List.subset_append_right _ _)))
    split
    · rw [← Exp.range_sketch]
      exact .node inside _
    · exact .none

theorem PrefixExp.reported : ∀ p : PrefixExp, Reported source (nodesOf p.sketches) (p.problem? source)
  | ⟨head, []⟩ => by
    rw [PrefixExp.problem?, PrefixExp.sketches, nodesOf]
    exact head.reported.mono (List.subset_append_left _ _)
  | ⟨head, [call]⟩ => by
    rw [PrefixExp.problem?, PrefixExp.sketches, nodesOf, callsSketches, nodesOf, callsSketches, nodesOf,
      List.append_nil]
    exact .or (head.reported.mono (List.subset_append_left _ _)) (call.reported.mono (List.subset_append_right _ _))
  | ⟨head, first :: second :: rest⟩ => by
    rw [PrefixExp.problem?, PrefixExp.sketches, nodesOf, ← Call.range_sketch]
    refine .or (head.reported.mono (List.subset_append_left _ _)) (.node ?_ _)
    have inside := second.sketch.self_mem_nodes
    simp [callsSketches, nodesOf, inside]

theorem Head.reported : ∀ head : Head, Reported source head.sketch.nodes (head.problem? source)
  | .var v => by
    rw [Head.problem?]
    exact v.reported
  | .paren e => by
    rw [Head.problem?]
    exact e.reported

theorem Call.reported : ∀ call : Call, Reported source call.sketch.nodes (call.problem? source)
  | ⟨some name, args, range⟩ => by
    rw [Call.problem?]
    exact .node (Sketch.self_mem_nodes (Call.sketch ⟨some name, args, range⟩)) _
  | ⟨none, args, _⟩ => by
    rw [Call.problem?]
    exact args.reported.mono (List.subset_cons_self _ _)

theorem Args.reported : ∀ args : Args, Reported source (nodesOf args.sketches) (args.problem? source)
  | .list es => by
    rw [Args.problem?]
    exact expsReported es
  | .table e | .str e => by
    rw [Args.problem?, Args.sketches, nodesOf]
    exact e.reported.mono (List.subset_append_left _ _)

end

theorem Stat.reported (stat : Stat) : Reported source stat.sketch.nodes (stat.problem? source) := by
  obtain ⟨kind, range⟩ := stat
  cases kind with
  | assign targets values =>
    refine .mono (.or ((varsReported targets).mono ?_) ((expsReported values).mono ?_)) (List.subset_cons_self _ _)
    · exact fun o member => mem_nodesOf_append.mpr (.inl member)
    · exact fun o member => mem_nodesOf_append.mpr (.inr member)
  | call p => exact p.reported.mono (List.subset_cons_self _ _)
  | _ => exact .node (Sketch.self_mem_nodes (Stat.sketch ⟨_, range⟩)) _

theorem statsReported (stats : List Stat) :
    Reported source (nodesOf (statsSketches stats)) (stats.findSome? (·.problem? source)) := by
  induction stats with
  | nil => exact .none
  | cons stat rest ih =>
    rw [findSome?_cons_or, statsSketches, nodesOf]
    exact .or (stat.reported.mono (List.subset_append_left _ _)) (ih.mono (List.subset_append_right _ _))

theorem Chunk.reported (chunk : Chunk) : Reported source chunk.block.sketch.nodes (chunk.problem? source) := by
  refine .or ((statsReported chunk.block.stats).mono fun o => Block.nodes_stats) ?_
  obtain ⟨⟨stats, ret, range⟩, _⟩ := chunk
  cases ret with
  | none => exact .none
  | some ret =>
    obtain ⟨values, r⟩ := ret
    have listed : Ret.sketch ⟨values, r⟩ ∈ nodesOf [Ret.sketch ⟨values, r⟩] := by
      rw [nodesOf, nodesOf, List.append_nil]
      exact Sketch.self_mem_nodes _
    exact .node (o := Ret.sketch ⟨values, r⟩) (List.mem_cons_of_mem _ (mem_nodesOf_append.mpr (.inr listed))) _

/-! ## Compiled scripts -/

theorem chunkOf_range {t : Peg.ParseTree Rule} {chunk : Chunk} (made : chunkOf t = .ok chunk) :
    chunk.range = some t.range := by
  unfold chunkOf at made
  split at made
  · obtain ⟨block, -, made⟩ := bind_ok made
    cases made
    rfl
  · obtain ⟨block, -, made⟩ := bind_ok made
    cases made
    rfl
  · cases made

theorem matchChunk_start {text : List Char} {t : Peg.ParseTree Rule} (matched : matchChunk text = some t) :
    t.range.start = 0 := by
  unfold matchChunk at matched
  split at matched
  · rename_i found
    cases matched
    generalize depthBound text = depth at found
    cases depth with
    | zero => cases found
    | succ depth =>
      rw [Peg.Grammar.parse] at found
      obtain ⟨_, -, made⟩ := Option.map_eq_some_iff.mp found
      cases made
      rfl
  · cases matched

/-- A script starts at its first character. -/
theorem Chunk.range_of_parse {chunk : Chunk} (read : Chunk.parse source = .ok chunk) :
    ∃ range, chunk.range = some range ∧ range.start = 0 := by
  unfold Chunk.parse at read
  simp only at read
  split at read
  · cases read
  · rename_i tree matched
    cases made : chunkOf tree with
    | error e =>
      rw [made] at read
      cases read
    | ok chunk' =>
      rw [made] at read
      cases read
      exact ⟨tree.range, chunkOf_range made, matchChunk_start matched⟩

/-- The one function of a module is placed where the chunk starts. -/
theorem Chunk.functions_of_lower {chunk : Chunk} {c : Catalogue} (lowered : chunk.lower source c = .ok m) :
    m.functions = #[⟨"main", ⟨0⟩, source.startLoc chunk.range⟩] := by
  obtain ⟨drafts, rfl⟩ := grown_of_lower lowered
  have kept (fs : Array Function) : Module.Stable fun m => m.functions = fs := fun m b d same => same
  exact (kept _).appendAll ⟨0⟩ drafts rfl

end Syntax

/-- An operation of `main` and what it was placed for: a node of the chunk that lies on tokens among the pieces of the
script, at whose start the operation stands. -/
structure Operation.PlacedFor (source : Source) (chunk : Chunk) (ps : List Piece) (op : Operation) (em : Emission) :
    Prop where
  kind : op.kind = em.code.kind
  attributes : op.attributes = em.code.attributes
  node : em.node ∈ chunk.block.sketch.nodes
  start : ∃ range, em.node.range = some range ∧ WellPlaced source.text.toList ps em.node range ∧
    source.At range.start op.loc

/-- The return stands at the last token of the block. An empty block is one place, and that is its last token too. -/
structure Operation.Closes (source : Source) (chunk : Chunk) (ps : List Piece) (op : Operation) : Prop where
  kind : op.kind = .ret
  last : ∃ range, chunk.block.range = some range ∧ WellPlaced source.text.toList ps chunk.block.sketch range ∧
    source.At range.last op.loc

theorem Operation.PlacedFor.known {source : Source} {chunk : Chunk} {ps : List Piece} {op : Operation} {em : Emission}
    (placed : op.PlacedFor source chunk ps em) : op.loc.file = source.file ∧ 1 ≤ op.loc.line := by
  obtain ⟨range, -, -, start⟩ := placed.start
  exact start.known

theorem Operation.Closes.known {source : Source} {chunk : Chunk} {ps : List Piece} {op : Operation}
    (closes : op.Closes source chunk ps) : op.loc.file = source.file ∧ 1 ≤ op.loc.line := by
  obtain ⟨range, -, -, last⟩ := closes.last
  exact last.known

theorem Operation.placedFor_of_mark {source : Source} {chunk : Chunk} {ps : List Piece} {op : Operation} {em : Emission}
    (placed : ∀ o ∈ chunk.block.sketch.nodes, ∃ range, o.range = some range ∧ WellPlaced source.text.toList ps o range)
    (member : em ∈ chunk.emissions) (same : op.mark = em.mark source) : op.PlacedFor source chunk ps em := by
  simp only [Operation.mark, Emission.mark, Prod.mk.injEq] at same
  obtain ⟨kind, attributes, loc⟩ := same
  have listed := Chunk.mem_emissions member
  obtain ⟨range, known, wellPlaced⟩ := placed em.node listed
  refine ⟨kind, attributes, listed, range, known, wellPlaced, ?_⟩
  rw [loc, known]
  exact Source.at_location wellPlaced.boundaries.1

namespace Source
variable {source : Source}

/-- A construct that is refused is the first problem of the chunk. -/
theorem problem_of_compile {construct : String} {span : Span}
    (failed : source.compile = .error (.lower (.unsupported construct span))) :
    ∃ chunk, Chunk.parse source = .ok chunk ∧ chunk.problem? source = some (.unsupported construct span) := by
  cases read : Chunk.parse source with
  | error e =>
    rw [compile_of_parse_error read] at failed
    cases failed
  | ok chunk =>
    rw [compile_of_parse_ok read] at failed
    cases problem : chunk.problem? source with
    | none =>
      obtain ⟨m, lowered⟩ := Chunk.lower_of_problem?_eq_none problem
      rw [lowered] at failed
      cases failed
    | some e =>
      rw [Chunk.lower_of_problem?_eq_some problem] at failed
      cases failed
      exact ⟨chunk, rfl, problem⟩

theorem location_zero : source.location 0 = ⟨source.file, 1, 1⟩ := by
  simp [location, Text.splitBytes, Position.after]

/-- The places in the module of a script that was read. -/
theorem placed_of_lower {chunk : Chunk} {m : Module} {ps : List Piece} (lowered : chunk.lower source .full = .ok m)
    (placed : ∀ o ∈ chunk.block.sketch.nodes,
      ∃ range, o.range = some range ∧ WellPlaced source.text.toList ps o range) :
    ∃ ops ret, m.ops.toList = ops ++ [ret] ∧ List.Forall₂ (Operation.PlacedFor source chunk ps) ops chunk.emissions ∧
      ret.Closes source chunk ps := by
  have marks := (Chunk.laidOut_of_lower lowered).marks_eq
  obtain ⟨ops, rest, split, ofOps, ofRest⟩ := List.map_eq_append_iff.mp marks
  obtain ⟨ret, rfl, ofRet⟩ := List.map_eq_singleton_iff.mp ofRest
  simp only [Operation.mark, Prod.mk.injEq] at ofRet
  obtain ⟨kind, -, loc⟩ := ofRet
  obtain ⟨range, known, wellPlaced⟩ := placed _ chunk.block.sketch.self_mem_nodes
  rw [Block.range_sketch] at known
  have paired : List.Forall₂ (· = ·) (ops.map Operation.mark) (chunk.emissions.map (·.mark source)) := by
    rw [ofOps]
    exact List.forall₂_refl _
  rw [List.forall₂_map_left_iff, List.forall₂_map_right_iff] at paired
  obtain ⟨count, each⟩ := List.forall₂_iff_zip.mp paired
  refine ⟨ops, ret, split, List.forall₂_iff_zip.mpr ⟨count, ?_⟩, kind, range, known, wellPlaced, ?_⟩
  · intro op em member
    exact Operation.placedFor_of_mark placed (List.of_mem_zip member).2 (each member)
  · rw [loc, known]
    exact at_location wellPlaced.boundaries.2.1

/-- Every operation of a compiled script is placed, and so is every construct that is refused: at characters of the
script, and never at an unknown place. -/
theorem compile_located (source : Source) :
    (∀ m, source.compile = .ok m → ∃ chunk ps ops ret, Chunk.parse source = .ok chunk ∧
      piecesOf source.text.toList = some ps ∧ Path ⟨0, source.text.toList⟩ ps ⟨Text.byteSize source.text.toList, []⟩ ∧
      m.functions = #[⟨"main", ⟨0⟩, ⟨source.file, 1, 1⟩⟩] ∧ m.ops.toList = ops ++ [ret] ∧
      List.Forall₂ (Operation.PlacedFor source chunk ps) ops chunk.emissions ∧ ret.Closes source chunk ps ∧
      ∀ op ∈ m.ops.toList, op.loc.file = source.file ∧ 1 ≤ op.loc.line) ∧
    ∀ construct span, source.compile = .error (.lower (.unsupported construct span)) →
      ∃ chunk, Chunk.parse source = .ok chunk ∧ ∃ o ∈ chunk.block.sketch.nodes, ∃ range, o.range = some range ∧
        source.At range.start span.first ∧ source.At range.last span.last ∧ span.first.NotAfter span.last ∧
        ∀ place ∈ [span.first, span.last], place.file = source.file ∧ 1 ≤ place.line := by
  constructor
  · intro m compiled
    obtain ⟨chunk, read, lowered⟩ := lower_of_compile compiled
    obtain ⟨ps, low, high, pieces, path, laid⟩ := Chunk.placed_of_parse read
    have placed := laid.wellPlaced_nodes path
    obtain ⟨ops, ret, split, ofOps, ofRet⟩ := placed_of_lower lowered placed
    have function : m.functions = #[⟨"main", ⟨0⟩, ⟨source.file, 1, 1⟩⟩] := by
      obtain ⟨range, known, start⟩ := Chunk.range_of_parse read
      rw [Chunk.functions_of_lower lowered, known, startLoc, Option.elim, start, location_zero]
    refine ⟨chunk, ps, ops, ret, read, pieces, path, function, split, ofOps, ofRet, ?_⟩
    have each := ofOps.imp fun op em placed => And.intro placed.known placed
    rw [List.forall₂_and_left] at each
    intro op member
    rw [split, List.mem_append, List.mem_singleton] at member
    rcases member with listed | rfl
    · exact each.1 op listed
    · exact ofRet.known
  · intro construct span failed
    obtain ⟨chunk, read, problem⟩ := problem_of_compile failed
    obtain ⟨ps, low, high, -, path, laid⟩ := Chunk.placed_of_parse read
    have placed := laid.wellPlaced_nodes path
    obtain ⟨o, listed, rfl⟩ := chunk.reported construct span problem
    obtain ⟨range, known, wellPlaced⟩ := placed o listed
    obtain ⟨start, last, -⟩ := wellPlaced.boundaries
    have first := at_location start
    have second := at_location last
    refine ⟨chunk, read, o, listed, range, known, ?_⟩
    rw [known]
    refine ⟨first, second, first.notAfter second wellPlaced.ordered.1, ?_⟩
    intro place member
    simp only [List.mem_cons, List.not_mem_nil, or_false] at member
    rcases member with rfl | rfl
    · exact first.known
    · exact second.known

/-- A call on the second line, and a comment that holds more than ASCII on the first. -/
def indented : Source := ⟨"main.lua", "--[[é]] x =\n  f(1)"⟩

/-- The kinds, lines and columns of its operations. -/
def indentedPlaces : List (OpKind × Nat × Nat) :=
  [(.getOrAlloc, 1, 9), (.getOrAlloc, 2, 3), (.number, 2, 5), (.concat, 2, 3), (.call, 2, 3), (.concat, 1, 9),
    (.unpack, 1, 9), (.assign, 1, 9), (.ret, 2, 6)]

theorem compile_located_indented : ∃ m chunk ps ops ret, indented.compile = .ok m ∧
    Chunk.parse indented = .ok chunk ∧ piecesOf indented.text.toList = some ps ∧
    m.ops.toList.map (fun op => (op.kind, op.loc.line, op.loc.column)) = indentedPlaces ∧
    m.ops.toList = ops ++ [ret] ∧ List.Forall₂ (Operation.PlacedFor indented chunk ps) ops chunk.emissions ∧
    ret.Closes indented chunk ps := by
  have places : indented.compile.toOption.map
      (·.ops.toList.map fun op => (op.kind, op.loc.line, op.loc.column)) = some indentedPlaces := by
    decide +kernel
  cases compiled : indented.compile with
  | error e =>
    rw [compiled] at places
    cases places
  | ok m =>
    rw [compiled] at places
    obtain ⟨chunk, ps, ops, ret, read, pieces, -, -, split, ofOps, ofRet, -⟩ := (compile_located indented).1 m compiled
    exact ⟨m, chunk, ps, ops, ret, rfl, read, pieces, Option.some.inj places, split, ofOps, ofRet⟩

end Source
end LuaLowering
