import LuaLowering.Module.Text
import LuaLowering.Proofs.Provenance
import LuaLowering.Proofs.ShortestDecimals
/-!
# The printed form of a module

The text of a module of a chunk loses nothing: two such modules with the same text are the same, if their scripts have
the same name and no constant is NaN (`lower_render_inj`). Each line shows where its parts end, the name of a value
shows its number (`Names`), so that no two values are written alike (`build_valueName_injective`), and the lines of the
operations determine all else.
-/
namespace LuaLowering
open Text Syntax

theorem toString_string (s : String) : toString s = s := rfl

/-! ## Names of values -/

/-- The text names the value with the number: by that, or by the number of the first result of its operation and its
place among the results. -/
def Names (n : Nat) (text : List Char) : Prop :=
  text = '%' :: Nat.toDigits 10 n ∨
    ∃ first index, n = first + index ∧ text = '%' :: (Nat.toDigits 10 first ++ '#' :: Nat.toDigits 10 index)

namespace Names
variable {n n' : Nat} {text : List Char}

/-- A name is that of one value. -/
theorem unique (names : Names n text) (names' : Names n' text) : n = n' := by
  have mark (n : Nat) : '#' ∉ Nat.toDigits 10 n := not_mem_decimal rfl n
  rcases names with rfl | ⟨first, index, rfl, rfl⟩
  · rcases names' with same | ⟨first', index', rfl, same⟩
    · exact decimal_inj (List.tail_eq_of_cons_eq same)
    · refine absurd ?_ (mark n)
      rw [List.tail_eq_of_cons_eq same]
      simp
  · rcases names' with same | ⟨first', index', rfl, same⟩
    · refine absurd ?_ (mark n')
      rw [← List.tail_eq_of_cons_eq same]
      simp
    · obtain ⟨front, back⟩ := cut_at (List.tail_eq_of_cons_eq same) (mark first) (mark first')
      rw [decimal_inj front, decimal_inj back]

theorem not_mem (names : Names n text) {c : Char} (other : c.isDigit = false) (percent : c ≠ '%') (mark : c ≠ '#') :
    c ∉ text := by
  have digits := not_mem_decimal other
  rcases names with rfl | ⟨first, index, -, rfl⟩
  · simp [percent, digits]
  · simp [percent, mark, digits]

end Names

theorem ValueId.toList_render (v : ValueId) : v.render.toList = '%' :: Nat.toDigits 10 v.index := by
  simp [render, toString_string]

namespace Module
variable {m m' : Module}

/-- Results are numbered one after the other. -/
theorem Linked.index_eq (linked : m.Linked) {o : OpId} {op : Operation} {first v : ValueId} {rest : List ValueId}
    {i : Nat} (found : m.op? o = some op) (results : op.results = first :: rest) (listed : op.results[i]? = some v) :
    v.index = first.index + i := by
  obtain ⟨start, consecutive⟩ := linked.origins.consecutive o op found
  have number (i : Nat) (v : ValueId) (listed : op.results[i]? = some v) : v.index = start + i := by
    obtain ⟨inside, -⟩ := List.getElem?_eq_some_iff.mp listed
    rw [consecutive, List.getElem?_map, List.getElem?_range' inside] at listed
    cases listed
    simp
  have ofFirst := number 0 first (by simp [results])
  have ofValue := number i v listed
  omega

/-- The name of a value shows its number. -/
theorem Linked.names (linked : m.Linked) (v : ValueId) : Names v.index (m.valueName v).toList := by
  unfold valueName
  split
  · rename_i type o index value
    obtain ⟨op, found, listed⟩ := linked.origins.ofResult v type o index value
    split
    · rename_i kind block operands attributes first second rest loc same
      have number := linked.index_eq same rfl (Option.some.inj (found.symm.trans same) ▸ listed)
      refine .inr ⟨first.index, index, number, ?_⟩
      simp [ValueId.toList_render, toString_string]
    · exact .inl v.toList_render
  · exact .inl v.toList_render

theorem Linked.not_mem_names (linked : m.Linked) {c : Char} (other : c.isDigit = false) (percent : c ≠ '%')
    (mark : c ≠ '#') {vs : List ValueId} : ∀ name ∈ vs.map (fun v => (m.valueName v).toList), c ∉ name := by
  intro name member
  obtain ⟨v, -, rfl⟩ := List.mem_map.mp member
  exact (linked.names v).not_mem other percent mark

/-- A name is that of one value, be it in one module or in two. -/
theorem Linked.eq_of_valueName (linked : m.Linked) (linked' : m'.Linked) {v v' : ValueId}
    (same : (m.valueName v).toList = (m'.valueName v').toList) : v = v' := by
  have names := linked'.names v'
  rw [← same] at names
  have number := (linked.names v).unique names
  obtain ⟨n⟩ := v
  obtain ⟨n'⟩ := v'
  cases number
  rfl

/-- Names in a row tell the values. -/
theorem Linked.names_inj (linked : m.Linked) (linked' : m'.Linked) {vs vs' : List ValueId}
    (same : vs.map (fun v => (m.valueName v).toList) = vs'.map fun v => (m'.valueName v).toList) : vs = vs' := by
  induction vs generalizing vs' with
  | nil =>
    cases vs' with
    | nil => rfl
    | cons v' vs' => cases same
  | cons v vs ih =>
    cases vs' with
    | nil => cases same
    | cons v' vs' =>
      simp only [List.map_cons, List.cons.injEq] at same
      obtain ⟨first, rest⟩ := same
      rw [linked.eq_of_valueName linked' first, ih rest]

/-- A result that has others beside it is named after the first of them. -/
theorem Linked.valueName_of_group (linked : m.Linked) {o : OpId} {op : Operation} {first v : ValueId} {i : Nat}
    (found : m.op? o = some op) (several : 2 ≤ op.results.length) (head : op.results[0]? = some first)
    (listed : op.results[i]? = some v) : m.valueName v = s!"{first.render}#{i}" := by
  obtain ⟨type, value⟩ := linked.origins.result o op i v found listed
  obtain ⟨kind, block, operands, attributes, results, loc⟩ := op
  rcases results with _ | ⟨a, _ | ⟨b, rest⟩⟩
  · cases head
  · simp at several
  · cases head
    simp only [valueName, value, found]

/-- Any other value is named by its own number. -/
theorem Linked.valueName_of_alone (linked : m.Linked) {v : ValueId}
    (alone : ∀ o op, m.op? o = some op → v ∈ op.results → op.results.length ≤ 1) : m.valueName v = v.render := by
  unfold valueName
  split
  · rename_i type o index value
    obtain ⟨op, found, listed⟩ := linked.origins.ofResult v type o index value
    have single := alone o op found (List.mem_of_getElem? listed)
    split
    · rename_i same
      cases found.symm.trans same
      simp at single
    · rfl
  · rfl

/-- However a module was built, no two values have the same name, nor have numbers that no value has: the results of an
operation that has several are named after the first of them and by their place, and all else by its own number. -/
theorem build_valueName_injective (steps : List Construction) :
    Function.Injective (build steps).valueName ∧
    (∀ o op (first v : ValueId) (i : Nat), (build steps).op? o = some op → 2 ≤ op.results.length →
      op.results[0]? = some first → op.results[i]? = some v → (build steps).valueName v = s!"{first.render}#{i}") ∧
    ∀ v, (∀ o op, (build steps).op? o = some op → v ∈ op.results → op.results.length ≤ 1) →
      (build steps).valueName v = v.render := by
  have linked : (build steps).Linked := linked_empty.extend steps
  refine ⟨?_, fun o op first v i => linked.valueName_of_group, fun v => linked.valueName_of_alone⟩
  intro v v' same
  exact linked.eq_of_valueName linked (congrArg String.toList same)

example : let site : Site := ⟨.full, ⟨0⟩⟩
    let loc : Location := ⟨"script", 1, 1⟩
    let m := build [.addFunction "main" loc, .addEntryBlock ⟨0⟩, .concat site [] loc, .unpack site ⟨⟨0⟩⟩ 2 loc]
    [0, 1, 2, 3].map (fun n => m.valueName ⟨n⟩) = ["%0", "%1#0", "%1#1", "%3"] := by decide

/-- What is written for the type of a value. -/
theorem typeName_cases (m : Module) (v : ValueId) : (m.type? v = none ∧ m.typeName v = "<invalid>") ∨
    (m.type? v = some .ref ∧ m.typeName v = "!lua.ref") ∨ (m.type? v = some .pack ∧ m.typeName v = "!lua.pack") := by
  unfold typeName
  cases m.type? v with
  | none => exact .inl ⟨rfl, rfl⟩
  | some type =>
    cases type with
    | ref => exact .inr (.inl ⟨rfl, rfl⟩)
    | pack => exact .inr (.inr ⟨rfl, rfl⟩)

theorem typeName_inj {v v' : ValueId} (same : m.typeName v = m'.typeName v') : m.type? v = m'.type? v' := by
  rcases m.typeName_cases v with ⟨type, text⟩ | ⟨type, text⟩ | ⟨type, text⟩ <;>
    rcases m'.typeName_cases v' with ⟨type', text'⟩ | ⟨type', text'⟩ | ⟨type', text'⟩ <;>
      rw [text, text'] at same <;> simp_all

theorem not_mem_typeName {c : Char} (other : c ∉ "!lua.refpck<invalid>".toList) (v : ValueId) :
    c ∉ (m.typeName v).toList := by
  rcases m.typeName_cases v with ⟨-, text⟩ | ⟨-, text⟩ | ⟨-, text⟩ <;> rw [text] <;> simp_all

end Module

/-! ## Parts of a line -/

theorem not_mem_row {c : Char} (other : c ∉ [',', ' ']) {parts : List (List Char)} (clear : ∀ part ∈ parts, c ∉ part) :
    c ∉ [',', ' '].intercalate parts := by
  intro member
  rcases mem_intercalate member with between | ⟨part, listed, inside⟩
  · exact other between
  · exact clear part listed inside

/-- Names or types in a row, each row before a closing parenthesis. -/
theorem row_cut {parts parts' : List (List Char)} {rest rest' : List Char}
    (same : [',', ' '].intercalate parts ++ ')' :: rest = [',', ' '].intercalate parts' ++ ')' :: rest')
    (clear : ∀ part ∈ parts, ')' ∉ part) (clear' : ∀ part ∈ parts', ')' ∉ part) :
    [',', ' '].intercalate parts = [',', ' '].intercalate parts' ∧ rest = rest' :=
  cut_at same (not_mem_row (by decide) clear) (not_mem_row (by decide) clear')

/-- What is written for results that are numbered one after the other. -/
def resultsText (first : Nat) : (count : Nat) → List Char
  | 0 => []
  | 1 => '%' :: (Nat.toDigits 10 first ++ [' ', '=', ' '])
  | count + 2 => '%' :: (Nat.toDigits 10 first ++ ':' :: (Nat.toDigits 10 (count + 2) ++ [' ', '=', ' ']))

theorem toList_renderResults (first count : Nat) :
    (Module.renderResults ((List.range' first count).map ValueId.mk)).toList = resultsText first count := by
  match count with
  | 0 => rfl
  | 1 => simp [Module.renderResults, ValueId.toList_render, resultsText]
  | count + 2 => simp [Module.renderResults, ValueId.toList_render, resultsText, toString_string, List.range'_succ]

/-- Results, each before something that is not a name. -/
theorem results_cut {first first' count count' : Nat} {rest rest' : List Char}
    (same : resultsText first count ++ rest = resultsText first' count' ++ rest') (letter : rest.head? ≠ some '%')
    (letter' : rest'.head? ≠ some '%') :
    (List.range' first count).map ValueId.mk = (List.range' first' count').map ValueId.mk ∧ rest = rest' := by
  have blank (text : List Char) : Opens (! ·.isDigit) (' ' :: text) := ⟨_, _, rfl, rfl⟩
  have colon (text : List Char) : Opens (! ·.isDigit) (':' :: text) := ⟨_, _, rfl, rfl⟩
  rcases count with _ | _ | count
  · rcases count' with _ | count'
    · exact ⟨rfl, same⟩
    · rw [resultsText, List.nil_append] at same
      rw [same] at letter
      cases count' <;> exact absurd rfl letter
  · rcases count' with _ | _ | count'
    · rw [resultsText, resultsText, List.nil_append] at same
      rw [← same] at letter'
      exact absurd rfl letter'
    · simp only [resultsText, List.cons_append, List.append_assoc, List.cons.injEq, true_and] at same
      obtain ⟨rfl, back⟩ := digits_cut same (blank _) (blank _)
      simpa using back
    · simp only [resultsText, List.cons_append, List.append_assoc, List.cons.injEq, true_and] at same
      obtain ⟨-, back⟩ := digits_cut same (blank _) (colon _)
      cases back
  · rcases count' with _ | _ | count'
    · rw [resultsText, resultsText, List.nil_append] at same
      rw [← same] at letter'
      exact absurd rfl letter'
    · simp only [resultsText, List.cons_append, List.append_assoc, List.cons.injEq, true_and] at same
      obtain ⟨-, back⟩ := digits_cut same (colon _) (blank _)
      cases back
    · simp only [resultsText, List.cons_append, List.append_assoc, List.cons.injEq, true_and] at same
      obtain ⟨rfl, back⟩ := digits_cut same (colon _) (colon _)
      obtain ⟨count, back⟩ := digits_cut (List.tail_eq_of_cons_eq back) (blank _) (blank _)
      rw [count]
      simpa using back

/-- Kinds, each before an opening parenthesis or a blank. -/
theorem mnemonic_cut {kind kind' : OpKind} {rest rest' : List Char}
    (same : kind.mnemonic.toList ++ rest = kind'.mnemonic.toList ++ rest')
    (opens : Opens (fun c => c == '(' || c == ' ') rest) (opens' : Opens (fun c => c == '(' || c == ' ') rest') :
    kind = kind' ∧ rest = rest' := by
  have clear (kind : OpKind) : ∀ c ∈ kind.mnemonic.toList, (c == '(' || c == ' ') = false := by
    have all : kind.mnemonic.toList.all (fun c => ! (c == '(' || c == ' ')) = true := by cases kind <;> rfl
    intro c member
    exact Bool.not_eq_true' _ ▸ List.all_eq_true.mp all c member
  obtain ⟨front, back⟩ := cut same (clear kind) (clear kind') opens opens'
  refine ⟨?_, back⟩
  rw [String.toList_inj] at front
  revert front
  cases kind <;> cases kind' <;> decide

/-- What is written for the operands. -/
def Module.operandsText (m : Module) (operands : List ValueId) : List Char :=
  if operands = [] then []
  else '(' :: ([',', ' '].intercalate (operands.map fun v => (m.valueName v).toList) ++ [')'])

/-- Operands, each before a blank. -/
theorem Module.Linked.operands_cut {m m' : Module} (linked : m.Linked) (linked' : m'.Linked)
    {operands operands' : List ValueId} {rest rest' : List Char} (blank : rest.head? = some ' ')
    (blank' : rest'.head? = some ' ') (same : m.operandsText operands ++ rest = m'.operandsText operands' ++ rest') :
    operands = operands' ∧ rest = rest' := by
  unfold operandsText at same
  split at same
  · rename_i none
    split at same
    · rename_i none'
      exact ⟨none.trans none'.symm, same⟩
    · rw [List.nil_append] at same
      rw [same] at blank
      cases blank
  · rename_i some
    split at same
    · rw [List.nil_append] at same
      rw [← same] at blank'
      cases blank'
    · rename_i some'
      simp only [List.cons_append, List.append_assoc, List.nil_append, List.cons.injEq, true_and] at same
      obtain ⟨front, back⟩ := row_cut same (linked.not_mem_names rfl (by decide) (by decide))
        (linked'.not_mem_names rfl (by decide) (by decide))
      have names := intercalate_inj (linked.not_mem_names rfl (by decide) (by decide))
        (linked'.not_mem_names rfl (by decide) (by decide)) (by simpa using some) (by simpa using some') front
      exact ⟨linked.names_inj linked' names, back⟩

/-! ## Constants -/

theorem toList_repr_int (n : Int) :
    n.repr.toList = (if 0 ≤ n then [] else ['-']) ++ Nat.toDigits 10 n.natAbs := by
  rw [Int.repr_eq_if]
  split
  · rw [Nat.toList_repr, List.nil_append]
    congr 1
    omega
  · rw [String.toList_append, Nat.toList_repr]
    congr 2
    omega

theorem repr_int_inj {n n' : Int} (same : n.repr.toList = n'.repr.toList) : n = n' := by
  have minus {n : Nat} {text : List Char} : Nat.toDigits 10 n ≠ '-' :: text := by
    intro starts
    exact not_mem_decimal rfl n (starts ▸ List.mem_cons_self)
  rw [toList_repr_int, toList_repr_int] at same
  split at same
  · split at same
    · have := decimal_inj same
      omega
    · exact absurd same minus
  · split at same
    · exact absurd same.symm minus
    · have := decimal_inj (List.tail_eq_of_cons_eq same)
      omega

def Attribute.isNan : Attribute → Bool
  | .f64 x => x.isNan
  | _ => false

namespace Constant
variable {c c' : Constant}

theorem toList_render_int (n : Int64) :
    (Constant.int n).attribute.render.toList = n.toInt.repr.toList ++ [' ', ':', ' ', 'i', '6', '4'] := by
  simp [Constant.attribute, Attribute.render, toString_string]

theorem toList_render_float (x : Decimal.Binary64) :
    (Constant.float x).attribute.render.toList =
      (Attribute.numbers.render x).toList ++ [' ', ':', ' ', 'f', '6', '4'] := by
  simp [Constant.attribute, Attribute.render, toString_string]

/-- Apart from NaN, constants can be told from their texts. -/
theorem render_inj (proper : c.attribute.isNan = false) (proper' : c'.attribute.isNan = false)
    (same : c.attribute.render.toList = c'.attribute.render.toList) : c = c' := by
  cases c with
  | int n =>
    cases c' with
    | int n' =>
      rw [toList_render_int, toList_render_int] at same
      obtain ⟨number, -⟩ := List.append_inj' same rfl
      rw [Int64.toInt_inj.mp (repr_int_inj number)]
    | float x' =>
      rw [toList_render_int, toList_render_float] at same
      obtain ⟨-, suffix⟩ := List.append_inj' same rfl
      cases suffix
  | float x =>
    cases c' with
    | int n' =>
      rw [toList_render_int, toList_render_float] at same
      obtain ⟨-, suffix⟩ := List.append_inj' same rfl
      cases suffix
    | float x' =>
      rw [toList_render_float, toList_render_float] at same
      obtain ⟨number, -⟩ := List.append_inj' same rfl
      rw [Attribute.render_number_inj proper proper' (String.toList_inj.mp number)]

/-- A character that no constant has. -/
theorem not_mem_render {d : Char} (other : Attribute.isNumberChar d = false) (outside : d ∉ [' ', ':', 'i', 'f', '6', '4']) :
    d ∉ c.attribute.render.toList := by
  have number (text : List Char) (all : text.all Attribute.isNumberChar = true) : d ∉ text := by
    intro member
    rw [List.all_eq_true.mp all d member] at other
    cases other
  cases c with
  | int n =>
    have all : n.toInt.repr.toList.all Attribute.isNumberChar = true := by
      rw [toList_repr_int, List.all_append, Attribute.all_decimal]
      split <;> rfl
    have absent := number _ all
    rw [toList_render_int]
    simp_all
  | float x =>
    have absent := number _ (Attribute.all_render_number x)
    rw [toList_render_float]
    simp_all

end Constant

/-! ## Attributes -/

/-- What is written for attributes. -/
def attributesText (attributes : List (String × Attribute)) : List Char :=
  if attributes = [] then []
  else ' ' :: '\x7b' :: ([',', ' '].intercalate
    (attributes.map fun (name, a) => name.toList ++ ' ' :: '=' :: ' ' :: a.render.toList) ++ ['\x7d'])

theorem attributesText_number (c : Constant) : attributesText (Opcode.number c).attributes =
    ' ' :: '\x7b' :: ("value = ".toList ++ (c.attribute.render.toList ++ ['\x7d'])) := by
  simp [attributesText, Opcode.attributes]

theorem attributesText_cell (name : String) : attributesText (Opcode.cell name).attributes =
    ' ' :: '\x7b' :: ("var = ".toList ++ ((quoted name).toList ++ ['\x7d'])) := by
  simp [attributesText, Opcode.attributes, Attribute.render]

/-- Attributes, each before the types. -/
theorem attributes_cut {code code' : Opcode} {rest rest' : List Char}
    (proper : ∀ a ∈ code.attributes, a.2.isNan = false) (proper' : ∀ a ∈ code'.attributes, a.2.isNan = false)
    (same : attributesText code.attributes ++ ' ' :: ':' :: rest =
      attributesText code'.attributes ++ ' ' :: ':' :: rest') :
    code.attributes = code'.attributes ∧ rest = rest' := by
  have plain (kind : OpKind) : attributesText (Opcode.plain kind).attributes = [] := rfl
  cases code with
  | plain kind =>
    cases code' with
    | plain kind' => exact ⟨rfl, by simpa [plain] using same⟩
    | number c' =>
      rw [plain, attributesText_number] at same
      simp at same
    | cell name' =>
      rw [plain, attributesText_cell] at same
      simp at same
  | number c =>
    cases code' with
    | plain kind' =>
      rw [plain, attributesText_number] at same
      simp at same
    | number c' =>
      rw [attributesText_number, attributesText_number] at same
      simp only [List.cons_append, List.append_assoc, List.nil_append, List.cons.injEq, true_and,
        List.append_cancel_left_eq] at same
      obtain ⟨front, back⟩ := cut_at same (Constant.not_mem_render rfl (by decide))
        (Constant.not_mem_render rfl (by decide))
      have constant := Constant.render_inj (proper _ List.mem_cons_self) (proper' _ List.mem_cons_self) front
      exact ⟨by rw [constant], by simpa using back⟩
    | cell name' =>
      rw [attributesText_number, attributesText_cell] at same
      simp at same
  | cell name =>
    cases code' with
    | plain kind' =>
      rw [plain, attributesText_cell] at same
      simp at same
    | number c' =>
      rw [attributesText_number, attributesText_cell] at same
      simp at same
    | cell name' =>
      rw [attributesText_cell, attributesText_cell] at same
      simp only [List.cons_append, List.append_assoc, List.nil_append, List.cons.injEq, true_and,
        List.append_cancel_left_eq] at same
      obtain ⟨rfl, back⟩ := quoted_cut same
      exact ⟨rfl, by simpa using back⟩

/-! ## Places -/

namespace Location

/-- The place is in the file, or it is the one that is not known. -/
def In (file : String) (l : Location) : Prop := l.file = file ∧ (l.isUnknown = true → l = unknown file)

theorem toList_renderNote (l : Location) : l.renderNote.toList =
    if l.isUnknown then "loc(unknown)".toList
    else "loc(".toList ++ ((quoted l.file).toList ++
      ':' :: (Nat.toDigits 10 l.line ++ ':' :: (Nat.toDigits 10 l.column ++ [')']))) := by
  unfold renderNote
  split
  · rfl
  · simp [toString_string]

theorem renderNote_inj {file : String} {l l' : Location} (inside : l.In file) (inside' : l'.In file)
    (same : l.renderNote.toList = l'.renderNote.toList) : l = l' := by
  have quote (s : String) : ∃ text, (quoted s).toList = '"' :: text := by simp [quoted]
  have stop {c : Char} (text : List Char) (other : c.isDigit = false) : Opens (! ·.isDigit) (c :: text) :=
    ⟨c, text, rfl, by simp [other]⟩
  rw [toList_renderNote, toList_renderNote] at same
  split at same
  · rename_i unknown
    split at same
    · rename_i unknown'
      rw [inside.2 unknown, inside'.2 unknown']
    · obtain ⟨text, starts⟩ := quote l'.file
      rw [starts] at same
      simp at same
  · split at same
    · obtain ⟨text, starts⟩ := quote l.file
      rw [starts] at same
      simp at same
    · obtain ⟨-, back⟩ := quoted_cut (List.append_cancel_left same)
      obtain ⟨line, back⟩ := digits_cut (List.tail_eq_of_cons_eq back) (stop _ rfl) (stop _ rfl)
      obtain ⟨column, -⟩ := digits_cut (List.tail_eq_of_cons_eq back) (stop _ rfl) (stop _ rfl)
      have file := inside.1.trans inside'.1.symm
      obtain ⟨f, l, c⟩ := l
      obtain ⟨f', l', c'⟩ := l'
      cases file
      cases line
      cases column
      rfl

end Location

namespace Source

theorem in_location (source : Source) (offset : Nat) : (source.location offset).In source.file := by
  unfold location
  simp only
  split
  · refine ⟨rfl, fun unknown => ?_⟩
    rw [Position.after_eq] at unknown
    cases unknown
  · exact ⟨rfl, fun _ => rfl⟩

theorem in_startLoc (source : Source) (range : Option TextRange) : (source.startLoc range).In source.file := by
  cases range with
  | none => exact ⟨rfl, fun _ => rfl⟩
  | some range => exact source.in_location _

theorem in_endLoc (source : Source) (range : Option TextRange) : (source.endLoc range).In source.file := by
  cases range with
  | none => exact ⟨rfl, fun _ => rfl⟩
  | some range => exact source.in_location _

end Source

/-! ## Lines -/

theorem Module.toList_renderOp (m : Module) (op : Operation) : (m.renderOp op).toList =
    (renderResults op.results).toList ++ (op.kind.mnemonic.toList ++ (m.operandsText op.operands ++
      (attributesText op.attributes ++ ' ' :: ':' :: ' ' :: '(' ::
        ([',', ' '].intercalate (op.operands.map fun v => (m.typeName v).toList) ++ ')' :: ' ' :: '-' :: '>' :: ' ' :: '(' ::
          ([',', ' '].intercalate (op.results.map fun v => (m.typeName v).toList) ++
            ')' :: ' ' :: op.loc.renderNote.toList))))) := by
  have operands : (if op.operands.isEmpty then "" else
      "(" ++ ", ".intercalate (op.operands.map m.valueName) ++ ")").toList = m.operandsText op.operands := by
    unfold operandsText
    simp only [List.isEmpty_iff]
    split
    · rfl
    · simp [Function.comp_def]
  have attributes : (if op.attributes.isEmpty then ""
      else " \x7b" ++ ", ".intercalate (op.attributes.map fun (name, a) => s!"{name} = {a.render}") ++ "\x7d").toList =
      attributesText op.attributes := by
    unfold attributesText
    simp only [List.isEmpty_iff]
    split
    · rfl
    · simp [Function.comp_def, toString_string]
  unfold renderOp
  simp only [String.toList_append, operands, attributes, List.append_assoc]
  simp [Function.comp_def]

/-- What the text of an operation rests on: its attributes are those of a code, none of them is NaN, and its place is in
the file. -/
structure Operation.Tidy (file : String) (op : Operation) : Prop where
  code : ∃ code : Opcode, op.attributes = code.attributes
  proper : ∀ a ∈ op.attributes, a.2.isNan = false
  loc : op.loc.In file

theorem head?_attributesText (attributes : List (String × Attribute)) (rest : List Char) :
    (attributesText attributes ++ ' ' :: rest).head? = some ' ' := by
  unfold attributesText
  split <;> rfl

theorem Module.opens_operandsText (m : Module) (operands : List ValueId) {rest : List Char}
    (blank : rest.head? = some ' ') : Opens (fun c => c == '(' || c == ' ') (m.operandsText operands ++ rest) := by
  unfold operandsText
  split
  · cases rest with
    | nil => cases blank
    | cons c rest =>
      cases blank
      exact ⟨_, _, rfl, rfl⟩
  · exact ⟨_, _, rfl, rfl⟩

theorem head?_mnemonic (kind : OpKind) (rest : List Char) : (kind.mnemonic.toList ++ rest).head? ≠ some '%' := by
  cases kind <;> simp [OpKind.mnemonic]

theorem Module.Linked.results_eq {m : Module} (linked : m.Linked) {o : OpId} {op : Operation}
    (found : m.op? o = some op) : ∃ first count, op.results = (List.range' first count).map ValueId.mk :=
  have ⟨first, consecutive⟩ := linked.origins.consecutive o op found
  ⟨first, _, consecutive⟩

/-- Types in a row tell the types of the values. -/
theorem Module.types_inj {m m' : Module} {vs : List ValueId}
    (same : [',', ' '].intercalate (vs.map fun v => (m.typeName v).toList) =
      [',', ' '].intercalate (vs.map fun v => (m'.typeName v).toList)) :
    ∀ v ∈ vs, m.type? v = m'.type? v := by
  intro v member
  have clear (m : Module) : ∀ part ∈ vs.map (fun v => (m.typeName v).toList), ',' ∉ part := by
    intro part member
    obtain ⟨v, -, rfl⟩ := List.mem_map.mp member
    exact not_mem_typeName (by decide) v
  have some (m : Module) : vs.map (fun v => (m.typeName v).toList) ≠ [] := by
    rw [ne_eq, List.map_eq_nil_iff]
    exact List.ne_nil_of_mem member
  have parts := intercalate_inj (clear m) (clear m') (some m) (some m') same
  exact typeName_inj (String.toList_inj.mp (List.map_inj_left.mp parts v member))

/-- The line of an operation tells everything about it but its block. -/
theorem Module.Linked.renderOp_inj {file : String} {m m' : Module} (linked : m.Linked) (linked' : m'.Linked)
    {o o' : OpId} {op op' : Operation} (found : m.op? o = some op) (found' : m'.op? o' = some op')
    (tidy : op.Tidy file) (tidy' : op'.Tidy file) (same : m.renderOp op = m'.renderOp op') :
    (op.block = op'.block → op = op') ∧ ∀ v ∈ op.results, m.type? v = m'.type? v := by
  obtain ⟨first, count, results⟩ := linked.results_eq found
  obtain ⟨first', count', results'⟩ := linked'.results_eq found'
  obtain ⟨code, attributes⟩ := tidy.code
  obtain ⟨code', attributes'⟩ := tidy'.code
  have closed (m : Module) (vs : List ValueId) : ∀ part ∈ vs.map (fun v => (m.typeName v).toList), ')' ∉ part := by
    intro part member
    obtain ⟨v, -, rfl⟩ := List.mem_map.mp member
    exact not_mem_typeName (by decide) v
  have texts := congrArg String.toList same
  rw [toList_renderOp, toList_renderOp, results, results', toList_renderResults, toList_renderResults] at texts
  obtain ⟨sameResults, texts⟩ := results_cut texts (head?_mnemonic _ _) (head?_mnemonic _ _)
  obtain ⟨sameKind, texts⟩ := mnemonic_cut texts (m.opens_operandsText _ (head?_attributesText _ _))
    (m'.opens_operandsText _ (head?_attributesText _ _))
  obtain ⟨sameOperands, texts⟩ := linked.operands_cut linked' (head?_attributesText _ _) (head?_attributesText _ _) texts
  rw [attributes, attributes'] at texts
  obtain ⟨sameAttributes, texts⟩ := attributes_cut (attributes ▸ tidy.proper) (attributes' ▸ tidy'.proper) texts
  simp only [List.cons.injEq, true_and] at texts
  obtain ⟨-, texts⟩ := row_cut texts (closed m _) (closed m' _)
  simp only [List.cons.injEq, true_and] at texts
  obtain ⟨types, texts⟩ := row_cut texts (closed m _) (closed m' _)
  simp only [List.cons.injEq, true_and] at texts
  have sameLoc := Location.renderNote_inj tidy.loc tidy'.loc texts
  refine ⟨fun sameBlock => ?_, ?_⟩
  · obtain ⟨k, b, vs, as, rs, l⟩ := op
    obtain ⟨k', b', vs', as', rs', l'⟩ := op'
    simp_all
  · rw [← sameResults] at types
    rw [results]
    exact types_inj types

/-! ## Line ends -/

theorem newline_not_mem_resultsText (first count : Nat) : '\n' ∉ resultsText first count := by
  have digits (n : Nat) : '\n' ∉ Nat.toDigits 10 n := not_mem_decimal rfl n
  match count with
  | 0 => simp [resultsText]
  | 1 => simp [resultsText, digits]
  | count + 2 => simp [resultsText, digits]

theorem newline_not_mem_mnemonic (kind : OpKind) : '\n' ∉ kind.mnemonic.toList := by
  cases kind <;> simp [OpKind.mnemonic]

theorem Module.Linked.newline_not_mem_operandsText {m : Module} (linked : m.Linked) (operands : List ValueId) :
    '\n' ∉ m.operandsText operands := by
  have names : '\n' ∉ [',', ' '].intercalate (operands.map fun v => (m.valueName v).toList) :=
    not_mem_row (by decide) (linked.not_mem_names rfl (by decide) (by decide))
  unfold operandsText
  split
  · simp
  · simp [names]

theorem newline_not_mem_attributesText (code : Opcode) : '\n' ∉ attributesText code.attributes := by
  cases code with
  | plain kind => simp [attributesText, Opcode.attributes]
  | number c =>
    have clear : '\n' ∉ c.attribute.render.toList := Constant.not_mem_render rfl (by decide)
    rw [attributesText_number]
    simp [clear]
  | cell name =>
    rw [attributesText_cell]
    simp [newline_not_mem_quoted]

theorem newline_not_mem_renderNote (l : Location) : '\n' ∉ l.renderNote.toList := by
  have digits (n : Nat) : '\n' ∉ Nat.toDigits 10 n := not_mem_decimal rfl n
  rw [Location.toList_renderNote]
  split
  · simp
  · simp [newline_not_mem_quoted, digits]

/-- An operation stays on its line. -/
theorem Module.Linked.newline_not_mem_renderOp {m : Module} (linked : m.Linked) {o : OpId} {op : Operation}
    (found : m.op? o = some op) {code : Opcode} (attributes : op.attributes = code.attributes) :
    '\n' ∉ (m.renderOp op).toList := by
  have types (vs : List ValueId) : '\n' ∉ [',', ' '].intercalate (vs.map fun v => (m.typeName v).toList) := by
    apply not_mem_row (by decide)
    intro part member
    obtain ⟨v, -, rfl⟩ := List.mem_map.mp member
    exact not_mem_typeName (by decide) v
  obtain ⟨first, count, results⟩ := linked.results_eq found
  have ofResults := newline_not_mem_resultsText first count
  rw [← toList_renderResults, ← results] at ofResults
  rw [toList_renderOp, attributes]
  simp [ofResults, newline_not_mem_mnemonic, linked.newline_not_mem_operandsText, newline_not_mem_attributesText, types,
    newline_not_mem_renderNote]

/-! ## Modules -/

namespace Module

/-- No constant is NaN. -/
def NanFree (m : Module) : Prop := ∀ op ∈ m.ops.toList, ∀ a ∈ op.attributes, a.2.isNan = false

instance (m : Module) : Decidable m.NanFree :=
  inferInstanceAs (Decidable (∀ op ∈ m.ops.toList, ∀ a ∈ op.attributes, a.2.isNan = false))

/-- The lines of a module that has nothing but a main function. -/
theorem OnlyMain.render_eq {c : Catalogue} {m : Module} (main : m.OnlyMain c) {loc : Location}
    (functions : m.functions = #[⟨"main", ⟨0⟩, loc⟩]) : m.render =
      "\n".intercalate (["module \x7b", "  func @main() \x7b", "  ^bb0:"] ++
        m.ops.toList.map (fun op => "    " ++ m.renderOp op) ++ ["  \x7d " ++ loc.renderNote, "\x7d"]) := by
  have region : m.region? ⟨0⟩ = some ⟨#[⟨0⟩]⟩ := by simp [region?, main.regions]
  have block : m.blockLines ⟨0⟩ = "  ^bb0:" :: m.ops.toList.map fun op => "    " ++ m.renderOp op := by
    simp only [blockLines, main.block?_zero, main.blockOps_zero]
    rfl
  have lines : m.functionLines ⟨"main", ⟨0⟩, loc⟩ =
      ("  func @main() \x7b" :: m.blockLines ⟨0⟩) ++ ["  \x7d " ++ loc.renderNote] := by
    simp only [functionLines, region]
    simp [toString_string]
  rw [render, functions]
  simp [lines, block]

/-- What the text of a module rests on: it has nothing but a main function, and all that it holds can be told from its
text. -/
structure Tidy (file : String) (c : Catalogue) (loc : Location) (m : Module) : Prop where
  main : m.OnlyMain c
  functions : m.functions = #[⟨"main", ⟨0⟩, loc⟩]
  loc : loc.In file
  ops : ∀ op ∈ m.ops.toList, op.Tidy file

namespace Tidy
variable {file : String} {c c' : Catalogue} {loc loc' : Location} {m m' : Module}

theorem newline_not_mem_lines (tidy : m.Tidy file c loc) :
    ∀ line ∈ (["module \x7b", "  func @main() \x7b", "  ^bb0:"] ++
      m.ops.toList.map (fun op => "    " ++ m.renderOp op) ++ ["  \x7d " ++ loc.renderNote, "\x7d"]).map String.toList,
      '\n' ∉ line := by
  intro line member
  simp only [List.cons_append, List.nil_append, List.map_cons, List.map_append, List.map_map, List.map_nil, List.mem_cons,
    List.mem_append, List.mem_map, Function.comp_apply, List.not_mem_nil, or_false] at member
  rcases member with rfl | rfl | rfl | ⟨op, listed, rfl⟩ | rfl | rfl
  · decide
  · decide
  · decide
  · obtain ⟨code, attributes⟩ := (tidy.ops op listed).code
    obtain ⟨i, found⟩ := List.mem_iff_getElem?.mp listed
    have clear := tidy.main.linked.newline_not_mem_renderOp (o := ⟨i⟩) (by simpa [op?] using found) attributes
    simp [clear]
  · simp [newline_not_mem_renderNote]
  · decide

/-- The text tells the place of the function and the lines of the operations. -/
theorem lines_eq (tidy : m.Tidy file c loc) (tidy' : m'.Tidy file c' loc') (same : m.render = m'.render) :
    loc = loc' ∧ m.ops.toList.map m.renderOp = m'.ops.toList.map m'.renderOp := by
  have texts := congrArg String.toList same
  rw [tidy.main.render_eq tidy.functions, tidy'.main.render_eq tidy'.functions, String.toList_intercalate,
    String.toList_intercalate] at texts
  have lines := intercalate_inj tidy.newline_not_mem_lines tidy'.newline_not_mem_lines (by simp) (by simp) texts
  rw [List.map_inj_right fun _ _ => String.toList_inj.mp] at lines
  obtain ⟨front, back⟩ := List.append_inj' lines rfl
  have note : loc.renderNote.toList = loc'.renderNote.toList := by simpa [← String.toList_inj] using back
  have indented (m : Module) : m.ops.toList.map (fun op => "    " ++ m.renderOp op) =
      (m.ops.toList.map m.renderOp).map ("    " ++ ·) := by rw [List.map_map, Function.comp_def]
  have ops := List.append_cancel_left front
  rw [indented, indented, List.map_inj_right fun _ _ => by simp [← String.toList_inj]] at ops
  exact ⟨Location.renderNote_inj tidy.loc tidy'.loc note, ops⟩

/-- The text tells the operations, and the types of their results. -/
theorem ops_eq (tidy : m.Tidy file c loc) (tidy' : m'.Tidy file c' loc')
    (same : m.ops.toList.map m.renderOp = m'.ops.toList.map m'.renderOp) :
    m.ops = m'.ops ∧ ∀ o op, m.op? o = some op → ∀ v ∈ op.results, m.type? v = m'.type? v := by
  have each (o : OpId) : (m.op? o).map m.renderOp = (m'.op? o).map m'.renderOp := by
    have line := congrArg (·[o.index]?) same
    simpa [op?] using line
  have alike (o : OpId) (op op' : Operation) (found : m.op? o = some op) (found' : m'.op? o = some op') :
      op = op' ∧ ∀ v ∈ op.results, m.type? v = m'.type? v := by
    have text := each o
    rw [found, found', Option.map_some, Option.map_some, Option.some.injEq] at text
    have listed : op ∈ m.ops.toList := Array.mem_toList_iff.mpr (Array.mem_of_getElem? found)
    have listed' : op' ∈ m'.ops.toList := Array.mem_toList_iff.mpr (Array.mem_of_getElem? found')
    obtain ⟨eq, types⟩ := tidy.main.linked.renderOp_inj tidy'.main.linked found found' (tidy.ops op listed)
      (tidy'.ops op' listed') text
    exact ⟨eq ((tidy.main.block_eq found).trans (tidy'.main.block_eq found').symm), types⟩
  have partner (o : OpId) (op : Operation) (found : m.op? o = some op) : ∃ op', m'.op? o = some op' := by
    have text := each o
    rw [found, Option.map_some] at text
    obtain ⟨op', found', -⟩ := Option.map_eq_some_iff.mp text.symm
    exact ⟨op', found'⟩
  refine ⟨Array.ext_getElem? fun i => ?_, fun o op found => ?_⟩
  · change m.op? ⟨i⟩ = m'.op? ⟨i⟩
    cases found : m.op? ⟨i⟩ with
    | none =>
      have text := each ⟨i⟩
      rw [found, Option.map_none] at text
      exact (Option.map_eq_none_iff.mp text.symm).symm
    | some op =>
      obtain ⟨op', found'⟩ := partner ⟨i⟩ op found
      rw [found', (alike ⟨i⟩ op op' found found').1]
  · obtain ⟨op', found'⟩ := partner o op found
    exact (alike o op op' found found').2

/-- Values are known by the operations and the types of their results. -/
theorem value?_of_value? (tidy : m.Tidy file c loc) (tidy' : m'.Tidy file c' loc') (ops : m.ops = m'.ops)
    (types : ∀ o op, m.op? o = some op → ∀ v ∈ op.results, m.type? v = m'.type? v) {v : ValueId} {value : Value}
    (known : m.value? v = some value) : m'.value? v = some value := by
  obtain ⟨type, origin⟩ := value
  obtain ⟨o, i, op, rfl, found, result⟩ := tidy.main.origin_result known
  have found' : m'.op? o = some op := by rwa [op?, ← ops]
  obtain ⟨type', known'⟩ := tidy'.main.linked.origins.result o op i v found' result
  have same := types o op found v (List.mem_of_getElem? result)
  rw [type?, type?, known, known', Option.map_some, Option.map_some, Option.some.injEq] at same
  cases same
  exact known'

theorem values_eq (tidy : m.Tidy file c loc) (tidy' : m'.Tidy file c' loc') (ops : m.ops = m'.ops)
    (types : ∀ o op, m.op? o = some op → ∀ v ∈ op.results, m.type? v = m'.type? v) : m.values = m'.values := by
  apply Array.ext_getElem?
  intro i
  change m.value? ⟨i⟩ = m'.value? ⟨i⟩
  apply Option.ext
  intro value
  constructor
  · exact tidy.value?_of_value? tidy' ops types
  · apply tidy'.value?_of_value? tidy ops.symm
    intro o op found v result
    have found' : m.op? o = some op := by rwa [op?, ops]
    exact (types o op found' v result).symm

theorem render_inj (tidy : m.Tidy file c loc) (tidy' : m'.Tidy file c' loc') (same : m.render = m'.render) : m = m' := by
  obtain ⟨sameLoc, lines⟩ := tidy.lines_eq tidy' same
  obtain ⟨ops, types⟩ := tidy.ops_eq tidy' lines
  have values := tidy.values_eq tidy' ops types
  have functions := tidy.functions.trans (sameLoc ▸ tidy'.functions.symm)
  have regions := tidy.main.regions.trans tidy'.main.regions.symm
  have blocks : m.blocks = m'.blocks := by rw [tidy.main.blocks, tidy'.main.blocks, opIds, opIds, ops]
  obtain ⟨f, r, b, o, v⟩ := m
  obtain ⟨f', r', b', o', v'⟩ := m'
  cases functions
  cases regions
  cases blocks
  cases ops
  cases values
  rfl

end Tidy

end Module

namespace Syntax.Chunk
variable {chunk chunk' : Chunk} {source source' : Source} {c c' : Catalogue} {m m' : Module}

theorem tidy_of_lower (lowered : chunk.lower source c = .ok m) (proper : m.NanFree) :
    m.Tidy source.file c (source.startLoc chunk.range) where
  main := onlyMain_of_lower lowered
  functions := functions_of_lower lowered
  loc := source.in_startLoc chunk.range
  ops := by
    intro op listed
    have marked := List.mem_map_of_mem (f := Operation.mark) listed
    rw [(laidOut_of_lower lowered).marks_eq, List.mem_append, List.mem_map, List.mem_singleton] at marked
    rcases marked with ⟨em, -, same⟩ | same
    · simp only [Emission.mark, Operation.mark, Prod.mk.injEq] at same
      obtain ⟨-, attributes, loc⟩ := same
      exact ⟨⟨em.code, attributes.symm⟩, proper op listed, loc ▸ source.in_startLoc em.node.range⟩
    · simp only [Operation.mark, Prod.mk.injEq] at same
      obtain ⟨-, attributes, loc⟩ := same
      exact ⟨⟨.plain .ret, attributes⟩, proper op listed, loc ▸ source.in_endLoc chunk.block.range⟩

/-- The text of a module loses nothing: modules of chunks of one file, in which no constant is NaN, are equal if their
texts are. -/
theorem lower_render_inj (lowered : chunk.lower source c = .ok m) (lowered' : chunk'.lower source' c' = .ok m')
    (file : source.file = source'.file) (proper : m.NanFree) (proper' : m'.NanFree) (same : m.render = m'.render) :
    m = m' :=
  (tidy_of_lower lowered proper).render_inj (file ▸ tidy_of_lower lowered' proper') same

/-- `a, b = f(n)` for a float in some spelling, without ranges. -/
def callWith (text : String) : Chunk :=
  let var (name : String) : Var := ⟨.name name, [], none⟩
  let argument : Exp := ⟨.number ⟨.float, text⟩, none⟩
  ⟨⟨[⟨.assign [var "a", var "b"] [⟨.prefixExp ⟨.var (var "f"), [⟨none, .list [argument], none⟩]⟩, none⟩], none⟩],
    none, none⟩, none⟩

/-- Two spellings of one float. -/
theorem lower_render_inj_callWith : ∃ m m', (callWith "2.5").lower ⟨"main.lua", ""⟩ .full = .ok m ∧
    (callWith "25e-1").lower ⟨"main.lua", ""⟩ .full = .ok m' ∧ m.NanFree ∧ m'.NanFree ∧ m.render = m'.render ∧
    m = m' := by
  have evaluated : ((callWith "2.5").lower ⟨"main.lua", ""⟩ .full).toOption.any (fun m =>
      ((callWith "25e-1").lower ⟨"main.lua", ""⟩ .full).toOption.any fun m' =>
        m.NanFree ∧ m'.NanFree ∧ m.render = m'.render) = true := by
    decide +kernel
  cases lowered : (callWith "2.5").lower ⟨"main.lua", ""⟩ .full with
  | error e =>
    rw [lowered] at evaluated
    cases evaluated
  | ok m =>
    rw [lowered] at evaluated
    cases lowered' : (callWith "25e-1").lower ⟨"main.lua", ""⟩ .full with
    | error e =>
      rw [lowered'] at evaluated
      cases evaluated
    | ok m' =>
      rw [lowered'] at evaluated
      obtain ⟨proper, proper', same⟩ := of_decide_eq_true evaluated
      exact ⟨m, m', rfl, rfl, proper, proper', same, lower_render_inj lowered lowered' rfl proper proper' same⟩

end Syntax.Chunk
end LuaLowering
