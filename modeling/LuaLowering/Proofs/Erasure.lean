import LuaLowering.Proofs.Relabelling
/-!
# Erasure of ranges

Two trees are the same up to ranges when they are equal without them. Erasing is the relabelling that keeps the names
and drops the ranges. Grouping operands and operators does not depend on ranges (`FlatExp.erase_assemble`).
-/
namespace LuaLowering.Syntax

/-- The same expression without ranges. -/
abbrev Exp.erase : Exp → Exp := Exp.relabel id fun _ => none

abbrev expsErase : List Exp → List Exp := expsRelabel id fun _ => none

abbrev PrefixExp.erase : PrefixExp → PrefixExp := PrefixExp.relabel id fun _ => none

abbrev Head.erase : Head → Head := Head.relabel id fun _ => none

abbrev Var.erase : Var → Var := Var.relabel id fun _ => none

abbrev varsErase : List Var → List Var := varsRelabel id fun _ => none

abbrev Root.erase : Root → Root := Root.relabel id fun _ => none

abbrev Suffix.erase : Suffix → Suffix := Suffix.relabel id fun _ => none

abbrev suffixesErase : List Suffix → List Suffix := suffixesRelabel id fun _ => none

abbrev Access.erase : Access → Access := Access.relabel id fun _ => none

abbrev Call.erase : Call → Call := Call.relabel id fun _ => none

abbrev callsErase : List Call → List Call := callsRelabel id fun _ => none

abbrev Args.erase : Args → Args := Args.relabel id fun _ => none

abbrev Field.erase : Field → Field := Field.relabel id fun _ => none

abbrev fieldsErase : List Field → List Field := fieldsRelabel id fun _ => none

abbrev FuncBody.erase : FuncBody → FuncBody := FuncBody.relabel id fun _ => none

abbrev Block.erase : Block → Block := Block.relabel id fun _ => none

abbrev Ret.erase : Ret → Ret := Ret.relabel id fun _ => none

abbrev Stat.erase : Stat → Stat := Stat.relabel id fun _ => none

abbrev statsErase : List Stat → List Stat := statsRelabel id fun _ => none

abbrev clausesErase : List Clause → List Clause := clausesRelabel id fun _ => none

abbrev Chunk.erase : Chunk → Chunk := Chunk.relabel id fun _ => none

/-! ## Grouping -/

def Operand.erase (o : Operand) : Operand := ⟨o.unary.map fun (op, _) => (op, ⟨0, 0, 0⟩), o.exp.erase⟩

def FlatExp.erase (e : FlatExp) : FlatExp := ⟨e.first.erase, e.rest.map fun (op, operand) => (op, operand.erase)⟩

namespace Exp

@[simp] theorem range_erase (e : Exp) : e.erase.range = none := range_relabel _ _ e

theorem erase_unary (op : UnaryOp) (range range' : Option TextRange) (operand : Exp) :
    (unary op range operand).erase = unary op range' operand.erase := by
  cases range' <;> simp [unary, TextRange.join]

theorem erase_binary (op : BinaryOp) (lhs rhs : Exp) : (binary op lhs rhs).erase = binary op lhs.erase rhs.erase := by
  simp [binary, TextRange.join]

theorem erase_graft (op : BinaryOp) (rhs lhs : Exp) : (graft op rhs lhs).erase = graft op rhs.erase lhs.erase := by
  fun_induction graft op rhs lhs with
  | case1 o a b range yields ih =>
    rw [erase_binary, ih, erase, relabel, ExpKind.relabel, graft, if_pos yields]
  | case2 o a b range stays =>
    rw [erase_binary, erase, relabel, ExpKind.relabel, graft, if_neg stays]
  | case3 o a range looser ih =>
    rw [erase_unary o range none, ih, erase, relabel, ExpKind.relabel, graft, if_pos looser]
  | case4 o a range tighter =>
    rw [erase_binary, erase, relabel, ExpKind.relabel, graft, if_neg tighter]
  | case5 lhs notBinary notUnary =>
    obtain ⟨kind, range⟩ := lhs
    cases kind with
    | binary o a b => exact (notBinary o a b range rfl).elim
    | unary o a => exact (notUnary o a range rfl).elim
    | _ => rw [erase_binary, erase, relabel, ExpKind.relabel, graft] <;> simp

end Exp

theorem Operand.erase_toExp (o : Operand) : o.toExp.erase = o.erase.toExp := by
  obtain ⟨ops, e⟩ := o
  simp only [toExp, erase]
  induction ops with
  | nil => rfl
  | cons pair ops ih =>
    rw [List.foldr_cons, Exp.erase_unary _ _ (some ⟨0, 0, 0⟩), ih, List.map_cons, List.foldr_cons]

theorem FlatExp.erase_assemble (e : FlatExp) : e.assemble.erase = e.erase.assemble := by
  obtain ⟨first, rest⟩ := e
  simp only [assemble, erase, ← Operand.erase_toExp]
  generalize first.toExp = lhs
  induction rest generalizing lhs with
  | nil => rfl
  | cons pair rest ih =>
    rw [List.foldl_cons, ih, Exp.erase_graft, Operand.erase_toExp, List.map_cons, List.foldl_cons]

end LuaLowering.Syntax
