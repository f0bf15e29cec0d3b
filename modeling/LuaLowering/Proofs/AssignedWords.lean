import LuaLowering.Proofs.Cells
import LuaLowering.Proofs.LabelInvariance
import LuaLowering.Proofs.NumeralLiterals
/-!
# Words as targets

Every word that is not reserved is a name, however it begins: the script `w = 1` is read as one assignment to `w`, and
its module has one cell, which is the cell of `w`. For a reserved word this script is no script
(`Source.compile_assigned`).
-/
namespace LuaLowering

theorem Module.vars_unplaced (m : Module) (n : Nat) : m.unplaced.vars n = m.vars n := by
  simp [vars, unplaced, ← List.map_take, List.filter_map, Function.comp_def, Operation.attribute?]

/-- Locations have no part in the variables of a module. -/
theorem Module.vars_eq_of_unplaced {m m' : Module} (same : m.unplaced = m'.unplaced) :
    m.vars m.ops.size = m'.vars m'.ops.size := by
  have size : m.ops.size = m'.ops.size := by simpa [unplaced] using congrArg (·.ops.size) same
  rw [size, ← m.vars_unplaced, same, m'.vars_unplaced]

/-- The operations that place cells are those that the variables are read from. -/
theorem Module.filter_of_vars {m : Module} {attr : Option Attribute} (one : m.vars m.ops.size = [attr]) :
    ∃ op, m.ops.toList.filter (·.kind = .getOrAlloc) = [op] ∧ op.attribute? "var" = attr := by
  rw [vars, List.take_of_length_le (by simp)] at one
  exact List.map_eq_singleton_iff.mp one

namespace Syntax
open Lexeme

/-- The reserved words of Lua 5.3. -/
def keywords : List String :=
  ["and", "break", "do", "else", "elseif", "end", "false", "for", "function", "goto", "if", "in", "local", "nil", "not",
    "or", "repeat", "return", "then", "true", "until", "while"]

theorem isReserved_iff {w : String} : isReserved w.toList = true ↔ w ∈ keywords := by
  have listed : keywords = reservedWords := rfl
  simp [isReserved, listed, String.toList_inj]

/-- Behind a reserved word an equals sign begins nothing, whichever statement the word has opened. -/
theorem matchChunk_of_keyword {w : String} (reserved : w ∈ keywords) : matchChunk (w ++ " = 1").toList = none := by
  have each : (keywords.all fun w => (matchChunk (w ++ " = 1").toList).isNone) = true := by
    decide +kernel
  exact Option.isNone_iff_eq_none.mp (List.all_eq_true.mp each w reserved)

theorem isLiteral_one : IsLiteral "1" (.number ⟨.int, "1"⟩) := by
  have digits : Mantissa Char.isDigit false ['1'] := .whole (by simp) (List.all_eq_true.mp rfl)
  exact isLiteral_numeral (.decimal digits .none)

namespace Chunk

theorem parse_of_keyword {w : String} (reserved : w ∈ keywords) (file : String) :
    ∃ e, Chunk.parse ⟨file, w ++ " = 1"⟩ = .error e := by
  rw [parse, matchChunk_of_keyword reserved]
  exact ⟨_, rfl⟩

theorem parse_of_identifier {w : String} (identifier : isIdentifier w = true) (file : String) :
    ∃ chunk, Chunk.parse ⟨file, w ++ " = 1"⟩ = .ok chunk ∧ chunk.erase = assigning w (.number ⟨.int, "1"⟩) := by
  obtain ⟨chunk, parsed, same⟩ := parse_literal isLiteral_one identifier file
  have text : w ++ " = " ++ "1" = w ++ " = 1" := by
    rw [String.append_assoc]
    rfl
  rw [text] at parsed
  exact ⟨chunk, parsed, by simpa [assigning, Chunk.relabel] using same⟩

/-- A chunk that is lowered without its ranges is lowered with them, to the same module but for locations. -/
theorem lower_of_erase {chunk : Chunk} {source : Source} {c : Catalogue} {m : Module}
    (lowered : chunk.erase.lower source c = .ok m) :
    ∃ m', chunk.lower source c = .ok m' ∧ m'.unplaced = m.unplaced := by
  have agree := sameButPlaces_of_relabelOutcome (chunk.relabelOutcome_lower_erase source source c)
  rw [lowered] at agree
  cases outcome : chunk.lower source c with
  | error e =>
    rw [outcome] at agree
    cases agree
  | ok m' =>
    rw [outcome] at agree
    cases agree with
    | modules equal => exact ⟨m', rfl, equal.symm⟩

/-- A chunk that is an assignment of `1` but for ranges is lowered, and its only variable is the target. -/
theorem lower_of_assigning {chunk : Chunk} {w : String} (same : chunk.erase = assigning w (.number ⟨.int, "1"⟩))
    (source : Source) : ∃ m, chunk.lower source .full = .ok m ∧ m.vars m.ops.size = [some (.str w)] := by
  have fine : chunk.erase.problem? source = none := by
    rw [same]
    rfl
  obtain ⟨m, lowered⟩ := lower_of_problem?_eq_none fine
  obtain ⟨m', lowered', unplaced⟩ := lower_of_erase lowered
  refine ⟨m', lowered', ?_⟩
  rw [Module.vars_eq_of_unplaced unplaced, (laidOut_of_lower lowered).vars_eq, same]
  rfl

end Chunk
end Syntax

open Syntax Lexeme

/-- A script that assigns `1` to a word is read iff the word is not reserved. It is then one assignment to the word as a
name, and the only cell in its module is placed for this name. -/
theorem Source.compile_assigned {w : String} {c : Char} {s : List Char} (letters : w.toList = c :: s)
    (starts : c.isAlpha = true ∨ c = '_') (inside : ∀ d ∈ s, d.isAlphanum = true ∨ d = '_') (file : String) :
    ((∃ chunk, Chunk.parse ⟨file, w ++ " = 1"⟩ = .ok chunk) ↔ w ∉ keywords) ∧
      ∀ chunk, Chunk.parse ⟨file, w ++ " = 1"⟩ = .ok chunk →
        chunk.erase = Chunk.assigning w (.number ⟨.int, "1"⟩) ∧
        ∃ m op, Source.compile ⟨file, w ++ " = 1"⟩ = .ok m ∧
          m.ops.toList.filter (·.kind = .getOrAlloc) = [op] ∧ op.attribute? "var" = some (.str w) := by
  by_cases reserved : w ∈ keywords
  · obtain ⟨e, failed⟩ := Chunk.parse_of_keyword reserved file
    simp [failed, reserved]
  · have free : isReserved (c :: s) = false := by
      rw [← letters, Bool.eq_false_iff, ne_eq, isReserved_iff]
      exact reserved
    have identifier : isIdentifier w = true :=
      isIdentifier_iff.mpr ⟨c, s, letters, by simpa [isWordStart] using starts,
        fun d member => by simpa [isWordChar] using inside d member, free⟩
    obtain ⟨chunk, read, same⟩ := Chunk.parse_of_identifier identifier file
    refine ⟨⟨fun _ => reserved, fun _ => ⟨chunk, read⟩⟩, fun chunk' read' => ?_⟩
    obtain rfl : chunk = chunk' := Except.ok.inj (read.symm.trans read')
    obtain ⟨m, lowered, vars⟩ := Chunk.lower_of_assigning same ⟨file, w ++ " = 1"⟩
    obtain ⟨op, placed, attr⟩ := Module.filter_of_vars vars
    have compiled : Source.compile ⟨file, w ++ " = 1"⟩ = .ok m := by
      rw [compile_of_parse_ok read, lowered]
      rfl
    exact ⟨same, m, op, compiled, placed, attr⟩

/-- A name that begins with a reserved word, and that word. -/
theorem Source.compile_assigned_gotox :
    (∃ chunk, Chunk.parse ⟨"main.lua", "gotox" ++ " = 1"⟩ = .ok chunk ∧
      chunk.erase = Chunk.assigning "gotox" (.number ⟨.int, "1"⟩) ∧
      ∃ m op, Source.compile ⟨"main.lua", "gotox" ++ " = 1"⟩ = .ok m ∧
        m.ops.toList.filter (·.kind = .getOrAlloc) = [op] ∧ op.attribute? "var" = some (.str "gotox")) ∧
    ¬ ∃ chunk, Chunk.parse ⟨"main.lua", "goto" ++ " = 1"⟩ = .ok chunk := by
  have longer := compile_assigned (w := "gotox") (c := 'g') (s := ['o', 't', 'o', 'x']) rfl (.inl rfl) (by simp)
    "main.lua"
  have word := compile_assigned (w := "goto") (c := 'g') (s := ['o', 't', 'o']) rfl (.inl rfl) (by simp) "main.lua"
  obtain ⟨chunk, read⟩ := longer.1.mpr (by decide)
  refine ⟨⟨chunk, read, longer.2 chunk read⟩, fun found => word.1.mp found (by decide)⟩

end LuaLowering
