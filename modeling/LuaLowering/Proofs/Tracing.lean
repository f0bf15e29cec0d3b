import LuaLowering.Proofs.Segmentation
/-!
# The pieces that the grammar reads

Where a token ends depends on what the grammar expects: `return1` is one token in `return1 = 2` and two in
`do return1 end`. So the pieces of a script are those that its reading goes through. `trace` matches as the grammar does
and keeps the text of each literal and of each token rule, and the gaps between them. An attempt that fails leaves
nothing behind. Without the pieces, a trace is what the grammar gives (`parse_eq_trace`).
-/
namespace LuaLowering.Syntax
open Peg Lexeme

/-- Trees, the pieces that they were read from, and where the reading stopped. -/
abbrev Trace := List (ParseTree Rule) × List Piece × Cursor

/-- The trees and the place alone. -/
def Trace.outcome (t : Trace) : List (ParseTree Rule) × Cursor := (t.1, t.2.2)

/-- The first line of a script may be none of its tokens. -/
def Rule.pieceKind : Rule → PieceKind
  | .shebang => .shebang
  | _ => .token

/-- Further rounds of a repetition, with the gaps before each. -/
def traceRounds (step : Cursor → Option Trace) : Nat → Cursor → Trace
  | 0, c => ([], [], c)
  | n + 1, c =>
    match step (grammar.skip c) with
    | none => ([], [], c)
    | some (ts, ps, d) =>
      let (us, qs, d) := traceRounds step n d
      (ts ++ us, gaps c ++ ps ++ qs, d)

/-- Match a pattern, given how rules match. -/
def tracePattern (call : Rule → Cursor → Option Trace) : Pattern Rule → Cursor → Option Trace
  | .lit text, c => (c.read (.literal text)).map fun (_, d) => ([], pieceAt .token c.offset text, d)
  | .rule r, c => call r c
  | .seq p q, c =>
    match tracePattern call p c with
    | none => none
    | some (ts, ps, d) =>
      (tracePattern call q (grammar.skip d)).map fun (us, qs, d') => (ts ++ us, ps ++ gaps d ++ qs, d')
  | .alt p q, c =>
    match tracePattern call p c with
    | none => tracePattern call q c
    | found => found
  | .opt p, c =>
    match tracePattern call p c with
    | none => some ([], [], c)
    | found => found
  | .star p, c =>
    match tracePattern call p c with
    | none => some ([], [], c)
    | some (ts, ps, d) =>
      let (us, qs, d) := traceRounds (tracePattern call p) (d.rest.length + 1) d
      some (ts ++ us, ps ++ qs, d)

/-- Match a rule, with at most `depth` rules inside one another. -/
def trace : (depth : Nat) → Rule → Cursor → Option Trace
  | 0, _, _ => none
  | depth + 1, r, c =>
    match grammar.body r with
    | .token scan =>
      (c.read scan).map fun (text, d) => ([.token r c.offset text], pieceAt r.pieceKind c.offset text, d)
    | .phrase p =>
      (tracePattern (trace depth) p c).map fun (ts, ps, d) =>
        ([.phrase r ⟨c.offset, ParseTree.lastToken c.offset ts, d.offset⟩ ts], ps, d)

/-- The pieces that the grammar reads a script as. -/
def piecesOf (script : List Char) : Option (List Piece) :=
  (trace (depthBound script) .chunk ⟨0, script⟩).map fun (_, ps, _) => ps

/-! ## Traces and outcomes -/

theorem rounds_eq_trace {step : Cursor → Outcome Rule} {traced : Cursor → Option Trace}
    (same : ∀ c, step c = (traced c).map Trace.outcome) (n : Nat) (c : Cursor) :
    grammar.rounds step n c = (traceRounds traced n c).outcome := by
  induction n generalizing c with
  | zero => rfl
  | succ n ih =>
    rw [Peg.Grammar.rounds, traceRounds, same]
    cases traced (grammar.skip c) with
    | none => rfl
    | some found =>
      obtain ⟨ts, ps, d⟩ := found
      simp only [Option.map_some, Trace.outcome, ih]

theorem run_eq_trace {call : Rule → Cursor → Outcome Rule} {traced : Rule → Cursor → Option Trace}
    (same : ∀ r c, call r c = (traced r c).map Trace.outcome) (p : Pattern Rule) (c : Cursor) :
    p.run grammar call c = (tracePattern traced p c).map Trace.outcome := by
  induction p generalizing c with
  | lit text =>
    rw [Pattern.run, tracePattern, Option.map_map]
    rfl
  | rule r => exact same r c
  | seq p q first second =>
    rw [Pattern.run, tracePattern, first]
    cases tracePattern traced p c with
    | none => rfl
    | some found =>
      obtain ⟨ts, ps, d⟩ := found
      simp only [Option.map_some, Trace.outcome, second, Option.map_map]
      rfl
  | alt p q first second =>
    rw [Pattern.run, tracePattern, first]
    cases tracePattern traced p c with
    | none => exact second c
    | some found => rfl
  | opt p ih =>
    rw [Pattern.run, tracePattern, ih]
    cases tracePattern traced p c with
    | none => rfl
    | some found => rfl
  | star p ih =>
    rw [Pattern.run, tracePattern, ih]
    cases tracePattern traced p c with
    | none => rfl
    | some found =>
      obtain ⟨ts, ps, d⟩ := found
      simp only [Option.map_some, Trace.outcome, rounds_eq_trace ih]

/-- The grammar reads what the trace says, and as far. -/
theorem parse_eq_trace (depth : Nat) (r : Rule) (c : Cursor) :
    grammar.parse depth r c = (trace depth r c).map Trace.outcome := by
  induction depth generalizing r c with
  | zero => rfl
  | succ depth ih =>
    rw [Peg.Grammar.parse, trace]
    cases grammar.body r with
    | token scan =>
      rw [Option.map_map]
      rfl
    | phrase p =>
      simp only [run_eq_trace ih, Option.map_map]
      rfl

/-! ## What matched -/

theorem tracePattern_seq_eq_some {call : Rule → Cursor → Option Trace} {p q : Pattern Rule} {c d : Cursor}
    {ts : List (ParseTree Rule)} {ps : List Piece} (found : tracePattern call (.seq p q) c = some (ts, ps, d)) :
    ∃ us qs middle vs rs, tracePattern call p c = some (us, qs, middle) ∧
      tracePattern call q (grammar.skip middle) = some (vs, rs, d) ∧ ts = us ++ vs ∧ ps = qs ++ gaps middle ++ rs := by
  rw [tracePattern] at found
  cases front : tracePattern call p c with
  | none =>
    rw [front] at found
    cases found
  | some first =>
    obtain ⟨us, qs, middle⟩ := first
    rw [front] at found
    obtain ⟨⟨vs, rs, final⟩, back, made⟩ := Option.map_eq_some_iff.mp found
    cases made
    exact ⟨us, qs, middle, vs, rs, rfl, back, rfl, rfl⟩

theorem trace_token_eq_some {r : Rule} {scan : Scanner} (body : grammar.body r = .token scan) {depth : Nat}
    {c d : Cursor} {ts : List (ParseTree Rule)} {ps : List Piece} (found : trace depth r c = some (ts, ps, d)) :
    ∃ text rest, scan c.rest = some (text, rest) ∧ ts = [.token r c.offset text] ∧
      ps = pieceAt r.pieceKind c.offset text ∧ d = ⟨c.offset + Text.byteSize text, rest⟩ := by
  cases depth with
  | zero => cases found
  | succ depth =>
    rw [trace, body] at found
    obtain ⟨⟨text, after⟩, read, made⟩ := Option.map_eq_some_iff.mp found
    obtain ⟨⟨text', rest⟩, scanned, same⟩ := Option.map_eq_some_iff.mp read
    cases same
    cases made
    exact ⟨text, rest, scanned, rfl, rfl, rfl⟩

end LuaLowering.Syntax
