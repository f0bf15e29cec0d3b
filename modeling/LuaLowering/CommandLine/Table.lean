import LuaLowering.Module.Basic
/-!
Tables of two columns, ruled with lines, and the table of the operations of a module.
-/
namespace LuaLowering.CommandLine

/-- A row of two cells. -/
abbrev Row := String × String

structure Widths where
  left : Nat
  right : Nat

def Widths.ofRows (rows : List Row) : Widths :=
  ⟨(rows.map (·.1.length)).foldl max 0, (rows.map (·.2.length)).foldl max 0⟩

def fill (n : Nat) (c : Char) : String := String.ofList (List.replicate n c)

def Widths.line (w : Widths) (left rule middle right : Char) : String :=
  left.toString ++ fill (w.left + 2) rule ++ middle.toString ++ fill (w.right + 2) rule ++ right.toString

def Widths.row (w : Widths) (row : Row) : String :=
  "│ " ++ row.1 ++ fill (w.left - row.1.length) ' ' ++ " ┆ " ++ row.2 ++ fill (w.right - row.2.length) ' ' ++ " │"

/-- A table with a header. -/
def renderTable (header : Row) (rows : List Row) : String :=
  let w := Widths.ofRows (header :: rows)
  "\n".intercalate (
    [w.line '┌' '─' '┬' '┐', w.row header, w.line '╞' '═' '╪' '╡']
    ++ (rows.map w.row).intersperse (w.line '├' '╌' '┼' '┤')
    ++ [w.line '└' '─' '┴' '┘'])

/-- How many operations of each kind a module has, and how many in all. -/
def statsTable (m : Module) : String :=
  let kinds := m.ops.toList.map (·.kind)
  let counts := OpKind.all.filterMap fun kind =>
    if kind ∈ kinds then some (kind.mnemonic, toString (kinds.count kind)) else none
  renderTable ("operation", "count") (counts ++ [("total", toString m.ops.size)])

end LuaLowering.CommandLine
