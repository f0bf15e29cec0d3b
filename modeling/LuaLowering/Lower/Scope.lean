import LuaLowering.Module.Value
/-!
The variables of a function. A name gets its cell when it is first used and keeps it.
-/
namespace LuaLowering

/-- Names with their cells, in the order of their declaration. -/
structure Scope where
  cells : List (String × Ref)

namespace Scope

def empty : Scope := ⟨[]⟩

def lookup (s : Scope) (name : String) : Option Ref := s.cells.lookup name

def declare (s : Scope) (name : String) (cell : Ref) : Scope := ⟨s.cells ++ [(name, cell)]⟩

def size (s : Scope) : Nat := s.cells.length

/-- The cell of a name, and the scope after it. A name without a cell gets the one that `alloc`
makes. -/
def resolve {m : Type → Type} [Monad m] (s : Scope) (name : String) (alloc : m Ref) : m (Ref × Scope) :=
  match s.lookup name with
  | some cell => pure (cell, s)
  | none => do
    let cell ← alloc
    pure (cell, s.declare name cell)

end Scope
end LuaLowering
