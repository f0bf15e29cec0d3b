import LuaLowering.Lower.Exp
/-!
Lowering statements and whole chunks. Assignments and calls are lowered; every other statement is
refused by its name. A chunk becomes the function `main`, with a return at its end, and its module is
checked before it is given out.
-/
namespace LuaLowering
open Lowering Syntax

namespace Frame

/-- Lowers `t1, ..., tn = e1, ..., em`: the cells, the values, one pack of them, `n` values out of it, and `n`
assignments. -/
def lowerAssign (f : Frame) (targets : List Var) (values : List Exp) (loc : Location) : Lowering Unit := do
  let cells ← targets.mapM f.lowerVar
  let items ← f.lowerExps values
  unless items.getLast?.any Lowered.isPack || items.length = cells.length do
    note (.adjusting loc cells.length items.length)
  let packed ← f.pack items loc
  let unpacked ← f.unpack packed cells.length loc
  (cells.zip unpacked).forM fun (cell, value) => emit .assign loc (f.site.assign cell value loc)

def lowerStat (f : Frame) (stat : Stat) : Lowering Unit := do
  note (.lowering stat.kind.construct (f.startLoc stat.range))
  match stat.kind with
  | .assign targets values => f.lowerAssign targets values (f.startLoc stat.range)
  | .call exp => do let _ ← f.lowerPrefixExp exp stat.range
  | kind => throw (.unsupported kind.construct (f.span stat.range))

def lowerBlock (f : Frame) (block : Syntax.Block) : Lowering Unit := do
  block.stats.forM f.lowerStat
  match block.ret with
  | some ret => throw (.unsupported "retstat" (f.span ret.range))
  | none => return ()

end Frame

/-- Lower a chunk into a module of its own. -/
def Lowering.chunk (chunk : Chunk) (source : Source) (c : Catalogue) : Lowering Module := do
  let main ← openFunction c source "main" (source.startLoc chunk.range)
  main.lowerBlock chunk.block
  main.finish (source.endLoc chunk.block.range)
  let m := (← get).module
  match m.verify c with
  | [] =>
    note (.lowered source.file m.ops.size)
    return m
  | errors => throw (.ofVerify errors)

namespace Syntax.Chunk

/-- The module of a chunk, and the log of its lowering. -/
def lowerLogged (chunk : Chunk) (source : Source) (c : Catalogue) : Except LowerError Module × Array Event :=
  match Lowering.chunk chunk source c (.ofModule .empty) with
  | .ok m s => (.ok m, s.log)
  | .error e s => (.error e, s.log)

/-- The module of a chunk. -/
def lower (chunk : Chunk) (source : Source) (c : Catalogue) : Except LowerError Module :=
  (chunk.lowerLogged source c).1

end Syntax.Chunk
end LuaLowering
