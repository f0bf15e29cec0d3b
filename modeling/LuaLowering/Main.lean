import LuaLowering.CommandLine.Run
/-!
The command on the files, arguments and streams of the system.
-/
namespace LuaLowering.CommandLine

/-- The kind of a system error. Its code may come with either sign. -/
def FileError.ofSystem : IO.Error → FileError
  | .noFileOrDirectory .. => .notFound
  | .inappropriateType _ code _ => if code = 20 || code = -20 then .notDirectory else .isDirectory
  | .illegalOperation .. => .isDirectory
  | e@(.invalidArgument _ code _) => if code = 36 || code = -36 then .nameTooLong else .other (toString e)
  | e => .other (toString e)

def systemFiles : Files IO where
  read path := do
    try return .ok (← IO.FS.readBinFile path)
    catch e => return .error (.ofSystem e)
  write path text := do
    try
      IO.FS.writeBinFile path text.toUTF8
      return .ok ()
    catch e => return .error (.ofSystem e)

end LuaLowering.CommandLine

def main (arguments : List String) : IO UInt32 := do
  let logSpec ← IO.getEnv "RUST_LOG"
  let outcome ← LuaLowering.CommandLine.run LuaLowering.CommandLine.systemFiles arguments logSpec
  (← IO.getStderr).putStr outcome.stderr
  (← IO.getStdout).putStr outcome.stdout
  return outcome.status.toUInt32
