import LuaLowering.CommandLine.Run
/-!
Files in memory, and the paths that lead to them. The command runs in a working directory, in which the
files stand; around it is a system of which little more is known than its root.

A path is a list of names, read from left to right: every name but the last has to lead into a
directory, `.` stays where it is, and `..` goes up.
-/
namespace LuaLowering.CommandLine

inductive Entry where
  | file (content : ByteArray)
  | directory

/-- What stands where, with places as names from the root. The directories on the way to an entry exist
with it. -/
structure Directory where
  entries : List (List String × Entry)

/-- The names in a path. -/
def pathNames (path : String) : List String := (path.splitOn "/").filter (! ·.isEmpty)

/-- The most bytes of a name. -/
def maxNameSize : Nat := 255

/-- The most bytes of a path. -/
def maxPathSize : Nat := 4095

namespace Directory

/-- The working directory. No path can spell its last name. -/
def working : List String := ["tmp", ""]

/-- What is known of the system around the working directory. -/
def system : List (List String × Entry) :=
  (["bin", "boot", "dev", "etc", "home", "lib", "media", "mnt", "opt", "proc", "root", "run", "sbin", "srv",
      "sys", "tmp", "usr", "var"].map fun name => ([name], Entry.directory))
    ++ [(["dev", "null"], .file ByteArray.empty), (working, .directory)]

/-- A working directory with the given paths. -/
def ofPaths (entries : List (String × Entry)) : Directory :=
  ⟨(entries.map fun (path, entry) => (working ++ pathNames path, entry)) ++ system⟩

def isDirectory (d : Directory) (place : List String) : Bool :=
  place.isEmpty || d.entries.any fun
    | (path, .directory) => place.isPrefixOf path
    | (path, .file _) => place.isPrefixOf path && place != path

/-- What has a name in a directory. -/
def entry (d : Directory) (place : List String) (name : String) : Except FileError Entry :=
  if name.utf8ByteSize > maxNameSize then .error .nameTooLong
  else if d.isDirectory (place ++ [name]) then .ok .directory
  else match d.entries.lookup (place ++ [name]) with
    | some entry => .ok entry
    | none => .error .notFound

/-- The directory that a name leads to from another. The root is above itself. -/
def enter (d : Directory) (place : List String) (name : String) : Except FileError (List String) :=
  if name = "." then .ok place
  else if name = ".." then .ok place.dropLast
  else match d.entry place name with
    | .ok .directory => .ok (place ++ [name])
    | .ok (.file _) => .error .notDirectory
    | .error e => .error e

/-- The directory that a path ends in, and its last name; no name if the path is that of the directory. -/
def resolve (d : Directory) (path : String) : Except FileError (List String × Option String) :=
  let start := if path.startsWith "/" then [] else working
  if path.isEmpty then .error .notFound
  else if path.utf8ByteSize > maxPathSize then .error .nameTooLong
  else match (pathNames path).getLast? with
    | none => .ok (start, none)
    | some name => do
      let place ← (pathNames path).dropLast.foldlM d.enter start
      if name = "." || name = ".." then return (← d.enter place name, none)
      else return (place, some name)

def read (d : Directory) (path : String) : Except FileError ByteArray := do
  match ← d.resolve path with
  | (_, none) => throw .isDirectory
  | (place, some name) =>
    match ← d.entry place name with
    | .directory => throw .isDirectory
    | .file content => if path.endsWith "/" then throw .notDirectory else return content

/-- Write a file, which may be new, in a directory that exists. -/
def write (d : Directory) (path : String) (text : String) : Except FileError Directory := do
  match ← d.resolve path with
  | (_, none) => throw .isDirectory
  | (place, some name) =>
    if path.endsWith "/" then throw .isDirectory
    let file := place ++ [name]
    match d.entry place name with
    | .ok .directory => throw .isDirectory
    | .ok (.file _) | .error .notFound =>
      return ⟨(file, .file text.toUTF8) :: d.entries.filter (·.1 != file)⟩
    | .error e => throw e

/-- Reading and writing in a directory that changes on the way. -/
def files : Files (StateM Directory) where
  read path := do return (← get).read path
  write path text := do
    match (← get).write path text with
    | .ok d =>
      set d
      return .ok ()
    | .error e => return .error e

/-- Run the command in a directory. -/
def run (d : Directory) (arguments : List String) (logSpec : Option String) : Outcome × Directory :=
  (CommandLine.run files arguments logSpec).run d

end Directory
end LuaLowering.CommandLine
