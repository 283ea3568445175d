import StyleTokens.CommandLine

namespace StyleTokens

namespace Main

/-- What stands on the disk at a path. -/
def look (path : Path) : IO (Option Node) := do
  try
    return some (.file (← IO.FS.readBinFile path.text))
  catch
    | .noFileOrDirectory .. => return none
    | .inappropriateType _ code details =>
      if code.toNat = SystemError.isADirectory.number then return some .directory
      else if code.toNat = SystemError.notADirectory.number then return none
      else throw (.inappropriateType none code details)
    | other => throw other

def readPath (t : FileTree) (path : Path) : IO FileTree := do
  match ← look path with
  | some node => return t.put (path.resolve t.working) node
  | none => return t

/-- Reads the names in a directory into a tree. Files are only opened by name, so the names are taken from
standard input, one on a line. -/
def readNames (t : FileTree) (directory : Path) : IO FileTree := do
  let t ← readPath t directory
  let names := (← (← IO.getStdin).readToEnd).splitOn "\n"
  let children := (names.filter (· ≠ "")).map directory.child
  return children.foldl (fun t path => t.put (path.resolve t.working) (.file .empty)) t

def readNeed (t : FileTree) : CommandLine.Need → IO FileTree
  | .files paths => paths.foldlM readPath t
  | .names directory => readNames t directory

def readEnvironment : IO (List (String × String)) :=
  Setting.inEnvironment.filterMapM fun p => do
    return (← IO.getEnv p.2).map fun value => (p.2, value)

/-- Makes a file or a directory on the disk. -/
def make (change : Place × Node) : IO Unit :=
  let path : Path := ⟨.root, change.1⟩
  match change.2 with
  | .directory => IO.FS.createDirAll path.text
  | .file content => IO.FS.writeBinFile path.text content

/-- Says how a run ended, and answers with its number. -/
def report (run : Traced Fault Ending) : IO UInt32 := do
  match run.result with
  | .error fault =>
    IO.eprint (CommandLine.errorOutput false run.log (CommandLine.refused fault.message))
    return 1
  | .ok (.unstarted exit) =>
    (if exit = .shown then IO.print else IO.eprint) (CommandLine.unlines CommandLine.usage)
    return exit.code.toUInt32
  | .ok (.finished debug verdict) =>
    IO.print (CommandLine.output verdict)
    IO.eprint (CommandLine.errorOutput debug run.log verdict)
    return verdict.code.toUInt32

end Main

end StyleTokens

open StyleTokens in
/-- Runs the program on its arguments. What it has to know of the file system is read into a tree, and the files
and directories that the run made in the tree are then made on the disk. -/
def main (arguments : List String) : IO UInt32 := do
  let environment ← Main.readEnvironment
  let working := (Path.ofString (toString (← IO.currentDir))).resolve []
  let before ← Main.readNeed (.bare working) (CommandLine.need environment arguments)
  let (after, run) := CommandLine.run before environment arguments
  (before.changes after).forM Main.make
  Main.report run
