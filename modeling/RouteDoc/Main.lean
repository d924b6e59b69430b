import RouteDoc.CommandLine
/-! The program: runs the command line on the files of the working directory and leaves what the run
has written. -/
namespace RouteDoc.CommandLine

def depthLimit : Nat := 64

def readNodes : Nat → String → List String → IO (List (List String × FileNode))
  | 0, _, _ => pure []
  | depth + 1, dir, location => do
    let mut nodes := []
    let here ← IO.FS.realPath dir
    for entry in ← here.readDir do
      let path := dir ++ "/" ++ entry.fileName
      let place := location ++ [entry.fileName]
      let inside ← (some <$> readNodes depth path place) <|> pure none
      match inside with
      | some more => nodes := (place, .directory) :: more ++ nodes
      | none =>
        let content ← (some <$> IO.FS.readBinFile path) <|> pure none
        if let some content := content then nodes := (place, .file content.toList) :: nodes
    return nodes

def readTree : IO FileTree := do
  let dir := (← IO.currentDir).toString
  let cwd := (Path.ofText dir).parts
  return ⟨cwd, ← readNodes depthLimit dir cwd⟩

def writeChanges (before after : FileTree) : IO Unit := do
  for (location, node) in after.nodes.reverse do
    if before.node? location != some node then
      let path := "/" ++ "/".intercalate location
      match node with
      | .directory => IO.FS.createDirAll path
      | .file content => IO.FS.writeBinFile path ⟨content.toArray⟩

end RouteDoc.CommandLine

open RouteDoc.CommandLine in
def main (args : List String) : IO UInt32 := do
  let files ← readTree
  let r := run (.ofFiles files) args
  IO.print r.output
  for w in r.warnings do
    IO.eprintln w.message
  writeChanges files r.files
  match r.exit with
  | .misuse => IO.eprint usage
  | .failed e =>
    IO.eprintln ("Error: " ++ (e.message? RouteDoc.Cause.describe).getD "the run broke off")
  | _ => pure ()
  return r.exit.code.toUInt32
