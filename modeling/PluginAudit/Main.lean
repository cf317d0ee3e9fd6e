import PluginAudit.CommandLine.Execute
import PluginAudit.FileTree.Changes
import Std.Time.DateTime.Timestamp

/-!
The command line tool: reads the files that a command line is about, runs the tool on them, and
writes back what has changed.
-/

open PluginAudit

/-- What is at an absolute path on the disk. The objects of a repository are left out. -/
partial def diskNode (path : String) : IO (Option Node) := do
  let top ← IO.currentDir
  let place := top / path
  if ← place.isDir then
    if path.endsWith "/.git/objects" then return some .emptyDir
    let mut entries : List (String × Node) := []
    for entry in ← place.readDir do
      if let some n ← diskNode (Path.join [path, entry.fileName]) then
        entries := Table.insert entry.fileName n entries
    return some (.dir entries)
  else if ← place.pathExists then
    return some (.file (← IO.FS.readBinFile place).toList .plain)
  else return none

def addFromDisk (tree : Node) (path : String) : IO Node := do
  match ← diskNode path with
  | some n => return FileTree.replace tree path n
  | none => return tree

/-- The paths that the words of a command line may name, as seen from a directory. -/
def pathsIn (here : String) (words : List String) : List String :=
  let values := words.flatMap fun w => [w, String.ofList ((w.toList.dropWhile (· != '=')).drop 1)]
  (values.filter (· != "")).map (Path.absolute here)

/-- The files that a command line is about: those below the working directory, those it names, and
the repositories around them. -/
def readFiles (here : String) (words : List String) : IO Node := do
  let named := (pathsIn here words).filter (!Settings.isUnder here ·)
  let repositories := (here :: named).flatMap fun path =>
    (Revision.upwards path).map fun dir => Path.join [dir, ".git"]
  (repositories.eraseDups ++ named ++ [here]).foldlM addFromDisk .emptyDir

def writeFiles (files : List (String × Bytes)) : IO Unit := do
  let top ← IO.currentDir
  for (path, content) in files do
    IO.FS.createDirAll (top / Path.dir path)
    IO.FS.writeBinFile (top / path) ⟨content.toArray⟩

def freshId : IO String := do
  let bytes ← (List.range 16).mapM fun _ => IO.rand 0 255
  let marked := (bytes.set 6 (bytes.getD 6 0 % 16 + 64)).set 8 (bytes.getD 8 0 % 64 + 128)
  let digits := Digest.hex (marked.map UInt8.ofNat)
  let part (start size : Nat) := String.ofList ((digits.toList.drop start).take size)
  return "-".intercalate [part 0 8, part 8 4, part 12 4, part 16 4, part 20 12]

def readMeans (here : String) : IO Scan.Means := do
  let nanoseconds := (← Std.Time.Timestamp.now).toNanosecondsSinceUnixEpoch.val
  return { here, runId := ← freshId
           now := ⟨nanoseconds / 1000000000, (nanoseconds % 1000000000).toNat, 0⟩ }

def isColorful : IO Bool := do
  if (← IO.getEnv "NO_COLOR").isSome then return false
  (← IO.getStdout).isTty

partial def keepWatching (here : String) (words : List String) (r : CommandLine.Request)
    (old : Node) : IO Unit := do
  IO.sleep (r.scan.debounce / 1000000).toNat.toUInt32
  let tree ← readFiles here words
  if FileTree.sameFiles old tree then keepWatching here words r old
  else
    let (w, result) := CommandLine.scan (← readMeans here) ⟨tree, {}⟩ r
    IO.print (CommandLine.endLine result.text)
    writeFiles (FileTree.written tree w.tree)
    keepWatching here words r w.tree

def main (words : List String) : IO UInt32 := do
  let here := (← IO.currentDir).toString
  let tree ← readFiles here words
  let (w, output) := CommandLine.run (← readMeans here) ⟨tree, {}⟩ (← isColorful) words
  IO.print output.out
  IO.eprint output.err
  writeFiles (FileTree.written tree w.tree)
  match CommandLine.parse words with
  | .ok i =>
    if i.request.task = .watch ∧ output.status = 0 then
      let again :=
        { i.request.scan with saveBaseline := "", color := i.color.resolve (← isColorful) }
      keepWatching here words { i.request with scan := again } w.tree
  | .error _ => pure ()
  return output.status.toUInt32
