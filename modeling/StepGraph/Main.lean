import StepGraph.Terminal

/-!
# The program

A call looks up the files it can need, does its work on them, and writes those
that have changed.
-/

namespace StepGraph

open CommandLine

namespace Files

def pathString (parts : List Text) : String :=
  (String.fromUTF8? ⟨(Path.ofParts parts).toArray⟩).getD "/"

def isThere (path : String) : IO Bool :=
  try
    discard (IO.FS.realPath path)
    return true
  catch _ => return false

def lookUp (tree : FileTree) (parts : List Text) : IO FileTree := do
  let path := pathString parts
  if ← isThere (path ++ "/.") then return tree.set parts .directory
  else if ← isThere path then
    return tree.set parts (.file (← IO.FS.readBinFile path).data.toList)
  else return tree

def lookUpPath (directory : List Text) (tree : FileTree) (path : Text) : IO FileTree := do
  let base := if Path.isAbsolute path then [] else directory.reverse
  let segments := Path.segments path
  let places := (List.range (segments.length + 1)).map fun n =>
    Path.walk true base (segments.take n)
  places.eraseDups.foldlM lookUp tree

def lookUpAll (tree : FileTree) (directory : List Text) (paths : List Text) : IO FileTree :=
  paths.foldlM (lookUpPath directory) tree

def store (before after : FileTree) : IO Unit :=
  after.entries.forM fun (parts, entry) => do
    match entry with
    | .directory => return
    | .file content =>
      if before.entry? parts != some entry then
        IO.FS.writeBinFile (pathString parts) ⟨content.toArray⟩

end Files

def settingsPaths (options : Options) (directory : List Text) : List Text :=
  if options.settings.isEmpty then
    (List.range (directory.length + 1)).map fun n =>
      Path.join (Path.ofParts (directory.take n)) Settings.fileName
  else [Path.join options.settings Settings.fileName]

def sessionName : IO Text := do
  let part := fun (width limit : Nat) => do
    return Text.hexDigits width (← IO.rand 0 (limit - 1))
  let first ← part 8 (Nat.pow 16 8)
  let second ← part 4 (Nat.pow 16 4)
  let third ← part 3 (Nat.pow 16 3)
  let fourth ← part 4 (Nat.pow 16 3 * 4)
  let fifth ← part 12 (Nat.pow 16 12)
  return Text.join [45] [first, second, 52 :: third,
    Text.hexDigit (8 + (Text.hexValue? (fourth.headD 48)).getD 0) :: fourth.drop 1, fifth]

partial def readInput (done : Array UInt8) : IO Text := do
  let bytes ← (← IO.getStdin).read 65536
  if bytes.isEmpty then return done.toList else readInput (done ++ bytes.data)

/-- Work on prepared programs takes as long as it takes. -/
def enough : Nat := Nat.pow 2 62

def writeBytes (bytes : Array UInt8) : IO Unit := do
  let output ← IO.getStdout
  output.write ⟨bytes⟩
  output.flush

def writeErrors (text : Text) : IO Unit := do
  let errors ← IO.getStderr
  errors.write ⟨text.toArray⟩
  errors.flush

/-- The terminal of the call, which has shown `shown` bytes. -/
def terminal (shown : IO.Ref Nat) : Terminal IO where
  display output := do
    writeBytes (output.extract (← shown.get) output.size)
    shown.set output.size
  ask := do return utf8 (← (← IO.getStdin).getLine)

/-- What a session writes to the error stream before its first command. -/
def opening (p : Prepared) : Text :=
  match p.openShell [] with
  | .error _ => []
  | .ok (_, records) => p.shown [p.loadedRecord] ++ p.banner ++ p.shown records

/-- Runs or debugs a prepared program at the terminal.  What has been shown there is left out of the
report. -/
def converse (p : Prepared) (debug : Bool) : IO (Option Report) := do
  let shown ← IO.mkRef 0
  let before := if debug then opening p else []
  writeErrors before
  let report ←
    if debug then p.debugAt (terminal shown) enough else p.runAt (terminal shown) enough
  let written ← shown.get
  return report.map fun r =>
    { r with
      output := r.output.drop written
      errors := if before.isPrefixOf r.errors then r.errors.drop before.length else r.errors }

def work (p : Prepared) (debug : Bool) : IO Report := do
  let report ←
    if ← (← IO.getStdin).isTty then converse p debug
    else do
      let input ← readInput #[]
      pure (if debug then p.debug input enough else p.run input enough)
  return report.getD (.silent misused [] p.surroundings.files)

/-- The surroundings of a call, with the files that it can need. -/
def surroundings (options : Options) (path : Text) : IO Surroundings := do
  let directory := Path.parts (utf8 (← IO.currentDir).toString)
  let terminal := utf8 ((← IO.getEnv "TERM").getD "")
  let plain := (← IO.getEnv "NO_COLOR").isSome || terminal = utf8 "dumb"
  let colored := (← (← IO.getStdout).isTty) && !plain
  let files ← Files.lookUpAll .empty directory
    (Path.ofParts directory :: path :: options.target :: settingsPaths options directory)
  let s : Surroundings := { files, directory, terminal, colored, session := ← sessionName }
  match options.findSettings s with
  | .error _ => return s
  | .ok settings =>
    let files ← Files.lookUpAll files directory [settings.logPath, settings.historyPath]
    return { s with files }

def conclude (before : FileTree) (report : Report) : IO UInt32 := do
  writeBytes report.output.toArray
  writeErrors report.errors
  Files.store before report.files
  return report.status.toUInt32

def callProgram (arguments : List Text) : IO UInt32 := do
  match readArguments .empty arguments with
  | .error report => conclude .empty report
  | .ok (options, path) =>
    let s ← surroundings options path
    match prepare s options path with
    | .error report => conclude s.files report
    | .ok prepared => conclude s.files (← work prepared options.debug)

end StepGraph

def main (arguments : List String) : IO UInt32 :=
  StepGraph.callProgram (arguments.map StepGraph.utf8)
