import DisposalAudit.Command.Arguments
import DisposalAudit.Files.Pattern
import DisposalAudit.Yaml.Reader
import Std.Time.DateTime

/-!
# The program

Looks up what a command needs to see, runs it, and carries out what it
decides: prints its lines, writes its file, and ends with its exit code.
-/

namespace DisposalAudit.Program

/-- The paths of all files below a directory, if it is one. -/
def filesBelow (directory : String) : IO (List String) := do
  try
    let root := (← IO.currentDir) / directory
    let mut found := []
    for path in ← root.walkDir do
      if !(← path.isDir) then
        found := path.toString :: found
    return found
  catch _ => return []

/-- The texts of those among some files that are there. -/
def readFiles (paths : List String) : IO FileTree := do
  let mut files := []
  for path in paths do
    try
      files := (path, Text.imported (← IO.FS.readFile path)) :: files
    catch _ => pure ()
  return files

/-- The files that a request reads. -/
def requestFiles (directory : String) : Request → IO (List String)
  | .check request => do
    let mut paths := [settingsPath (Path.resolve directory (request.project.getD directory))]
    for pattern in request.dumps do
      for root in FilePattern.roots directory pattern do
        paths := (← filesBelow root).filter (FilePattern.accepts directory pattern) ++ paths
    return paths.eraseDups
  | .init project => return [settingsPath (Path.resolve directory (project.getD directory))]
  | _ => return []

/-- The time as it is written in audit records. -/
def timestamp : IO String := do
  let now ← Std.Time.Timestamp.now
  return timestampText now.toMillisecondsSinceUnixEpoch.val.toNat

/-- Writes a file, and the directories that it needs. -/
def writeFile (path text : String) : IO Unit := do
  IO.FS.createDirAll (Path.ofNames (Path.names path).dropLast)
  IO.FS.writeFile path text

end DisposalAudit.Program

open DisposalAudit in
/-- Runs the command line. -/
def main (arguments : List String) : IO UInt32 := do
  let directory := (← IO.currentDir).toString
  let request := (Request.ofArguments (arguments.map Text.imported)).mapError UsageError.message
  let files ← match request with
    | .ok request => Program.readFiles (← Program.requestFiles directory request)
    | .error _ => pure []
  let env : Environment :=
    { directory := directory
      files := files
      search := FilePattern.found files directory
      readers := Yaml.readers "no document"
      timestamp := ← Program.timestamp
      colour := demandsColour (← IO.getEnv "FORCE_COLOR") }
  let outcome := env.run request
  for line in outcome.lines do
    let text := Text.exported line.text
    if line.stream = .output then IO.println text else IO.eprintln text
  if let some (path, text) := outcome.written then
    Program.writeFile path (Text.exported text)
  return if outcome.failed then 1 else 0
