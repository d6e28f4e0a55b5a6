import Respace.CommandLine.Surroundings
import Std.Time.Format

/-! The program: it looks at its surroundings, runs, and puts the outcome into effect. -/

namespace Respace.Program

open CommandLine Files Logging

/-- What is at a path that can be opened: a file, or a folder if there is nothing to read. -/
def contents (path : String) : IO (Option Node) := do
  try
    return some (.file (← IO.FS.readBinFile path))
  catch _ => return some .folder

/-- What is at a path. What cannot be opened counts as missing. -/
def look (path : String) : IO (Option Node) := do
  try
    discard (IO.FS.Handle.mk path .read)
    contents path
  catch _ => return none

/-- The part of the disk that lies on the way to paths. -/
def survey (paths : List String) : IO Disk :=
  (paths.flatMap Disk.pathsTo).foldlM (fun d p => do
    match ← look p with
    | some n => return d.put (placeOf p) n
    | none => return d) ⟨[]⟩

/-- Writes what has changed on a disk. -/
def writeChanges (before after : Disk) : IO Unit :=
  after.nodes.forM fun (place, node) => do
    let path := "/" ++ "/".intercalate place
    match node, before.node? place with
    | .folder, none => IO.FS.createDirAll path
    | .file content, some (.file old) => if content != old then IO.FS.writeBinFile path content
    | .file content, _ => IO.FS.writeBinFile path content
    | .folder, _ => return ()

def valuesOf (names : List String) : IO (List (String × String)) :=
  names.filterMapM fun name => do return (← IO.getEnv name).map (name, ·)

/-- The home folders of accounts, from their table: a line each, with the name first and the folder sixth. -/
def homesOf (table : String) : List (String × String) :=
  (Text.splitOn '\n' table.toList).filterMap fun line =>
    match Text.splitOn ':' line with
    | name :: _ :: _ :: _ :: _ :: home :: _ => some (String.ofList name, String.ofList home)
    | _ => none

/-- The home folders of all accounts; none if they cannot be told. -/
def homes : IO (List (String × String)) := do
  try
    return homesOf (← IO.FS.readFile "/etc/passwd")
  catch _ => return []

/-- All that can be read from a stream. -/
partial def readAll (s : IO.FS.Stream) (read : ByteArray) : IO ByteArray := do
  let more ← s.read 65536
  if more.isEmpty then return read else readAll s (read ++ more)

def now : IO String := do
  let t := Std.Time.DateTime.ofTimestampWithZone (← Std.Time.Timestamp.now) .UTC
  return t.format "uuuu-MM-dd HH:mm:ss"

/-- Runs the program with the words of a command line, and gives its exit code. -/
def execute (words : List String) : IO Nat := do
  let cwd := (← IO.currentDir).toString
  let env : Environment := ⟨← valuesOf commonNames, none, ← homes⟩
  let h : Host := ⟨.posix, env, cwd, ← survey [Files.settingsPath .posix env cwd], .none⟩
  let env := { env with values := env.values ++ (← valuesOf (h.names words)) }
  let h := { h with env := env }
  let h := { h with disk := ← survey (cwd :: h.paths words) }
  let o ← match plan h words with
    | .finished o => pure o
    | .reads next => do pure (next (.bytes (← readAll (← IO.getStdin) .empty)))
  let w := o.logged cwd (← now)
  IO.eprint w.stderr
  IO.eprint o.stderr
  writeChanges h.disk w.disk
  IO.print o.stdout
  return o.code

end Respace.Program

def main (words : List String) : IO UInt32 := do
  return (← Respace.Program.execute words).toUInt32
