import Respace.Files.Disk
import Respace.Logging.Pattern

/-! Where entries of the log go: to standard error, or to a file that is set aside when it gets too long.
    Files that were set aside are numbered, the latest first, and the oldest is dropped. -/

namespace Respace.Logging

open Files

/-- A file of the log: its path, the length that it stays below, and how many are set aside. -/
structure LogFile where
  path : String
  maxBytes : Int
  backups : Int

/-- Where entries go. -/
inductive Target where
  | console
  | file (f : LogFile)

/-- A target, the least severe level that it takes, and the pattern of its lines. -/
structure Sink where
  target : Target
  level : Level
  pattern : String

/-- What the log has written: texts on standard error, and files. -/
structure Written where
  stderr : String
  disk : Disk

/-- Moves a file to another place, if it is there. -/
def moveFile (d : Disk) (source destination : Place) : Disk :=
  match d.node? source with
  | some (.file content) => (d.remove source).put destination (.file content)
  | _ => d

namespace LogFile

/-- The place of the file with the given number among those set aside. -/
def backup (f : LogFile) (n : Nat) : Place := placeOf (f.path ++ "." ++ toString n)

/-- Sets the file aside, and starts a new one. Without files to set aside it goes on. -/
def roll (f : LogFile) (d : Disk) : Disk :=
  if f.backups ≤ 0 then d
  else
    let n := f.backups.toNat
    let d := (List.range (n - 1)).foldl
      (fun d i => moveFile d (f.backup (n - 1 - i)) (f.backup (n - i))) d
    (moveFile d (placeOf f.path) (f.backup 1)).put (placeOf f.path) (.file .empty)

/-- The bytes of the file. -/
def content (f : LogFile) (d : Disk) : ByteArray :=
  match d.node? (placeOf f.path) with
  | some (.file content) => content
  | _ => .empty

/-- Adds a line. The file is set aside first if its bytes and the characters of the line would reach its
    length. -/
def append (f : LogFile) (d : Disk) (line : String) : Disk :=
  let d :=
    if 0 < f.maxBytes ∧ f.maxBytes ≤ (f.content d).size + line.length then f.roll d else d
  d.put (placeOf f.path) (.file (f.content d ++ Text.encode line))

/-- Opens the file, which is empty if it was not there. -/
def touch (f : LogFile) (d : Disk) : Except PathError Disk := do
  Disk.checkPath f.path
  match d.placeToWrite [] f.path with
  | .error c => throw (.refused c f.path)
  | .ok p => match d.node? p with
    | some _ => return d
    | none => return d.put p (.file .empty)

end LogFile

/-- Sends an entry to a sink. An entry that its pattern cannot show is lost. -/
def Sink.send (s : Sink) (e : Entry) (w : Written) : Written :=
  if e.record.level.rank < s.level.rank then w
  else match writeEntry? s.pattern e with
    | none => w
    | some line => match s.target with
      | .console => { w with stderr := w.stderr ++ line ++ "\n" }
      | .file f => { w with disk := f.append w.disk (line ++ "\n") }

end Respace.Logging
