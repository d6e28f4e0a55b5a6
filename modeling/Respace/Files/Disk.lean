import Respace.Files.Path
import Respace.Text.Quoted
import Respace.Text.Utf8

/-! Files and folders, what can be done with them, and what can go wrong. -/

namespace Respace.Files

/-- A place on a disk: the names that lead to it from the root. -/
abbrev Place := List String

/-- What is at a place. -/
inductive Node where
  | file (content : ByteArray)
  | folder

/-- A disk: what is at the places that hold something. The root is a folder. -/
structure Disk where
  nodes : List (Place × Node)

/-- Why the system refuses to work with a path. -/
inductive Cause where
  | notFound | exists | notFolder | isFolder | nameTooLong
  deriving DecidableEq

/-- The number of a cause. -/
def Cause.number : Cause → Nat
  | notFound => 2
  | «exists» => 17
  | notFolder => 20
  | isFolder => 21
  | nameTooLong => 36

def Cause.text : Cause → String
  | notFound => "No such file or directory"
  | «exists» => "File exists"
  | notFolder => "Not a directory"
  | isFolder => "Is a directory"
  | nameTooLong => "File name too long"

/-- Why a path cannot be used: the system refuses it, or it is no path at all. -/
inductive PathError where
  | refused (cause : Cause) (path : String)
  | nullCharacter
  deriving DecidableEq

def PathError.message : PathError → String
  | refused c path => s!"[Errno {c.number}] {c.text}: " ++ quote path
  | nullCharacter => "embedded null byte"

/-- The most bytes that a name may have. -/
def maxNameBytes : Nat := 255

namespace Disk

/-- What is at a place. -/
def node? (d : Disk) (p : Place) : Option Node := if p.isEmpty then some .folder else d.nodes.lookup p

/-- Puts something at a place of a list. -/
def putNode (p : Place) (n : Node) : List (Place × Node) → List (Place × Node)
  | [] => [(p, n)]
  | (q, m) :: rest => if q == p then (p, n) :: rest else (q, m) :: putNode p n rest

/-- Puts something at a place. -/
def put (d : Disk) (p : Place) (n : Node) : Disk := ⟨putNode p n d.nodes⟩

/-- Takes away what is at a place. -/
def remove (d : Disk) (p : Place) : Disk := ⟨d.nodes.filter (·.1 != p)⟩

/-- One step of a walk: to the folder above, to where it stands, or to a name below. Steps are made in
    folders only. -/
def walkStep (d : Disk) (p : Place) (name : String) : Except Cause Place :=
  match d.node? p with
  | none => .error .notFound
  | some (.file _) => .error .notFolder
  | some .folder =>
    if name == "" || name == "." then .ok p
    else if name == ".." then .ok p.dropLast
    else if maxNameBytes < Text.byteSize name.toList then .error .nameTooLong
    else .ok (p ++ [name])

/-- The place that a path leads to from a folder. Nothing need be there. -/
def walk (d : Disk) (cwd : Place) (path : String) : Except Cause Place :=
  if path.isEmpty then .error .notFound
  else
    let names := (Text.splitOn '/' path.toList).map String.ofList
    names.foldlM d.walkStep (if isAbsolute path.toList then [] else cwd)

/-- What a path leads to. -/
def find (d : Disk) (cwd : Place) (path : String) : Except Cause (Place × Node) := do
  let p ← d.walk cwd path
  match d.node? p with
  | some n => return (p, n)
  | none => throw .notFound

/-- Refuses a text that holds a null character. -/
def checkPath (path : String) : Except PathError Unit :=
  if path.toList.contains '\x00' then .error .nullCharacter else .ok ()

/-- Whether a path leads to something. -/
def holds (d : Disk) (cwd : Place) (path : String) : Bool :=
  !path.toList.contains '\x00' && (d.find cwd path).isOk

/-- Whether a path leads to a file. -/
def holdsFile (d : Disk) (cwd : Place) (path : String) : Bool :=
  !path.toList.contains '\x00' && match d.find cwd path with
    | .ok (_, .file _) => true
    | _ => false

/-- The content of a file. -/
def read (d : Disk) (cwd : Place) (path : String) : Except PathError ByteArray := do
  checkPath path
  match d.find cwd path with
  | .ok (_, .file content) => return content
  | .ok (_, .folder) => throw (.refused .isFolder path)
  | .error c => throw (.refused c path)

/-- The place where a file of the given path can be written. A path that ends in a slash is that of a
    folder. -/
def placeToWrite (d : Disk) (cwd : Place) (path : String) : Except Cause Place :=
  if path.isEmpty then .error .notFound
  else do
    let head := (path.toList.reverse.dropWhile (· == '/')).reverse
    let folder := (head.reverse.dropWhile (· != '/')).reverse
    let start := if isAbsolute path.toList then [] else cwd
    let p ← ((Text.splitOn '/' folder).map String.ofList).foldlM d.walkStep start
    if head.length < path.length then throw .isFolder
    let p ← d.walkStep p (String.ofList (head.drop folder.length))
    match d.node? p with
    | some .folder => throw .isFolder
    | _ => return p

/-- Writes a file; what it held before is gone. -/
def write (d : Disk) (cwd : Place) (path : String) (content : ByteArray) : Except PathError Disk := do
  checkPath path
  match d.placeToWrite cwd path with
  | .ok p => return d.put p (.file content)
  | .error c => throw (.refused c path)

/-- Makes one folder, unless it is there. -/
def makeFolder (d : Disk) (path : String) : Except PathError Disk := do
  checkPath path
  match d.walk [] path with
  | .error c => throw (.refused c path)
  | .ok p => match d.node? p with
    | some .folder => return d
    | some (.file _) => throw (.refused .exists path)
    | none => return d.put p .folder

/-- The paths of the folders that lead to a simplified path, and that path. -/
def pathsTo (path : String) : List String :=
  let cs := path.toList
  let root := rootOf cs
  let names := (Text.splitOn '/' (cs.drop root.length)).filter (!·.isEmpty)
  (List.range names.length).map fun i =>
    String.ofList (root ++ Text.joinWith '/' (names.take (i + 1)))

/-- Makes folders one after the other, and stops at the first that cannot be made. Before the last, what
    is there is passed over, even a file. -/
def makeEach (d : Disk) : List String → Except PathError Unit × Disk
  | [] => (.ok (), d)
  | p :: rest =>
    if !rest.isEmpty && d.holds [] p then makeEach d rest
    else match d.makeFolder p with
      | .ok d => makeEach d rest
      | .error e => (.error e, d)

/-- Makes the folder of a full and simplified path, with all folders above it. A path below a file is
    refused as what lies right below that file, a path of a file as what exists. -/
def makeFolders (d : Disk) (path : String) : Except PathError Unit × Disk := d.makeEach (pathsTo path)

/-- Makes the folder that a path of a file lies in. -/
def makeFolderOf (d : Disk) (cwd path : String) : Except PathError Unit × Disk :=
  d.makeFolders (String.ofList (folderOf (absolute cwd.toList path.toList)))

end Disk

/-- The place of a full path without steps up. -/
def placeOf (path : String) : Place :=
  ((Text.splitOn '/' path.toList).filter (!·.isEmpty)).map String.ofList

/-- Why a text is not read: the file is not, or its bytes are no text. -/
inductive ReadError where
  | path (cause : PathError)
  | bytes (cause : Text.DecodeError)

def ReadError.message : ReadError → String
  | path e => e.message
  | bytes e => e.message

/-- The text of a file, with its line breaks as they are. -/
def readText (d : Disk) (cwd path : String) : Except ReadError String := do
  let content ← (d.read (placeOf cwd) path).mapError .path
  (Text.decode content).mapError .bytes

/-- Writes a text to a file, whose folder is made if it is missing. -/
def writeText (d : Disk) (cwd path text : String) : Except PathError Unit × Disk :=
  match d.makeFolderOf cwd path with
  | (.error e, d) => (.error e, d)
  | (.ok (), d) => match d.write (placeOf cwd) path (Text.encode text) with
    | .ok d => (.ok (), d)
    | .error e => (.error e, d)

end Respace.Files
