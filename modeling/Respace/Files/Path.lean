import Respace.Text.Split

/-! Paths as texts: joining, splitting and simplifying them, and filling in the home folder and the
    values of the environment. Two slashes at the start are kept apart from one or from many. -/

namespace Respace.Files

/-- What a program finds around it: values by their names, the home folder of the account that it runs in,
    if there is one, and those of all accounts by their names. -/
structure Environment where
  values : List (String × String)
  home : Option String
  homes : List (String × String)

/-- Whether a path starts at the root. -/
def isAbsolute (p : List Char) : Bool := p.head? == some '/'

/-- A path inside another; an absolute path stays as it is. -/
def join (base p : List Char) : List Char :=
  if isAbsolute p then p
  else if base.isEmpty || base.getLast? == some '/' then base ++ p
  else base ++ '/' :: p

/-- A text without the slashes it ends in. -/
def dropEndSlashes (p : List Char) : List Char := (p.reverse.dropWhile (· == '/')).reverse

/-- The path of the folder that a path lies in. -/
def folderOf (p : List Char) : List Char :=
  let head := (p.reverse.dropWhile (· != '/')).reverse
  if head.all (· == '/') then head else dropEndSlashes head

/-- The slashes that a simplified path starts with. -/
def rootOf : List Char → List Char
  | '/' :: '/' :: '/' :: _ => ['/']
  | '/' :: '/' :: _ => ['/', '/']
  | '/' :: _ => ['/']
  | _ => []

/-- One part added to the parts of a simplified path, latest first: a step up takes the last part away,
    unless there is none to take. -/
def addPart (absolute : Bool) (parts : List (List Char)) (part : List Char) : List (List Char) :=
  if part == [] || part == ['.'] then parts
  else if part == ['.', '.'] then
    match parts with
    | [] => if absolute then [] else [part]
    | p :: rest => if p == ['.', '.'] then part :: parts else rest
  else part :: parts

/-- A path without empty parts, and without steps that lead nowhere or back. -/
def simplify (p : List Char) : List Char :=
  let parts := ((Text.splitOn '/' p).foldl (addPart (isAbsolute p)) []).reverse
  let s := rootOf p ++ Text.joinWith '/' parts
  if s.isEmpty then ['.'] else s

/-- A path as seen from a folder, from the root on. -/
def absolute (cwd p : List Char) : List Char :=
  simplify (if isAbsolute p then p else join cwd p)

/-- The home folder of an account, without a name that of the one who runs the program. -/
def Environment.homeOf (env : Environment) (name : List Char) : Option String :=
  if name.isEmpty then env.values.lookup "HOME" <|> env.home
  else env.homes.lookup (String.ofList name)

/-- A path whose first part, a tilde, is the home folder of an account. -/
def expandHome (env : Environment) (p : List Char) : List Char :=
  match p with
  | '~' :: rest => match env.homeOf (rest.takeWhile (· != '/')) with
    | none => p
    | some h =>
      let s := dropEndSlashes h.toList ++ rest.dropWhile (· != '/')
      if s.isEmpty then ['/'] else s
  | _ => p

/-- Characters of the name of a value. -/
def isNameChar (c : Char) : Bool := c.isAlphanum || c == '_'

/-- The name of a value after a dollar sign, and the characters that it takes. -/
def valueName? : List Char → Option (List Char × Nat)
  | '\x7b' :: cs =>
    let name := cs.takeWhile (· != '\x7d')
    if name.length < cs.length then some (name, name.length + 2) else none
  | cs =>
    let name := cs.takeWhile isNameChar
    if name.isEmpty then none else some (name, name.length)

/-- The names of values in a text. -/
def valueNames : List Char → List String
  | [] => []
  | c :: cs =>
    let rest := valueNames cs
    if c == '$' then (valueName? cs).elim rest fun (name, _) => String.ofList name :: rest else rest

/-- A text with the names of values after dollar signs replaced, where there is a value. A value that is
    filled in is not looked at again. The characters of a name are passed over one by one. -/
def expandAfter (env : Environment) (skip : Nat) : List Char → List Char
  | [] => []
  | c :: cs =>
    if 0 < skip then expandAfter env (skip - 1) cs
    else if c == '$' then
      match valueName? cs with
      | none => c :: expandAfter env 0 cs
      | some (name, length) => match env.values.lookup (String.ofList name) with
        | none => c :: (cs.take length ++ expandAfter env length cs)
        | some value => value.toList ++ expandAfter env length cs
    else c :: expandAfter env 0 cs

/-- A text with the values of the environment filled in. -/
def expandValues (env : Environment) (p : List Char) : List Char := expandAfter env 0 p

/-- The full path that a text stands for, or the one its fallback stands for when it is blank; the empty
    path when both are. -/
def resolvePath (env : Environment) (cwd p fallback : String) : String :=
  let first := Text.trim p.toList
  let p := if first.isEmpty then Text.trim fallback.toList else first
  if p.isEmpty then ""
  else String.ofList (absolute cwd.toList (expandValues env (expandHome env p)))

/-- The families of systems, which keep a program's data in different places. -/
inductive System where
  | posix | windows
  deriving DecidableEq

/-- The folder of the program's data, before it is made absolute. -/
def dataFolder (system : System) (env : Environment) : List Char :=
  let given (name : String) := (env.values.lookup name).filter (!·.isEmpty)
  let base := if system = .windows then given "LOCALAPPDATA" <|> given "APPDATA" else none
  match base with
  | some b => join b.toList "scriptfmt".toList
  | none => join (expandHome env ['~']) ".scriptfmt".toList

/-- The folder of the program's data. -/
def dataPath (system : System) (env : Environment) (cwd : String) : String :=
  String.ofList (absolute cwd.toList (dataFolder system env))

def settingsPath (system : System) (env : Environment) (cwd : String) : String :=
  String.ofList (join (dataPath system env cwd).toList "config.json".toList)

def logPath (system : System) (env : Environment) (cwd name : String) : String :=
  String.ofList (join (join (dataPath system env cwd).toList "logs".toList) name.toList)

end Respace.Files
