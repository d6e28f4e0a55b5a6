import Respace.CommandLine.Switch
import Respace.Settings.Field
import Respace.Text.Integer

/-! Reading a command line. All words are told apart first: options, which may be shortened as long as
    one option remains, and other words. Then options take their values, which are attached to them or
    follow them. Of an option given twice the last value counts. Two dashes attached to an option give it
    an empty list of values. -/

namespace Respace.CommandLine

open Format

/-- What an option is given: one value, or an empty list of values. -/
inductive Given (α : Type) where
  | one (value : α)
  | nothing

/-- What is given as a value of a document. -/
def Given.toJson {α : Type} (f : α → Json) : Given α → Json
  | one a => f a
  | nothing => .list []

/-- What a command line asks for. -/
structure Arguments where
  inputPath : Option (Given String)
  outputPath : Option (Given String)
  mode : Option (Given Mode)
  minify : Bool
  indentSize : Option (Given Int)
  stats : Bool
  json : Bool
  targetModel : Option (Given String)
  useDefaults : Bool
  saveConfig : Bool
  dumpConfig : Bool
  debug : Bool

def Arguments.empty : Arguments :=
  ⟨none, none, none, false, none, false, false, none, false, false, false, false⟩

/-- A word of a command line: an option, by a long or a short name, and the text attached to it, a word
    that looks like an option, another word. -/
inductive Word where
  | option (switch : Switch) (long : Bool) (attached : Option (List Char))
  | unknown (text : String)
  | plain (text : String)
  | separator

/-- Splits a text at its first equals sign. -/
def splitEquals (cs : List Char) : List Char × Option (List Char) :=
  let name := cs.takeWhile (· != '=')
  (name, if name.length < cs.length then some (cs.drop (name.length + 1)) else none)

/-- Whether a text is a negative number: digits, or digits around a point. A line feed may end it. -/
def isNegativeNumber (cs : List Char) : Bool :=
  let cs := if cs.getLast? == some '\n' then cs.dropLast else cs
  match cs with
  | '-' :: cs =>
    let rest := cs.dropWhile Text.isDecimal
    match rest with
    | [] => !cs.isEmpty
    | '.' :: ds => !ds.isEmpty && ds.all Text.isDecimal
    | _ => false
  | _ => false

/-- The options that a word of at least two characters may be short for, and what is attached. -/
def candidates (cs : List Char) : List (String × Switch × Option (List Char)) :=
  match cs with
  | '-' :: '-' :: _ =>
    let (name, value) := splitEquals cs
    (Switch.table.filter fun e => name.isPrefixOf e.1.toList).map fun (n, s) =>
      (n, s, value)
  | _ =>
    (Switch.table.filter fun e => e.1.toList == cs.take 2).map fun (n, s) =>
      (n, s, some (cs.drop 2))

/-- Tells what a word is. The name of an option is long if it starts with two dashes. -/
def readWord (word : String) : Except ArgumentError Word :=
  let cs := word.toList
  let long := "--".toList.isPrefixOf cs
  if cs.head? != some '-' then .ok (.plain word)
  else match Switch.ofName? word with
    | some s => .ok (.option s long none)
    | none =>
      if cs.length == 1 then .ok (.plain word)
      else
        let (name, value) := splitEquals cs
        match value, Switch.ofName? (String.ofList name) with
        | some v, some s => .ok (.option s long (some v))
        | _, _ => match candidates cs with
          | [(_, s, attached)] => .ok (.option s long attached)
          | [] =>
            if isNegativeNumber cs || cs.contains ' ' then .ok (.plain word) else .ok (.unknown word)
          | many => .error (.ambiguous word (many.map (·.1)))

/-- Tells what all words are. After two dashes there are no options. -/
def readWords : List String → Except ArgumentError (List Word)
  | [] => .ok []
  | w :: rest =>
    if w == "--" then .ok (.separator :: rest.map .plain)
    else do return (← readWord w) :: (← readWords rest)

/-- Options taken from one word: those that are complete, and one that waits for a value. -/
structure Taken where
  complete : List (Switch × String)
  waiting : Option Switch

/-- The options in a word of letters. Behind the letter of an option without a value there may be further
    letters of options, and nothing else. -/
def takeLetters (s : Switch) (attached : List Char) : Except ArgumentError Taken :=
  let text := String.ofList attached
  if s.takesValue then .ok ⟨[(s, text)], none⟩
  else match attached with
    | [] => .error (.ignoredValue s text)
    | c :: more => match Switch.ofName? (String.ofList ['-', c]), more with
      | none, _ => .error (.ignoredValue s text)
      | some next, [] =>
        .ok (if next.takesValue then ⟨[(s, "")], some next⟩ else ⟨[(s, ""), (next, "")], none⟩)
      | some next, d :: ds => do
        let t ← takeLetters next (d :: ds)
        return { t with complete := (s, "") :: t.complete }

/-- The options in one word. What is attached to a long name is a value, never letters of options. -/
def take (s : Switch) (long : Bool) : Option (List Char) → Except ArgumentError Taken
  | some attached =>
    if long && !s.takesValue then .error (.ignoredValue s (String.ofList attached))
    else takeLetters s attached
  | none => .ok (if s.takesValue then ⟨[], some s⟩ else ⟨[(s, "")], none⟩)

/-- What a command line comes to: a run, or help. -/
inductive Request where
  | help
  | run (arguments : Arguments)

/-- The mode that a value names, letter by letter. -/
def readMode (s : Switch) (value : String) : Except ArgumentError Mode :=
  (Mode.all.find? (·.name == value)).elim (.error (.invalidChoice s value)) .ok

/-- The whole number that a value spells. -/
def readCount (s : Switch) (value : String) : Except ArgumentError Int :=
  (Text.readInteger value.toList).mapError fun _ => .invalidInteger s value

/-- What a text gives to an option. -/
def given {α : Type} (read : String → Except ArgumentError α) (value : String) :
    Except ArgumentError (Given α) :=
  if value == "--" then .ok .nothing else (read value).map .one

/-- Arguments with one more option. -/
def Arguments.set (a : Arguments) (s : Switch) (value : String) : Except ArgumentError Request := do
  match s with
  | .help => return .help
  | .input => return .run { a with inputPath := some (← given .ok value) }
  | .output => return .run { a with outputPath := some (← given .ok value) }
  | .mode => return .run { a with mode := some (← given (readMode s) value) }
  | .minify => return .run { a with minify := true }
  | .indent => return .run { a with indentSize := some (← given (readCount s) value) }
  | .stats => return .run { a with stats := true }
  | .json => return .run { a with json := true }
  | .model => return .run { a with targetModel := some (← given .ok value) }
  | .useDefaults => return .run { a with useDefaults := true }
  | .saveConfig => return .run { a with saveConfig := true }
  | .dumpConfig => return .run { a with dumpConfig := true }
  | .debug => return .run { a with debug := true }

/-- Goes on with the arguments that a reading gives; help ends it. -/
def goOn (reading : Except ArgumentError Request) (next : Arguments → Except ArgumentError Request) :
    Except ArgumentError Request := do
  match ← reading with
  | .help => return .help
  | .run a => next a

/-- Arguments with more options. Help ends the list. -/
def Arguments.setAll (a : Arguments) : List (Switch × String) → Except ArgumentError Request
  | [] => .ok (.run a)
  | (s, v) :: rest => goOn (a.set s v) fun a => a.setAll rest

/-- What words come to, after those that gave the arguments and those left over. Words that are left over
    are an error, once it is clear that no help is asked for. -/
def gather (a : Arguments) (left : List String) : List Word → Except ArgumentError Request
  | [] => if left.isEmpty then .ok (.run a) else .error (.unrecognized left)
  | .plain w :: rest => gather a (left ++ [w]) rest
  | .unknown w :: rest => gather a (left ++ [w]) rest
  | .separator :: rest => gather a (left ++ ["--"]) rest
  | .option s long attached :: rest =>
    match take s long attached with
    | .error e => .error e
    | .ok ⟨complete, none⟩ => goOn (a.setAll complete) fun a => gather a left rest
    | .ok ⟨complete, some w⟩ => match rest with
      | .plain v :: rest => goOn (a.setAll (complete ++ [(w, v)])) fun a => gather a left rest
      | _ => .error (.missingValue w)

def readArguments (words : List String) : Except ArgumentError Request := do
  gather .empty [] (← readWords words)

/-- What an option is given as a value of a document; null without the option. -/
def givenJson {α : Type} (f : α → Json) (v : Option (Given α)) : Json := v.elim .null (·.toJson f)

def Arguments.chosenMode (a : Arguments) : Option (Given Mode) :=
  if a.minify then some (.one .minify) else a.mode

/-- The values of settings that a command line asks for; null where it does not. -/
def Arguments.overrides (a : Arguments) : List (String × Json) :=
  [(Field.inputPath.key, givenJson .text a.inputPath),
    (Field.outputPath.key, givenJson .text a.outputPath),
    (Field.mode.key, givenJson (fun m => .text m.name) a.chosenMode),
    (Field.indentSize.key, givenJson .integer a.indentSize),
    (Field.targetModel.key, givenJson .text a.targetModel)] ++
    if a.stats then [(Field.showStatistics.key, .bool true)] else []

end Respace.CommandLine
