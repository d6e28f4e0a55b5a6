import Respace.CommandLine.Switch
import Respace.Messages.Catalog

/-! The help text: how the program is called, what it is for, and its options in groups. Lines are filled
    word by word, and the descriptions of options stand in a column of their own. -/

namespace Respace.CommandLine

open Messages

def programName : String := "scriptfmt"

def lineWidth : Nat := 78

/-- The column where descriptions start. -/
def helpColumn : Nat := 24

def spaces (n : Nat) : String := String.ofList (List.replicate n ' ')

/-- Fills lines of a width with parts, one space between two of them. -/
def fillLines (width : Nat) (line : String) : List String → List String
  | [] => if line.isEmpty then [] else [line]
  | part :: rest =>
    if line.isEmpty then fillLines width part rest
    else if line.length + 1 + part.length ≤ width then fillLines width (line ++ " " ++ part) rest
    else line :: fillLines width part rest

/-- Fills lines of a width with the words of a text. -/
def wrap (width : Nat) (s : String) : List String := fillLines width "" (s.splitOn " ")

/-- A name of an option with what stands for its value. -/
def withPlaceholder (s : Switch) (name : String) : String :=
  name ++ s.placeholder?.elim "" (" " ++ ·)

/-- How the program is called. -/
def usage : String :=
  let head := "usage: " ++ programName ++ " "
  let parts := Switch.all.map fun s => "[" ++ withPlaceholder s (s.names.headD "") ++ "]"
  let lines := fillLines (lineWidth - head.length) "" parts
  head ++ ("\n" ++ spaces head.length).intercalate lines ++ "\n"

/-- What an option does. -/
def describe (s : Switch) : String :=
  let say (name : String) := Catalog.own.say ("cli.args." ++ name) []
  match s with
  | .help => "show this help message and exit"
  | .input => say "input"
  | .output => say "output"
  | .mode => say "mode"
  | .minify => say "minify"
  | .indent => say "indent"
  | .stats => say "stats"
  | .json => say "json"
  | .model => say "model"
  | .useDefaults => say "defaults"
  | .saveConfig => say "save"
  | .dumpConfig => say "dump"
  | .debug => say "debug"

/-- The lines on an option. Its description starts beside its names if these leave room. -/
def optionLines (s : Switch) : List String :=
  let head := "  " ++ ", ".intercalate (s.names.map (withPlaceholder s))
  let lines := wrap (lineWidth - helpColumn) (describe s)
  if head.length + 2 ≤ helpColumn then
    match lines with
    | [] => [head]
    | first :: rest =>
      (head ++ spaces (helpColumn - head.length) ++ first) :: rest.map (spaces helpColumn ++ ·)
  else head :: lines.map (spaces helpColumn ++ ·)

/-- The groups of options. -/
def groups : List (String × List Switch) :=
  [("options", [.help]), ("input / output", [.input, .output]),
    ("rendering", [.mode, .minify, .indent]), ("reporting", [.stats, .json, .model]),
    ("configuration", [.useDefaults, .saveConfig, .dumpConfig, .debug])]

/-- A group of options under its title. -/
def groupText (title : String) (switches : List Switch) : String :=
  "\n" ++ title ++ ":\n" ++ String.join ((switches.flatMap optionLines).map (· ++ "\n"))

/-- The help text. -/
def help : String :=
  usage ++ "\n" ++ String.join ((wrap lineWidth (Catalog.own.say "app.description" [])).map (· ++ "\n")) ++
    String.join (groups.map fun (title, switches) => groupText title switches)

end Respace.CommandLine
