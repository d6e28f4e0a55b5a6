import Respace.Messages.Template
import Respace.Json.Printer
import Respace.Json.Reader
import Respace.Text.Split
import Respace.Text.Utf8

/-! Messages by key, in the language of a locale. A key is a path of names with points between them. A
    locale that cannot be loaded leaves no messages, and every key then stands for its default. -/

namespace Respace.Messages

/-- The messages of a locale. `loaded` tells whether the last load succeeded; the locale is that of the
    last one that did, or the first asked for. -/
structure Catalog where
  locale : String
  messages : List (String × Json)
  loaded : Bool

/-- The documents of messages, by locale. -/
abbrev Resources := String → Option ByteArray

/-- The document of messages that bytes hold. -/
def readMessages? (content : ByteArray) : Option (List (String × Json)) :=
  match Text.decode content with
  | .error _ => none
  | .ok text => match Json.read? text with
    | some (.object fields) => some fields
    | _ => none

namespace Catalog

/-- The catalog after another locale is asked for. -/
def load (resources : Resources) (c : Catalog) (locale : String) : Catalog :=
  match (resources locale).bind readMessages? with
  | some messages => ⟨locale, messages, true⟩
  | none => ⟨c.locale, [], false⟩

def ofLocale (resources : Resources) (locale : String) : Catalog :=
  load resources ⟨locale, [], false⟩ locale

/-- What a path of names leads to. -/
def descend (v : Json) : List String → Option Json
  | [] => some v
  | name :: rest => (v.field? name).bind (descend · rest)

/-- The message of a key, before it is filled in. An empty message counts as none. -/
def message? (c : Catalog) (key : String) : Option String :=
  match descend (.object c.messages) ((Text.splitOn '.' key.toList).map String.ofList) with
  | some (.text s) => if s.isEmpty then none else some s
  | _ => none

/-- The message of a key with its fields filled in; without a message, its default or the key itself. -/
def text {Ω : Type} (M : Members Ω) (c : Catalog) (key default : String) (args : Values) :
    Except Failure String :=
  interpolate M args ((c.message? key).getD (if default.isEmpty then key else default))

/-- The message of a key filled in, which never fails on fields that only name what fills them in. -/
def say (c : Catalog) (key : String) (args : Values) : String :=
  match c.text .classes key "" args with
  | .ok s => s
  | .error _ => key

end Catalog

/-- A group of messages. -/
def group (messages : List (String × String)) : Json :=
  .object (messages.map fun (name, s) => (name, .text s))

/-- What the command line options do. -/
def argumentMessages : List (String × String) :=
  [("input", "Source file to format. Reads standard input when omitted."),
   ("output", "Destination file. Writes to standard output when omitted."),
   ("mode", "Rendering mode: beautify (indented, one statement per line) or minify."),
   ("minify", "Shortcut for --mode minify."),
   ("indent", "Spaces per brace level when beautifying (0-8)."),
   ("stats", "Print size, line and token statistics to stderr."),
   ("json", "Print the full result as JSON instead of the formatted text."),
   ("model", "Model whose tokenizer is used for token statistics."),
   ("defaults", "Ignore the saved configuration and use built-in defaults."),
   ("save", "Persist the effective settings as the new defaults."),
   ("dump", "Print the effective configuration as JSON and exit."),
   ("debug", "Elevate logging verbosity to DEBUG.")]

/-- What can go wrong with files. -/
def errorMessages : List (String × String) :=
  [("path_not_exist", "Input file does not exist: \x7bpath\x7d"),
   ("read_fail", "Could not read \x7bpath\x7d: \x7berror\x7d"),
   ("write_fail", "Could not write \x7bpath\x7d: \x7berror\x7d"),
   ("format_fail", "Formatting failed: \x7berror\x7d")]

/-- How a run went. -/
def statusMessages : List (String × String) :=
  [("fallback", "Could not \x7bmode\x7d the input safely; the output is the unchanged input."),
   ("written", "Formatted output written to \x7bpath\x7d"),
   ("interrupted", "Operation interrupted by user."),
   ("saved", "Configuration saved.")]

/-- The lines of the statistics. -/
def statisticsMessages : List (String × String) :=
  [("title", "Statistics"),
   ("input_size", "Input size: \x7bvalue\x7d bytes"),
   ("output_size", "Output size: \x7bvalue\x7d bytes"),
   ("input_lines", "Input lines: \x7bvalue\x7d"),
   ("output_lines", "Output lines: \x7bvalue\x7d"),
   ("compression", "Compression: \x7bvalue\x7d%"),
   ("tokens", "Estimated tokens: \x7bbefore\x7d -> \x7bafter\x7d")]

/-- What the program is for. -/
def description : String :=
  "Beautify or minify script source text while keeping strings, pattern literals and comments intact."

/-- The messages in English. -/
def english : List (String × Json) :=
  [("app", group [("description", description)]),
   ("cli", .object [("args", group argumentMessages), ("errors", group errorMessages),
     ("status", group statusMessages), ("stats", group statisticsMessages)])]

/-- The documents that come with the program: English only. -/
def ownResources : Resources := fun locale =>
  if locale == "en" then some (Text.encode (Json.object english).print) else none

/-- The catalog that the program speaks from. -/
def Catalog.own : Catalog := ⟨"en", english, true⟩

end Respace.Messages
