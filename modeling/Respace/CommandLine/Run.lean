import Respace.CommandLine.Arguments
import Respace.CommandLine.Help
import Respace.Settings.Store
import Respace.Settings.Validation

/-! A run of the program: the settings are put together from the saved ones and the command line, a
    script is read and formatted, and the result is written. A run is a function of its surroundings; what
    it prints, logs and leaves on the disk is its outcome. -/

namespace Respace.CommandLine

open Format Files Logging Messages

/-- A library of encoders: what it loads from a disk, the same from the same disk, and the disk that is left
    once statistics are made with it. What it cannot load, and what an encoder cannot count, is an error of its
    own and never the end of a run. -/
structure Library where
  load : Disk → Loader
  leave : Disk → Disk

/-- No encoders, and nothing to load them from. -/
def Library.none : Library := ⟨fun _ => noEncoders, id⟩

/-- Where a program runs: the system, the environment, the folder it is in, the disk, and the encoders. -/
structure Host where
  system : System
  env : Environment
  cwd : String
  disk : Disk
  library : Library

/-- What standard input gives: bytes, or an interruption by the user. -/
inductive Input where
  | bytes (content : ByteArray)
  | interrupted

/-- How the log is to be kept: from which level on, and in which file besides standard error. -/
structure LogRequest where
  level : Level
  file : Option String
  deriving DecidableEq

/-- What a run comes to. -/
structure Outcome where
  code : Nat
  stdout : String
  stderr : String
  records : List Record
  logging : List LogRequest
  disk : Disk

/-- A run is over, or it waits for standard input. -/
inductive Plan where
  | finished (outcome : Outcome)
  | reads (next : Input → Outcome)

/-- What a plan comes to once standard input is given. -/
def Plan.outcome (p : Plan) (input : Input) : Outcome :=
  match p with
  | finished o => o
  | reads next => next input

/-- A run in progress: what it has said so far, and the disk as it is now. -/
structure Progress where
  stderr : String
  records : List Record
  logging : List LogRequest
  disk : Disk

namespace Progress

def start (disk : Disk) : Progress := ⟨"", [], [], disk⟩

/-- Prints a line on standard error. -/
def say (p : Progress) (line : String) : Progress := { p with stderr := p.stderr ++ line ++ "\n" }

def sayAll (p : Progress) (lines : List String) : Progress := lines.foldl say p

/-- Notes a record. -/
def log (p : Progress) (r : Record) : Progress := { p with records := p.records ++ [r] }

def logAll (p : Progress) (rs : List Record) : Progress := { p with records := p.records ++ rs }

/-- Logs and prints an error. -/
def fail (p : Progress) (text : String) : Progress := (p.log ⟨.error, text⟩).say ("ERROR: " ++ text)

/-- The run ends with an exit code and an output. -/
def finish (p : Progress) (code : Nat) (stdout : String) : Outcome :=
  ⟨code, stdout, p.stderr, p.records, p.logging, p.disk⟩

/-- The run breaks off at an error that nothing handles. Of its trace only the first and the last line are
    kept: the places in between are those of the source. -/
def abort (p : Progress) (text : String) : Outcome :=
  let trace := "Traceback (most recent call last):\nValueError: " ++ text ++ "\n"
  let rule := String.ofList (List.replicate 80 '=')
  let p := p.log ⟨.critical, "FATAL EXCEPTION DETECTED: " ++ text ++ "\n" ++ trace⟩
  (p.sayAll ["\n" ++ rule, "CRITICAL ERROR (SCRIPTFMT)", rule, trace]).finish 1 ""

end Progress

/-- A message with named texts filled in. -/
def message (key : String) (texts : List (String × String)) : String :=
  Catalog.own.say key (texts.map fun (name, s) => (name, .text s))

namespace Host

def dataPath (h : Host) : String := Files.dataPath h.system h.env h.cwd

def settingsPath (h : Host) : String := Files.settingsPath h.system h.env h.cwd

def logPath (h : Host) : String := Files.logPath h.system h.env h.cwd "scriptfmt.log"

/-- The full path that a setting stands for. -/
def resolve (h : Host) (path : String) : String := resolvePath h.env h.cwd path ""

/-- A disk with the folder of the program's data, if that can be made. -/
def withDataFolder (h : Host) (d : Disk) : Disk := (d.makeFolders h.dataPath).2

end Host

/-- Asks for a log: with everything and in a file too when debugging. -/
def startLog (h : Host) (debug : Bool) (p : Progress) : Progress :=
  if debug then
    { p with logging := p.logging ++ [⟨.debug, some h.logPath⟩], disk := h.withDataFolder p.disk }
  else { p with logging := p.logging ++ [⟨.warning, none⟩] }

/-- The saved settings, unless only the defaults are asked for. -/
def baseSettings (h : Host) (useDefaults : Bool) (p : Progress) : RawSettings × Progress :=
  if useDefaults then (.default, p)
  else
    let disk := h.withDataFolder p.disk
    let (raw, records) := loadSettings disk h.cwd h.settingsPath
    (raw, { p with disk := disk }.logAll records)

/-- The settings of a run, or why they are of no use. There is room to show what was read from a document, as
    it takes more of the stack to read it. -/
def effectiveSettings (raw : RawSettings) (a : Arguments) :
    Except Refusal (Settings × List Finding) :=
  validate .endless false (.object (mergeFields raw.toFields a.overrides))

/-- Saves settings for later runs. -/
def keepSettings (h : Host) (s : Settings) (p : Progress) : Except PathError Progress :=
  let disk := h.withDataFolder p.disk
  match saveSettings disk h.cwd h.settingsPath (RawSettings.default.withFields s.toFields) with
  | (.error e, _) => .error e
  | (.ok records, disk) =>
    let p := { p with disk := disk }.logAll records
    .ok (if records.isEmpty then p.say (message "cli.status.saved" []) else p)

/-- Why there is no script to format. -/
inductive SourceError where
  | interrupted
  | missing
  | unread (cause : ReadError)

/-- The script on standard input, with its line breaks unified. -/
def inputSource : Input → Except SourceError String
  | .interrupted => .error .interrupted
  | .bytes content => match Text.decode content with
    | .ok s => .ok (String.ofList (Text.unifyLineBreaks s.toList))
    | .error e => .error (.unread (.bytes e))

/-- The script in a file, with its line breaks as they are. -/
def fileSource (h : Host) (disk : Disk) (path : String) : Except SourceError String :=
  if !disk.holdsFile (placeOf h.cwd) path then .error .missing
  else (readText disk h.cwd path).mapError .unread

/-- The end of a run without a script. -/
def stopWithoutSource (path : String) (p : Progress) : SourceError → Outcome
  | .interrupted => (p.say (message "cli.status.interrupted" [])).finish 130 ""
  | .missing => (p.fail (message "cli.errors.path_not_exist" [("path", path)])).finish 2 ""
  | .unread e =>
    let name := if path.isEmpty then "<stdin>" else path
    (p.fail (message "cli.errors.read_fail" [("path", name), ("error", e.message)])).finish 1 ""

/-- Statistics as a document. -/
def statisticsJson (s : Statistics) : Json :=
  .object [("input_bytes", .integer s.inputBytes), ("output_bytes", .integer s.outputBytes),
    ("input_lines", .integer s.inputLines), ("output_lines", .integer s.outputLines),
    ("compression_ratio", s.ratio.elim .null .number), ("input_tokens", .integer s.inputTokens),
    ("output_tokens", .integer s.outputTokens)]

/-- A result as a document. -/
def resultJson (r : Result) : Json :=
  .object [("ok", .bool r.ok), ("mode", .text r.mode.name), ("output", .text r.output),
    ("changed", .bool r.changed), ("fallback", .bool r.fallback), ("error", .text r.error),
    ("stats", r.statistics.elim .null statisticsJson)]

/-- Statistics as lines of text. -/
def statisticsLines (s : Statistics) : List String :=
  let line (name : String) (args : Values) := "  " ++ Catalog.own.say ("cli.stats." ++ name) args
  let count (name : String) (n : Nat) := line name [("value", .integer n)]
  ["\n" ++ Catalog.own.say "cli.stats.title" [], count "input_size" s.inputBytes,
    count "output_size" s.outputBytes, count "input_lines" s.inputLines,
    count "output_lines" s.outputLines] ++
    s.ratio.toList.map (fun x => line "compression" [("value", .number x)]) ++
    [line "tokens" [("before", .integer s.inputTokens), ("after", .integer s.outputTokens)]]

/-- Writes what a run puts out: to a file, or to standard output, where it ends in a line feed. -/
def writeOutput (h : Host) (path payload : String) (p : Progress) :
    Except Outcome (String × Progress) :=
  if path.isEmpty then
    .ok (if payload.isEmpty || payload.endsWith "\n" then payload else payload ++ "\n", p)
  else match writeText p.disk h.cwd path payload with
    | (.ok (), disk) =>
      .ok ("", { p with disk := disk }.log ⟨.info, message "cli.status.written" [("path", path)]⟩)
    | (.error .nullCharacter, disk) =>
      .error ({ p with disk := disk }.abort (PathError.message .nullCharacter))
    | (.error e, disk) =>
      let text := message "cli.errors.write_fail" [("path", path), ("error", e.message)]
      .error (({ p with disk := disk }.fail text).finish 1 "")

/-- Formats a script and writes the result. The encoders are asked for statistics only. -/
def formatAndWrite (h : Host) (s : Settings) (json : Bool) (source : String) (p : Progress) : Outcome :=
  let (r, records) := formatSource (h.library.load p.disk)
    ⟨source, .text s.mode.name, .integer s.indentSize, s.showStatistics, .text s.targetModel⟩
  let p := if s.showStatistics then { p with disk := h.library.leave p.disk } else p
  let p := p.logAll records
  let p := if r.fallback then p.say (message "cli.status.fallback" [("mode", r.mode.name)]) else p
  let payload := if json then (resultJson r).printAt (some 2) 0 else r.output
  match writeOutput h (h.resolve s.outputPath) payload p with
  | .error outcome => outcome
  | .ok (stdout, p) =>
    let lines := if json then [] else r.statistics.toList.flatMap statisticsLines
    (p.sayAll lines).finish 0 stdout

/-- A run with its source at hand. -/
def runSource (h : Host) (s : Settings) (json : Bool) (path : String) (p : Progress) :
    Except SourceError String → Outcome
  | .error e => stopWithoutSource path p e
  | .ok source => formatAndWrite h s json source p

/-- A run with its settings at hand. Without a path the script comes from standard input. -/
def planSettings (h : Host) (s : Settings) (a : Arguments) (p : Progress) : Plan :=
  if a.dumpConfig then .finished (p.finish 0 ((Json.object s.toFields).printAt (some 2) 0 ++ "\n"))
  else
    let path := h.resolve s.inputPath
    if path.isEmpty then .reads fun input => runSource h s a.json path p (inputSource input)
    else .finished (runSource h s a.json path p (fileSource h p.disk path))

/-- A run that the command line asks for. -/
def planArguments (h : Host) (a : Arguments) : Plan :=
  let p := startLog h a.debug (.start h.disk)
  let (raw, p) := baseSettings h a.useDefaults p
  match effectiveSettings raw a with
  | .error e => .finished (p.abort e.message)
  | .ok (s, findings) =>
    let p := p.logAll (findings.map fun f => ⟨.warning, "Configuration Constraint: " ++ f.message⟩)
    match if a.saveConfig then keepSettings h s p else .ok p with
    | .error e => .finished (p.abort e.message)
    | .ok p => planSettings h s a p

/-- A run of the program, up to where it reads standard input. -/
def plan (h : Host) (words : List String) : Plan :=
  match readArguments words with
  | .error e =>
    .finished ⟨2, "", usage ++ programName ++ ": error: " ++ e.message ++ "\n", [], [], h.disk⟩
  | .ok .help => .finished ⟨0, help, "", [], [], h.disk⟩
  | .ok (.run a) => planArguments h a

def run (h : Host) (words : List String) (input : Input) : Outcome := (plan h words).outcome input

end Respace.CommandLine
