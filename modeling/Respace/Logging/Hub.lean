import Respace.Json.Conversion
import Respace.Logging.Sink
import Respace.Text.Split

/-! The log as a whole. It is set up once, unless a new setup is forced: entries then pass through a
    queue to the sinks. Handlers of others are left alone. When a setup fails, entries go to an
    emergency console. -/

namespace Respace.Logging

open Files

/-- A setup: the name of a level, and values of any kind, which are looked at when they are used. The time of
    an entry comes as a text, so that how times are written is no part of a setup. -/
structure Setup where
  level : String
  console : Json
  file : Json
  maxBytes : Json
  backups : Json
  consolePattern : Json
  filePattern : Json

/-- The setup of a program that asks for nothing. -/
def Setup.default : Setup :=
  ⟨"WARNING", .bool true, .null, .integer (1024 * 1024), .integer 2,
    .text "%(levelname)s | %(message)s", .text "%(asctime)s | %(levelname)s | %(name)s | %(message)s"⟩

/-- Why a setup fails. -/
inductive SetupError where
  | badPattern (pattern : String)
  | patternKind (kind : String)
  | pathKind (kind : String)
  | badPath (cause : PathError)
  | badCount (cause : Json.WholeError)

def SetupError.message : SetupError → String
  | badPattern p => "Invalid format '" ++ p ++ "' for '%' style"
  | patternKind kind => "expected string or bytes-like object, got " ++ quote kind
  | pathKind kind => "expected str, bytes or os.PathLike object, not " ++ kind
  | badPath e => e.message
  | badCount e => e.message

/-- What handles entries: handlers of others, the way into the queue, and the emergency console. -/
inductive Handler where
  | foreign (name : String)
  | queue
  | emergency
  deriving DecidableEq

/-- Whether a handler is one of the log's own. -/
def Handler.isOwn : Handler → Bool
  | foreign _ => false
  | _ => true

/-- What takes entries out of the queue; once it is stopped, they stay there. -/
structure Listener where
  sinks : List Sink
  running : Bool

/-- The state of the log. `configured` tells whether entries ever passed through the queue. -/
structure Hub where
  level : Level
  configured : Bool
  handlers : List Handler
  listener : Option Listener

/-- The pattern of the emergency console. -/
def emergencyPattern : String := "CRITICAL FALLBACK | %(levelname)s | %(message)s"

namespace Hub

/-- The log of a program that has just started, with the handlers of others. -/
def fresh (foreign : List Handler) : Hub := ⟨.warning, false, foreign, none⟩

/-- The log without what it has set up. -/
def tornDown (h : Hub) : Hub :=
  { h with handlers := h.handlers.filter (!·.isOwn), listener := none }

/-- The log with its listener stopped. -/
def stopped (h : Hub) : Hub :=
  { h with listener := h.listener.map fun l => { l with running := false } }

/-- Passes an entry through a handler. -/
def handle (h : Hub) (e : Entry) (w : Written) : Handler → Written
  | .foreign _ => w
  | .emergency => (Sink.mk .console .debug emergencyPattern).send e w
  | .queue => match h.listener with
    | some l => if l.running then l.sinks.foldl (fun w s => s.send e w) w else w
    | none => w

/-- Logs an entry. Without any handler, the bare text of a warning or worse is printed. -/
def log (h : Hub) (e : Entry) (w : Written) : Written :=
  if e.record.level.rank < h.level.rank then w
  else if h.handlers.isEmpty then
    if e.record.level.rank < Level.rank .warning then w
    else { w with stderr := w.stderr ++ e.record.message ++ "\n" }
  else h.handlers.foldl (h.handle e) w

end Hub

/-- The names of levels in a setup. -/
def setupLevels : List (String × Level) := Level.all.map (fun l => (l.name, l)) ++ [("WARN", .warning)]

/-- The level of a name, in whatever case and with blanks around it. -/
def levelOf (name : String) : Level :=
  (setupLevels.lookup (String.ofList (Text.uppered (Text.trim name.toList)))).getD .info

/-- The pattern that a value gives; one that is not given shows the message alone. -/
def patternOf (v : Json) : Except SetupError String :=
  if !v.isGiven then .ok "%(message)s"
  else match v with
    | .text s => if hasField s.toList then .ok s else .error (.badPattern s)
    | v => .error (.patternKind v.kindName)

/-- Opens the file of a setup. Where the system refuses, there is a warning and no file. -/
def openFile (cwd : String) (c : Setup) (w : Written) : Except SetupError (Option LogFile) × Written :=
  match c.file with
  | .text path =>
    let full := String.ofList (absolute cwd.toList path.toList)
    let refused (e : PathError) (d : Disk) : Except SetupError (Option LogFile) × Written :=
      match e with
      | .nullCharacter => (.error (.badPath e), { w with disk := d })
      | e => (.ok none, { w with
          stderr := w.stderr ++ "WARNING: Cannot open log file '" ++ path ++ "': " ++ e.message ++ "\n"
          disk := d })
    match w.disk.makeFolderOf cwd path with
    | (.error e, d) => refused e d
    | (.ok (), d) =>
      match c.maxBytes.whole, c.backups.whole with
      | .error e, _ => (.error (.badCount e), { w with disk := d })
      | .ok _, .error e => (.error (.badCount e), { w with disk := d })
      | .ok maxBytes, .ok backups =>
        let f : LogFile := ⟨full, maxBytes, backups⟩
        match f.touch d with
        | .error e => refused e d
        | .ok d => (.ok (some f), { w with disk := d })
  | v => (.error (.pathKind v.kindName), w)

/-- The sink of the console, if the setup asks for one. -/
def consoleSinks (c : Setup) (level : Level) : Except SetupError (List Sink) :=
  if c.console.isGiven then (patternOf c.consolePattern).map fun p => [⟨.console, level, p⟩] else .ok []

/-- The sink of the file, if the setup asks for one. -/
def fileSinks (cwd : String) (c : Setup) (level : Level) (w : Written) :
    Except SetupError (List Sink) × Written :=
  if !c.file.isGiven then (.ok [], w)
  else match openFile cwd c w with
    | (.error e, w) => (.error e, w)
    | (.ok none, w) => (.ok [], w)
    | (.ok (some f), w) => ((patternOf c.filePattern).map fun p => [⟨.file f, level, p⟩], w)

/-- The sinks of a setup. -/
def buildSinks (cwd : String) (c : Setup) (level : Level) (w : Written) :
    Except SetupError (List Sink) × Written :=
  match consoleSinks c level with
  | .error e => (.error e, w)
  | .ok console => match fileSinks cwd c level w with
    | (.error e, w) => (.error e, w)
    | (.ok file, w) => (.ok (console ++ file), w)

namespace Hub

/-- Sets up the log, unless it is set up already and nothing is forced. -/
def configure (cwd : String) (c : Setup) (force : Bool) (h : Hub) (w : Written) : Hub × Written :=
  if h.configured && !force then (h, w)
  else
    let level := levelOf c.level
    let h := { h.tornDown with level := level }
    match buildSinks cwd c level w with
    | (.ok [], w) => (h, w)
    | (.ok sinks, w) =>
      ({ h with configured := true, handlers := h.handlers ++ [.queue], listener := some ⟨sinks, true⟩ },
        w)
    | (.error e, w) =>
      let h := { h with handlers := h.handlers ++ [.emergency] }
      let text := "Logging setup failed (" ++ e.message ++ "). Switched to emergency console."
      (h, h.log ⟨⟨.warning, text⟩, "root", ""⟩ w)

end Hub

end Respace.Logging
