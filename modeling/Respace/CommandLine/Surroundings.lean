import Respace.CommandLine.Run
import Respace.Logging.Hub

/-! What a run needs to know of its surroundings before it starts, and what its log leaves there. -/

namespace Respace.CommandLine

open Files Logging

/-- Names in the environment that a run needs in any case. -/
def commonNames : List String := ["HOME", "LOCALAPPDATA", "APPDATA"]

/-- The settings of a run as far as its disk tells, if it comes to any. -/
def Host.settings? (h : Host) (words : List String) : Option (Arguments × Settings) :=
  match readArguments words with
  | .ok (.run a) =>
    let (raw, _) := baseSettings h a.useDefaults (.start h.disk)
    match effectiveSettings raw a with
    | .ok (s, _) => some (a, s)
    | .error _ => none
  | _ => none

/-- Names in the environment that the paths of a run hold. -/
def Host.names (h : Host) (words : List String) : List String :=
  (h.settings? words).elim [] fun (_, s) =>
    valueNames s.inputPath.toList ++ valueNames s.outputPath.toList

/-- Paths that a run may look at or write to. -/
def Host.paths (h : Host) (words : List String) : List String :=
  (h.settings? words).elim [] fun (a, s) =>
    let log := if a.debug then [h.logPath, h.logPath ++ ".1", h.logPath ++ ".2"] else []
    ([h.settingsPath, h.resolve s.inputPath, h.resolve s.outputPath] ++ log).filter (!·.isEmpty)

/-- The setup of the log that a run asks for. -/
def LogRequest.setup (r : LogRequest) : Setup :=
  { Setup.default with level := r.level.name, file := r.file.elim .null .text }

/-- What the log of a run leaves behind: lines on standard error, and files. -/
def Outcome.logged (o : Outcome) (cwd time : String) : Written :=
  let start : Hub × Written := (.fresh [], ⟨"", o.disk⟩)
  let (hub, w) := o.logging.foldl (fun (h, w) r => h.configure cwd r.setup false w) start
  o.records.foldl (fun w r => hub.log ⟨r, programName, time⟩ w) w

end Respace.CommandLine
