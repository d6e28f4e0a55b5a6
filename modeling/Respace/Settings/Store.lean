import Respace.Files.Disk
import Respace.Json.Printer
import Respace.Json.Reader
import Respace.Settings.Field

/-! Settings kept between runs, in a document of their own. -/

namespace Respace

open Files Logging

/-- The version written into the document of settings. -/
def settingsVersion : String := "1.0.0"

/-- The document of the settings that are kept. -/
def RawSettings.document (r : RawSettings) : Json :=
  .object ((Field.saved.map fun f => (f.key, r f)) ++ [("version", .text settingsVersion)])

/-- Why a document of settings is not read. -/
inductive LoadFault where
  | unread (cause : ReadError)
  | noDocument

/-- The fault in words. Where in a text its document breaks off is left out. -/
def LoadFault.message : LoadFault → String
  | unread e => e.message
  | noDocument => "not a document"

/-- The document in a file. -/
def loadDocument (d : Disk) (cwd path : String) : Except LoadFault Json :=
  match readText d cwd path with
  | .error e => .error (.unread e)
  | .ok text => match Json.read? text with
    | none => .error .noDocument
    | some v => .ok v

/-- The settings in a file, over the defaults. Without a file, or when it is of no use, they are the
    defaults. -/
def loadSettings (d : Disk) (cwd path : String) : RawSettings × List Record :=
  if !d.holds (placeOf cwd) path then (.default, [])
  else match loadDocument d cwd path with
    | .ok (.object fields) => (RawSettings.default.withFields fields, [])
    | .ok _ => (.default, [⟨.warning, "Corrupted config file. Resetting to defaults."⟩])
    | .error e =>
      (.default, [⟨.error, "Failed to load config: " ++ e.message ++ ". Using defaults."⟩])

/-- Writes settings to a file, and says when that fails. -/
def saveSettings (d : Disk) (cwd path : String) (r : RawSettings) :
    Except PathError (List Record) × Disk :=
  match writeText d cwd path r.document.print with
  | (.ok (), d) => (.ok [], d)
  | (.error .nullCharacter, d) => (.error .nullCharacter, d)
  | (.error e, d) => (.ok [⟨.error, "Failed to save configuration: " ++ e.message⟩], d)

end Respace
