import Respace.CommandLine.Surroundings
import Respace.Proofs.Logging.Disk

/-! What the log of a run leaves alone: all but the files that the run asks for. The file of a run that
    debugs lies deeper than that of the settings. -/

namespace Respace.CommandLine

open Files Files.Disk Logging

/-- The log file of a run that debugs. -/
def Host.logFile (h : Host) : LogFile :=
  ⟨String.ofList (absolute h.cwd.toList h.logPath.toList), 1024 * 1024, 2⟩

variable {h : Host} {q : Place}

/-- A request with the path of the log comes to the log file of the run, one without a path to none. -/
theorem LogRequest.file_of_owns {r : LogRequest} (hr : r.file = none ∨ r.file = some h.logPath)
    (hq : r.setup.Owns h.cwd q) : r.file = some h.logPath ∧ h.logFile.Owns q := by
  obtain ⟨⟨path, maxBytes, backups⟩, ⟨⟨given, hgiven, hpath⟩, hmax, hbackups⟩, hq⟩ := hq
  rcases hr with hr | hr
  · rw [setup, hr] at hgiven
    cases hgiven
  · rw [setup, hr] at hgiven
    cases hgiven
    cases hmax
    cases hbackups
    subst hpath
    exact ⟨hr, hq⟩

/-- The log lies deeper than the settings. -/
theorem length_settingsPath_lt (hc : isAbsolute h.cwd.toList = true) :
    (placeOf h.settingsPath).length < (placeOf h.logFile.path).length := by
  have hname : IsName "scriptfmt.log".toList := ⟨by decide, by decide, by decide, by decide⟩
  rw [LogFile.length_placeOf, LogFile.length_placeOf, Host.logFile, String.toList_ofList]
  exact length_names_logPath h.system h.env hc hname

/-- Setting up the log and logging all entries changes the files that are asked for only. -/
theorem keepsBut_logged {cwd : String} (hc : isAbsolute cwd.toList = true) (o : Outcome) (time : String) :
    KeepsBut (fun q => ∃ r ∈ o.logging, r.setup.Owns cwd q) o.disk (o.logged cwd time).disk := by
  let free (q : Place) : Prop := ∃ r ∈ o.logging, r.setup.Owns cwd q
  rw [Outcome.logged]
  dsimp only
  generalize hsetup : o.logging.foldl _ _ = hw
  obtain ⟨howns, hkeep⟩ : (∀ q, hw.1.Owns q → free q) ∧ KeepsBut free o.disk hw.2.disk := by
    rw [← hsetup]
    refine List.foldlRecOn o.logging _
      (motive := fun hw : Hub × Written => (∀ q, hw.1.Owns q → free q) ∧ KeepsBut free o.disk hw.2.disk)
      ⟨fun q ⟨l, hl, _⟩ => (by cases hl), KeepsBut.refl free _⟩ fun hw ⟨howns, hkeep⟩ r hr => ?_
    obtain ⟨hdisk, hnew⟩ := Hub.configure_keepsBut hc r.setup false hw.1 hw.2
    have hfree : ∀ q, r.setup.Owns cwd q → free q := fun q hq => ⟨r, hr, hq⟩
    exact ⟨fun q hq => (hnew q hq).elim (howns q) (hfree q), hkeep.trans (hdisk.mono hfree)⟩
  refine List.foldlRecOn o.records _ (motive := fun w' : Written => KeepsBut free o.disk w'.disk)
    hkeep fun w' hw' r _ => ?_
  exact hw'.trans ((hw.1.keepsBut_log _ w').mono howns)

end Respace.CommandLine
