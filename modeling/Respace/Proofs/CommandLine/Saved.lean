import Respace.Proofs.CommandLine.Arguments
import Respace.Proofs.CommandLine.Surroundings
import Respace.Proofs.Settings.Store

/-! Settings that a run says it has saved come back in the next run. What the run saves is what it shows,
    less the paths; its log leaves the file alone, and the next run reads the file, finds nothing wrong
    with it, and shows the settings in it. -/

namespace Respace.CommandLine

open Files Files.Disk Logging

/-- Settings as a run shows them. -/
def shown (s : Settings) : String := (Json.object s.toFields).printAt (some 2) 0 ++ "\n"

/-- The words of a run that has saved its settings. -/
def savedText : String := message "cli.status.saved" []

variable {h : Host} {a : Arguments} {s : Settings} {p p' : Progress}

/-! ### Steps of a run -/

/-- A run logs to standard error, and to its own file when debugging. -/
def LogRequest.IsOwn (h : Host) (r : LogRequest) : Prop := r.file = none ∨ r.file = some h.logPath

theorem startLog_start (h : Host) (debug : Bool) :
    (startLog h debug (.start h.disk)).stderr = "" ∧
      ∃ r : LogRequest, (startLog h debug (.start h.disk)).logging = [r] ∧ r.IsOwn h := by
  rw [startLog]
  split
  · exact ⟨rfl, ⟨.debug, some h.logPath⟩, rfl, .inr rfl⟩
  · exact ⟨rfl, ⟨.warning, none⟩, rfl, .inl rfl⟩

theorem baseSettings_stderr (h : Host) (useDefaults : Bool) (p : Progress) :
    (baseSettings h useDefaults p).2.stderr = p.stderr ∧
      (baseSettings h useDefaults p).2.logging = p.logging := by
  rw [baseSettings]
  split
  · exact ⟨rfl, rfl⟩
  · dsimp only
    generalize loadSettings (h.withDataFolder p.disk) h.cwd h.settingsPath = loaded
    exact ⟨rfl, rfl⟩

/-- Saving either says nothing, or has written the settings to their file. -/
theorem keepSettings_eq_ok (hk : keepSettings h s p = .ok p') :
    p'.logging = p.logging ∧ (p'.stderr = p.stderr ∨
      readText p'.disk h.cwd h.settingsPath = .ok (RawSettings.document s.get).print) := by
  unfold keepSettings at hk
  rw [withFields_toFields] at hk
  dsimp only at hk
  rcases hsave : saveSettings (h.withDataFolder p.disk) h.cwd h.settingsPath s.get with ⟨e | records, d⟩
  · rw [hsave] at hk
    cases hk
  · rw [hsave] at hk
    cases hk
    cases records with
    | nil => exact ⟨rfl, .inr (readText_of_saveSettings hsave)⟩
    | cons r records => exact ⟨rfl, .inl rfl⟩

/-- Saving if asked to either says nothing, or has written the settings to their file. -/
theorem keep_eq_ok {keep : Bool} (hk : (if keep then keepSettings h s p else .ok p) = .ok p') :
    p'.logging = p.logging ∧ (p'.stderr = p.stderr ∨
      readText p'.disk h.cwd h.settingsPath = .ok (RawSettings.document s.get).print) := by
  split at hk
  · exact keepSettings_eq_ok hk
  · cases hk
    exact ⟨rfl, .inl rfl⟩

/-- A run that shows settings and ends well either says nothing, or has saved what it shows. -/
theorem exists_shown (hd : a.dumpConfig = true) {input : Input} {o : Outcome}
    (ho : (planArguments h a).outcome input = o) (hcode : o.code = 0) :
    ∃ s : Settings, s.IsValid ∧ o.stdout = shown s ∧ (∀ r ∈ o.logging, r.IsOwn h) ∧
      (o.stderr = "" ∨
        readText o.disk h.cwd h.settingsPath = .ok (RawSettings.document s.get).print) := by
  obtain ⟨hquiet, r, hlog, hown⟩ := startLog_start h a.debug
  have hbase := baseSettings_stderr h a.useDefaults (startLog h a.debug (.start h.disk))
  rw [hquiet, hlog] at hbase
  unfold planArguments at ho
  dsimp only at ho
  generalize baseSettings h a.useDefaults (startLog h a.debug (.start h.disk)) = base at hbase ho
  obtain ⟨raw, p⟩ := base
  dsimp only at hbase ho
  rcases heff : effectiveSettings raw a with e | ⟨s, findings⟩
  · rw [heff] at ho
    subst ho
    cases hcode
  rw [heff] at ho
  dsimp only at ho
  split at ho
  · subst ho
    cases hcode
  next p' hk =>
  have hplan : planSettings h s a p' = .finished (p'.finish 0 (shown s)) := by
    rw [planSettings, if_pos hd]
    rfl
  rw [hplan] at ho
  subst ho
  obtain ⟨hlog', hquiet'⟩ := keep_eq_ok hk
  have hlogging : ∀ r ∈ p'.logging, r.IsOwn h := by
    rw [hlog', Progress.logAll, hbase.2]
    simpa using hown
  exact ⟨s, isValid_of_validate heff, rfl, hlogging, hquiet'.imp_left (·.trans hbase.1)⟩

/-- A run that ends well after showing settings and says that they are saved has saved what it shows. -/
theorem exists_saved {words : List String} {input : Input} (hdump : "--dump-config" ∈ words)
    (hcode : (run h words input).code = 0)
    (hsaved : savedText.toList <:+: (run h words input).stderr.toList) :
    ∃ s : Settings, s.IsValid ∧ (run h words input).stdout = shown s ∧
      readText (run h words input).disk h.cwd h.settingsPath = .ok (RawSettings.document s.get).print ∧
      ∀ r ∈ (run h words input).logging, r.IsOwn h := by
  have hne : savedText.toList ≠ [] := by decide +kernel
  have hsilent : ¬ savedText.toList <:+: "".toList := fun hi => hne (List.infix_nil.1 hi)
  rw [run, plan] at hcode hsaved ⊢
  split at hcode
  · cases hcode
  · next hread =>
    simp only [hread, Plan.outcome] at hsaved
    exact absurd hsaved hsilent
  · next a hread =>
    simp only [hread] at hsaved ⊢
    obtain ⟨s, hs, hshown, hlog, hquiet | hfile⟩ := exists_shown (dumpConfig_of_mem hdump hread) rfl hcode
    · rw [hquiet] at hsaved
      exact absurd hsaved hsilent
    · exact ⟨s, hs, hshown, hfile, hlog⟩

/-! ### The log of a run -/

/-- The log of a run keeps all that is on the way to the file of the settings. -/
theorem keepsTo_logged (hc : isAbsolute h.cwd.toList = true) {o : Outcome}
    (ho : ∀ r ∈ o.logging, r.IsOwn h) (time : String) :
    KeepsTo (placeOf h.settingsPath) o.disk (o.logged h.cwd time).disk := by
  refine (keepsBut_logged hc o time).keepsTo fun q ⟨r, hr, hq⟩ => ?_
  exact LogFile.not_prefix_of_owns (length_settingsPath_lt hc) (LogRequest.file_of_owns (ho r hr) hq).2

/-! ### The next run -/

/-- What a run asks for that only shows its settings. -/
def Arguments.onlyShow : Arguments := { Arguments.empty with dumpConfig := true }

theorem readArguments_dumpConfig : readArguments ["--dump-config"] = .ok (.run .onlyShow) := rfl

theorem effectiveSettings_onlyShow (hs : s.IsValid) :
    effectiveSettings s.get .onlyShow = .ok (s, []) := by
  have hnull : ∀ f ∈ Arguments.onlyShow.overrides, f.2 = Json.null := by
    simp [Arguments.onlyShow, Arguments.overrides, Arguments.chosenMode, Arguments.empty, givenJson]
  rw [effectiveSettings, mergeFields_of_null hnull]
  exact validate_toFields hs

/-- What a run comes to that only shows its settings, when valid ones are in their file. -/
theorem run_dumpConfig (hc : isAbsolute h.cwd.toList = true) (hs : s.IsValid)
    (hread : readText h.disk h.cwd h.settingsPath = .ok (RawSettings.document s.get).print)
    (input : Input) :
    run h ["--dump-config"] input =
      ⟨0, shown s.kept, "", [], [⟨.warning, none⟩], h.withDataFolder h.disk⟩ := by
  have hfull : IsFull h.settingsPath.toList := (settingsPath_of_isAbsolute h.system h.env hc).1
  have hload : loadSettings (h.withDataFolder h.disk) h.cwd h.settingsPath = (s.kept.get, []) :=
    loadSettings_of_readText hs (readText_of_isFull hfull hread (keepsTo_makeFolders _ _ _))
  have hstart : startLog h Arguments.onlyShow.debug (.start h.disk) =
      ⟨"", [], [⟨.warning, none⟩], h.disk⟩ := rfl
  have hbase : baseSettings h Arguments.onlyShow.useDefaults ⟨"", [], [⟨.warning, none⟩], h.disk⟩ =
      (s.kept.get, ⟨"", [], [⟨.warning, none⟩], h.withDataFolder h.disk⟩) := by
    simp only [baseSettings, Arguments.onlyShow, Arguments.empty, Bool.false_eq_true, if_false, hload,
      Progress.logAll, List.append_nil]
  rw [run, plan, readArguments_dumpConfig]
  dsimp only
  rw [planArguments, hstart]
  dsimp only
  rw [hbase]
  dsimp only
  rw [effectiveSettings_onlyShow hs.kept]
  simp only [Arguments.onlyShow, Arguments.empty, Bool.false_eq_true, if_false, planSettings, if_true,
    Plan.outcome, Progress.finish, Progress.logAll, List.map_nil, List.append_nil, shown]

/-- Settings that a run says it has saved come back: the next run in the same place, with what the log of
    the first has left on the disk, ends well and without a warning, and shows the same settings but for
    the paths. -/
theorem run_dumpConfig_of_saved {words : List String} {input : Input}
    (hc : isAbsolute h.cwd.toList = true) (hdump : "--dump-config" ∈ words)
    (hcode : (run h words input).code = 0)
    (hsaved : savedText.toList <:+: (run h words input).stderr.toList) (time : String) (input' : Input) :
    ∃ s : Settings, (run h words input).stdout = shown s ∧
      let next :=
        run { h with disk := ((run h words input).logged h.cwd time).disk } ["--dump-config"] input'
      next.code = 0 ∧ next.records = [] ∧
        next.stdout = shown { s with inputPath := "", outputPath := "" } := by
  obtain ⟨s, hs, hshown, hfile, hlog⟩ := exists_saved hdump hcode hsaved
  have hfull : IsFull h.settingsPath.toList := (settingsPath_of_isAbsolute h.system h.env hc).1
  have hkeep := keepsTo_logged hc hlog time
  have hnext := run_dumpConfig (h := { h with disk := ((run h words input).logged h.cwd time).disk }) hc hs
    (readText_of_isFull hfull hfile hkeep) input'
  refine ⟨s, hshown, ?_⟩
  rw [hnext]
  exact ⟨rfl, rfl, rfl⟩

/-- A run that is given an input, a mode and an odd size, in a home folder that holds nothing yet. -/
theorem run_dumpConfig_of_saved_home :
    let h : Host := ⟨.posix, ⟨[("HOME", "/home")], none, []⟩, "/home", ⟨[(["home"], .folder)]⟩, .none⟩
    let words := ["-i", "a.js", "--minify", "--indent", "12", "--save-config", "--dump-config", "--debug"]
    let o := run h words .interrupted
    isAbsolute h.cwd.toList = true ∧ "--dump-config" ∈ words ∧ o.code = 0 ∧
      savedText.toList <:+: o.stderr.toList ∧ ∃ s : Settings, o.stdout = shown s ∧
        let next := run { h with disk := (o.logged h.cwd "now").disk } ["--dump-config"] .interrupted
        next.code = 0 ∧ next.records = [] ∧
          next.stdout = shown { s with inputPath := "", outputPath := "" } := by
  intro h words o
  have hc : isAbsolute h.cwd.toList = true := by decide
  have hdump : "--dump-config" ∈ words := by decide
  have hcode : o.code = 0 := by decide +kernel
  have hsaved : savedText.toList <:+: o.stderr.toList := by decide +kernel
  exact ⟨hc, hdump, hcode, hsaved, run_dumpConfig_of_saved hc hdump hcode hsaved "now" .interrupted⟩

end Respace.CommandLine
