import Respace.CommandLine.Run
import Respace.Proofs.CommandLine.Arguments
import Respace.Proofs.Files.Disk
import Respace.Proofs.Settings.Validity

/-! A script from a file and the same script from standard input. A run that only formats comes to the same
    outcome with a file that holds a text as with that text on standard input, unless the text has
    carriage returns: on standard input line breaks are unified, in a file they are left as they are. A
    template with a carriage return tells the two apart. -/

namespace Respace.CommandLine

open Files Logging Text

variable {h : Host} {a : Arguments} {s : Settings} {path t : String}

/-! ### Settings of a run that only formats -/

/-- A run that starts from the defaults, keeps and shows no settings, and writes no log file. Its input is
    what it reads from standard input. -/
structure Arguments.OnlyFormats (a : Arguments) : Prop where
  inputPath : a.inputPath = none
  useDefaults : a.useDefaults = true
  saveConfig : a.saveConfig = false
  dumpConfig : a.dumpConfig = false
  debug : a.debug = false

theorem onlyFormats_of_readArguments {words : List String}
    (hread : readArguments words = .ok (.run a)) (ha : a.OnlyFormats) :
    ∀ b, readArguments words = .ok (.run b) → b.OnlyFormats := by
  intro b hb
  cases hread.symm.trans hb
  exact ha

theorem lookup_mergeFields (base overrides : List (String × Json)) (key : String) :
    (mergeFields base overrides).lookup key = (base.lookup key).map fun value =>
      match overrides.lookup key with
      | none | some .null => value
      | some v => v := by
  induction base with
  | nil => rfl
  | cons f base ih =>
    obtain ⟨k, v⟩ := f
    rw [mergeFields] at ih ⊢
    rw [List.map_cons, List.lookup_cons, List.lookup_cons, ih]
    split
    · next hk =>
      obtain rfl : key = k := by simpa using hk
      rfl
    · rfl

/-- An input to fall back on is all that it changes in the settings. -/
theorem effectiveSettings_orInput (ha : a.inputPath = none) (path : String) :
    effectiveSettings .default (a.orInput (some (.one path))) =
      (effectiveSettings .default a).map fun (s, w) => ({ s with inputPath := trimmed path }, w) := by
  refine validateFields_inputPath (t := "") (fun f hf => ?_) ?_ ?_
  · rw [lookup_mergeFields, lookup_mergeFields]
    cases f with
    | inputPath => exact absurd rfl hf
    | _ => rfl
  · rw [lookup_mergeFields, Arguments.overrides, ha]
    rfl
  · rw [lookup_mergeFields, Arguments.overrides, Arguments.orInput, ha]
    rfl

/-- Without an input, the settings have none. -/
theorem inputPath_of_effectiveSettings (ha : a.inputPath = none) {w : List Finding}
    (hs : effectiveSettings .default a = .ok (s, w)) : s.inputPath = "" := by
  obtain ⟨w₁, _, _, _, _, _, h₁, -⟩ := validateFields_eq_ok_iff.1 hs
  have hin : (mergeFields RawSettings.default.toFields a.overrides).lookup Field.inputPath.key =
      some (.text "") := by
    rw [lookup_mergeFields, Arguments.overrides, ha]
    rfl
  have hpass : checkField false (mergeFields RawSettings.default.toFields a.overrides) .inputPath ""
      (fun v => .ok (checkText .inputPath v)) = .ok (trimmed "", []) :=
    checkField_of_lookup hin nofun rfl
  rw [hpass] at h₁
  have hempty : trimmed "" = "" := by decide
  exact (Prod.mk.inj (Except.ok.inj h₁)).1.symm.trans hempty

/-! ### Runs that only format -/

/-- What a run that only formats is before its settings are at hand. -/
def Progress.quiet (h : Host) : Progress := ⟨"", [], [⟨.warning, none⟩], h.disk⟩

theorem planArguments_of_useDefaults (hu : a.useDefaults = true) (hs : a.saveConfig = false)
    (hd : a.debug = false) :
    planArguments h a = match effectiveSettings .default a with
      | .error e => .finished ((Progress.quiet h).abort e.message)
      | .ok (s, findings) => planSettings h s a ((Progress.quiet h).logAll
          (findings.map fun f => ⟨.warning, "Configuration Constraint: " ++ f.message⟩)) := by
  simp only [planArguments, startLog, hd, baseSettings, hu, hs, Bool.false_eq_true, if_false, if_true]
  rfl

/-- The path that a blank text stands for is empty, and blanks at the ends of a path do not count. -/
theorem resolve_trimmed (h : Host) (path : String) :
    h.resolve "" = "" ∧ h.resolve (trimmed path) = h.resolve path := by
  refine ⟨rfl, ?_⟩
  rw [Host.resolve, Host.resolve, resolvePath, resolvePath, trimmed, String.toList_ofList, trim_trim]

theorem planSettings_of_file {p : Progress} (hd : a.dumpConfig = false)
    (hread : p.disk.read (placeOf h.cwd) (h.resolve s.inputPath) = .ok (encode t)) :
    planSettings h s a p = .finished (formatAndWrite h s a.json t p) := by
  have hne : (h.resolve s.inputPath).isEmpty = false := by simpa using Disk.ne_of_read hread
  have htext : readText p.disk h.cwd (h.resolve s.inputPath) = .ok t :=
    bind_eq_ok_iff.2 ⟨_, mapError_eq_ok_iff.2 hread, mapError_eq_ok_iff.2 (decode_encode t)⟩
  have hsource : fileSource h p.disk (h.resolve s.inputPath) = .ok t := by
    rw [fileSource, (Disk.holds_of_read hread).2, htext]
    rfl
  simp only [planSettings, hd, hne, hsource, runSource, Bool.false_eq_true, if_false]

/-- Without a path, a run formats the text on standard input with its line breaks unified. -/
theorem planSettings_of_noPath {p : Progress} (hd : a.dumpConfig = false) (hi : s.inputPath = "") :
    (planSettings h s a p).outcome (.bytes (encode t)) =
      formatAndWrite h s a.json (String.ofList (unifyLineBreaks t.toList)) p := by
  have hempty : (h.resolve s.inputPath).isEmpty = true := by
    rw [hi, (resolve_trimmed h "").1]
    rfl
  simp only [planSettings, hd, hempty, Bool.false_eq_true, if_false, if_true, Plan.outcome, inputSource,
    decode_encode, runSource]

/-- A run that only formats comes to the same outcome with a text on standard input as with a file that
    holds the text with its line breaks unified. Both runs ask the same library of encoders. -/
theorem run_input {words : List String} {text : String}
    (hwords : ∀ a, readArguments words = .ok (.run a) → a.OnlyFormats)
    (hpath : readWord path = .ok (.plain path))
    (hfile : h.disk.read (placeOf h.cwd) (h.resolve path) =
      .ok (encode (String.ofList (unifyLineBreaks text.toList)))) (input : Input) :
    run h ("-i" :: path :: words) input = run h words (.bytes (encode text)) := by
  rw [run, run, plan, plan, readArguments_input hpath]
  rcases hread : readArguments words with e | _ | a
  · rfl
  · rfl
  obtain ⟨hi, hu, hs, hd, hg⟩ := hwords a hread
  change (planArguments h (a.orInput (some (.one path)))).outcome input =
    (planArguments h a).outcome (.bytes (encode text))
  rw [planArguments_of_useDefaults hu hs hg, planArguments_of_useDefaults (a := a.orInput _) hu hs hg,
    effectiveSettings_orInput hi]
  rcases heff : effectiveSettings .default a with e | ⟨s, findings⟩
  · rfl
  have hnone := inputPath_of_effectiveSettings hi heff
  dsimp only [Except.map]
  rw [planSettings_of_noPath hd hnone, planSettings_of_file (a := a.orInput _) hd]
  · rfl
  · change h.disk.read (placeOf h.cwd) (h.resolve (trimmed path)) = _
    rw [(resolve_trimmed h path).2, hfile]

/-- A file with a line feed, and the same text with a carriage return before it on standard input. The
    statistics count the tokens, one for each character, with encoders that are at hand. -/
theorem run_input_lineBreak :
    let library : Library := ⟨fun _ _ => .ok fun text => .ok text.length, id⟩
    let h : Host := ⟨.posix, ⟨[("HOME", "/home")], none, []⟩, "/w",
      ⟨[(["w"], .folder), (["w", "a.js"], .file (encode "a\n"))]⟩, library⟩
    let words := ["--use-defaults", "--minify", "--stats", "--json"]
    (∀ a, readArguments words = .ok (.run a) → a.OnlyFormats) ∧ readWord "a.js" = .ok (.plain "a.js") ∧
      h.disk.read (placeOf h.cwd) (h.resolve "a.js") =
        .ok (encode (String.ofList (unifyLineBreaks "a\r\n".toList))) ∧
      run h ("-i" :: "a.js" :: words) .interrupted = run h words (.bytes (encode "a\r\n")) := by
  intro library h words
  have hread : readArguments words = .ok
      (.run { Arguments.empty with useDefaults := true, minify := true, stats := true, json := true }) := rfl
  have hwords := onlyFormats_of_readArguments hread ⟨rfl, rfl, rfl, rfl, rfl⟩
  have hpath : readWord "a.js" = .ok (.plain "a.js") := rfl
  have hfile : h.disk.read (placeOf h.cwd) (h.resolve "a.js") =
      .ok (encode (String.ofList (unifyLineBreaks "a\r\n".toList))) := by decide +kernel
  exact ⟨hwords, hpath, hfile, run_input hwords hpath hfile .interrupted⟩

/-- A carriage return in a template stays when the script comes from a file, and becomes a line feed when
    the same script comes from standard input. -/
theorem run_template_ne :
    let h : Host := ⟨.posix, ⟨[("HOME", "/home")], none, []⟩, "/w",
      ⟨[(["w"], .folder), (["w", "t.js"], .file (encode "`\r`"))]⟩, .none⟩
    (run h ["-i", "t.js", "--use-defaults"] .interrupted).stdout = "`\r`\n" ∧
      (run h ["--use-defaults"] (.bytes (encode "`\r`"))).stdout = "`\n`\n" ∧
      ¬ ∀ (h : Host) (words : List String) (path text : String) (input : Input),
        (∀ a, readArguments words = .ok (.run a) → a.OnlyFormats) →
        readWord path = .ok (.plain path) →
        h.disk.read (placeOf h.cwd) (h.resolve path) = .ok (encode text) →
        (run h ("-i" :: path :: words) input).stdout = (run h words (.bytes (encode text))).stdout := by
  intro h
  have hfile : (run h ["-i", "t.js", "--use-defaults"] .interrupted).stdout = "`\r`\n" := by
    decide +kernel
  have hpipe : (run h ["--use-defaults"] (.bytes (encode "`\r`"))).stdout = "`\n`\n" := by
    decide +kernel
  refine ⟨hfile, hpipe, fun hall => ?_⟩
  have hread : readArguments ["--use-defaults"] =
      .ok (.run { Arguments.empty with useDefaults := true }) := rfl
  have hwords := onlyFormats_of_readArguments hread ⟨rfl, rfl, rfl, rfl, rfl⟩
  have hsame := hall h ["--use-defaults"] "t.js" "`\r`" .interrupted hwords rfl (by decide +kernel)
  rw [hfile, hpipe] at hsame
  exact absurd hsame (by decide)

end Respace.CommandLine
