import Respace.Proofs.Files.Disk
import Respace.Proofs.Json.Printed
import Respace.Proofs.Settings.Validity
import Respace.Settings.Store

/-! Settings that are saved come back. All fields but the two paths are written into a document, which is
    read back as it is written, and what comes out of a check passes the next one unchanged. -/

namespace Respace

open Files Logging

/-- The settings that are kept between runs: all but the paths. -/
def Settings.kept (s : Settings) : Settings := { s with inputPath := "", outputPath := "" }

variable {s : Settings}

theorem Settings.IsValid.kept (hs : s.IsValid) : s.kept.IsValid := by
  have hempty : trimmed "" = "" := by decide
  exact ⟨hempty, hempty, hs.targetModel, hs.indentSize⟩

/-- Over the defaults, all fields of settings count. -/
theorem withFields_toFields (s : Settings) : RawSettings.default.withFields s.toFields = s.get := by
  funext f
  rw [RawSettings.withFields, s.lookup_toFields, Option.getD_some]

/-- Over the defaults, the fields of a document of settings are those that are kept. -/
theorem withFields_document (s : Settings) :
    ∃ fields, RawSettings.document s.get = .object fields ∧
      RawSettings.default.withFields fields = s.kept.get := by
  refine ⟨_, rfl, ?_⟩
  funext f
  cases f <;> rfl

/-- The document of valid settings can be read as it is written. -/
theorem isPlain_document (hs : s.IsValid) : (RawSettings.document s.get).IsPlain := by
  have hdigits : ∀ n ≤ maxIndentSize, (Nat.toDigits 10 n).length ≤ Text.maxDigits := by decide
  simp only [RawSettings.document, Field.saved, Settings.get, List.map_cons, List.map_nil,
    List.cons_append, List.nil_append, Json.IsPlain, Json.HavePlain, Int.natAbs_natCast, and_true, true_and]
  exact ⟨by decide, hdigits _ hs.indentSize⟩

theorem readText_of_saveSettings {d d' : Disk} {cwd path : String} {r : RawSettings}
    (h : saveSettings d cwd path r = (.ok [], d')) : readText d' cwd path = .ok r.document.print := by
  have hwrite : writeText d cwd path r.document.print = (.ok (), d') := by
    unfold saveSettings at h
    generalize writeText d cwd path r.document.print = written at h
    obtain ⟨e | _, written⟩ := written
    · cases e <;> cases h
    · cases h
      rfl
  exact readText_of_writeText hwrite

theorem loadSettings_of_readText {d : Disk} {cwd path : String} (hs : s.IsValid)
    (h : readText d cwd path = .ok (RawSettings.document s.get).print) :
    loadSettings d cwd path = (s.kept.get, []) := by
  obtain ⟨fields, hfields, hkept⟩ := withFields_document s
  obtain ⟨content, hread, -⟩ := bind_eq_ok_iff.1 h
  have hholds := (Disk.holds_of_read (mapError_eq_ok_iff.1 hread)).1
  have hdocument : loadDocument d cwd path = .ok (.object fields) := by
    rw [loadDocument, h]
    dsimp only
    rw [Json.print, Json.read?_printAt (isPlain_document hs), hfields]
  rw [loadSettings, hholds, hdocument]
  dsimp only
  rw [hkept]
  rfl

/-- Where nothing else is asked for, fields stay as they are. -/
theorem mergeFields_of_null {base overrides : List (String × Json)}
    (h : ∀ f ∈ overrides, f.2 = .null) : mergeFields base overrides = base := by
  have hnull (key : String) : overrides.lookup key = none ∨ overrides.lookup key = some .null := by
    induction overrides with
    | nil => exact .inl rfl
    | cons f rest ih =>
      rw [List.forall_mem_cons] at h
      rw [List.lookup_cons, h.1]
      split
      · exact .inr rfl
      · exact ih h.2
  rw [mergeFields]
  conv_rhs => rw [← List.map_id base]
  refine List.map_congr_left fun f _ => ?_
  obtain ⟨key, value⟩ := f
  rcases hnull key with hk | hk <;> simp [hk]

end Respace
