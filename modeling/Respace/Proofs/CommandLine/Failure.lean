import Respace.Proofs.CommandLine.Surroundings
import Respace.Proofs.Settings.Store

/-! A run that fails leaves everything as it was. Until its output is written, a run changes only the file
    of the settings, if it is to keep them; and once its output is written, it cannot fail any more. Its
    log goes to files of its own, and so does what a library of encoders keeps for the next time. -/

namespace Respace.CommandLine

open Files Files.Disk Logging

variable {h : Host} {a : Arguments} {s : Settings} {free own : Place → Prop} {p p' : Progress} {o : Outcome}

/-! ### Files that stay -/

/-- Whether all files stay that are not at places free to change, and no others come but at places of one's
    own. -/
def Spares (free own : Place → Prop) (d d' : Disk) : Prop :=
  ∀ q, ¬ free q → ∀ content,
    (d.node? q = some (.file content) → d'.node? q = some (.file content)) ∧
      (d'.node? q = some (.file content) → own q ∨ d.node? q = some (.file content))

namespace Spares

variable {d d' d'' : Disk}

theorem of_keepsBut (h : KeepsBut free d d') : Spares free own d d' := fun _ hq content =>
  ⟨(h.file_iff hq content).2, fun hfile => .inr ((h.file_iff hq content).1 hfile)⟩

theorem refl (free own : Place → Prop) (d : Disk) : Spares free own d d := .of_keepsBut (.refl free d)

theorem trans (h : Spares free own d d') (h' : Spares free own d' d'') : Spares free own d d'' := by
  intro q hq content
  obtain ⟨hstay, hnew⟩ := h q hq content
  obtain ⟨hstay', hnew'⟩ := h' q hq content
  exact ⟨fun hfile => hstay' (hstay hfile), fun hfile => (hnew' hfile).elim .inl hnew⟩

end Spares

/-- What is said goes to standard error only. -/
theorem exists_sayAll (p : Progress) (lines : List String) :
    ∃ stderr, p.sayAll lines = { p with stderr := stderr } := by
  induction lines generalizing p with
  | nil => exact ⟨p.stderr, rfl⟩
  | cons line lines ih =>
    obtain ⟨stderr, hsaid⟩ := ih (p.say line)
    exact ⟨stderr, hsaid⟩

/-- Whether a run goes on without asking for another log, and spares all files but those it may write. -/
structure Progress.Keeps (free own : Place → Prop) (p p' : Progress) : Prop where
  logging : p'.logging = p.logging
  disk : Spares free own p.disk p'.disk

/-- Whether a run ends without asking for another log and, if it fails, has put nothing out and spared all
    files but those it may write. -/
structure Outcome.FailsSafely (free own : Place → Prop) (p : Progress) (o : Outcome) : Prop where
  logging : o.logging = p.logging
  stdout : o.code ≠ 0 → o.stdout = ""
  disk : o.code ≠ 0 → Spares free own p.disk o.disk

namespace Progress.Keeps

theorem refl (p : Progress) : p.Keeps free own p := ⟨rfl, .refl free own _⟩

theorem say (hp : p.Keeps free own p') (line : String) : p.Keeps free own (p'.say line) := ⟨hp.logging, hp.disk⟩

theorem sayAll (hp : p.Keeps free own p') (lines : List String) : p.Keeps free own (p'.sayAll lines) := by
  obtain ⟨stderr, hsaid⟩ := exists_sayAll p' lines
  rw [hsaid]
  exact ⟨hp.logging, hp.disk⟩

theorem log (hp : p.Keeps free own p') (r : Record) : p.Keeps free own (p'.log r) := ⟨hp.logging, hp.disk⟩

theorem logAll (hp : p.Keeps free own p') (rs : List Record) : p.Keeps free own (p'.logAll rs) :=
  ⟨hp.logging, hp.disk⟩

theorem fail (hp : p.Keeps free own p') (text : String) : p.Keeps free own (p'.fail text) := (hp.log _).say _

/-- A run may end with no output at any time. -/
theorem finish (hp : p.Keeps free own p') (code : Nat) : (p'.finish code "").FailsSafely free own p :=
  ⟨hp.logging, fun _ => rfl, fun _ => hp.disk⟩

theorem abort (hp : p.Keeps free own p') (text : String) : (p'.abort text).FailsSafely free own p :=
  ((hp.log _).sayAll _).finish 1

end Progress.Keeps

end Respace.CommandLine
