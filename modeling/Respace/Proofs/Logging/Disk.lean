import Respace.Logging.Hub
import Respace.Proofs.Files.Disk

/-! What the log leaves alone on a disk. It makes folders where nothing is, and it writes to its own file
    and to those that it sets aside. These all lie equally deep, so that the log keeps all that is on the
    way to a place that lies less deep than its file. -/

namespace Respace.Logging

open Files Files.Disk

variable {p q : Place} {d d' : Disk} {f : LogFile} {cwd : String} {c : Setup}

/-! ### Files of the log -/

/-- Whether a place is that of the file, or of one that is set aside from it. -/
def LogFile.Owns (f : LogFile) (q : Place) : Prop :=
  q = placeOf f.path ∨ ∃ n, 0 < n ∧ n ≤ f.backups.toNat ∧ q = f.backup n

theorem keepsBut_moveFile {free : Place → Prop} (hp : free p) (hq : free q) (d : Disk) :
    KeepsBut free d (moveFile d p q) := by
  rw [moveFile]
  split
  · exact (KeepsBut.remove hp).trans (KeepsBut.put hq)
  · exact KeepsBut.refl free d

namespace LogFile

theorem owns_path (f : LogFile) : f.Owns (placeOf f.path) := .inl rfl

theorem keepsBut_roll (f : LogFile) (d : Disk) : KeepsBut f.Owns d (f.roll d) := by
  rw [roll]
  split
  · exact KeepsBut.refl _ d
  next hpos =>
  have howns {n : Nat} (h : 0 < n ∧ n ≤ f.backups.toNat) : f.Owns (f.backup n) := .inr ⟨n, h.1, h.2, rfl⟩
  have hfirst : f.Owns (f.backup 1) := howns (by omega)
  refine KeepsBut.trans ?_ (KeepsBut.put f.owns_path)
  refine KeepsBut.trans ?_ (keepsBut_moveFile f.owns_path hfirst _)
  refine List.foldlRecOn (motive := KeepsBut f.Owns d) _ _ (KeepsBut.refl _ d) fun d' hd' i hi => ?_
  have hi := List.mem_range.1 hi
  exact hd'.trans (keepsBut_moveFile (howns (by omega)) (howns (by omega)) d')

theorem keepsBut_append (f : LogFile) (d : Disk) (line : String) :
    KeepsBut f.Owns d (f.append d line) := by
  rw [append]
  refine KeepsBut.trans ?_ (KeepsBut.put f.owns_path)
  split
  · exact keepsBut_roll f d
  · exact KeepsBut.refl _ d

theorem keepsBut_touch (h : f.touch d = .ok d') (hp : IsFull f.path.toList) : KeepsBut f.Owns d d' := by
  obtain ⟨_, -, h⟩ := bind_eq_ok_iff.1 h
  split at h
  · cases h
  · next p hplace =>
    obtain rfl := placeToWrite_of_isFull hp hplace
    split at h
    · cases h
      exact KeepsBut.refl _ d
    · cases h
      exact KeepsBut.put f.owns_path

theorem length_placeOf (path : String) : (placeOf path).length = (names path.toList).length :=
  List.length_map ..

theorem length_le_of_owns (h : f.Owns p) : (placeOf f.path).length ≤ p.length := by
  rcases h with rfl | ⟨n, -, -, rfl⟩
  · exact Nat.le_refl _
  · have hs : '/' ∉ '.' :: Nat.toDigits 10 n := by
      rw [List.mem_cons, not_or]
      refine ⟨by decide, fun hm => ?_⟩
      exact absurd (Nat.isDigit_of_mem_toDigits (by decide) (by decide) hm) (by decide)
    have hle := length_names_le_append f.path.toList hs
    rw [backup, length_placeOf, length_placeOf]
    simpa using hle

/-- The files of a log are not on the way to a place that lies less deep. -/
theorem not_prefix_of_owns (hq : q.length < (placeOf f.path).length) (h : f.Owns p) : ¬ p <+: q := by
  intro hp
  have hle := length_le_of_owns h
  have hpq := hp.length_le
  omega

end LogFile

/-! ### Entries -/

/-- Whether a place is one of the files that a sink writes to. -/
def Sink.Owns (s : Sink) (q : Place) : Prop := ∃ f, s.target = .file f ∧ f.Owns q

theorem Sink.keepsBut_send (s : Sink) (e : Entry) (w : Written) :
    KeepsBut s.Owns w.disk (s.send e w).disk := by
  rw [send]
  split
  · exact KeepsBut.refl _ _
  · split
    · exact KeepsBut.refl _ _
    · split
      · exact KeepsBut.refl _ _
      · next f hf => exact (f.keepsBut_append _ _).mono fun _ hq => ⟨f, hf, hq⟩

namespace Hub

/-- Whether a place is one of the files that the log writes to. -/
def Owns (h : Hub) (q : Place) : Prop := ∃ l, h.listener = some l ∧ ∃ s ∈ l.sinks, s.Owns q

theorem keepsBut_handle (h : Hub) (e : Entry) (w : Written) (handler : Handler) :
    KeepsBut h.Owns w.disk (h.handle e w handler).disk := by
  cases handler with
  | foreign name => exact KeepsBut.refl _ _
  | emergency =>
    refine (Sink.keepsBut_send _ e w).mono fun q hq => ?_
    obtain ⟨f, hf, -⟩ := hq
    cases hf
  | queue =>
    rw [handle]
    split
    · next l hl =>
      split
      · refine List.foldlRecOn (motive := fun w' : Written => KeepsBut h.Owns w.disk w'.disk) _ _
          (KeepsBut.refl _ _) fun w' hw' s hs => ?_
        exact hw'.trans ((s.keepsBut_send e w').mono fun _ hq => ⟨l, hl, s, hs, hq⟩)
      · exact KeepsBut.refl _ _
    · exact KeepsBut.refl _ _

theorem keepsBut_log (h : Hub) (e : Entry) (w : Written) : KeepsBut h.Owns w.disk (h.log e w).disk := by
  rw [log]
  split
  · exact KeepsBut.refl _ _
  · split
    · split <;> exact KeepsBut.refl _ _
    · refine List.foldlRecOn (motive := fun w' : Written => KeepsBut h.Owns w.disk w'.disk) _ _
        (KeepsBut.refl _ _) fun w' hw' handler _ => ?_
      exact hw'.trans (h.keepsBut_handle e w' handler)

end Hub

/-! ### Setups -/

/-- Whether a file is what a setup asks for. -/
structure Setup.AsksFor (cwd : String) (c : Setup) (f : LogFile) : Prop where
  path : ∃ path, c.file = .text path ∧ f.path = String.ofList (absolute cwd.toList path.toList)
  maxBytes : c.maxBytes.whole = .ok f.maxBytes
  backups : c.backups.whole = .ok f.backups

/-- Whether a place is one of the files of a log with a setup. -/
def Setup.Owns (cwd : String) (c : Setup) (q : Place) : Prop := ∃ f, c.AsksFor cwd f ∧ f.Owns q

/-- The file that is opened is the one that is asked for. -/
theorem openFile_keepsBut (hc : isAbsolute cwd.toList = true) (c : Setup) (w : Written) :
    KeepsBut (c.Owns cwd) w.disk (openFile cwd c w).2.disk ∧
      ∀ f, (openFile cwd c w).1 = .ok (some f) → c.AsksFor cwd f := by
  unfold openFile
  split
  · next path hfile =>
    have hmade : KeepsBut (c.Owns cwd) w.disk (w.disk.makeFolderOf cwd path).2 := keepsBut_makeFolders _ _
    generalize w.disk.makeFolderOf cwd path = made at hmade
    obtain ⟨e | _, d⟩ := made
    · cases e <;> exact ⟨hmade, fun _ hf => by cases hf⟩
    · dsimp only
      split
      · exact ⟨hmade, fun _ hf => by cases hf⟩
      · exact ⟨hmade, fun _ hf => by cases hf⟩
      · next maxBytes backups hmax hbackups =>
        split
        · next e _ => cases e <;> exact ⟨hmade, fun _ hf => by cases hf⟩
        · next d' htouch =>
          have hasked : c.AsksFor cwd ⟨String.ofList (absolute cwd.toList path.toList), maxBytes, backups⟩ :=
            ⟨⟨path, hfile, rfl⟩, hmax, hbackups⟩
          have hfull : IsFull (String.ofList (absolute cwd.toList path.toList)).toList := by
            rw [String.toList_ofList]
            exact isFull_absolute hc _
          have htouched := LogFile.keepsBut_touch htouch hfull
          refine ⟨hmade.trans (htouched.mono fun _ hq => ⟨_, hasked, hq⟩), fun f hf => ?_⟩
          cases hf
          exact hasked
  · exact ⟨KeepsBut.refl _ _, fun _ hf => by cases hf⟩

theorem not_owns_of_consoleSinks {level : Level} {sinks : List Sink}
    (h : consoleSinks c level = .ok sinks) : ∀ s ∈ sinks, ¬ s.Owns q := by
  rw [consoleSinks] at h
  split at h
  · obtain ⟨pattern, -, rfl⟩ := map_eq_ok_iff.1 h
    simp [Sink.Owns]
  · cases h
    exact nofun

theorem fileSinks_keepsBut (hc : isAbsolute cwd.toList = true) (c : Setup) (level : Level) (w : Written) :
    KeepsBut (c.Owns cwd) w.disk (fileSinks cwd c level w).2.disk ∧
      ∀ sinks, (fileSinks cwd c level w).1 = .ok sinks → ∀ s ∈ sinks, s.Owns q → c.Owns cwd q := by
  rw [fileSinks]
  split
  · refine ⟨KeepsBut.refl _ _, fun sinks h => ?_⟩
    cases h
    exact nofun
  · obtain ⟨hkeep, hasked⟩ := openFile_keepsBut hc c w
    generalize openFile cwd c w = opened at hkeep hasked
    obtain ⟨e | _ | f, w'⟩ := opened
    · exact ⟨hkeep, fun _ h => by cases h⟩
    · refine ⟨hkeep, fun sinks h => ?_⟩
      cases h
      exact nofun
    · refine ⟨hkeep, fun sinks h s hs => ?_⟩
      obtain ⟨pattern, -, rfl⟩ := map_eq_ok_iff.1 h
      obtain rfl := List.mem_singleton.1 hs
      rintro ⟨f', hf', hq⟩
      cases hf'
      exact ⟨f, hasked f rfl, hq⟩

theorem buildSinks_keepsBut (hc : isAbsolute cwd.toList = true) (c : Setup) (level : Level) (w : Written) :
    KeepsBut (c.Owns cwd) w.disk (buildSinks cwd c level w).2.disk ∧
      ∀ sinks, (buildSinks cwd c level w).1 = .ok sinks → ∀ s ∈ sinks, s.Owns q → c.Owns cwd q := by
  rw [buildSinks]
  rcases hconsole : consoleSinks c level with e | console
  · exact ⟨KeepsBut.refl _ _, fun _ h => by cases h⟩
  · obtain ⟨hkeep, howns⟩ := fileSinks_keepsBut (q := q) hc c level w
    dsimp only
    generalize fileSinks cwd c level w = built at hkeep howns
    obtain ⟨e | file, w'⟩ := built
    · exact ⟨hkeep, fun _ h => by cases h⟩
    · refine ⟨hkeep, fun sinks h s hs hq => ?_⟩
      cases h
      rcases List.mem_append.1 hs with hs | hs
      · exact absurd hq (not_owns_of_consoleSinks hconsole s hs)
      · exact howns file rfl s hs hq

namespace Hub

/-- A setup changes the file that it asks for at most, and leaves a log that writes to no others. -/
theorem configure_keepsBut (hc : isAbsolute cwd.toList = true) (c : Setup) (force : Bool) (h : Hub)
    (w : Written) :
    KeepsBut (c.Owns cwd) w.disk (h.configure cwd c force w).2.disk ∧
      ∀ q, (h.configure cwd c force w).1.Owns q → h.Owns q ∨ c.Owns cwd q := by
  rw [configure]
  generalize levelOf c.level = level
  split
  · exact ⟨KeepsBut.refl _ _, fun _ => .inl⟩
  · have hbuilt (q : Place) := buildSinks_keepsBut (q := q) hc c level w
    dsimp only
    generalize buildSinks cwd c level w = built at hbuilt
    have hkeep := (hbuilt []).1
    obtain ⟨e | _ | ⟨sink, sinks⟩, w'⟩ := built
    · refine ⟨hkeep.trans ((keepsBut_log _ _ _).mono fun q hq => ?_), fun q hq => ?_⟩ <;>
        obtain ⟨l, hl, -⟩ := hq <;> cases hl
    · refine ⟨hkeep, fun q hq => ?_⟩
      obtain ⟨l, hl, -⟩ := hq
      cases hl
    · refine ⟨hkeep, fun q hq => ?_⟩
      obtain ⟨l, hl, s, hs, hq⟩ := hq
      cases hl
      exact .inr ((hbuilt q).2 _ rfl s hs hq)

end Hub

end Respace.Logging
