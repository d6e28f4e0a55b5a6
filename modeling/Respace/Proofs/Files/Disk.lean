import Mathlib.Data.List.DropRight
import Respace.Files.Disk
import Respace.Proofs.Except
import Respace.Proofs.Files.Path

/-! What stays on a disk. A walk looks at folders only, and along a full path it passes the places above
    the one that it leads to and no others. So what a full path leads to is found again on any disk that
    keeps what was on the way to it, as a disk does when folders are made or files are put elsewhere. A
    file that is written is found where it was written, and nothing else changes but for folders that are
    made on the way. -/

namespace Respace.Files

open Text

namespace Disk

variable {d d' d'' : Disk} {p q r : Place} {cwd : Place} {n : Node} {path : String}

/-! ### Single places -/

theorem lookup_putNode (p q : Place) (n : Node) (nodes : List (Place × Node)) :
    (putNode p n nodes).lookup q = if q = p then some n else nodes.lookup q := by
  induction nodes with
  | nil =>
    by_cases hq : q = p
    · simp [putNode, hq]
    · have hb : (q == p) = false := beq_eq_false_iff_ne.2 hq
      simp [putNode, List.lookup_cons, hb, hq]
  | cons e rest ih =>
    obtain ⟨r, m⟩ := e
    by_cases hr : r = p
    · subst hr
      by_cases hq : q = r
      · simp [putNode, hq]
      · have hb : (q == r) = false := beq_eq_false_iff_ne.2 hq
        simp [putNode, List.lookup_cons, hb, hq]
    · have hb : (r == p) = false := beq_eq_false_iff_ne.2 hr
      by_cases hq : q = r
      · subst hq
        simp [putNode, hb, hr]
      · have hbq : (q == r) = false := beq_eq_false_iff_ne.2 hq
        simp [putNode, List.lookup_cons, hb, hbq, ih]

theorem lookup_filter_ne (p q : Place) (nodes : List (Place × Node)) (h : q ≠ p) :
    (nodes.filter (·.1 != p)).lookup q = nodes.lookup q := by
  induction nodes with
  | nil => rfl
  | cons e rest ih =>
    obtain ⟨r, m⟩ := e
    by_cases hr : r = p
    · subst hr
      have hb : (q == r) = false := beq_eq_false_iff_ne.2 h
      simpa [List.lookup_cons, hb] using ih
    · have hb : (r != p) = true := by simpa using hr
      simp only [List.filter_cons, hb, if_true, List.lookup_cons, ih]

theorem node?_put_self (hp : p ≠ []) : (d.put p n).node? p = some n := by
  rw [node?, if_neg (by simpa using hp), put, lookup_putNode, if_pos rfl]

theorem node?_put_of_ne (h : q ≠ p) : (d.put p n).node? q = d.node? q := by
  rw [node?, node?, put, lookup_putNode, if_neg h]

theorem node?_remove_of_ne (h : q ≠ p) : (d.remove p).node? q = d.node? q := by
  rw [node?, node?, remove, lookup_filter_ne p q d.nodes h]

/-! ### Steps and walks -/

theorem node?_of_walkStep {name : String} (h : d.walkStep p name = .ok r) : d.node? p = some .folder := by
  rw [walkStep] at h
  split at h
  · cases h
  · cases h
  · assumption

theorem walkStep_congr (h : d.node? p = some .folder) (h' : d'.node? p = some .folder) (name : String) :
    d'.walkStep p name = d.walkStep p name := by
  rw [walkStep, walkStep, h, h']

/-- Steps are made as before while folders stay folders. -/
theorem foldlM_walkStep_of_folders (hk : ∀ q, d.node? q = some .folder → d'.node? q = some .folder)
    {steps : List String} (h : steps.foldlM d.walkStep p = .ok r) :
    steps.foldlM d'.walkStep p = .ok r := by
  induction steps generalizing p with
  | nil => exact h
  | cons name steps ih =>
    rw [List.foldlM_cons] at h ⊢
    obtain ⟨q, hq, h⟩ := bind_eq_ok_iff.1 h
    have hf := node?_of_walkStep hq
    exact bind_eq_ok_iff.2 ⟨q, by rw [walkStep_congr hf (hk p hf), hq], ih h⟩

theorem walk_of_folders (hk : ∀ q, d.node? q = some .folder → d'.node? q = some .folder)
    (h : d.walk cwd path = .ok p) : d'.walk cwd path = .ok p := by
  rw [walk] at h ⊢
  split at h
  · cases h
  · next hne =>
    rw [if_neg hne]
    exact foldlM_walkStep_of_folders hk h

/-! ### What stays on the way to a place -/

/-- Whether all that is on the way to a place, and at it, stays as it is. -/
def KeepsTo (q : Place) (d d' : Disk) : Prop :=
  ∀ p, p <+: q → ∀ n, d.node? p = some n → d'.node? p = some n

/-! ### What stays but for some places -/

/-- Whether a disk stays as it is but for places that are free to change, and for folders that are made
    where nothing was. -/
def KeepsBut (free : Place → Prop) (d d' : Disk) : Prop :=
  ∀ p, ¬ free p → d'.node? p = d.node? p ∨ d.node? p = none ∧ d'.node? p = some .folder

namespace KeepsBut

variable {free free' : Place → Prop}

theorem refl (free : Place → Prop) (d : Disk) : KeepsBut free d d := fun _ _ => .inl rfl

theorem trans (h : KeepsBut free d d') (h' : KeepsBut free d' d'') : KeepsBut free d d'' := by
  intro p hp
  rcases h' p hp with hsame | ⟨hnone, hfolder⟩
  · rw [hsame]
    exact h p hp
  · rcases h p hp with hsame | ⟨_, hfolder'⟩
    · exact .inr ⟨hsame ▸ hnone, hfolder⟩
    · rw [hnone] at hfolder'
      cases hfolder'

theorem mono (hf : ∀ p, free p → free' p) (h : KeepsBut free d d') : KeepsBut free' d d' :=
  fun p hp => h p fun hfree => hp (hf p hfree)

theorem put (hp : free p) : KeepsBut free d (d.put p n) := by
  intro q hq
  have hqp : q ≠ p := by
    rintro rfl
    exact hq hp
  exact .inl (node?_put_of_ne hqp)

theorem remove (hp : free p) : KeepsBut free d (d.remove p) := by
  intro q hq
  have hqp : q ≠ p := by
    rintro rfl
    exact hq hp
  exact .inl (node?_remove_of_ne hqp)

theorem putFolder (hp : d.node? p = none) : KeepsBut free d (d.put p .folder) := by
  intro q _
  by_cases hqp : q = p
  · subst hqp
    have hne : q ≠ [] := by
      rintro rfl
      cases hp
    exact .inr ⟨hp, node?_put_self hne⟩
  · exact .inl (node?_put_of_ne hqp)

/-- Files are the same but at places that are free to change. -/
theorem file_iff (h : KeepsBut free d d') (hp : ¬ free p) (content : ByteArray) :
    d'.node? p = some (.file content) ↔ d.node? p = some (.file content) := by
  rcases h p hp with hsame | ⟨hnone, hfolder⟩
  · rw [hsame]
  · simp [hnone, hfolder]

/-- All that is on the way to a place stays when nothing on it is free to change. -/
theorem keepsTo (h : KeepsBut free d d') (hq : ∀ p, free p → ¬ p <+: q) : KeepsTo q d d' := by
  intro p hp n hn
  rcases h p fun hfree => hq p hfree hp with hsame | ⟨hnone, _⟩
  · rwa [hsame]
  · rw [hn] at hnone
    cases hnone

end KeepsBut

/-- A walk by names passes the places above the one that it leads to, and leads there again while all on
    the way stays. -/
theorem foldlM_walkStep_of_keepsTo {steps : List String} (hs : ∀ s ∈ steps, s ≠ "." ∧ s ≠ "..")
    (h : steps.foldlM d.walkStep p = .ok r) :
    r = p ++ steps.filter (!·.isEmpty) ∧ (KeepsTo r d d' → steps.foldlM d'.walkStep p = .ok r) := by
  induction steps generalizing p with
  | nil =>
    cases h
    exact ⟨by simp, fun _ => rfl⟩
  | cons name steps ih =>
    rw [List.forall_mem_cons] at hs
    rw [List.foldlM_cons] at h
    obtain ⟨q, hq, h⟩ := bind_eq_ok_iff.1 h
    have hf := node?_of_walkStep hq
    obtain ⟨hr, hkeep⟩ := ih hs.2 h
    have hqp : q = p ++ [name].filter (!·.isEmpty) := by
      rw [walkStep, hf] at hq
      by_cases hname : name = ""
      · subst hname
        cases hq
        simp
      · have hne : name.isEmpty = false := by simpa using hname
        simp only [beq_eq_false_iff_ne.2 hname, beq_eq_false_iff_ne.2 hs.1.1,
          beq_eq_false_iff_ne.2 hs.1.2, Bool.or_self, Bool.false_eq_true, if_false] at hq
        split at hq <;> cases hq
        simp [hne]
    have hrp : r = p ++ (name :: steps).filter (!·.isEmpty) := by
      rw [hr, hqp, List.append_assoc, ← List.filter_append]
      rfl
    refine ⟨hrp, fun hk => ?_⟩
    have hp : d'.node? p = some .folder := hk p ⟨_, hrp.symm⟩ _ hf
    rw [List.foldlM_cons]
    exact bind_eq_ok_iff.2 ⟨q, by rw [walkStep_congr hf hp, hq], hkeep hk⟩

/-! ### Full paths -/

theorem filter_steps (cs : List Char) :
    ((splitOn '/' cs).map String.ofList).filter (!·.isEmpty) = (names cs).map String.ofList := by
  rw [List.filter_map, names]
  refine congrArg (List.map String.ofList) (List.filter_congr fun part _ => ?_)
  cases part <;> simp

/-- The steps of a full path lead to names only. -/
theorem step_of_isFull {cs : List Char} (hp : IsFull cs) :
    ∀ s ∈ (splitOn '/' cs).map String.ofList, s ≠ "." ∧ s ≠ ".." := by
  intro s hs
  obtain ⟨part, hpart, rfl⟩ := List.mem_map.1 hs
  by_cases hne : part = []
  · subst hne
    exact ⟨by decide, by decide⟩
  · have hname := hp.isName part (List.mem_filter.2 ⟨hpart, by simpa using hne⟩)
    constructor <;> intro he <;> replace he := congrArg String.toList he <;>
      rw [String.toList_ofList] at he
    · exact hname.dot he
    · exact hname.dots he

/-- A full path leads to its own place, and does so again while all on the way stays. -/
theorem walk_of_isFull (hp : IsFull path.toList) (h : d.walk cwd path = .ok p) :
    p = placeOf path ∧ (KeepsTo p d d' → d'.walk cwd path = .ok p) := by
  rw [walk] at h ⊢
  split at h
  · cases h
  next hne =>
  rw [if_neg hne]
  simp only [hp.absolute, if_true] at h ⊢
  obtain ⟨hpath, hkeep⟩ := foldlM_walkStep_of_keepsTo (step_of_isFull hp) h
  rw [filter_steps, List.nil_append] at hpath
  exact ⟨hpath, hkeep⟩

theorem read_eq_ok_iff {content : ByteArray} :
    d.read cwd path = .ok content ↔
      checkPath path = .ok () ∧ ∃ p, d.find cwd path = .ok (p, .file content) := by
  constructor
  · intro h
    obtain ⟨_, hcheck, h⟩ := bind_eq_ok_iff.1 h
    refine ⟨hcheck, ?_⟩
    split at h
    · next p found hfind =>
      cases h
      exact ⟨p, hfind⟩
    · cases h
    · cases h
  · rintro ⟨hcheck, p, hfind⟩
    exact bind_eq_ok_iff.2 ⟨_, hcheck, by rw [hfind]; rfl⟩

/-- The file at a full path reads the same while all on the way stays. -/
theorem read_of_isFull {content : ByteArray} (hp : IsFull path.toList)
    (h : d.read cwd path = .ok content) (hk : KeepsTo (placeOf path) d d') :
    d'.read cwd path = .ok content := by
  obtain ⟨hcheck, p, hfind⟩ := read_eq_ok_iff.1 h
  obtain ⟨q, hwalk, hq⟩ := bind_eq_ok_iff.1 hfind
  split at hq
  · next n hn =>
    cases hq
    obtain ⟨rfl, hkeep⟩ := walk_of_isFull hp hwalk
    refine read_eq_ok_iff.2 ⟨hcheck, placeOf path, bind_eq_ok_iff.2 ⟨_, hkeep hk, ?_⟩⟩
    rw [hk _ (List.prefix_refl _) _ hn]
    rfl
  · cases hq

theorem holds_of_read {content : ByteArray} (h : d.read cwd path = .ok content) :
    d.holds cwd path = true ∧ d.holdsFile cwd path = true := by
  obtain ⟨hcheck, p, hfind⟩ := read_eq_ok_iff.1 h
  rw [checkPath] at hcheck
  split at hcheck
  · cases hcheck
  next hnull =>
  rw [holds, holdsFile, Bool.eq_false_iff.2 hnull, hfind]
  exact ⟨rfl, rfl⟩

theorem ne_of_read {content : ByteArray} (h : d.read cwd path = .ok content) : path ≠ "" := by
  rintro rfl
  obtain ⟨-, p, hfind⟩ := read_eq_ok_iff.1 h
  cases hfind

/-! ### Folders that are made -/

section folders

variable {free : Place → Prop}

theorem keepsBut_makeFolder (h : d.makeFolder path = .ok d') : KeepsBut free d d' := by
  obtain ⟨_, -, h⟩ := bind_eq_ok_iff.1 h
  split at h
  · cases h
  · split at h
    · cases h
      exact KeepsBut.refl free d
    · cases h
    · next hnone =>
      cases h
      exact .putFolder hnone

theorem keepsBut_makeEach (d : Disk) (paths : List String) : KeepsBut free d (d.makeEach paths).2 := by
  fun_induction makeEach d paths with
  | case1 d => exact KeepsBut.refl free d
  | case2 d p rest _ ih => exact ih
  | case3 d p rest _ d' hd ih => exact (keepsBut_makeFolder hd).trans ih
  | case4 d p rest _ e hd => exact KeepsBut.refl free d

theorem keepsBut_makeFolders (d : Disk) (path : String) : KeepsBut free d (d.makeFolders path).2 :=
  keepsBut_makeEach d _

/-- Folders that are made leave all alone that is on the way to a place. -/
theorem keepsTo_makeFolders (d : Disk) (path : String) (q : Place) :
    KeepsTo q d (d.makeFolders path).2 := by
  have hkeep : KeepsBut (fun _ => False) d (d.makeFolders path).2 := keepsBut_makeFolders d path
  exact hkeep.keepsTo nofun

end folders

/-! ### Files that are written -/

/-- The folder part of a path ends behind its last slash, and the name follows. -/
theorem exists_splitOn_folder (cs : List Char) :
    ∃ steps, splitOn '/' (cs.rdropWhile (· != '/')) = steps ++ [[]] ∧
      splitOn '/' cs = steps ++ [cs.drop (cs.rdropWhile (· != '/')).length] := by
  rcases exists_last_part '/' cs with h | ⟨before, last, rfl, h⟩
  · have hnil : cs.rdropWhile (· != '/') = [] := by
      rw [List.rdropWhile_eq_nil_iff]
      intro c hc
      have hne : c ≠ '/' := fun he => h (he ▸ hc)
      simpa using hne
    rw [hnil]
    exact ⟨[], rfl, splitOn_of_notMem h⟩
  · have hfolder : (before ++ '/' :: last).rdropWhile (· != '/') = before ++ ['/'] := by
      have hall : ∀ c ∈ last, (c != '/') = true := by
        intro c hc
        have hne : c ≠ '/' := fun he => h (he ▸ hc)
        simpa using hne
      rw [List.rdropWhile, List.reverse_append, List.reverse_cons, List.append_assoc,
        List.dropWhile_append_of_pos (by simpa using hall)]
      simp
    rw [hfolder]
    refine ⟨splitOn '/' before, splitOn_append_cons .., ?_⟩
    rw [splitOn_append_cons, splitOn_of_notMem h]
    simp

/-- A file is written where its path leads, and not in the place of a folder. -/
theorem placeToWrite_eq_ok (h : d.placeToWrite cwd path = .ok p) :
    d.walk cwd path = .ok p ∧ d.node? p ≠ some .folder := by
  rw [placeToWrite] at h
  split at h
  · cases h
  next hne =>
  obtain ⟨q, hq, h⟩ := bind_eq_ok_iff.1 h
  split at h
  · cases h
  next hslash =>
  obtain ⟨r, hr, h⟩ := bind_eq_ok_iff.1 h
  -- no slash ends the path, so that the name behind the folder is not empty
  have hhead : (path.toList.reverse.dropWhile (· == '/')).reverse = path.toList :=
    (List.rdropWhile_prefix ..).eq_of_length_le
      (by simpa [List.rdropWhile, String.length_toList] using hslash)
  have hrp : r = p ∧ d.node? r ≠ some .folder := by
    split at h
    · cases h
    · next hn =>
      cases h
      exact ⟨rfl, hn⟩
  obtain ⟨rfl, hn⟩ := hrp
  refine ⟨?_, hn⟩
  rw [hhead] at hq hr
  obtain ⟨steps, hfolder, hpath⟩ := exists_splitOn_folder path.toList
  rw [List.rdropWhile] at hfolder hpath
  rw [hfolder, List.map_append, List.foldlM_append] at hq
  obtain ⟨folder, hsteps, hempty⟩ := bind_eq_ok_iff.1 hq
  have hstay : folder = q := by
    obtain ⟨q', hq', hpure⟩ := bind_eq_ok_iff.1 hempty
    cases hpure
    rw [walkStep, node?_of_walkStep hq'] at hq'
    exact Except.ok.inj hq'
  rw [walk, if_neg hne]
  dsimp only
  rw [hpath, List.map_append, List.foldlM_append]
  exact bind_eq_ok_iff.2 ⟨folder, hsteps, bind_eq_ok_iff.2 ⟨r, hstay ▸ hr, rfl⟩⟩

theorem placeToWrite_of_isFull (hp : IsFull path.toList) (h : d.placeToWrite cwd path = .ok p) :
    p = placeOf path := by
  obtain ⟨hplace, -⟩ : p = placeOf path ∧ (KeepsTo p d d → d.walk cwd path = .ok p) :=
    walk_of_isFull hp (placeToWrite_eq_ok h).1
  exact hplace

theorem read_of_write {content : ByteArray} (h : d.write cwd path content = .ok d') :
    d'.read cwd path = .ok content := by
  obtain ⟨_, hcheck, h⟩ := bind_eq_ok_iff.1 h
  split at h
  · next p hplace =>
    cases h
    obtain ⟨hwalk, hfolder⟩ := placeToWrite_eq_ok hplace
    have hp : p ≠ [] := by
      rintro rfl
      exact hfolder rfl
    refine read_eq_ok_iff.2 ⟨hcheck, p, bind_eq_ok_iff.2 ⟨p, walk_of_folders (fun q hq => ?_) hwalk, ?_⟩⟩
    · have hqp : q ≠ p := by
        rintro rfl
        exact hfolder hq
      rwa [node?_put_of_ne hqp]
    · rw [node?_put_self hp]
      rfl
  · cases h

end Disk

section texts

variable {free : Place → Prop} {d d' : Disk} {cwd path text : String}

/-- Folders are made first; then the text is written, or there is an error and nothing else changes. -/
theorem writeText_eq (free : Place → Prop) {result : Except PathError Unit}
    (h : writeText d cwd path text = (result, d')) :
    ∃ made, Disk.KeepsBut free d made ∧ ((∃ e, result = .error e ∧ d' = made) ∨
      result = .ok () ∧ made.write (placeOf cwd) path (encode text) = .ok d') := by
  unfold writeText at h
  have hmade : Disk.KeepsBut free d (d.makeFolderOf cwd path).2 := Disk.keepsBut_makeFolders d _
  generalize d.makeFolderOf cwd path = made at h hmade
  obtain ⟨e | _, made⟩ := made
  · cases h
    exact ⟨d', hmade, .inl ⟨e, rfl, rfl⟩⟩
  · dsimp only at h
    split at h
    · next hwrite =>
      cases h
      exact ⟨made, hmade, .inr ⟨rfl, hwrite⟩⟩
    · next e _ =>
      cases h
      exact ⟨d', hmade, .inl ⟨e, rfl, rfl⟩⟩

theorem readText_of_writeText (h : writeText d cwd path text = (.ok (), d')) :
    readText d' cwd path = .ok text := by
  obtain ⟨made, -, ⟨_, herr, -⟩ | ⟨-, hwrite⟩⟩ := writeText_eq (fun _ => False) h
  · cases herr
  · have hread : (d'.read (placeOf cwd) path).mapError ReadError.path = .ok (encode text) :=
      mapError_eq_ok_iff.2 (Disk.read_of_write hwrite)
    have hdecode : (decode (encode text)).mapError ReadError.bytes = .ok text :=
      mapError_eq_ok_iff.2 (decode_encode text)
    unfold readText
    exact bind_eq_ok_iff.2 ⟨_, hread, hdecode⟩

end texts

/-- A text at a full path reads the same while all on the way stays. -/
theorem readText_of_isFull {d d' : Disk} {cwd path text : String} (hp : IsFull path.toList)
    (h : readText d cwd path = .ok text) (hk : Disk.KeepsTo (placeOf path) d d') :
    readText d' cwd path = .ok text := by
  unfold readText at h ⊢
  obtain ⟨content, hread, hdecode⟩ := bind_eq_ok_iff.1 h
  have hread' := Disk.read_of_isFull hp (mapError_eq_ok_iff.1 hread) hk
  exact bind_eq_ok_iff.2 ⟨content, mapError_eq_ok_iff.2 hread', hdecode⟩

end Respace.Files
