import Mathlib.Data.List.Basic
import Respace.Files.Path

/-! The names in a path. Joining adds names at the end, and a path that is full, without steps that lead
    nowhere or back, has the same names once it is simplified. Paths that are made absolute are of this
    kind, and so are the paths of the program's own files. -/

namespace Respace.Text

/-- A text is cut into the parts that the library cuts it into. -/
theorem splitOn_eq (separator : Char) (cs : List Char) : splitOn separator cs = cs.splitOn separator := by
  induction cs with
  | nil => simp [splitOn]
  | cons c cs ih =>
    rw [splitOn, ih, List.splitOn_cons_eq_if_modifyHead]
    obtain ⟨part, parts, hs⟩ := List.exists_cons_of_ne_nil (splitOn_ne_nil separator cs)
    rw [← ih, hs]
    rfl

theorem splitOn_append_cons (separator : Char) (as bs : List Char) :
    splitOn separator (as ++ separator :: bs) = splitOn separator as ++ splitOn separator bs := by
  simp only [splitOn_eq, List.splitOn_append_cons_self]

theorem splitOn_of_notMem {separator : Char} {cs : List Char} (h : separator ∉ cs) :
    splitOn separator cs = [cs] := by
  rw [splitOn_eq, List.splitOn_eq_singleton h]

theorem notMem_of_mem_splitOn {separator : Char} {cs part : List Char} (h : part ∈ splitOn separator cs) :
    separator ∉ part := by
  induction cs generalizing part with
  | nil => simp_all [splitOn]
  | cons c cs ih =>
    obtain ⟨first, parts, hs⟩ := List.exists_cons_of_ne_nil (splitOn_ne_nil separator cs)
    rw [hs] at ih
    simp only [splitOn, hs] at h
    split at h
    · rcases List.mem_cons.1 h with rfl | h
      · simp
      · exact ih h
    · next hc =>
      rcases List.mem_cons.1 h with rfl | h
      · rw [List.mem_cons, not_or]
        exact ⟨fun he => hc (by simp [he]), ih (List.mem_cons_self ..)⟩
      · exact ih (List.mem_cons_of_mem _ h)

theorem splitOn_joinWith {separator : Char} {parts : List (List Char)} (hne : parts ≠ [])
    (h : ∀ part ∈ parts, separator ∉ part) : splitOn separator (joinWith separator parts) = parts := by
  rw [splitOn_eq, joinWith, List.splitOn_intercalate separator h hne]

/-- A text ends in a part that holds no separator. -/
theorem exists_last_part (separator : Char) (cs : List Char) :
    separator ∉ cs ∨ ∃ before last, cs = before ++ separator :: last ∧ separator ∉ last := by
  by_cases h : separator ∈ cs
  · obtain ⟨as, bs, hcs, hlast⟩ := List.eq_append_cons_of_mem (List.mem_reverse.2 h)
    refine .inr ⟨bs.reverse, as.reverse, ?_, by simpa using hlast⟩
    simpa using congrArg List.reverse hcs
  · exact .inl h

end Respace.Text

namespace Respace.Files

open Text

/-! ### Names -/

/-- The names in a path. -/
def names (p : List Char) : List (List Char) := (splitOn '/' p).filter (!·.isEmpty)

/-- What a slash stands between has its names one after the other. -/
theorem names_append_slash (a b : List Char) : names (a ++ '/' :: b) = names a ++ names b := by
  rw [names, splitOn_append_cons, List.filter_append]
  rfl

theorem names_of_notMem {p : List Char} (h : '/' ∉ p) : names p = if p = [] then [] else [p] := by
  rw [names, splitOn_of_notMem h]
  cases p <;> rfl

theorem names_join {base p : List Char} (hp : isAbsolute p = false) :
    names (join base p) = names base ++ names p := by
  simp only [join, hp, Bool.false_eq_true, if_false]
  split
  · next hb =>
    simp only [Bool.or_eq_true, List.isEmpty_iff, beq_iff_eq, List.getLast?_eq_some_iff] at hb
    rcases hb with rfl | ⟨base, rfl⟩
    · rfl
    · rw [List.append_assoc, List.singleton_append, names_append_slash, names_append_slash]
      exact congrArg (· ++ names p) (List.append_nil _).symm
  · exact names_append_slash base p

/-- What is written right behind a path takes no names away. -/
theorem length_names_le_append (p : List Char) {s : List Char} (hs : '/' ∉ s) :
    (names p).length ≤ (names (p ++ s)).length := by
  have hone {last : List Char} (h : '/' ∉ last) :
      (names last).length ≤ (names (last ++ s)).length := by
    rw [names_of_notMem h, names_of_notMem (by simp [h, hs])]
    cases last <;> simp
  rcases exists_last_part '/' p with h | ⟨before, last, rfl, h⟩
  · exact hone h
  · rw [List.append_assoc, List.cons_append, names_append_slash, names_append_slash, List.length_append,
      List.length_append]
    exact Nat.add_le_add_left (hone h) _

/-- A name of something in a folder: no step that leads nowhere or back. -/
structure IsName (n : List Char) : Prop where
  ne_nil : n ≠ []
  slash : '/' ∉ n
  dot : n ≠ ['.']
  dots : n ≠ ['.', '.']

theorem names_of_isName {n : List Char} (h : IsName n) : names n = [n] := by
  rw [names_of_notMem h.slash, if_neg h.ne_nil]

theorem isAbsolute_of_isName {n : List Char} (h : IsName n) : isAbsolute n = false := by
  cases n with
  | nil => rfl
  | cons c n =>
    have hc : c ≠ '/' := fun hc => h.slash (hc ▸ List.mem_cons_self ..)
    simp [isAbsolute, hc]

/-- A path from the root on, without steps that lead nowhere or back. -/
structure IsFull (p : List Char) : Prop where
  absolute : isAbsolute p = true
  isName : ∀ n ∈ names p, IsName n

theorem isAbsolute_join {base : List Char} (hb : isAbsolute base = true) (p : List Char) :
    isAbsolute (join base p) = true := by
  rw [join]
  split
  · assumption
  · cases base with
    | nil => cases hb
    | cons c base => split <;> exact hb

theorem isFull_join {base n : List Char} (hb : IsFull base) (hn : IsName n) : IsFull (join base n) := by
  refine ⟨isAbsolute_join hb.absolute n, fun m hm => ?_⟩
  rw [names_join (isAbsolute_of_isName hn), names_of_isName hn, List.mem_append, List.mem_singleton] at hm
  rcases hm with hm | rfl
  · exact hb.isName m hm
  · exact hn

theorem names_join_of_isName {base n : List Char} (hn : IsName n) :
    names (join base n) = names base ++ [n] := by
  rw [names_join (isAbsolute_of_isName hn), names_of_isName hn]

/-! ### Simplified paths -/

theorem isName_addPart {parts : List (List Char)} {part : List Char} (hp : ∀ n ∈ parts, IsName n)
    (hs : '/' ∉ part) : ∀ n ∈ addPart true parts part, IsName n := by
  unfold addPart
  split
  · exact hp
  next hdot =>
  rw [Bool.or_eq_true, beq_iff_eq, beq_iff_eq, not_or] at hdot
  split
  · cases parts with
    | nil => exact nofun
    | cons p rest =>
      have hpd : (p == ['.', '.']) = false := by simpa using (hp p (List.mem_cons_self ..)).dots
      simp only [hpd]
      exact fun n hn => hp n (List.mem_cons_of_mem _ hn)
  · next hdots =>
    intro n hn
    rcases List.mem_cons.1 hn with rfl | hn
    · exact ⟨hdot.1, hs, hdot.2, by simpa using hdots⟩
    · exact hp n hn

theorem isName_foldl_addPart {rest parts : List (List Char)} (hp : ∀ n ∈ parts, IsName n)
    (hs : ∀ part ∈ rest, '/' ∉ part) : ∀ n ∈ rest.foldl (addPart true) parts, IsName n := by
  induction rest generalizing parts with
  | nil => exact hp
  | cons part rest ih =>
    rw [List.forall_mem_cons] at hs
    exact ih (isName_addPart hp hs.1) hs.2

/-- Names are added as they are. -/
theorem foldl_addPart_of_isName {rest : List (List Char)} (parts : List (List Char))
    (h : ∀ n ∈ rest.filter (!·.isEmpty), IsName n) :
    rest.foldl (addPart true) parts = (rest.filter (!·.isEmpty)).reverse ++ parts := by
  induction rest generalizing parts with
  | nil => rfl
  | cons part rest ih =>
    rw [List.foldl_cons]
    by_cases hpart : part = []
    · subst hpart
      exact ih parts h
    · have hf : (part :: rest).filter (!·.isEmpty) = part :: rest.filter (!·.isEmpty) := by simp [hpart]
      rw [hf] at h ⊢
      rw [List.forall_mem_cons] at h
      have hadd : addPart true parts part = part :: parts := by
        simp [addPart, h.1.ne_nil, h.1.dot, h.1.dots]
      rw [hadd, ih _ h.2, List.reverse_cons, List.append_assoc, List.singleton_append]

theorem rootOf_of_isAbsolute {p : List Char} (hp : isAbsolute p = true) :
    rootOf p = ['/'] ∨ rootOf p = ['/', '/'] := by
  cases p with
  | nil => cases hp
  | cons c p =>
    obtain rfl : c = '/' := by simpa [isAbsolute] using hp
    unfold rootOf
    split <;> simp_all

theorem names_joinWith {parts : List (List Char)} (h : ∀ n ∈ parts, IsName n) :
    names (joinWith '/' parts) = parts := by
  by_cases hne : parts = []
  · subst hne
    rfl
  · rw [names, splitOn_joinWith hne fun n hn => (h n hn).slash, List.filter_eq_self]
    exact fun n hn => by simp [(h n hn).ne_nil]

/-- A simplified path starts at the root if the path does, and its names are what its parts add up to. -/
theorem simplify_of_isAbsolute {p : List Char} (hp : isAbsolute p = true) :
    isAbsolute (simplify p) = true ∧
      names (simplify p) = ((splitOn '/' p).foldl (addPart true) []).reverse := by
  have hname : ∀ n ∈ ((splitOn '/' p).foldl (addPart true) []).reverse, IsName n := by
    simp only [List.mem_reverse]
    exact isName_foldl_addPart nofun fun _ h => notMem_of_mem_splitOn h
  have hnames := names_joinWith hname
  have hroot (cs : List Char) : names ('/' :: cs) = names cs := names_append_slash [] cs
  rw [simplify, hp]
  rcases rootOf_of_isAbsolute hp with hr | hr
  · rw [hr]
    exact ⟨rfl, (hroot _).trans hnames⟩
  · rw [hr]
    exact ⟨rfl, (hroot _).trans ((hroot _).trans hnames)⟩

theorem isFull_simplify {p : List Char} (hp : isAbsolute p = true) : IsFull (simplify p) := by
  obtain ⟨habs, hnames⟩ := simplify_of_isAbsolute hp
  refine ⟨habs, ?_⟩
  rw [hnames]
  simp only [List.mem_reverse]
  exact isName_foldl_addPart nofun fun _ h => notMem_of_mem_splitOn h

theorem names_simplify_of_isFull {p : List Char} (hp : IsFull p) : names (simplify p) = names p := by
  rw [(simplify_of_isAbsolute hp.absolute).2, foldl_addPart_of_isName [] hp.isName, List.append_nil,
    List.reverse_reverse, names]

theorem isFull_absolute {cwd : List Char} (hc : isAbsolute cwd = true) (p : List Char) :
    IsFull (absolute cwd p) := by
  rw [absolute]
  split
  · next hp => exact isFull_simplify hp
  · exact isFull_simplify (isAbsolute_join hc p)

theorem names_absolute_of_isFull (cwd : List Char) {p : List Char} (hp : IsFull p) :
    names (absolute cwd p) = names p := by
  rw [absolute, if_pos hp.absolute, names_simplify_of_isFull hp]

/-! ### The program's own files -/

section own

variable (system : System) (env : Environment) {cwd : String}

theorem isFull_dataPath (hc : isAbsolute cwd.toList = true) :
    IsFull (dataPath system env cwd).toList := by
  rw [dataPath, String.toList_ofList]
  exact isFull_absolute hc _

/-- The saved settings lie in the folder of the program's data. -/
theorem settingsPath_of_isAbsolute (hc : isAbsolute cwd.toList = true) :
    IsFull (settingsPath system env cwd).toList ∧ names (settingsPath system env cwd).toList =
      names (dataPath system env cwd).toList ++ ["config.json".toList] := by
  have hn : IsName "config.json".toList := ⟨by decide, by decide, by decide, by decide⟩
  rw [settingsPath, String.toList_ofList]
  exact ⟨isFull_join (isFull_dataPath system env hc) hn, names_join_of_isName hn⟩

/-- The log lies one folder deeper. -/
theorem length_names_logPath (hc : isAbsolute cwd.toList = true) {name : String}
    (hn : IsName name.toList) :
    (names (settingsPath system env cwd).toList).length <
      (names (absolute cwd.toList (logPath system env cwd name).toList)).length := by
  have hl : IsName "logs".toList := ⟨by decide, by decide, by decide, by decide⟩
  have hfull := isFull_join (isFull_join (isFull_dataPath system env hc) hl) hn
  rw [logPath, String.toList_ofList, names_absolute_of_isFull _ hfull, names_join_of_isName hn,
    names_join_of_isName hl, (settingsPath_of_isAbsolute system env hc).2]
  simp

end own

end Respace.Files
