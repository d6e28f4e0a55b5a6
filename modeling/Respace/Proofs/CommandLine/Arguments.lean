import Respace.CommandLine.Arguments
import Respace.Proofs.Except

/-! What words come to. A switch that is set stays set, and a word that names one sets it, unless help is
    asked for or the words are not understood. An input that is given before other words is what they fall
    back on: it counts unless they give one themselves. -/

namespace Respace.CommandLine

variable {a a' : Arguments} {left : List String} {words : List Word}

theorem goOn_eq_run_iff {reading : Except ArgumentError Request}
    {next : Arguments → Except ArgumentError Request} :
    goOn reading next = .ok (.run a') ↔ ∃ a, reading = .ok (.run a) ∧ next a = .ok (.run a') := by
  rcases reading with e | _ | a
  · simp [goOn, bind, Except.bind]
  · simp [goOn, bind, Except.bind, pure, Except.pure]
  · simp [goOn, bind, Except.bind]

/-! ### Asking for the settings -/

theorem dumpConfig_of_set {s : Switch} {v : String} (h : a.set s v = .ok (.run a'))
    (hd : a.dumpConfig = true ∨ s = .dumpConfig) : a'.dumpConfig = true := by
  cases s with
  | help => cases h
  | input | output | mode | indent | model =>
    obtain ⟨g, -, h⟩ := bind_eq_ok_iff.1 h
    cases h
    exact hd.resolve_right nofun
  | dumpConfig =>
    cases h
    rfl
  | _ =>
    cases h
    exact hd.resolve_right nofun

theorem dumpConfig_of_setAll {options : List (Switch × String)} (h : a.setAll options = .ok (.run a'))
    (hd : a.dumpConfig = true ∨ .dumpConfig ∈ options.map Prod.fst) : a'.dumpConfig = true := by
  induction options generalizing a with
  | nil =>
    cases h
    exact hd.resolve_right nofun
  | cons o options ih =>
    obtain ⟨b, hb, h⟩ := goOn_eq_run_iff.1 h
    rw [List.map_cons, List.mem_cons, ← or_assoc] at hd
    exact ih h (hd.imp_left fun hd => dumpConfig_of_set hb (hd.imp_right Eq.symm))

/-- Words that are understood leave none over, and one that asks for the settings is heard. -/
theorem dumpConfig_of_gather (h : gather a left words = .ok (.run a')) :
    left = [] ∧ .separator ∉ words ∧
      (a.dumpConfig = true ∨ .option .dumpConfig true none ∈ words → a'.dumpConfig = true) := by
  fun_induction gather a left words with
  | case1 a left hl =>
    cases h
    exact ⟨List.isEmpty_iff.1 hl, List.not_mem_nil, fun hd => hd.resolve_right List.not_mem_nil⟩
  | case2 a left hl => cases h
  | case3 a left w rest ih => simp at ih; exact absurd h ih
  | case4 a left w rest ih => simp at ih; exact absurd h ih
  | case5 a left rest ih => simp at ih; exact absurd h ih
  | case6 => cases h
  | case7 a left s long attached rest complete ht ih =>
    obtain ⟨b, hb, h⟩ := goOn_eq_run_iff.1 h
    obtain ⟨hl, hs, hd⟩ := ih b h
    refine ⟨hl, by simp [hs], fun hw => hd ?_⟩
    rw [List.mem_cons] at hw
    rcases hw with hw | hw | hw
    · exact .inl (dumpConfig_of_setAll hb (.inl hw))
    · cases hw
      cases ht
      exact .inl (dumpConfig_of_setAll hb (.inr (List.mem_singleton.2 rfl)))
    · exact .inr hw
  | case8 a left s long attached complete w ht v rest ih =>
    obtain ⟨b, hb, h⟩ := goOn_eq_run_iff.1 h
    obtain ⟨hl, hs, hd⟩ := ih b h
    refine ⟨hl, by simp [hs], fun hw => hd ?_⟩
    rw [List.mem_cons, List.mem_cons] at hw
    rcases hw with hw | hw | hw | hw
    · exact .inl (dumpConfig_of_setAll hb (.inl hw))
    · cases hw
      cases ht
    · cases hw
    · exact .inr hw
  | case9 => cases h

/-- The word that asks for the settings is taken for what it is, unless two dashes stand before it. -/
theorem mem_readWords {texts : List String} (ht : "--dump-config" ∈ texts)
    (h : readWords texts = .ok words) : .option .dumpConfig true none ∈ words ∨ .separator ∈ words := by
  induction texts generalizing words with
  | nil => cases ht
  | cons text texts ih =>
    rw [readWords] at h
    split at h
    · cases h
      exact .inr (List.mem_cons_self ..)
    · obtain ⟨word, hword, h⟩ := bind_eq_ok_iff.1 h
      obtain ⟨rest, hrest, h⟩ := bind_eq_ok_iff.1 h
      cases h
      rcases List.mem_cons.1 ht with rfl | ht
      · have hd : readWord "--dump-config" = .ok (.option .dumpConfig true none) := rfl
        rw [hd] at hword
        cases hword
        exact .inl (List.mem_cons_self ..)
      · exact (ih ht hrest).imp (List.mem_cons_of_mem _) (List.mem_cons_of_mem _)

/-- A run whose words ask for the settings shows them. -/
theorem dumpConfig_of_mem {texts : List String} (ht : "--dump-config" ∈ texts)
    (h : readArguments texts = .ok (.run a)) : a.dumpConfig = true := by
  obtain ⟨words, hwords, h⟩ := bind_eq_ok_iff.1 h
  obtain ⟨-, hs, hd⟩ := dumpConfig_of_gather h
  exact hd (.inr ((mem_readWords ht hwords).resolve_right hs))

/-! ### An input before other words -/

variable (i : Option (Given String))

/-- Arguments with an input to fall back on. -/
def Arguments.orInput (a : Arguments) : Arguments := { a with inputPath := a.inputPath <|> i }

/-- What a command line comes to, with an input to fall back on. -/
def Request.orInput : Request → Request
  | .help => .help
  | .run a => .run (a.orInput i)

theorem goOn_orInput {reading : Except ArgumentError Request}
    {next next' : Arguments → Except ArgumentError Request}
    (h : ∀ a, next (a.orInput i) = (next' a).map (Request.orInput i)) :
    goOn (reading.map (Request.orInput i)) next = (goOn reading next').map (Request.orInput i) := by
  rcases reading with e | _ | a
  · rfl
  · rfl
  · exact h a

/-- Options are set alike with an input to fall back on; one that gives an input overrides it. -/
theorem set_orInput (a : Arguments) (s : Switch) (v : String) :
    (a.orInput i).set s v = (a.set s v).map (Request.orInput i) := by
  cases s with
  | input | output | model =>
    simp only [Arguments.set]
    cases given .ok v <;> rfl
  | mode =>
    simp only [Arguments.set]
    cases given (readMode .mode) v <;> rfl
  | indent =>
    simp only [Arguments.set]
    cases given (readCount .indent) v <;> rfl
  | _ => rfl

theorem setAll_orInput (a : Arguments) (options : List (Switch × String)) :
    (a.orInput i).setAll options = (a.setAll options).map (Request.orInput i) := by
  induction options generalizing a with
  | nil => rfl
  | cons o options ih =>
    obtain ⟨s, v⟩ := o
    rw [Arguments.setAll, Arguments.setAll, set_orInput]
    exact goOn_orInput i ih

/-- Words come to the same with an input to fall back on, but for that input. -/
theorem gather_orInput (a : Arguments) (left : List String) (words : List Word) :
    gather (a.orInput i) left words = (gather a left words).map (Request.orInput i) := by
  fun_induction gather a left words with
  | case1 a left hl => rw [gather, if_pos hl]; rfl
  | case2 a left hl => rw [gather, if_neg hl]; rfl
  | case3 a left w rest ih => exact ih
  | case4 a left w rest ih => exact ih
  | case5 a left rest ih => exact ih
  | case6 a left s long attached rest e ht =>
    rw [gather, ht]
    rfl
  | case7 a left s long attached rest complete ht ih =>
    rw [gather, ht]
    dsimp only
    rw [setAll_orInput]
    exact goOn_orInput i ih
  | case8 a left s long attached complete w ht v rest ih =>
    rw [gather, ht]
    dsimp only
    rw [setAll_orInput]
    exact goOn_orInput i ih
  | case9 a left s long attached rest complete w ht hr =>
    rw [gather, ht]
    dsimp only
    split
    · exact absurd rfl (hr _ _)
    · rfl

/-- An input that is given before other words is what they fall back on. -/
theorem readArguments_input {path : String} (hp : readWord path = .ok (.plain path))
    (texts : List String) :
    readArguments ("-i" :: path :: texts) =
      (readArguments texts).map (Request.orInput (some (.one path))) := by
  have hne : path ≠ "--" := by
    rintro rfl
    have hd : readWord "--" = .error (.ambiguous "--" ((candidates "--".toList).map (·.1))) := rfl
    rw [hd] at hp
    cases hp
  have hi : readWord "-i" = .ok (.option .input false none) := rfl
  have hwords : readWords ("-i" :: path :: texts) =
      (readWords texts).map fun words => .option .input false none :: .plain path :: words := by
    rw [readWords, if_neg (by decide), hi, readWords, if_neg (by simpa using hne), hp]
    cases readWords texts <;> rfl
  rw [readArguments, readArguments, hwords]
  cases readWords texts with
  | error e => rfl
  | ok words =>
    have hgiven : given .ok path = .ok (.one path) := by
      rw [given, if_neg (by simpa using hne)]
      rfl
    have hset : Arguments.empty.setAll [(.input, path)] =
        .ok (.run (Arguments.empty.orInput (some (.one path)))) := by
      rw [Arguments.setAll, Arguments.set, hgiven]
      rfl
    have htake : take .input false none = .ok ⟨[], some .input⟩ := rfl
    change gather .empty [] (.option .input false none :: .plain path :: words) =
      (gather .empty [] words).map (Request.orInput (some (.one path)))
    rw [← gather_orInput, gather, htake]
    dsimp only
    rw [List.nil_append, hset]
    rfl

end Respace.CommandLine
