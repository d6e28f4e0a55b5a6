import Respace.Messages.Catalog
import Respace.Proofs.Messages.Failure

/-! Messages by key. A key with values to fill in comes to a text unless its template breaks off at a field,
    and that text is the template filled in or, when some field cannot be used, the template itself. The
    fields of the program's own messages only name what fills them in, and so these come to a text whenever
    there is room to show what fills them in. -/

namespace Respace.Messages

variable {Ω : Type} {M : Members Ω} {args : Values} {depth : Nat}

/-! ### Any messages -/

/-- What interpolation comes to: the template filled in, or the template as it is. -/
theorem interpolate_eq_ok_iff {template s : String} :
    interpolate M args template = .ok s ↔
      (args ≠ [] ∧ fill M args 2 template.toList = .ok s.toList) ∨
        ((args = [] ∨ fill M args 2 template.toList = .error .unusable) ∧ s = template) := by
  rw [interpolate]
  by_cases ha : args = []
  · simp [ha, eq_comm]
  · rw [if_neg (by simpa using ha)]
    cases hf : fill M args 2 template.toList with
    | ok cs =>
      have htext : String.ofList cs = s ↔ cs = s.toList :=
        ⟨fun h => by rw [← h, String.toList_ofList], fun h => by rw [h, String.ofList_toList]⟩
      simp [ha, htext]
    | error e => cases e <;> simp [ha, eq_comm]

/-- A template fails to come to a text just when filling it in breaks off. -/
theorem exists_interpolate_iff {template : String} :
    (∃ s, interpolate M args template = .ok s) ↔ args = [] ∨ ¬ BreaksOff M args 2 template.toList := by
  rw [← fails_fill_iff]
  simp only [interpolate_eq_ok_iff]
  by_cases ha : args = []
  · simp [ha]
  · cases hf : fill M args 2 template.toList with
    | ok cs => simpa [ha] using ⟨String.ofList cs, by rw [String.toList_ofList]⟩
    | error e => simp [ha]

namespace Catalog

/-- The message of a key before it is filled in; without a message, its default or the key itself. -/
def template (c : Catalog) (key default : String) : String :=
  (c.message? key).getD (if default.isEmpty then key else default)

end Catalog

/-! ### The program's own messages -/

/-- Whether a piece only names what fills it in. -/
def Piece.isPlain : Piece → Bool
  | slot f => f.style.isEmpty && f.conversion.isNone && nameAhead f.path == f.path
  | _ => true

/-- Whether all fields of a template only name what fills them in. -/
def isPlain (template : String) : Bool := (pieces template.toList).all Piece.isPlain

theorem isPlain_ofList (cs : List Char) :
    isPlain (String.ofList cs) = (pieces cs).all Piece.isPlain := by
  rw [isPlain, String.toList_ofList]

theorem isPlain_slot_iff {f : Slot} :
    (Piece.slot f).isPlain = true ↔ f.style = [] ∧ f.conversion = none ∧ nameAhead f.path = f.path := by
  simp [Piece.isPlain, and_assoc]

/-- Whether there is room to show all that fills a message in. -/
def HasRoom (M : Members Ω) (args : Values) : Prop :=
  ∀ name v, args.lookup name = some v → v.fits (M.room none) = true

/-- A field that only names what fills it in leads to that value, or cannot be used. -/
theorem exists_part_eq (args : Values) {f : Slot} (hconversion : f.conversion = none)
    (hpath : nameAhead f.path = f.path) :
    (∀ {Ω : Type} (M : Members Ω), f.part M args = .error .unusable) ∨
      ∃ name v, args.lookup name = some v ∧ ∀ {Ω : Type} (M : Members Ω), f.part M args = .ok (.value v) := by
  simp only [Slot.part, valueAt_eq, hconversion, hpath, List.drop_length]
  split
  · exact .inl fun _ => rfl
  · split
    · exact .inl fun _ => rfl
    · next v hv =>
      rw [steps]
      exact .inr ⟨_, v, hv, fun _ => rfl⟩

/-- A value that there is room for is shown as it is, whatever members there are. -/
theorem Part.styled_nil_of_fits {v : Json} (h : v.fits (M.room none) = true) :
    (Part.value v).styled M [] = shown [] v := by
  simp [Part.styled, h]

theorem Piece.filled_eq_of_isPlain {Ω' : Type} {M' : Members Ω'} {q : Piece} (h : q.isPlain = true)
    (hM : HasRoom M args) (hM' : HasRoom M' args) : q.filled M args depth = q.filled M' args depth := by
  cases q with
  | slot f =>
    obtain ⟨hstyle, hconversion, hpath⟩ := isPlain_slot_iff.1 h
    simp only [Piece.filled, Slot.filled, Slot.filledStyle, hstyle]
    rcases exists_part_eq args hconversion hpath with hpart | ⟨name, v, hv, hpart⟩
    · rw [hpart M, hpart M']
      rfl
    · rw [hpart M, hpart M']
      exact (Part.styled_nil_of_fits (hM name v hv)).trans (Part.styled_nil_of_fits (hM' name v hv)).symm
  | _ => rfl

/-- What comes of a template does not depend on members where its fields only name what fills them in. -/
theorem interpolate_eq_of_isPlain {Ω' : Type} {M' : Members Ω'} {template : String}
    (h : isPlain template = true) (hM : HasRoom M args) (hM' : HasRoom M' args) :
    interpolate M args template = interpolate M' args template := by
  have hfill : fill M args 2 template.toList = fill M' args 2 template.toList := by
    rw [fill_succ, fill_succ]
    congr 1
    exact mapM_congr fun q hq => Piece.filled_eq_of_isPlain (List.all_eq_true.1 h q hq) hM hM'
  rw [interpolate, interpolate, hfill]

/-- Filling in a template does not break off where its fields only name what fills them in. -/
theorem not_breaksOff_of_isPlain {template : String} (h : isPlain template = true) (hM : HasRoom M args) :
    ¬ BreaksOff M args depth template.toList := by
  have hslot {depth : Nat} {f : Slot} (hf : Reaches M args depth template.toList f) :
      f.style = [] ∧ f.conversion = none ∧ nameAhead f.path = f.path := by
    obtain ⟨before, after, hcs, -⟩ := hf
    refine isPlain_slot_iff.1 (List.all_eq_true.1 h (.slot f) ?_)
    simp [hcs]
  intro hbreaks
  cases hbreaks with
  | path hf hpath =>
    obtain ⟨-, -, v, -, before, step, after, p, hsteps, -, -⟩ := hpath
    rw [(hslot hf).2.2, List.drop_length, steps] at hsteps
    simp at hsteps
  | conversion hf _ hdeep =>
    rw [(hslot hf).2.1] at hdeep
    exact absurd hdeep.1 (by decide)
  | inStyle hf _ hfields _ => simp [(hslot hf).1] at hfields
  | style hf hp hstyle hrefused =>
    obtain ⟨hnil, hconversion, hpath⟩ := hslot hf
    rw [Slot.filledStyle, hnil] at hstyle
    cases hstyle
    rcases exists_part_eq args hconversion hpath with hpart | ⟨name, v, hv, hpart⟩
    · rw [hpart] at hp
      cases hp
    · rw [hpart] at hp
      cases hp
      rcases hrefused with ⟨-, hdeep⟩ | hrefused
      · rw [hM name v hv] at hdeep
        cases hdeep
      · exact not_isRefused_nil v hrefused

mutual

/-- Whether all texts of a document that are reached by names have a property. -/
def everyText (P : String → Bool) : Json → Bool
  | .text s => P s
  | .object fields => everyTextIn P fields
  | _ => true

/-- Whether all texts of fields that are reached by names have a property. -/
def everyTextIn (P : String → Bool) : List (String × Json) → Bool
  | [] => true
  | (_, v) :: rest => everyText P v && everyTextIn P rest

end

theorem everyText_group {P : String → Bool} {messages : List (String × String)} :
    everyText P (group messages) = messages.all fun m => P m.2 := by
  rw [group, everyText]
  induction messages with
  | nil => rfl
  | cons m rest ih => rw [List.map_cons, everyTextIn, everyText, ih, List.all_cons]

theorem everyText_of_lookup {P : String → Bool} {fields : List (String × Json)} {name : String} {v : Json}
    (h : everyTextIn P fields = true) (hv : fields.lookup name = some v) : everyText P v = true := by
  induction fields with
  | nil => cases hv
  | cons field rest ih =>
    rw [everyTextIn, Bool.and_eq_true] at h
    rw [List.lookup_cons] at hv
    split at hv
    · cases hv
      exact h.1
    · exact ih h.2 hv

theorem everyText_of_descend {P : String → Bool} {v w : Json} {names : List String}
    (h : everyText P v = true) (hw : Catalog.descend v names = some w) : everyText P w = true := by
  induction names generalizing v with
  | nil =>
    cases hw
    exact h
  | cons name rest ih =>
    rw [Catalog.descend, Option.bind_eq_some_iff] at hw
    obtain ⟨u, hu, hw⟩ := hw
    refine ih ?_ hw
    cases v with
    | object fields => exact everyText_of_lookup h hu
    | _ => cases hu

/-- The fields of all messages in English only name what fills them in. -/
theorem isPlain_english : everyText isPlain (.object english) = true := by
  simp only [english, everyText, everyTextIn, everyText_group, argumentMessages, errorMessages,
    statusMessages, statisticsMessages, description, List.all_cons, List.all_nil, Bool.and_eq_true, and_true]
  repeat' apply And.intro
  -- a text is taken for its list of characters here, which spares the encoding
  all_goals exact (isPlain_ofList _).trans (by decide +kernel)

namespace Catalog

theorem isPlain_of_own {key message : String} (h : own.message? key = some message) :
    isPlain message = true := by
  rw [message?] at h
  split at h
  · next s hs =>
    split at h
    · cases h
    · cases h
      exact everyText_of_descend isPlain_english hs
  · cases h

/-- The program's own messages can all be said if there is room for what they are filled in with, whatever
    members there are. -/
theorem text_own_eq_say (M : Members Ω) {key message : String} (h : own.message? key = some message)
    (default : String) (args : Values) (hM : HasRoom M args) :
    own.text M key default args = .ok (own.say key args) := by
  have hplain := isPlain_of_own h
  obtain ⟨s, hs⟩ : ∃ s, interpolate M args message = .ok s :=
    exists_interpolate_iff.2 (.inr (not_breaksOff_of_isPlain hplain hM))
  have hclasses : interpolate .classes args message = .ok s :=
    (interpolate_eq_of_isPlain hplain (fun _ v _ => v.fits_endless) hM).trans hs
  rw [say, text, text, h, Option.getD_some, Option.getD_some, hs, hclasses]

end Catalog

end Respace.Messages
