import Mathlib.Data.List.DropRight
import Respace.Proofs.Settings.Validation

/-! Settings that have been checked. What comes out of a check has trimmed texts and a size in range, and
    passes any check again as it is. -/

namespace Respace

open Format Text

/-! ### Settings that pass as they are -/

theorem dropWhile_trim (cs : List Char) : (trim cs).dropWhile isBlank = trim cs := by
  rw [List.dropWhile_eq_self_iff]
  intro hl
  have hp : trim cs <+: cs.dropWhile isBlank := List.rdropWhile_prefix ..
  obtain ⟨rest, hr⟩ := hp
  have hd := List.dropWhile_get_zero_not isBlank cs (by rw [← hr, List.length_append]; omega)
  simpa [← hr, List.getElem_append_left hl] using hd

theorem trim_trim (cs : List Char) : trim (trim cs) = trim cs := by
  rw [trim, dropWhile_trim]
  exact List.rdropWhile_idempotent ..

theorem trimmed_of_trimmed (s : String) : trimmed (trimmed s) = trimmed s := by
  rw [trimmed, trimmed, String.toList_ofList, trim_trim]

namespace Settings

/-- Settings that a check takes as they are: texts without blanks at their ends, and a size in range. -/
structure IsValid (s : Settings) : Prop where
  inputPath : trimmed s.inputPath = s.inputPath
  outputPath : trimmed s.outputPath = s.outputPath
  targetModel : trimmed s.targetModel = s.targetModel
  indentSize : s.indentSize ≤ maxIndentSize

theorem lookup_toFields (s : Settings) (f : Field) : s.toFields.lookup f.key = some (s.get f) := by
  cases f <;> rfl

theorem get_ne_null (s : Settings) (f : Field) : s.get f ≠ .null := by
  cases f <;> simp [get]

end Settings

theorem trimmed_of_checkText {strict : Bool} {fields : List (String × Json)} {f : Field}
    {default t : String} {w : List Finding} (hd : trimmed default = default)
    (h : checkField strict fields f default (fun v => .ok (checkText f v)) = .ok (t, w)) :
    trimmed t = t := by
  rcases checkField_result h with rfl | ⟨v, hv⟩
  · exact hd
  · cases v with
    | text u =>
      cases hv
      exact trimmed_of_trimmed u
    | _ => cases hv

theorem le_of_checkSize {strict : Bool} {f : Field} {n : Int} {size : Nat} {w : List Finding}
    (h : checkSize strict f n = .ok (.ok (size, w))) : size ≤ maxIndentSize := by
  rw [checkSize] at h
  split at h
  · cases h
    omega
  · split at h
    · cases h
    · split at h <;> cases h
      exact Nat.min_le_right ..

theorem le_of_checkInteger {strict : Bool} {f : Field} {v : Json} {size : Nat} {w : List Finding}
    (h : checkInteger strict f v = .ok (.ok (size, w))) : size ≤ maxIndentSize := by
  cases v with
  | integer n => exact le_of_checkSize h
  | text t =>
    simp only [checkInteger] at h
    split at h
    · split at h
      · cases h
      · exact le_of_checkSize h
    · cases h
  | _ => cases h

theorem isValid_of_validate {room : Json.Room} {strict : Bool} {v : Json} {s : Settings} {w : List Finding}
    (h : validate room strict v = .ok (s, w)) : s.IsValid := by
  have hdefault : Settings.default.IsValid := ⟨by decide, by decide, by decide, by decide⟩
  cases v with
  | object fields =>
    obtain ⟨_, _, _, _, _, _, h₁, h₂, -, h₄, -, h₆, -⟩ := validateFields_eq_ok_iff.1 h
    have hsize : s.indentSize ≤ maxIndentSize := by
      rcases checkField_result h₄ with hd | ⟨v, hv⟩
      · rw [hd]
        decide
      · exact le_of_checkInteger hv
    exact ⟨trimmed_of_checkText (by decide) h₁, trimmed_of_checkText (by decide) h₂,
      trimmed_of_checkText (by decide) h₆, hsize⟩
  | _ =>
    cases strict with
    | true => cases h
    | false => cases h; exact hdefault

theorem validate_toFields {room : Json.Room} {strict : Bool} {s : Settings} (hs : s.IsValid) :
    validate room strict (.object s.toFields) = .ok (s, []) := by
  have hmode : Mode.parse (.text s.mode.name) = .ok s.mode := by cases s.mode <;> rfl
  have hsize : checkSize strict .indentSize s.indentSize = .ok (.ok (s.indentSize, [])) := by
    have := hs.indentSize
    rw [checkSize, if_pos (by omega), Int.toNat_natCast]
  refine validateFields_eq_ok_iff.2 ⟨[], [], [], [], [], [], ?_, ?_, ?_, ?_, ?_, ?_, rfl⟩
  all_goals refine checkField_of_lookup (s.lookup_toFields _) (s.get_ne_null _) ?_
  · rw [Settings.get, checkText, hs.inputPath]
  · rw [Settings.get, checkText, hs.outputPath]
  · rw [Settings.get, checkMode, hmode]
    rfl
  · rw [Settings.get, checkInteger, hsize]
  · rfl
  · rw [Settings.get, checkText, hs.targetModel]

/-! ### What comes out of a check -/

/-- Whether a text starts and ends in something that is not blank, if it holds anything. -/
def HasInkAtEnds (t : String) : Prop :=
  ∀ c, t.toList.head? = some c ∨ t.toList.getLast? = some c → isBlank c = false

theorem hasInkAtEnds_of_trimmed {t : String} (h : trimmed t = t) : HasInkAtEnds t := by
  have hcs : trim t.toList = t.toList := by
    conv_rhs => rw [← h, trimmed, String.toList_ofList]
  have hfront : t.toList.dropWhile isBlank = t.toList := by rw [← hcs, dropWhile_trim]
  have hback : t.toList.rdropWhile isBlank = t.toList := by
    conv_rhs => rw [← hcs, trim, hfront]
    rfl
  rintro c (hc | hc)
  · obtain ⟨cs, hcs⟩ := List.head?_eq_some_iff.1 hc
    rw [List.dropWhile_eq_self_iff] at hfront
    simpa [hcs] using hfront
  · obtain ⟨cs, hcs⟩ := List.getLast?_eq_some_iff.1 hc
    rw [List.rdropWhile_eq_self_iff] at hback
    simpa [hcs] using hback

/-- Whether the fields of a document are those of checked settings: each has its kind of value, and there
    are no others. -/
structure AreChecked (fields : List (String × Json)) : Prop where
  keys : fields.map Prod.fst = RawSettings.default.toFields.map Prod.fst
  mode : ∃ m ∈ ["beautify", "minify"], fields.lookup Field.mode.key = some (.text m)
  indentSize : ∃ n : Nat, n ≤ 8 ∧ fields.lookup Field.indentSize.key = some (.integer n)
  showStatistics : ∃ b, fields.lookup Field.showStatistics.key = some (.bool b)
  texts : ∀ f ∈ [Field.inputPath, .outputPath, .targetModel],
    ∃ t, fields.lookup f.key = some (.text t) ∧ HasInkAtEnds t

theorem Settings.IsValid.areChecked {s : Settings} (hs : s.IsValid) : AreChecked s.toFields where
  keys := rfl
  mode := by
    refine ⟨s.mode.name, ?_, s.lookup_toFields .mode⟩
    cases s.mode <;> decide
  indentSize := ⟨s.indentSize, hs.indentSize, s.lookup_toFields .indentSize⟩
  showStatistics := ⟨s.showStatistics, s.lookup_toFields .showStatistics⟩
  texts := by
    simp only [List.forall_mem_cons, List.not_mem_nil, false_implies, implies_true, and_true]
    exact ⟨⟨_, s.lookup_toFields .inputPath, hasInkAtEnds_of_trimmed hs.inputPath⟩,
      ⟨_, s.lookup_toFields .outputPath, hasInkAtEnds_of_trimmed hs.outputPath⟩,
      ⟨_, s.lookup_toFields .targetModel, hasInkAtEnds_of_trimmed hs.targetModel⟩⟩

/-- What a lenient check comes to is a document of checked settings, and a strict check takes it as it is
    and finds nothing. -/
theorem validate_strict_of_lenient {room : Json.Room} {v : Json} {s : Settings} {w : List Finding}
    (h : validate room false v = .ok (s, w)) :
    AreChecked s.toFields ∧ validate room true (.object s.toFields) = .ok (s, []) := by
  have hs : s.IsValid := isValid_of_validate h
  exact ⟨hs.areChecked, validate_toFields hs⟩

/-- A document in which all is a little off: blanks around texts, a size in digits and out of range, a
    number for a truth value, a list for a path, and a key that is not known. -/
theorem validate_strict_of_lenient_untidy :
    let v : Json := .object [("mode", .text "\u2003MiniFY\n"), ("indent_size", .text " 12\t"),
      ("show_stats", .integer 1), ("input_path", .text "\ta b.js\u00a0"), ("output_path", .list []),
      ("color", .text "red")]
    let s : Settings := ⟨"a b.js", "", .minify, 8, true, "gpt-4o"⟩
    validate .endless false v = .ok (s, [.replaced (.notText .outputPath "list") (.text ""),
        .clamped .indentSize 12 8, .converted .showStatistics (.integer 1) true]) ∧
      AreChecked s.toFields ∧ validate .endless true (.object s.toFields) = .ok (s, []) := by
  intro v s
  have h : validate .endless false v = .ok (s, [.replaced (.notText .outputPath "list") (.text ""),
      .clamped .indentSize 12 8, .converted .showStatistics (.integer 1) true]) := rfl
  exact ⟨h, validate_strict_of_lenient h⟩

/-! ### Another input -/

/-- Fields that differ in the input only are checked alike, but for that input. -/
theorem validateFields_inputPath {room : Json.Room} {strict : Bool} {fields fields' : List (String × Json)}
    {t t' : String}
    (hrest : ∀ f : Field, f ≠ .inputPath → fields'.lookup f.key = fields.lookup f.key)
    (hin : fields.lookup Field.inputPath.key = some (.text t))
    (hin' : fields'.lookup Field.inputPath.key = some (.text t')) :
    validateFields room strict fields' =
      (validateFields room strict fields).map fun (s, w) => ({ s with inputPath := trimmed t' }, w) := by
  have hcheck {α : Type} (f : Field) (hf : f ≠ .inputPath) (d : α)
      (c : Json → Except Refusal (Checked α)) :
      checkField strict fields' f d c = checkField strict fields f d c := by
    rw [checkField, checkField, hrest f hf]
  have hinput {fields : List (String × Json)} {t : String}
      (h : fields.lookup Field.inputPath.key = some (.text t)) :
      checkField strict fields .inputPath "" (fun v => .ok (checkText .inputPath v)) =
        .ok (trimmed t, []) := checkField_of_lookup h (by simp) rfl
  simp only [validateFields, Settings.default, hinput hin, hinput hin', hcheck .outputPath (by decide),
    hcheck .mode (by decide), hcheck .indentSize (by decide), hcheck .showStatistics (by decide),
    hcheck .targetModel (by decide), map_exceptBind]
  rfl

end Respace
