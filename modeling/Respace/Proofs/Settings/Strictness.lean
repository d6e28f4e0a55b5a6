import Respace.Proofs.Settings.Validation

/-! Strict and lenient checks of the same settings. Each check of a field passes a value strictly just when
    it passes it leniently without a finding, but for the check of the size: a lenient one reads a size
    from a text of digits and does not say so, where a strict one refuses all texts. -/

namespace Respace

open Text

/-! ### Checks of one value -/

variable {strict : Bool} {field : Field} {v : Json} {w : List Finding}

/-- What passes a check passes it without a finding if nothing is ever found. -/
theorem quiet_iff {α : Type} {checked : Except Refusal (Checked α)} {x : α}
    (h : ∀ {w}, checked = .ok (.ok (x, w)) → w = []) :
    checked = .ok (.ok (x, w)) ↔ w = [] ∧ checked = .ok (.ok (x, [])) := by
  constructor
  · intro hc
    obtain rfl := h hc
    exact ⟨rfl, hc⟩
  · rintro ⟨rfl, hc⟩
    exact hc

theorem findings_of_checkText {t : String}
    (h : (.ok (checkText field v) : Except Refusal _) = .ok (.ok (t, w))) : w = [] := by
  cases v <;> cases h
  rfl

theorem findings_of_checkMode {room : Json.Room} {m : Format.Mode}
    (h : checkMode room v = .ok (.ok (m, w))) : w = [] := by
  rw [checkMode] at h
  split at h
  · cases h
  · split at h <;> cases h
    rfl

/-- Strictly, only a truth value is one; leniently, what spells one is converted with a finding. -/
theorem checkTruth_strict_iff {b : Bool} :
    checkTruth true field v = .ok (.ok (b, w)) ↔ w = [] ∧ checkTruth false field v = .ok (.ok (b, [])) := by
  unfold checkTruth
  split
  · simp only [Except.ok.injEq, Prod.mk.injEq, and_true]
    exact and_comm.trans (and_congr_left' eq_comm)
  · rw [if_pos rfl, if_neg Bool.false_ne_true]
    refine iff_of_false nofun ?_
    rintro ⟨-, h⟩
    split at h
    · cases h
    · split at h <;> cases h

/-- A size out of range is refused strictly, and clamped with a finding leniently. -/
theorem checkSize_strict_iff {n : Int} {size : Nat} :
    checkSize true field n = .ok (.ok (size, w)) ↔
      w = [] ∧ checkSize false field n = .ok (.ok (size, [])) := by
  rw [checkSize, checkSize]
  split
  · simp only [Except.ok.injEq, Prod.mk.injEq, and_true]
    exact and_comm.trans (and_congr_left' eq_comm)
  · split <;> simp

/-- No text is a size strictly. -/
theorem checkInteger_strict_iff {size : Nat} :
    checkInteger true field v = .ok (.ok (size, w)) ↔
      w = [] ∧ checkInteger false field v = .ok (.ok (size, [])) ∧ ∀ t, v ≠ .text t := by
  cases v with
  | integer n => simp [checkInteger, checkSize_strict_iff]
  | text t => simp [checkInteger]
  | _ => simp [checkInteger]

/-! ### Checks of fields -/

section fields

variable {α : Type} {fields : List (String × Json)} {default x : α}
  {check check' : Json → Except Refusal (Checked α)} {P : Json → Prop}

/-- A value is settled strictly, or without a finding, just when it passes its check. -/
theorem bind_settle_eq_ok_iff {checked : Except Refusal (Checked α)} (h : strict = true ∨ w = []) :
    checked.bind (settle strict field default) = .ok (x, w) ↔ checked = .ok (.ok (x, w)) := by
  rw [exceptBind_eq_ok_iff]
  constructor
  · rintro ⟨c | r, hc, hs⟩
    · rw [settle] at hs
      split at hs
      · cases hs
      · next hn =>
        cases hs
        exact absurd (h.resolve_left hn) (List.cons_ne_nil _ _)
    · cases hs
      exact hc
  · intro hc
    exact ⟨_, hc, rfl⟩

/-- Where a value passes a check just when it passes another without a finding and is such as `P` says, so
    do fields, the one strictly and the other leniently. -/
theorem checkField_strict_iff
    (h : ∀ v x w, check v = .ok (.ok (x, w)) ↔ w = [] ∧ check' v = .ok (.ok (x, [])) ∧ P v) :
    checkField true fields field default check = .ok (x, w) ↔
      w = [] ∧ checkField false fields field default check' = .ok (x, []) ∧
        ∀ v, fields.lookup field.key = some v → v ≠ .null → P v := by
  rw [checkField, checkField]
  split
  · next hv => simp [hv, eq_comm, and_comm]
  · next hv => simp [hv, eq_comm, and_comm]
  · next v hn hv =>
    have hgiven : v ≠ .null := hn
    rw [bind_settle_eq_ok_iff (.inl rfl), bind_settle_eq_ok_iff (.inr rfl), h]
    simp [hv, hgiven]

/-- Where all that a strict check passes is passed without a finding, and by a lenient one too, so are
    fields. -/
theorem checkField_strict_iff_lenient
    (h : ∀ v x w, check v = .ok (.ok (x, w)) ↔ w = [] ∧ check' v = .ok (.ok (x, []))) :
    checkField true fields field default check = .ok (x, w) ↔
      w = [] ∧ checkField false fields field default check' = .ok (x, []) := by
  rw [checkField_strict_iff fun v x w => (h v x w).trans (by rw [and_iff_left trivial])]
  simp

/-- A size is settled strictly just when it is settled leniently without a finding and is not given as a
    text. -/
theorem checkField_size_strict_iff {d size : Nat} :
    checkField true fields .indentSize d (checkInteger true .indentSize) = .ok (size, w) ↔
      w = [] ∧ checkField false fields .indentSize d (checkInteger false .indentSize) = .ok (size, []) ∧
        ∀ t, fields.lookup Field.indentSize.key ≠ some (.text t) := by
  rw [checkField_strict_iff fun v x w => checkInteger_strict_iff]
  refine and_congr_right' (and_congr_right' ⟨fun h t ht => ?_, fun h v hv _ t ht => ?_⟩)
  · exact h _ ht nofun t rfl
  · exact h t (ht ▸ hv)

end fields

/-! ### Checks of settings -/

/-- Strict checks pass settings just when lenient ones pass the same without a finding and the size is not
    given as a text. So the two agree but for sizes in digits, which a lenient check reads without a
    word. -/
theorem validate_strict_iff (room : Json.Room) (v : Json) (s : Settings) (w : List Finding) :
    validate room true v = .ok (s, w) ↔
      w = [] ∧ validate room false v = .ok (s, []) ∧
        ∀ t, v.field? Field.indentSize.key ≠ some (.text t) := by
  cases v with
  | object fields =>
    have htext (f : Field) (d x : String) (w : List Finding) :
        checkField true fields f d (fun v => .ok (checkText f v)) = .ok (x, w) ↔
          w = [] ∧ checkField false fields f d (fun v => .ok (checkText f v)) = .ok (x, []) :=
      checkField_strict_iff_lenient fun v x w => quiet_iff findings_of_checkText
    have hmode (x : Format.Mode) (w : List Finding) :
        checkField true fields .mode .beautify (checkMode room) = .ok (x, w) ↔
          w = [] ∧ checkField false fields .mode .beautify (checkMode room) = .ok (x, []) :=
      checkField_strict_iff_lenient fun v x w => quiet_iff findings_of_checkMode
    have htruth (x : Bool) (w : List Finding) :
        checkField true fields .showStatistics false (checkTruth true .showStatistics) = .ok (x, w) ↔
          w = [] ∧
            checkField false fields .showStatistics false (checkTruth false .showStatistics) = .ok (x, []) :=
      checkField_strict_iff_lenient fun v x w => checkTruth_strict_iff
    rw [validate, validate, validateFields_eq_ok_iff, validateFields_eq_ok_iff]
    simp only [htext, hmode, htruth, checkField_size_strict_iff, Json.field?]
    constructor
    · rintro ⟨_, _, _, _, _, _, ⟨rfl, h₁⟩, ⟨rfl, h₂⟩, ⟨rfl, h₃⟩, ⟨rfl, h₄, ht⟩, ⟨rfl, h₅⟩, ⟨rfl, h₆⟩, rfl⟩
      exact ⟨rfl, ⟨_, _, _, _, _, _, h₁, h₂, h₃, h₄, h₅, h₆, rfl⟩, ht⟩
    · rintro ⟨rfl, ⟨_, _, _, _, _, _, h₁, h₂, h₃, h₄, h₅, h₆, hw⟩, ht⟩
      simp only [eq_comm (a := []), List.append_eq_nil_iff] at hw
      obtain ⟨⟨⟨⟨⟨rfl, rfl⟩, rfl⟩, rfl⟩, rfl⟩, rfl⟩ := hw
      exact ⟨_, _, _, _, _, _, ⟨rfl, h₁⟩, ⟨rfl, h₂⟩, ⟨rfl, h₃⟩, ⟨rfl, h₄, ht⟩, ⟨rfl, h₅⟩, ⟨rfl, h₆⟩, rfl⟩
  | _ => simp [validate]

/-- A size in digits is read without a finding leniently, and refused strictly. -/
theorem validate_digits_ne :
    let v : Json := .object [(Field.indentSize.key, .text "4")]
    validate .endless false v = .ok ({ Settings.default with indentSize := 4 }, []) ∧
      validate .endless true v = .error (.complaint (.notInteger .indentSize "str")) ∧
      ¬ ∀ fields, (∃ s w, validate .endless true (.object fields) = .ok (s, w)) ↔
        ∃ s, validate .endless false (.object fields) = .ok (s, []) := by
  intro v
  have hlenient : validate .endless false v = .ok ({ Settings.default with indentSize := 4 }, []) := rfl
  have hstrict : validate .endless true v = .error (.complaint (.notInteger .indentSize "str")) := rfl
  refine ⟨hlenient, hstrict, fun hall => ?_⟩
  obtain ⟨s, w, hs⟩ := (hall [(Field.indentSize.key, .text "4")]).2 ⟨_, hlenient⟩
  rw [hstrict] at hs
  cases hs

end Respace
