import Respace.Proofs.Except
import Respace.Proofs.Text.Digit
import Respace.Settings.Validation

/-! Checking settings. A lenient check comes to settings unless the size is a text of digits that make no
    number, a number has too many digits to be written, or the mode is nested too deeply to be shown. A check
    breaks off before it would name such a number: all that a refusal or a finding names can be written. -/

namespace Respace

open Format Text

/-! ### Checks of one field -/

section checks

variable {α : Type} {strict : Bool} {fields : List (String × Json)} {field : Field} {default x : α}
  {check : Json → Except Refusal (Checked α)} {w : List Finding}

/-- A lenient check of a field comes to a value unless the check of what is given breaks off. -/
theorem exists_checkField_iff :
    (∃ x w, checkField false fields field default check = .ok (x, w)) ↔
      ∀ v, fields.lookup field.key = some v → v ≠ .null → ∃ c, check v = .ok c := by
  rw [checkField]
  split
  · next h => simp [h]
  · next h => simp [h]
  · next v hn h =>
    simp only [exceptBind_eq_ok_iff, h, Option.some.injEq, forall_eq']
    constructor
    · rintro ⟨x, w, c, hc, -⟩ -
      exact ⟨c, hc⟩
    · intro hv
      obtain ⟨c, hc⟩ := hv hn
      cases c with
      | ok r => exact ⟨r.1, r.2, _, hc, rfl⟩
      | error c => exact ⟨_, _, _, hc, rfl⟩

/-- What a check of a field comes to is the default, or passes the check. -/
theorem checkField_result (h : checkField strict fields field default check = .ok (x, w)) :
    x = default ∨ ∃ v, check v = .ok (.ok (x, w)) := by
  rw [checkField] at h
  split at h
  · cases h
    exact .inl rfl
  · cases h
    exact .inl rfl
  · next v hn hv =>
    obtain ⟨c, hc, hs⟩ := exceptBind_eq_ok_iff.1 h
    cases c with
    | ok r =>
      cases hs
      exact .inr ⟨v, hc⟩
    | error c =>
      rw [settle] at hs
      split at hs <;> cases hs
      exact .inl rfl

theorem checkField_of_lookup {v : Json} (hv : fields.lookup field.key = some v) (hn : v ≠ .null)
    (hc : check v = .ok (.ok (x, w))) : checkField strict fields field default check = .ok (x, w) := by
  cases v with
  | null => exact absurd rfl hn
  | _ =>
    rw [checkField, hv]
    exact exceptBind_eq_ok_iff.2 ⟨_, hc, rfl⟩

end checks

/-! ### The checks of all fields -/

/-- A check of all fields comes to settings just when each field does to its own. -/
theorem validateFields_eq_ok_iff {room : Json.Room} {strict : Bool} {fields : List (String × Json)}
    {s : Settings} {w : List Finding} :
    validateFields room strict fields = .ok (s, w) ↔ ∃ w₁ w₂ w₃ w₄ w₅ w₆,
      checkField strict fields .inputPath "" (fun v => .ok (checkText .inputPath v)) =
        .ok (s.inputPath, w₁) ∧
      checkField strict fields .outputPath "" (fun v => .ok (checkText .outputPath v)) =
        .ok (s.outputPath, w₂) ∧
      checkField strict fields .mode .beautify (checkMode room) = .ok (s.mode, w₃) ∧
      checkField strict fields .indentSize defaultIndentSize (checkInteger strict .indentSize) =
        .ok (s.indentSize, w₄) ∧
      checkField strict fields .showStatistics false (checkTruth strict .showStatistics) =
        .ok (s.showStatistics, w₅) ∧
      checkField strict fields .targetModel defaultModel (fun v => .ok (checkText .targetModel v)) =
        .ok (s.targetModel, w₆) ∧
      w = w₁ ++ w₂ ++ w₃ ++ w₄ ++ w₅ ++ w₆ := by
  simp only [validateFields, bind_eq_ok_iff, Prod.exists, pure, Except.pure, Except.ok.injEq,
    Prod.mk.injEq]
  constructor
  · rintro ⟨i, w₁, h₁, o, w₂, h₂, m, w₃, h₃, n, w₄, h₄, b, w₅, h₅, t, w₆, h₆, rfl, rfl⟩
    exact ⟨w₁, w₂, w₃, w₄, w₅, w₆, h₁, h₂, h₃, h₄, h₅, h₆, rfl⟩
  · rintro ⟨w₁, w₂, w₃, w₄, w₅, w₆, h₁, h₂, h₃, h₄, h₅, h₆, rfl⟩
    exact ⟨_, w₁, h₁, _, w₂, h₂, _, w₃, h₃, _, w₄, h₄, _, w₅, h₅, _, w₆, h₆, rfl, rfl⟩

/-! ### When a lenient check breaks off -/

/-- A check of a size breaks off just at a number that cannot be written: a size in range can. -/
theorem exists_checkSize_iff {strict : Bool} {f : Field} {n : Int} :
    (∃ c, checkSize strict f n = .ok c) ↔ isWritable n = true := by
  have hmax : maxIndentSize < 10 := by decide
  rw [checkSize]
  split
  · simp [isWritable_of_lt_ten (show n.natAbs < 10 by omega)]
  · split
    · next hw => simpa using hw
    · next hw => cases strict <;> simpa using hw

/-- A lenient check of an integer breaks off just at digits that make no number, and at a number that cannot
    be written. -/
theorem exists_checkInteger_iff {f : Field} {v : Json} :
    (∃ c, checkInteger false f v = .ok c) ↔
      (∀ t, v = .text t → isDigits (trim t.toList) = true →
        (∀ c ∈ trim t.toList, isDecimal c = true) ∧ (trim t.toList).length ≤ maxDigits) ∧
      ∀ n, v = .integer n → isWritable n = true := by
  cases v with
  | integer n => simp [checkInteger, exists_checkSize_iff]
  | text t =>
    simp only [Json.text.injEq, forall_eq', checkInteger, Bool.not_false, Bool.true_and, reduceCtorEq,
      false_implies, implies_true, and_true]
    split
    · next hd =>
      rw [← exists_readInteger_iff hd]
      simp only [hd, forall_const]
      cases hn : readInteger (trim t.toList) with
      | ok n => simpa [exists_checkSize_iff] using isWritable_of_readInteger hn
      | error e => simp
    · next hd => simp [hd]
  | _ => simp [checkInteger]

/-- All values spell a word but numbers that cannot be written. -/
theorem exists_wordOf_iff {v : Json} :
    (∃ word, wordOf v = .ok word) ↔ ∀ n, v = .integer n → isWritable n = true := by
  cases v with
  | integer n => cases hw : isWritable n <;> simp [wordOf, Json.inserted?, Json.isWritable, hw, Except.map]
  | text t => simp [wordOf, Json.inserted?, Json.isWritable, Except.map]
  | number x => simp [wordOf, Json.inserted?, Json.isWritable, Except.map]
  | _ => simp [wordOf]

/-- A lenient check of a truth value breaks off just at a number that cannot be written. -/
theorem exists_checkTruth_iff {f : Field} {v : Json} :
    (∃ c, checkTruth false f v = .ok c) ↔ ∀ n, v = .integer n → isWritable n = true := by
  rw [← exists_wordOf_iff]
  unfold checkTruth
  split
  · exact iff_of_true ⟨_, rfl⟩ ⟨_, rfl⟩
  · rw [if_neg Bool.false_ne_true]
    cases wordOf v with
    | error e => simp
    | ok word =>
      dsimp only
      cases truthOf? word <;> simp

/-- A check of a mode breaks off just at one that there is no room to show. -/
theorem exists_checkMode_iff {room : Json.Room} {v : Json} :
    (∃ c, checkMode room v = .ok c) ↔ v.fits room = true := by
  rw [checkMode]
  split
  · next h => simpa using h
  · next h => cases Mode.parse v <;> simpa using h

/-- A lenient check of all fields comes to settings just when those of the size, of the truth value and of the
    mode come to values: the other checks never break off. -/
theorem exists_validateFields_iff (room : Json.Room) (fields : List (String × Json)) :
    (∃ s w, validateFields room false fields = .ok (s, w)) ↔
      (∀ v, fields.lookup Field.indentSize.key = some v → v ≠ .null →
        ∃ c, checkInteger false .indentSize v = .ok c) ∧
      (∀ v, fields.lookup Field.showStatistics.key = some v → v ≠ .null →
        ∃ c, checkTruth false .showStatistics v = .ok c) ∧
      ∀ v, fields.lookup Field.mode.key = some v → v ≠ .null → ∃ c, checkMode room v = .ok c := by
  have hsize : (∃ x w, checkField false fields .indentSize defaultIndentSize
      (checkInteger false .indentSize) = .ok (x, w)) ↔ _ := exists_checkField_iff
  have htruth : (∃ x w, checkField false fields .showStatistics false
      (checkTruth false .showStatistics) = .ok (x, w)) ↔ _ := exists_checkField_iff
  have hmode : (∃ x w, checkField false fields .mode .beautify (checkMode room) = .ok (x, w)) ↔ _ :=
    exists_checkField_iff
  rw [← hsize, ← htruth, ← hmode]
  simp only [validateFields_eq_ok_iff]
  constructor
  · rintro ⟨s, -, -, -, w₃, w₄, w₅, -, -, -, h₃, h₄, h₅, -⟩
    exact ⟨⟨_, w₄, h₄⟩, ⟨_, w₅, h₅⟩, _, w₃, h₃⟩
  · rintro ⟨⟨size, w₄, h₄⟩, ⟨truth, w₅, h₅⟩, mode, w₃, h₃⟩
    have htext (f : Field) (d : String) :
        ∃ x w, checkField false fields f d (fun v => .ok (checkText f v)) = .ok (x, w) :=
      exists_checkField_iff.2 fun v _ _ => ⟨checkText f v, rfl⟩
    obtain ⟨input, w₁, h₁⟩ := htext .inputPath ""
    obtain ⟨output, w₂, h₂⟩ := htext .outputPath ""
    obtain ⟨model, w₆, h₆⟩ := htext .targetModel defaultModel
    exact ⟨⟨input, output, mode, size, truth, model⟩, _, w₁, w₂, w₃, w₄, w₅, w₆, h₁, h₂, h₃, h₄, h₅, h₆,
      rfl⟩

/-- A lenient check comes to settings and its findings just when the size, if it is given as a text of
    digits, is a number, all digits being positional and not too many, the size and the truth value, if they
    are given as whole numbers, can be written, and there is room to show the mode, if it is given as a list or
    an object. -/
theorem exists_validate_lenient_iff (room : Json.Room) (v : Json) :
    (∃ s w, validate room false v = .ok (s, w)) ↔
      (∀ t, v.field? Field.indentSize.key = some (.text t) → isDigits (trim t.toList) = true →
        (∀ c ∈ trim t.toList, isDecimal c = true) ∧ (trim t.toList).length ≤ maxDigits) ∧
      (∀ n, v.field? Field.indentSize.key = some (.integer n) ∨
        v.field? Field.showStatistics.key = some (.integer n) → isWritable n = true) ∧
      ∀ m, v.field? Field.mode.key = some m → m.fits room = true := by
  cases v with
  | object fields =>
    simp only [validate, exists_validateFields_iff, exists_checkInteger_iff, exists_checkTruth_iff,
      exists_checkMode_iff, Json.field?]
    constructor
    · rintro ⟨hsize, htruth, hmode⟩
      refine ⟨fun t ht => (hsize _ ht nofun).1 t rfl, ?_, fun m hm => ?_⟩
      · rintro n (hn | hn)
        · exact (hsize _ hn nofun).2 n rfl
        · exact htruth _ hn nofun n rfl
      · cases m with
        | null => rfl
        | _ => exact hmode _ hm (by simp)
    · rintro ⟨htext, hinteger, hmode⟩
      exact ⟨fun v hv _ => ⟨fun t ht => htext t (ht ▸ hv), fun n hn => hinteger n (.inl (hn ▸ hv))⟩,
        fun v hv _ n hn => hinteger n (.inr (hn ▸ hv)), fun m hm _ => hmode m hm⟩
  | _ => simp [validate, Json.field?]

/-- Two is a digit above the line as well, but not a number. -/
theorem validate_lenient_ne :
    validate .endless false (.object [(Field.indentSize.key, .text "²")]) =
        .error (.unreadable (.notInteger ['²'])) ∧
      ¬ ∀ v, ∃ s w, validate .endless false v = .ok (s, w) := by
  have h : validate .endless false (.object [(Field.indentSize.key, .text "²")]) =
      .error (.unreadable (.notInteger ['²'])) := by rfl
  refine ⟨h, fun hall => ?_⟩
  obtain ⟨s, w, hs⟩ := hall (.object [(Field.indentSize.key, .text "²")])
  rw [h] at hs
  cases hs

/-! ### Numbers that are named -/

section naming

variable {ε α β : Type} {P : ε → Prop} {strict : Bool} {field : Field}

/-- Whether the number that a complaint names can be written. The message of a mode that is not known sees
    to that itself. -/
def Complaint.IsWritable : Complaint → Prop
  | outOfRange _ n => isWritable n = true
  | _ => True

/-- Whether all numbers that a refusal names can be written. -/
def Refusal.IsWritable : Refusal → Prop
  | complaint c => c.IsWritable
  | _ => True

/-- Whether all numbers that a finding names can be written. -/
def Finding.IsWritable : Finding → Prop
  | allReplaced _ => True
  | replaced c default => c.IsWritable ∧ default.isWritable = true
  | converted _ v _ => v.isWritable = true
  | clamped _ n _ => isWritable n = true

/-- Whether the findings beside a result can all be written, or else the error is such as `P` says. -/
def NamesWritable (P : ε → Prop) : Except ε (α × List Finding) → Prop
  | .ok (_, w) => ∀ f ∈ w, f.IsWritable
  | .error e => P e

theorem namesWritable_bind {x : Except ε (α × List Finding)}
    {f : α × List Finding → Except ε (β × List Finding)} (hx : NamesWritable P x)
    (hf : ∀ a w, (∀ g ∈ w, g.IsWritable) → NamesWritable P (f (a, w))) : NamesWritable P (x >>= f) := by
  cases x with
  | error e => exact hx
  | ok r => exact hf r.1 r.2 hx

/-- Whether all numbers that a check of a value names can be written. -/
def ChecksWritable : Except Refusal (Checked α) → Prop
  | .ok c => NamesWritable Complaint.IsWritable c
  | .error e => e.IsWritable

theorem checksWritable_checkSize (n : Int) : ChecksWritable (checkSize strict field n) := by
  rw [checkSize]
  split
  · simp [ChecksWritable, NamesWritable]
  · split
    · trivial
    · next hn =>
      have hn : isWritable n = true := by simpa using hn
      split
      · exact hn
      · simpa [ChecksWritable, NamesWritable, Finding.IsWritable] using hn

theorem checksWritable_checkInteger (v : Json) : ChecksWritable (checkInteger strict field v) := by
  cases v with
  | integer n => exact checksWritable_checkSize n
  | text t =>
    simp only [checkInteger]
    split
    · split
      · trivial
      · exact checksWritable_checkSize _
    · trivial
  | _ => trivial

theorem isWritable_of_wordOf {v : Json} {word : List Char} (hw : wordOf v = .ok word) (hne : word ≠ []) :
    v.isWritable = true := by
  cases v with
  | integer n => exact exists_wordOf_iff.1 ⟨word, hw⟩ n rfl
  | list _ => cases hw; exact absurd rfl hne
  | object _ => cases hw; exact absurd rfl hne
  | _ => rfl

/-- A value that is converted spells a word, and so it can be written. -/
theorem checksWritable_checkTruth (v : Json) : ChecksWritable (checkTruth strict field v) := by
  unfold checkTruth
  split
  · simp [ChecksWritable, NamesWritable]
  · split
    · trivial
    · split
      · trivial
      · next word hw =>
        split
        · next b hb =>
          have hne : word ≠ [] := by
            rintro rfl
            cases hb
          simpa [ChecksWritable, NamesWritable, Finding.IsWritable] using isWritable_of_wordOf hw hne
        · trivial

theorem isWritable_default (f : Field) : f.default.isWritable = true := by
  cases f <;> decide

/-- Where all that a check of values names can be written, so can all that the check of a field names. -/
theorem namesWritable_checkField {fields : List (String × Json)} {default : α}
    {check : Json → Except Refusal (Checked α)} (h : ∀ v, ChecksWritable (check v)) :
    NamesWritable Refusal.IsWritable (checkField strict fields field default check) := by
  rw [checkField]
  split
  · simp [NamesWritable]
  · simp [NamesWritable]
  · next v _ _ =>
    have hv := h v
    generalize check v = checked at hv
    rcases checked with e | c | r
    · exact hv
    · cases strict with
      | true => exact hv
      | false =>
        have hc : c.IsWritable := hv
        simpa [NamesWritable, Finding.IsWritable, settle, Except.bind, isWritable_default] using hc
    · exact hv

theorem checksWritable_checkText (v : Json) : ChecksWritable (.ok (checkText field v)) := by
  cases v <;> simp [ChecksWritable, NamesWritable, checkText, Complaint.IsWritable]

theorem checksWritable_checkMode {room : Json.Room} (v : Json) : ChecksWritable (checkMode room v) := by
  rw [checkMode]
  split
  · trivial
  · split <;> simp [ChecksWritable, NamesWritable, Complaint.IsWritable]

/-- All numbers that a check names, in what it refuses or in what it finds, can be written. -/
theorem namesWritable_validate (room : Json.Room) (strict : Bool) (v : Json) :
    NamesWritable Refusal.IsWritable (validate room strict v) := by
  cases v with
  | object fields =>
    refine namesWritable_bind (namesWritable_checkField checksWritable_checkText) fun _ w₁ h₁ => ?_
    refine namesWritable_bind (namesWritable_checkField checksWritable_checkText) fun _ w₂ h₂ => ?_
    refine namesWritable_bind (namesWritable_checkField checksWritable_checkMode) fun _ w₃ h₃ => ?_
    refine namesWritable_bind (namesWritable_checkField checksWritable_checkInteger) fun _ w₄ h₄ => ?_
    refine namesWritable_bind (namesWritable_checkField checksWritable_checkTruth) fun _ w₅ h₅ => ?_
    refine namesWritable_bind (namesWritable_checkField checksWritable_checkText) fun _ w₆ h₆ => ?_
    simp only [NamesWritable, pure, Except.pure, List.mem_append]
    rintro f (((((hf | hf) | hf) | hf) | hf) | hf)
    exacts [h₁ f hf, h₂ f hf, h₃ f hf, h₄ f hf, h₅ f hf, h₆ f hf]
  | _ => cases strict <;> simp [validate, NamesWritable, Refusal.IsWritable, Finding.IsWritable]

end naming

end Respace
