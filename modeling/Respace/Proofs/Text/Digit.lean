import Mathlib.Data.List.Induction
import Mathlib.Data.List.TakeWhile
import Mathlib.Data.Nat.Digits.Defs
import Respace.Text.Integer

/-! What texts of digits spell. The decimal digits of a number spell it, the first of them is no needless
    zero, and a text of digits makes a whole number just when all of them are positional and there are not
    too many. A number that is read has few enough digits to be written again. -/

namespace Respace.Text

theorem not_inRanges_of_apart {rs ss : List (Nat × Nat)}
    (h : ∀ r ∈ rs, ∀ s ∈ ss, r.2 < s.1 ∨ s.2 < r.1) {n : Nat} (hr : inRanges rs n = true) :
    inRanges ss n = false := by
  rw [← Bool.not_eq_true]
  intro hs
  obtain ⟨r, hr, hlr, hrh⟩ := exists_range_of_inRanges hr
  obtain ⟨s, hs, hls, hsh⟩ := exists_range_of_inRanges hs
  have := h r hr s hs
  omega

/-! ### Texts of digits -/

theorem isBlank_of_isDigit {c : Char} (hc : isDigit c = true) : isBlank c = false := by
  rw [isDigit, Bool.or_eq_true] at hc
  rcases hc with hc | hc
  · exact not_inRanges_of_apart (by decide) hc
  · exact not_inRanges_of_apart (by decide) hc

theorem ne_sign_of_isDigit {c : Char} (hc : isDigit c = true) : c ≠ '-' ∧ c ≠ '+' ∧ c ≠ '_' := by
  refine ⟨?_, ?_, ?_⟩ <;>
  · rintro rfl
    exact absurd hc (by decide)

theorem exists_decimalValue? {c : Char} (hc : isDecimal c = true) : ∃ d, decimalValue? c = some d := by
  obtain ⟨r, hr, hlo, hhi⟩ := exists_range_of_inRanges hc
  have hfind : (decimalRanges.find? fun r => r.1 ≤ c.toNat && c.toNat ≤ r.2).isSome := by
    rw [List.find?_isSome]
    exact ⟨r, hr, by simp [hlo, hhi]⟩
  obtain ⟨s, hs⟩ := Option.isSome_iff_exists.1 hfind
  exact ⟨_, by rw [decimalValue?, hs]; rfl⟩

/-- Each positional digit counts for one value. -/
theorem exists_digitValues? {cs : List Char} (hne : cs ≠ []) (hd : ∀ c ∈ cs, isDecimal c = true) :
    ∃ ds, digitValues? cs = some ds ∧ ds.length = cs.length := by
  fun_induction digitValues? cs with
  | case1 => exact absurd rfl hne
  | case2 c =>
    obtain ⟨d, hc⟩ := exists_decimalValue? (hd c (by simp))
    exact ⟨[d], by rw [hc]; rfl, rfl⟩
  | case3 c cs ih => exact absurd (hd '_' (by simp)) (by decide)
  | case4 c cs hcs hu ih =>
    obtain ⟨d, hc⟩ := exists_decimalValue? (hd c (by simp))
    obtain ⟨ds, hds, hlen⟩ := ih (by simpa using hcs) fun e he => hd e (by simp [he])
    exact ⟨d :: ds, by simp [hc, hds], by simp [hlen]⟩

/-- A text of digits without any blank at its start is read from its first digit on. -/
theorem splitSign_digits {cs : List Char} (h : isDigits cs = true) :
    splitSign (cs.dropWhile isNumberBlank) = (false, cs) := by
  cases cs with
  | nil => cases h
  | cons c cs =>
    have hc : isDigit c = true := by
      rw [isDigits, Bool.and_eq_true, List.all_cons, Bool.and_eq_true] at h
      exact h.2.1
    have hn : isNumberBlank c = false := by rw [isNumberBlank, isBlank_of_isDigit hc, Bool.false_and]
    rw [List.dropWhile_cons_of_neg (by simp [hn]), splitSign]
    · rintro ds ⟨⟩
      exact (ne_sign_of_isDigit hc).1 rfl
    · rintro ds ⟨⟩
      exact (ne_sign_of_isDigit hc).2.1 rfl

/-- Among digits a run goes as far as they are positional. -/
theorem takeWhile_digits {cs : List Char} (h : ∀ c ∈ cs, isDigit c = true) :
    (cs.takeWhile fun c => isDecimal c || c == '_') = cs.takeWhile isDecimal := by
  induction cs with
  | nil => rfl
  | cons c cs ih =>
    have hu : (c == '_') = false := by simpa using (ne_sign_of_isDigit (h c (by simp))).2.2
    rw [List.takeWhile_cons, List.takeWhile_cons, ih fun d hd => h d (by simp [hd]), hu, Bool.or_false]

/-- Nothing but blanks follows a run among digits just when all of them are positional. -/
theorem all_dropWhile_digits {cs : List Char} (h : ∀ c ∈ cs, isDigit c = true) :
    (cs.dropWhile fun c => isDecimal c || c == '_').all isNumberBlank = cs.all isDecimal := by
  induction cs with
  | nil => rfl
  | cons c cs ih =>
    have hc := h c (by simp)
    have hu : (c == '_') = false := by simpa using (ne_sign_of_isDigit hc).2.2
    rw [List.dropWhile_cons, List.all_cons, hu, Bool.or_false]
    cases hd : isDecimal c with
    | true => rw [if_pos rfl, ih fun d hd => h d (by simp [hd]), Bool.true_and]
    | false => simp [isNumberBlank, isBlank_of_isDigit hc]

/-- A text of digits makes a whole number just when all of them are positional, and not too many. -/
theorem exists_readInteger_iff {cs : List Char} (h : isDigits cs = true) :
    (∃ n, readInteger cs = .ok n) ↔ (∀ c ∈ cs, isDecimal c = true) ∧ cs.length ≤ maxDigits := by
  have hne : cs ≠ [] := by
    rintro rfl
    cases h
  have hall : ∀ c ∈ cs, isDigit c = true := by
    rw [isDigits, Bool.and_eq_true, List.all_eq_true] at h
    exact h.2
  rw [readInteger, splitSign_digits h]
  simp only [takeWhile_digits hall, all_dropWhile_digits hall, List.all_eq_true]
  by_cases hd : ∀ c ∈ cs, isDecimal c = true
  · obtain ⟨ds, hds, hlen⟩ := exists_digitValues? hne hd
    rw [List.takeWhile_eq_self_iff.2 hd, hds]
    simp only [if_pos hd, hlen]
    split
    · simp; omega
    · exact ⟨fun _ => ⟨hd, by omega⟩, fun _ => ⟨_, rfl⟩⟩
  · simp only [if_neg hd]
    split
    · simp [hd]
    · split <;> simp [hd]

/-! ### Digits of numbers -/

theorem decimalNumber_toDigits (n : Nat) : decimalNumber (Nat.toDigits 10 n) = n := by
  have hdigit : ∀ d < 10, decimalValue? (Nat.digitChar d) = some d := by decide
  induction n using Nat.strongRecOn with
  | ind n ih =>
    rw [Nat.toDigits_eq_if (by decide)]
    split
    · next hn => simp [decimalNumber, hdigit n hn, ofDigits]
    · next hn =>
      have hq := ih (n / 10) (by omega)
      rw [decimalNumber] at hq ⊢
      rw [List.filterMap_append, ofDigits, List.foldl_append, ← ofDigits, hq]
      simp [hdigit (n % 10) (by omega)]
      omega

/-- A number other than zero has no needless zero in front. -/
theorem head?_toDigits_ne {n : Nat} (hn : n ≠ 0) : (Nat.toDigits 10 n).head? ≠ some '0' := by
  have hdigit : ∀ d < 10, d ≠ 0 → Nat.digitChar d ≠ '0' := by decide
  induction n using Nat.strongRecOn with
  | ind n ih =>
    rw [Nat.toDigits_eq_if (by decide)]
    split
    · next h => simpa using hdigit n h hn
    · next h =>
      have hsome : (Nat.toDigits 10 (n / 10)).head?.isSome := by simp [Nat.toDigits_ne_nil]
      rw [List.head?_append, Option.or_of_isSome hsome]
      exact ih (n / 10) (by omega) (by omega)

/-! ### Numbers that can be written -/

theorem isWritable_iff {n : Int} : isWritable n = true ↔ n.natAbs < 10 ^ maxDigits := by
  rw [isWritable, decide_eq_true_iff, Nat.length_toDigits_le_iff (by decide) (by decide)]

theorem isWritable_of_lt_ten {n : Int} (h : n.natAbs < 10) : isWritable n = true :=
  isWritable_iff.2 (h.trans_le (Nat.le_self_pow (by decide) 10))

theorem lt_ten_of_decimalValue? {c : Char} {d : Nat} (h : decimalValue? c = some d) : d < 10 := by
  obtain ⟨r, -, rfl⟩ := Option.map_eq_some_iff.1 h
  exact Nat.mod_lt _ (by decide)

theorem lt_ten_of_digitValues? {cs : List Char} {ds : List Nat} (h : digitValues? cs = some ds) :
    ∀ d ∈ ds, d < 10 := by
  fun_induction digitValues? cs generalizing ds with
  | case1 => cases h
  | case2 c =>
    obtain ⟨d, hc, rfl⟩ := Option.map_eq_some_iff.1 h
    exact List.forall_mem_singleton.2 (lt_ten_of_decimalValue? hc)
  | case3 c cs ih =>
    simp only [Option.bind_eq_bind, Option.bind_eq_some_iff, Option.pure_def, Option.some.injEq] at h
    obtain ⟨d, hc, rest, hrest, rfl⟩ := h
    exact List.forall_mem_cons.2 ⟨lt_ten_of_decimalValue? hc, ih hrest⟩
  | case4 c cs _ _ ih =>
    simp only [Option.bind_eq_bind, Option.bind_eq_some_iff, Option.pure_def, Option.some.injEq] at h
    obtain ⟨d, hc, rest, hrest, rfl⟩ := h
    exact List.forall_mem_cons.2 ⟨lt_ten_of_decimalValue? hc, ih hrest⟩

/-- Digits spell a number below the power of ten with as many zeros. -/
theorem ofDigits_lt {ds : List Nat} (h : ∀ d ∈ ds, d < 10) : ofDigits ds < 10 ^ ds.length := by
  induction ds using List.reverseRecOn with
  | nil => decide
  | append_singleton ds d ih =>
    have hd : d < 10 := h d (by simp)
    have hds := ih fun e he => h e (by simp [he])
    rw [ofDigits, List.foldl_append, ← ofDigits, List.length_append, List.length_singleton, pow_succ]
    simp only [List.foldl_cons, List.foldl_nil]
    omega

theorem isWritable_of_readInteger {cs : List Char} {n : Int} (h : readInteger cs = .ok n) :
    isWritable n = true := by
  rw [readInteger] at h
  dsimp only at h
  split at h
  · cases h
  · next ds hds =>
    split at h
    · cases h
    · next hlen =>
      split at h
      · have habs : n.natAbs = ofDigits ds := by
          have := Except.ok.inj h
          split at this <;> omega
        rw [isWritable_iff, habs]
        exact (ofDigits_lt (lt_ten_of_digitValues? hds)).trans_le
          (Nat.pow_le_pow_right (by decide) (Nat.le_of_not_lt hlen))
      · cases h

end Respace.Text
