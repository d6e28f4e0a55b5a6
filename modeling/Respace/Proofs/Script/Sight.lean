import Respace.Script.Lookbehind
import Respace.Text.Split

/-! What the category of a character depends on, of all the text before it: the word that the text ends
    in, whether this word is the name of a member, and the sign that the text ends in. It is kept up one
    character at a time, and blanks change it in one of two ways: a run of spaces is as good as one
    space, and behind a line break nothing of the text before is seen. -/

namespace Respace.Script

open Text

/-- What is seen of a text from behind it. -/
structure Sight where
  word : List Char
  member : Bool
  sign : Option Char

namespace Sight

/-- What is seen at the start of a line. -/
def clear : Sight := ⟨[], false, none⟩

/-- What is seen behind one more character. -/
def next (s : Sight) (c : Char) : Sight :=
  if isWord c then ⟨c :: s.word, s.member, none⟩
  else if c == ' ' || c == '\t' then ⟨[], s.word.isEmpty && s.member, none⟩
  else ⟨[], c == '.', if c == '+' || c == '-' then some c else none⟩

/-- What is seen behind more characters. -/
def after (s : Sight) (cs : List Char) : Sight := cs.foldl next s

theorem after_cons (s : Sight) (c : Char) (cs : List Char) : s.after (c :: cs) = (s.next c).after cs :=
  rfl

theorem after_append (s : Sight) (cs ds : List Char) : s.after (cs ++ ds) = (s.after cs).after ds :=
  List.foldl_append

end Sight

/-- What is seen of a text, given backwards. -/
def sightOf (back : List Char) : Sight := Sight.clear.after back.reverse

theorem sightOf_cons (c : Char) (back : List Char) : sightOf (c :: back) = (sightOf back).next c := by
  simp [sightOf, Sight.after]

theorem sightOf_reverse_append (cs back : List Char) :
    sightOf (cs.reverse ++ back) = (sightOf back).after cs := by
  simp [sightOf, Sight.after]

/-! ### The category of a character -/

theorem word_sightOf (back : List Char) : (sightOf back).word = back.takeWhile isWord := by
  induction back with
  | nil => rfl
  | cons c back ih =>
    rw [sightOf_cons, Sight.next]
    by_cases hc : isWord c
    · simp [hc, ih]
    · rw [if_neg hc]
      split <;> simp [hc]

theorem not_space_of_isWord {c : Char} (hc : isWord c = true) :
    c ≠ ' ' ∧ c ≠ '\t' ∧ c ≠ '.' := by
  refine ⟨?_, ?_, ?_⟩ <;>
  · rintro rfl
    exact absurd hc (by decide)

theorem member_sightOf (back : List Char) :
    (sightOf back).member =
      (((back.dropWhile isWord).dropWhile fun c => c == ' ' || c == '\t').head? == some '.') := by
  induction back with
  | nil => rfl
  | cons c back ih =>
    rw [sightOf_cons, Sight.next]
    by_cases hc : isWord c
    · simp [hc, ih]
    · rw [if_neg hc, List.dropWhile_cons_of_neg hc]
      by_cases hs : (c == ' ' || c == '\t') = true
      · rw [if_pos hs, List.dropWhile_cons, if_pos hs]
        -- a word at the end of the text is no point
        cases back with
        | nil => rfl
        | cons d back =>
          by_cases hd : isWord d
          · have hn := not_space_of_isWord hd
            simp [word_sightOf, hd, hn]
          · simp [word_sightOf, ih, hd]
      · rw [if_neg hs, List.dropWhile_cons, if_neg hs]
        rfl

theorem sign_sightOf (back : List Char) {c : Char} (hc : c = '+' ∨ c = '-') :
    (back.head? == some c) = ((sightOf back).sign == some c) := by
  cases back with
  | nil => rfl
  | cons d back =>
    have hw : isWord c = false ∧ (c == ' ' || c == '\t') = false ∧ (c == '+' || c == '-') = true := by
      rcases hc with rfl | rfl <;> decide
    rw [sightOf_cons, Sight.next]
    by_cases hd : d = c
    · simp [hd, hw]
    · split
      · simp [hd]
      · split
        · simp [hd]
        · split <;> simp [hd]

/-- Whether a text ends in a keyword is settled by what is seen of it. -/
theorem endsInKeyword_eq (back : List Char) :
    endsInKeyword back =
      (!(sightOf back).member && expressionKeywords.contains (sightOf back).word.reverse) := by
  rw [endsInKeyword, word_sightOf, member_sightOf]
  rfl

/-- The category of a character depends on the sign before it and on the word that it ends. -/
theorem categoryOf_eq {a b : List Char} {c : Char}
    (hs : c = '+' ∨ c = '-' → ((sightOf a).sign = some c ↔ (sightOf b).sign = some c))
    (hw : isWord c = true → endsInKeyword (c :: a) = endsInKeyword (c :: b)) :
    categoryOf (c :: a) = categoryOf (c :: b) := by
  have hsign : ((c == '+' || c == '-') && a.head? == some c) =
      ((c == '+' || c == '-') && b.head? == some c) := by
    by_cases hc : c = '+' ∨ c = '-'
    · rw [sign_sightOf a hc, sign_sightOf b hc, Bool.eq_iff_iff]
      simpa only [Bool.and_eq_true, beq_iff_eq] using and_congr_right fun _ => hs hc
    · have hn : (c == '+' || c == '-') = false := by simpa [not_or] using hc
      rw [hn]
      rfl
  rw [categoryOf, categoryOf, hsign]
  by_cases hc : isWord c = true
  · rw [hw hc]
  · simp only [if_neg hc]

/-- Two texts that look the same give a character behind them the same category. -/
theorem categoryOf_congr {a b : List Char} (h : sightOf a = sightOf b) (c : Char) :
    categoryOf (c :: a) = categoryOf (c :: b) := by
  refine categoryOf_eq (fun _ => by rw [h]) fun _ => ?_
  rw [endsInKeyword_eq, endsInKeyword_eq, sightOf_cons, sightOf_cons, h]

/-- A word is a keyword or the name of something. -/
theorem categoryOf_word {c : Char} (hc : isWord c = true) (back : List Char) :
    categoryOf (c :: back) = if endsInKeyword (c :: back) then .keyword else .identifier := by
  have hother : (operatorChars ++ openBrackets ++ closeBrackets ++ separatorChars).all
      (!isWord ·) = true := by decide
  have hn : c ∉ operatorChars ++ openBrackets ++ closeBrackets ++ separatorChars := by
    intro hm
    have hw := List.all_eq_true.1 hother c hm
    rw [hc] at hw
    cases hw
  simp only [List.mem_append, not_or] at hn
  have hsign : (c == '+' || c == '-') = false := by
    rw [← Bool.not_eq_true, Bool.or_eq_true, beq_iff_eq, beq_iff_eq]
    rintro (rfl | rfl) <;> exact absurd hc (by decide)
  rw [categoryOf, hsign]
  simp [hn, hc]

/-- A keyword is a word that is not the name of a member. -/
theorem isWord_of_endsInKeyword {c : Char} {back : List Char} (h : endsInKeyword (c :: back) = true) :
    isWord c = true ∧ (sightOf back).member = false := by
  rw [endsInKeyword_eq, Bool.and_eq_true, Bool.not_eq_true'] at h
  obtain ⟨hm, hk⟩ := h
  have hc : isWord c = true := by
    refine Decidable.byContradiction fun hc => ?_
    rw [word_sightOf, List.takeWhile_cons_of_neg hc] at hk
    exact absurd hk (by decide)
  rw [sightOf_cons, Sight.next, if_pos hc] at hm
  exact ⟨hc, hm⟩

/-- When a point is in sight behind one text, and nothing else is other than behind another one, a slash
    opens a pattern behind the same characters but for keywords. -/
theorem opensPattern_of_member {a b : List Char} {c : Char} {member : Bool}
    (h : sightOf b = { sightOf a with member }) (hm : (sightOf a).member = true → member = true) :
    (categoryOf (c :: b)).opensPattern =
      ((categoryOf (c :: a)).opensPattern && !(endsInKeyword (c :: a) && member)) := by
  by_cases hc : isWord c = true
  · have hk : endsInKeyword (c :: b) = (endsInKeyword (c :: a) && !member) := by
      rw [endsInKeyword_eq, endsInKeyword_eq, sightOf_cons, sightOf_cons, h]
      simp only [Sight.next, hc, if_true]
      cases ha : (sightOf a).member with
      | false => rw [Bool.not_false, Bool.true_and, Bool.and_comm]
      | true => rw [hm ha]; rfl
    rw [categoryOf_word hc, categoryOf_word hc, hk]
    cases endsInKeyword (c :: a) <;> cases member <;> rfl
  · have hcat : categoryOf (c :: b) = categoryOf (c :: a) :=
      categoryOf_eq (fun _ => by rw [h]) fun hw => absurd hw hc
    have hk : endsInKeyword (c :: a) = false := by
      rw [← Bool.not_eq_true]
      exact fun hk => hc (isWord_of_endsInKeyword hk).1
    rw [hcat, hk, Bool.false_and, Bool.not_false, Bool.and_true]

/-- A closing brace has the same category behind all texts. -/
theorem categoryOf_closingBrace (a b : List Char) :
    categoryOf ('\x7d' :: a) = categoryOf ('\x7d' :: b) := rfl

/-! ### Blanks -/

/-- The blanks that the readers of a script take alike. -/
def plainBlanks : List Char := [' ', '\t', '\n', '\r']

theorem isLineEnd_iff {c : Char} : isLineEnd c = true ↔ c = '\n' ∨ c = '\r' := by
  rw [isLineEnd, Bool.or_eq_true, beq_iff_eq, beq_iff_eq]

theorem isBlank_of_isLineEnd {c : Char} (hc : isLineEnd c = true) : isBlank c = true := by
  rcases isLineEnd_iff.1 hc with rfl | rfl <;> decide

theorem isWord_of_isBlank {c : Char} (hc : isBlank c = true) : isWord c = false := by
  have hdisjoint : blankRanges.all (fun b => alphanumericRanges.all fun r =>
      decide (b.2 < r.1 ∨ r.2 < b.1)) = true := by decide +kernel
  have hsigns : c ≠ '_' ∧ c ≠ '$' := by
    constructor <;>
    · rintro rfl
      exact absurd hc (by decide)
  have halnum : isAlphanumeric c = false := by
    refine Bool.eq_false_iff.2 fun ha => ?_
    obtain ⟨b, hb, hb1, hb2⟩ := exists_range_of_inRanges hc
    obtain ⟨r, hr, hr1, hr2⟩ := exists_range_of_inRanges ha
    have hbr := List.all_eq_true.1 (List.all_eq_true.1 hdisjoint b hb) r hr
    rw [decide_eq_true_eq] at hbr
    omega
  simp [isWord, halnum, hsigns]

theorem isBlank_of_isWord {c : Char} (hc : isWord c = true) : isBlank c = false := by
  rw [← Bool.not_eq_true]
  intro hb
  rw [isWord_of_isBlank hb] at hc
  cases hc

namespace Sight

/-- A blank ends a word and hides a sign; only spaces and tabs leave a point in sight. -/
theorem next_blank (s : Sight) {c : Char} (hc : isBlank c = true) :
    s.next c = ⟨[], (c == ' ' || c == '\t') && s.word.isEmpty && s.member, none⟩ := by
  have hn : c ≠ '.' ∧ c ≠ '+' ∧ c ≠ '-' := by
    refine ⟨?_, ?_, ?_⟩ <;>
    · rintro rfl
      exact absurd hc (by decide)
  rw [next, isWord_of_isBlank hc]
  cases hs : c == ' ' || c == '\t' <;> simp [hn]

/-- Ink that is no part of a word hides all that stands before it. -/
theorem next_ink (s : Sight) {c : Char} (hw : isWord c = false) (hb : isBlank c = false) :
    s.next c = ⟨[], c == '.', if c == '+' || c == '-' then some c else none⟩ := by
  have hs : (c == ' ' || c == '\t') = false := by
    rw [Bool.or_eq_false_iff, beq_eq_false_iff_ne, beq_eq_false_iff_ne]
    constructor <;>
    · rintro rfl
      exact absurd hb (by decide)
  rw [next, hw, hs]
  rfl

theorem next_lineEnd (s : Sight) {c : Char} (hc : isLineEnd c = true) : s.next c = clear := by
  have hw : isWord '\n' = false ∧ isWord '\r' = false := by decide
  rcases isLineEnd_iff.1 hc with rfl | rfl <;> simp [next, hw, clear]

theorem next_space (s : Sight) {c : Char} (hc : c ∈ plainBlanks) (hl : isLineEnd c = false) :
    s.next c = s.next ' ' := by
  simp only [plainBlanks, List.mem_cons, List.not_mem_nil, or_false] at hc
  have hw : isWord ' ' = false ∧ isWord '\t' = false := by decide
  rcases hc with rfl | rfl | rfl | rfl
  · rfl
  · simp [next, hw]
  · exact absurd hl (by decide)
  · exact absurd hl (by decide)

theorem next_space_next (s : Sight) : (s.next ' ').next ' ' = s.next ' ' := rfl

theorem clear_next {c : Char} (hc : c ∈ plainBlanks) : clear.next c = clear := by
  by_cases hl : isLineEnd c
  · exact next_lineEnd _ hl
  · rw [next_space _ hc (by simpa using hl)]
    rfl

theorem clear_after {cs : List Char} (h : ∀ c ∈ cs, c ∈ plainBlanks) : clear.after cs = clear := by
  induction cs with
  | nil => rfl
  | cons c cs ih =>
    rw [List.forall_mem_cons] at h
    rw [after_cons, clear_next h.1, ih h.2]

theorem after_spaces (s : Sight) {cs : List Char} (hcs : cs ≠ [])
    (h : ∀ c ∈ cs, c ∈ plainBlanks ∧ isLineEnd c = false) : s.after cs = s.next ' ' := by
  induction cs generalizing s with
  | nil => exact absurd rfl hcs
  | cons c cs ih =>
    rw [List.forall_mem_cons] at h
    rw [after_cons, next_space s h.1.1 h.1.2]
    cases cs with
    | nil => rfl
    | cons d cs => rw [ih _ (by simp) h.2, next_space_next]

theorem after_break (s : Sight) {cs : List Char} (h : ∀ c ∈ cs, c ∈ plainBlanks)
    (hl : cs.any isLineEnd = true) : s.after cs = clear := by
  induction cs generalizing s with
  | nil => simp at hl
  | cons c cs ih =>
    rw [List.forall_mem_cons] at h
    rw [after_cons]
    by_cases hc : isLineEnd c
    · rw [next_lineEnd s hc, clear_after h.2]
    · exact ih _ h.2 (by simpa [hc] using hl)

end Sight

end Respace.Script
