import Respace.Proofs.Script.Idempotence
import Respace.Proofs.Script.Indentation

/-! A script is unambiguous when no slash of its code stands where a pattern may start: each one divides
    because of the token before it, and none because its line ends too soon. Both forms of such a script
    are handed out, the indented one for scripts with plain blanks and the compact one for scripts whose
    keywords are close to the point that makes them names of members.

    For the compact form two readers go through the tokens in step, one of the script and one of the
    compact form. They see the same in front of each token but for a word behind a point: line breaks and
    comments hide the point from the first reader alone, and this does not matter as long as the word is
    no keyword. -/

namespace Respace.Script

open Text

/-- Whether an item is no slash of code that stands where a pattern may start. -/
def Item.Divides (last : Lookbehind) (_rest : List Char) (x : Item) : Prop :=
  x = .char '/' → last.opensPattern = false

instance (last : Lookbehind) (rest : List Char) (x : Item) : Decidable (x.Divides last rest) :=
  inferInstanceAs (Decidable (_ → _))

/-- Whether no slash of the code of a script stands where a pattern may start. -/
def IsUnambiguous (text : List Char) : Prop := EachItem Item.Divides [] .start (itemsOf (scan text))

instance (text : List Char) : Decidable (IsUnambiguous text) :=
  inferInstanceAs (Decidable (EachItem _ _ _ _))

/-! ### The indented form -/

theorem holdsSlashes_of_divides {seen : List Char} {last : Lookbehind} {xs : List Item}
    (h : EachItem Item.Divides seen last xs) : HoldsSlashes seen last xs := by
  induction xs generalizing seen last with
  | nil => trivial
  | cons x xs ih =>
    refine ⟨fun hx hl => ?_, ih h.2⟩
    rw [h.1 hx] at hl
    cases hl

/-- The indented form of an unambiguous script is handed out. -/
theorem exists_beautify {text : String} (hp : HasPlainBlanks text.toList)
    (hu : IsUnambiguous text.toList) {n : Nat} (hn : n ≤ 8) :
    ∃ result, beautify (.integer n) text = .ok result := by
  have hl := (hp.literalTexts_iff n).2 (holdsSlashes_of_divides hu)
  rw [beautify_eq (le_widestSize hn), if_pos hl]
  exact ⟨_, rfl⟩

theorem exists_beautify_three :
    HasPlainBlanks "for (;;) \x7ba.in / b, /c[/]/g // d \r\n\x7d 'e".toList ∧
      IsUnambiguous "for (;;) \x7ba.in / b, /c[/]/g // d \r\n\x7d 'e".toList ∧ 3 ≤ 8 ∧
        ∃ result, beautify (.integer 3) "for (;;) \x7ba.in / b, /c[/]/g // d \r\n\x7d 'e" = .ok result :=
  have hp : HasPlainBlanks "for (;;) \x7ba.in / b, /c[/]/g // d \r\n\x7d 'e".toList := by decide +kernel
  have hu : IsUnambiguous "for (;;) \x7ba.in / b, /c[/]/g // d \r\n\x7d 'e".toList := by decide +kernel
  ⟨hp, hu, by decide, exists_beautify hp hu (by decide)⟩

/-! ### Words behind points -/

/-- Blanks of code and comments. -/
def Item.isGap (x : Item) : Bool := x.token?.isNone

/-- The word of code that items start with; empty if they start with something else. -/
def wordOf : List Item → List Char
  | .char c :: xs => if isWord c then c :: wordOf xs else []
  | _ => []

/-- Whether the word behind a point, over blanks and comments, is no keyword or has only spaces and tabs
    in front of it. The items are those behind the point. -/
def KeywordIsClose (xs : List Item) : Prop :=
  wordOf (xs.dropWhile (·.isGap)) ∈ expressionKeywords →
    ∀ x ∈ xs.takeWhile (·.isGap), x = .char ' ' ∨ x = .char '\t'

instance (xs : List Item) : Decidable (KeywordIsClose xs) := inferInstanceAs (Decidable (_ → _))

/-- Whether this holds behind each point of code. -/
def MembersAreClose : List Item → Prop
  | [] => True
  | x :: xs => (x = .char '.' → KeywordIsClose xs) ∧ MembersAreClose xs

instance MembersAreClose.decide : (xs : List Item) → Decidable (MembersAreClose xs)
  | [] => isTrue trivial
  | x :: xs =>
    have := MembersAreClose.decide xs
    inferInstanceAs (Decidable ((x = .char '.' → KeywordIsClose xs) ∧ MembersAreClose xs))

/-- Whether each expression keyword of the code of a script that follows a point, over blanks and
    comments, is parted from it by spaces and tabs only. -/
def HasCloseMembers (text : List Char) : Prop := MembersAreClose (itemsOf (scan text))

instance (text : List Char) : Decidable (HasCloseMembers text) :=
  inferInstanceAs (Decidable (MembersAreClose _))

theorem wordOf_char {c : Char} (hc : isWord c = true) (xs : List Item) :
    wordOf (.char c :: xs) = c :: wordOf xs := by
  rw [wordOf, if_pos hc]

theorem wordOf_of_not_isWord {c : Char} (hc : isWord c = false) (xs : List Item) :
    wordOf (.char c :: xs) = [] := by
  rw [wordOf, hc]
  rfl

theorem wordOf_gap {x : Item} (hx : x.isGap = true) (xs : List Item) : wordOf (x :: xs) = [] := by
  cases x with
  | lexeme s => rfl
  | char c =>
    refine wordOf_of_not_isWord (isWord_of_isBlank ?_) xs
    by_contra hb
    simp [Item.isGap, Item.token?, charToken?, hb] at hx

/-! ### Two readers in step -/

/-- Whether two readers in the middle of a word take it alike once it is complete: it is going to be no
    keyword, so that it does not matter to which of them it is the name of a member. -/
structure Stray (s t : Sight) (xs : List Item) : Prop where
  word : s.word = t.word
  inWord : s.word ≠ []
  sign : s.sign = none ∧ t.sign = none
  noKeyword : s.word.reverse ++ wordOf xs ∉ expressionKeywords

/-- Whether a reader behind the text `seen` of a script is in step with one of the compact form, behind the
    text `there`; both texts are given backwards. The second is behind the last token `tok`, the first has
    passed a gap as well when `gap`, and `xs` are the items before it. -/
structure InStep (tok : Option Token) (gap : Bool) (seen there : List Char) (xs : List Item) : Prop where
  last : lastOf tok = there.head?.toList
  ink : xs ≠ [] → ∀ c ∈ there.head?, isBlank c = false
  joined : gap = false → sightOf seen = sightOf there ∨ Stray (sightOf seen) (sightOf there) xs
  parted : gap = true →
    (∃ m, sightOf seen = ⟨[], m, none⟩ ∧ (m = true → there.head? = some '.')) ∨
      ∀ c ∈ (textOf xs).head?, isLineEnd c = true
  point : there.head? = some '.' → wordOf (xs.dropWhile (·.isGap)) ∈ expressionKeywords →
    (sightOf seen).member = true ∧ ∀ x ∈ xs.takeWhile (·.isGap), x = .char ' ' ∨ x = .char '\t'

theorem inStep_start (xs : List Item) : InStep none false [] [] xs :=
  ⟨rfl, fun _ => nofun, fun _ => .inl rfl, nofun, nofun⟩

/-- Behind ink that is no part of a word a point is in sight just when it stands there. -/
theorem member_sightOf_ink {back : List Char} (hb : ∀ c ∈ back.head?, isBlank c = false)
    (hw : (sightOf back).word = []) : (sightOf back).member = (back.head? == some '.') := by
  cases back with
  | nil => rfl
  | cons c back =>
    have hword : isWord c = false := by
      rw [← Bool.not_eq_true]
      intro hword
      rw [word_sightOf, List.takeWhile_cons_of_pos hword] at hw
      cases hw
    rw [sightOf_cons, Sight.next_ink _ hword (hb c rfl)]
    rfl

section

variable {tok : Option Token} {gap : Bool} {seen there : List Char} {x : Item} {xs : List Item} {c : Char}

/-- A point that is in sight of the first reader in front of a space ends the compact form so far. -/
theorem InStep.head?_of_member (h : InStep tok gap seen there (.char c :: xs)) (hc : isLineEnd c = false)
    (hw : (sightOf seen).word = []) (hm : (sightOf seen).member = true) : there.head? = some '.' := by
  cases gap with
  | false =>
    rcases h.joined rfl with he | hs
    · rw [he] at hw hm
      rw [member_sightOf_ink (h.ink (by simp)) hw] at hm
      exact eq_of_beq hm
    · exact absurd hw hs.inWord
  | true =>
    rcases h.parted rfl with ⟨m, hs, hp⟩ | hl
    · rw [hs] at hm
      exact hp hm
    · rw [hl c rfl] at hc
      cases hc

/-- In front of a space behind a point no word is in sight. -/
theorem InStep.word_eq_nil (h : InStep tok gap seen there (.char c :: xs)) (hc : isLineEnd c = false)
    (hp : there.head? = some '.') : (sightOf seen).word = [] := by
  have ht : (sightOf there).word = [] := by
    obtain ⟨back, rfl⟩ := List.head?_eq_some_iff.1 hp
    rw [word_sightOf]
    exact List.takeWhile_cons_of_neg (by decide)
  cases gap with
  | false =>
    rcases h.joined rfl with he | hs
    · rw [he, ht]
    · rw [hs.word, ht]
  | true =>
    rcases h.parted rfl with ⟨m, hs, -⟩ | hl
    · rw [hs]
    · rw [hl c rfl] at hc
      cases hc

theorem InStep.blank (h : InStep tok gap seen there (.char c :: xs)) (hb : isBlank c = true) :
    InStep tok true (c :: seen) there xs := by
  have hg : (Item.char c).isGap = true := by simp [Item.isGap, Item.token?, charToken?, hb]
  have hs : sightOf (c :: seen) =
      ⟨[], (c == ' ' || c == '\t') && (sightOf seen).word.isEmpty && (sightOf seen).member, none⟩ := by
    rw [sightOf_cons, Sight.next_blank _ hb]
  have hspace : (c == ' ' || c == '\t') = true → isLineEnd c = false := by
    intro hc
    rw [Bool.or_eq_true, beq_iff_eq, beq_iff_eq] at hc
    rcases hc with rfl | rfl <;> decide
  refine ⟨h.last, fun _ => h.ink (by simp), by simp, fun _ => .inl ⟨_, hs, fun hm => ?_⟩, fun hp hk => ?_⟩
  · rw [Bool.and_eq_true, Bool.and_eq_true, List.isEmpty_iff] at hm
    exact h.head?_of_member (hspace hm.1.1) hm.1.2 hm.2
  · have hpoint := h.point hp
    rw [List.dropWhile_cons_of_pos hg, List.takeWhile_cons_of_pos hg] at hpoint
    obtain ⟨hm, hplain⟩ := hpoint hk
    obtain ⟨hc, hplain⟩ := List.forall_mem_cons.1 hplain
    have hc : (c == ' ' || c == '\t') = true := by simpa using hc
    refine ⟨?_, hplain⟩
    rw [hs, hc, hm, h.word_eq_nil (hspace hc) hp]
    rfl

theorem InStep.comment {s : Segment} (h : InStep tok gap seen there (.lexeme s :: xs))
    (hx : Ends s (textOf xs)) (hs : s.isComment = true) :
    InStep tok true (s.text.reverse ++ seen) there xs := by
  have hg : (Item.lexeme s).isGap = true := by cases hx <;> first | rfl | cases hs
  refine ⟨h.last, fun _ => h.ink (by simp), by simp, fun _ => ?_, fun hp hk => ?_⟩
  · exact (sightOf_comment hx hs).imp_left fun hc => ⟨false, hc, by simp⟩
  · -- no keyword ahead has a comment in front of it
    have hpoint := h.point hp
    rw [List.dropWhile_cons_of_pos hg, List.takeWhile_cons_of_pos hg] at hpoint
    have hc := (hpoint hk).2 _ (List.mem_cons_self ..)
    simp at hc

/-- The text behind a space, when there is one. -/
def spaced (space : Bool) (there : List Char) : List Char := if space then ' ' :: there else there

theorem InStep.keepApart_of_word (h : InStep tok gap seen there (.char c :: xs)) (hc : isWord c = true)
    (hw : (sightOf there).word ≠ []) : keepApart tok (.char c) = true ∧ there.head? ≠ some '.' := by
  rw [word_sightOf] at hw
  obtain ⟨d, back, rfl⟩ : ∃ d back, there = d :: back := by
    apply List.exists_cons_of_ne_nil
    rintro rfl
    exact hw rfl
  have hd : isWord d = true := by
    by_contra hd
    exact hw (List.takeWhile_cons_of_neg hd)
  constructor
  · rw [keepApart, h.last]
    simp [needsSpace, Token.text, isWordText_singleton, hc, hd]
  · intro hp
    exact (not_space_of_isWord hd).2.2 (Option.some.inj hp)

/-- A sign stays apart from a sign like it. -/
theorem InStep.keepApart_of_sign (h : InStep tok gap seen there (.char c :: xs)) (hc : c = '+' ∨ c = '-')
    (hs : (sightOf there).sign = some c) : keepApart tok (.char c) = true := by
  have hsign := sign_sightOf there hc
  rw [hs, beq_self_eq_true, beq_iff_eq] at hsign
  rw [keepApart, h.last, hsign]
  rcases hc with rfl | rfl <;> simp [needsSpace, Token.text, fusingPairs]

/-- In front of a word that a gap parts from the last token, the second reader sees no other word, and
    the point that the compact form so far ends in. -/
theorem InStep.sightOf_spaced (h : InStep tok gap seen there (.char c :: xs)) (hc : isWord c = true) :
    (sightOf (spaced (keepApart tok (.char c)) there)).word = [] ∧
      (sightOf (spaced (keepApart tok (.char c)) there)).member = (there.head? == some '.') := by
  have hspace : sightOf (' ' :: there) =
      ⟨[], (sightOf there).word.isEmpty && (sightOf there).member, none⟩ := by
    rw [sightOf_cons, Sight.next_blank _ (by decide)]
    rfl
  by_cases hw : (sightOf there).word = []
  · have hm := member_sightOf_ink (h.ink (by simp)) hw
    cases keepApart tok (.char c) with
    | false => exact ⟨hw, hm⟩
    | true =>
      rw [spaced, if_pos rfl, hspace, hw]
      exact ⟨rfl, hm⟩
  · obtain ⟨hk, hp⟩ := h.keepApart_of_word hc hw
    have hword : (sightOf there).word.isEmpty = false := by simpa using hw
    rw [hk, spaced, if_pos rfl, hspace, hword]
    exact ⟨rfl, (beq_eq_false_iff_ne.2 hp).symm⟩

theorem Sight.next_word {s t : Sight} (hc : isWord c = true) (hw : s.word = t.word)
    (hm : s.member = t.member) : s.next c = t.next c := by
  rw [Sight.next, Sight.next, if_pos hc, if_pos hc, hw, hm]

theorem Stray.next {s t : Sight} (h : Stray s t (.char c :: xs)) (hc : isWord c = true) :
    Stray (s.next c) (t.next c) xs := by
  have hk := h.noKeyword
  rw [wordOf_char hc] at hk
  simp only [Sight.next, hc, if_true]
  refine ⟨by rw [h.word], by simp, ⟨rfl, rfl⟩, ?_⟩
  simpa using hk

/-- A word is stray when it begins behind a point that is hidden from the first reader only. -/
theorem InStep.stray {t : Sight} (h : InStep tok gap seen there (.char c :: xs)) (hc : isWord c = true)
    (hs : sightOf seen = .clear) (hp : there.head? = some '.') (ht : t.word = []) :
    Stray ((sightOf seen).next c) (t.next c) xs := by
  have hg : ¬ (Item.char c).isGap = true := by
    simp [Item.isGap, Item.token?, charToken?, isBlank_of_isWord hc]
  have hk : wordOf (.char c :: xs) ∉ expressionKeywords := by
    intro hk
    have hm := (h.point hp (by rwa [List.dropWhile_cons_of_neg hg])).1
    rw [hs] at hm
    cases hm
  rw [wordOf_char hc] at hk
  rw [hs]
  simp only [Sight.next, hc, if_true, ht]
  exact ⟨rfl, by simp, ⟨rfl, rfl⟩, hk⟩

/-- Behind one more character of a word the readers see the same, or the word is stray. -/
theorem InStep.joined_word (h : InStep tok gap seen there (.char c :: xs)) (hc : isWord c = true) :
    sightOf (c :: seen) = sightOf (c :: spaced (gap && keepApart tok (.char c)) there) ∨
      Stray (sightOf (c :: seen)) (sightOf (c :: spaced (gap && keepApart tok (.char c)) there)) xs := by
  rw [sightOf_cons, sightOf_cons]
  cases hgap : gap with
  | false =>
    rcases h.joined hgap with he | hs
    · left
      rw [he]
      rfl
    · exact .inr (hs.next hc)
  | true =>
    obtain ⟨hw, hm⟩ := h.sightOf_spaced hc
    rw [Bool.true_and]
    rcases h.parted hgap with ⟨m, hs, hp⟩ | hl
    · by_cases hpoint : m = false ∧ there.head? = some '.'
      · obtain ⟨rfl, hpoint⟩ := hpoint
        exact .inr (h.stray hc hs hpoint hw)
      · left
        refine Sight.next_word hc (by rw [hs, hw]) ?_
        rw [hs, hm, Bool.eq_iff_iff, beq_iff_eq]
        refine ⟨hp, fun hpt => ?_⟩
        by_contra hm
        exact hpoint ⟨Bool.not_eq_true _ ▸ hm, hpt⟩
    · have hb := isBlank_of_isLineEnd (hl c rfl)
      rw [isBlank_of_isWord hc] at hb
      cases hb

/-- The readers see the same sign in front of a sign like it. -/
theorem InStep.sign_iff (h : InStep tok gap seen there (.char c :: xs)) (hc : c = '+' ∨ c = '-') :
    (sightOf seen).sign = some c ↔
      (sightOf (spaced (gap && keepApart tok (.char c)) there)).sign = some c := by
  cases hgap : gap with
  | false =>
    rcases h.joined hgap with he | hs
    · rw [he]
      rfl
    · rw [hs.sign.1]
      change _ ↔ (sightOf there).sign = some c
      rw [hs.sign.2]
  | true =>
    have hn : (sightOf seen).sign = none := by
      rcases h.parted hgap with ⟨m, hs, -⟩ | hl
      · rw [hs]
      · have hl := hl c rfl
        rcases hc with rfl | rfl <;> exact absurd hl (by decide)
    rw [hn, Bool.true_and]
    refine ⟨nofun, fun hs => ?_⟩
    exfalso
    cases hk : keepApart tok (.char c) with
    | true =>
      rw [hk, spaced, if_pos rfl, sightOf_cons, Sight.next_blank _ (by decide)] at hs
      cases hs
    | false =>
      rw [hk] at hs
      rw [h.keepApart_of_sign hc hs] at hk
      cases hk

theorem InStep.char (h : InStep tok gap seen there (.char c :: xs)) (hc : isBlank c = false)
    (hp : c = '.' → KeywordIsClose xs) :
    InStep (some (.char c)) false (c :: seen) (c :: spaced (gap && keepApart tok (.char c)) there) xs := by
  refine ⟨rfl, ?_, fun _ => ?_, nofun, ?_⟩
  · rintro - d ⟨⟩
    exact hc
  · by_cases hw : isWord c = true
    · exact h.joined_word hw
    · left
      have hw := Bool.not_eq_true _ ▸ hw
      rw [sightOf_cons, sightOf_cons, Sight.next_ink _ hw hc, Sight.next_ink _ hw hc]
  · rintro ⟨⟩ hk
    exact ⟨by rw [sightOf_cons]; rfl, hp rfl hk⟩

/-- A literal that something follows ends in ink that is no point. -/
theorem head?_literal {s : Segment} {rest : List Char} (h : Ends s rest) (hs : s.isLiteral = true)
    (hr : rest ≠ []) (before : List Char) :
    ∀ d ∈ (s.text.reverse ++ before).head?, isBlank d = false ∧ d ≠ '.' := by
  have hk : s.kind ≠ .lineComment := by
    intro hk
    simp [Segment.isLiteral, hk] at hs
  obtain ⟨cs, d, flags, ht, hd, hf⟩ := h.exists_closer hr hk
  rw [ht, List.reverse_append, List.reverse_cons]
  rcases List.eq_nil_or_concat flags with rfl | ⟨fs, f, rfl⟩
  · rintro e ⟨⟩
    simp only [quoteChars, List.mem_cons, List.not_mem_nil, or_false] at hd
    rcases hd with rfl | rfl | rfl | rfl <;> decide
  · have hf := hf f (by simp)
    simp only [List.concat_eq_append, List.reverse_append, List.reverse_cons, List.reverse_nil,
      List.nil_append, List.cons_append, List.head?_cons]
    rintro e ⟨⟩
    exact ⟨isBlank_of_isWord hf, (not_space_of_isWord hf).2.2⟩

theorem InStep.literal {s : Segment} {t : Token} (hx : Ends s (textOf xs)) (hf : AllFit xs)
    (hs : s.isLiteral = true) (ht : (Item.lexeme s).token? = some t) (seen there : List Char) :
    InStep (some t) false (s.text.reverse ++ seen) (s.text.reverse ++ there) xs := by
  have hne : s.text ≠ [] := Item.Fits.text_ne_nil (x := .lexeme s) hx
  have hclosed : xs ≠ [] → textOf xs ≠ [] := by
    intro hxs he
    cases xs with
    | nil => exact hxs rfl
    | cons y ys => exact hf.1.text_ne_nil (List.append_eq_nil_iff.1 he).1
  have hlast : (s.text.reverse ++ there).head? = s.text.getLast? := by
    rw [List.head?_append_of_ne_nil _ (by simpa using hne), List.head?_reverse]
  refine ⟨?_, ?_, fun _ => .inl (sightOf_lexeme hx _ _), nofun, ?_⟩
  · rw [hlast, lastOf, ← Item.text_of_token? ht]
    rfl
  · intro hxs d hd
    exact (head?_literal hx hs (hclosed hxs) there d hd).1
  · intro hp hk
    have hxs : xs ≠ [] := by
      rintro rfl
      revert hk
      decide
    exact absurd rfl (head?_literal hx hs (hclosed hxs) there '.' hp).2

/-- A character that ends a word, or is none of a word, has the same category for both readers. -/
theorem InStep.categoryOf_eq (h : InStep tok gap seen there (.char c :: xs)) (hc : isBlank c = false)
    (hp : c = '.' → KeywordIsClose xs) (hw : wordOf xs = []) :
    categoryOf (c :: seen) = categoryOf (c :: spaced (gap && keepApart tok (.char c)) there) := by
  refine Script.categoryOf_eq h.sign_iff fun _ => ?_
  rw [endsInKeyword_eq, endsInKeyword_eq]
  rcases (h.char hc hp).joined rfl with he | hs
  · rw [he]
  · have hk := hs.noKeyword
    rw [hw, List.append_nil] at hk
    have hn : expressionKeywords.contains (sightOf (c :: seen)).word.reverse = false := by
      simpa using hk
    rw [← hs.word, hn, Bool.and_false, Bool.and_false]

theorem InStep.afterGap (h : InStep tok gap seen there (x :: xs)) (hx : x.Fits (textOf xs))
    (ht : x.token? = none) : InStep tok true (x.text.reverse ++ seen) there xs := by
  have ho := hx.isOmitted_iff.2 ht
  cases x with
  | char c => exact h.blank ho
  | lexeme s => exact h.comment hx ho

/-- The readers stay in step when both pass a token, the second one behind a space or not. -/
theorem InStep.afterToken {t : Token} (h : InStep tok gap seen there (x :: xs))
    (hf : AllFit (x :: xs)) (ht : x.token? = some t) (hp : x = .char '.' → KeywordIsClose xs) :
    InStep (some t) false (x.text.reverse ++ seen)
      (x.text.reverse ++ spaced (gap && keepApart tok t) there) xs := by
  cases x with
  | char c =>
    obtain ⟨hb, rfl⟩ := charToken?_eq_some_iff.1 ht
    exact h.char hb fun hc => hp (congrArg _ hc)
  | lexeme s => exact .literal hf.1 hf.2 (Segment.isLiteral_of_token? ht) ht _ _

/-- Behind a token that is complete both readers let a slash open a pattern, or none. -/
theorem InStep.opensPattern {t : Token} (h : InStep tok gap seen there (x :: xs))
    (ht : x.token? = some t) (hp : x = .char '.' → KeywordIsClose xs) (hw : wordOf xs = [])
    (last lastThere : Lookbehind) :
    (last.afterItem seen x).opensPattern =
      (lastThere.afterItem (spaced (gap && keepApart tok t) there) x).opensPattern := by
  cases x with
  | char c =>
    obtain ⟨hb, rfl⟩ := charToken?_eq_some_iff.1 ht
    have hc : ¬ isBlank c = true := Bool.not_eq_true _ ▸ hb
    have hcat := h.categoryOf_eq hb (fun hc => hp (congrArg _ hc)) hw
    change (last.afterCode c seen).opensPattern = (lastThere.afterCode c _).opensPattern
    rw [Lookbehind.afterCode, Lookbehind.afterCode, if_neg hc, if_neg hc]
    exact congrArg Category.opensPattern hcat
  | lexeme s =>
    have hs := Segment.isLiteral_of_token? ht
    change (last.after s).opensPattern = (lastThere.after s).opensPattern
    rw [Lookbehind.after, Lookbehind.after, if_pos hs, if_pos hs]

/-- A space in front of items changes no part of a slash. -/
theorem slashesStand_spaced (space : Bool) (last : Lookbehind) (ys : List Item) :
    SlashesStand there last ((if space then [.char ' '] else []) ++ ys) ↔
      SlashesStand (spaced space there) last ys := by
  cases space with
  | false => rfl
  | true =>
    have hspace : isBlank ' ' = true := by decide
    have hb : ∀ c ∈ [' '], isBlank c = true := by simpa using hspace
    exact eachItem_chars slashStands_blank hb there last ys

/-- The slashes of an unambiguous run of items keep their part in its compact form. -/
theorem InStep.slashesStand {last lastThere : Lookbehind} (h : InStep tok gap seen there xs)
    (hf : AllFit xs) (hs : SlashesStand seen last xs) (hu : EachItem Item.Divides seen last xs)
    (hm : MembersAreClose xs) (hl : wordOf xs = [] → last.opensPattern = lastThere.opensPattern) :
    SlashesStand there lastThere (compactItems tok gap xs) := by
  induction xs generalizing tok gap seen there last lastThere with
  | nil => trivial
  | cons x xs ih =>
    cases ht : x.token? with
    | none =>
      rw [compactItems_gap ht]
      refine ih (h.afterGap hf.1 ht) hf.2 hs.2 hu.2 hm.2 fun _ => ?_
      rw [Lookbehind.afterItem_gap ht]
      exact hl (wordOf_gap (by rw [Item.isGap, ht]; rfl) xs)
    | some t =>
      rw [compactItems_token ht, slashesStand_spaced]
      refine ⟨?_, ih (h.afterToken hf ht hm.1) hf.2 hs.2 hu.2 hm.2 fun hw => ?_⟩
      · cases x with
        | char c =>
          -- a slash divides in the script, and so it does in the compact form
          rintro rfl hopen
          rw [← hl (wordOf_of_not_isWord (by decide) xs), hu.1 rfl] at hopen
          cases hopen
        | lexeme s =>
          intro hk
          rw [← hl rfl]
          exact hs.1 hk
      · exact h.opensPattern ht hm.1 hw last lastThere

end

/-! ### The compact form -/

/-- An unambiguous script with close members keeps its slashes. -/
theorem IsUnambiguous.keepsSlashes {text : List Char} (hu : IsUnambiguous text)
    (hm : HasCloseMembers text) : KeepsSlashes text :=
  (inStep_start _).slashesStand (allFit_scan text) (reads_iff.1 (reads_scan text).1).2 hu hm fun _ => rfl

/-- A script that keeps its slashes is handed out in its compact form. -/
theorem KeepsSlashes.minify_eq {text : String} (h : KeepsSlashes text.toList) :
    minify text = .ok (String.ofList (compact (scan text.toList))) := by
  refine minify_eq_ok_iff.2 ⟨?_, rfl⟩
  rw [literalTexts_eq_tokens, literalTexts_eq_tokens, (tokens_compact_iff _).2 h]

/-- The compact form of a script that keeps its slashes is its own compact form. -/
theorem KeepsSlashes.compact_compact {text : List Char} (h : KeepsSlashes text) :
    compact (scan (compact (scan text))) = compact (scan text) := by
  rw [compact_eq_iff, h.itemsOf_scan]
  exact isTight_compactItems _ none false

/-- The compact form of an unambiguous script with close members is handed out. It has the tokens of the
    script and no comment, and a second compaction leaves it as it is. -/
theorem exists_minify {text : String} (hu : IsUnambiguous text.toList)
    (hm : HasCloseMembers text.toList) :
    ∃ result, minify text = .ok result ∧
      ((∀ s ∈ scan result.toList, s.isComment = false) ∧
        tokens (scan result.toList) = tokens (scan text.toList)) ∧
      minify result = .ok result := by
  have hk := hu.keepsSlashes hm
  refine ⟨_, hk.minify_eq, ?_, ?_⟩
  · rw [String.toList_ofList]
    exact ⟨hk.not_isComment, (tokens_compact_iff _).2 hk⟩
  · rw [minify_eq_ok_iff, String.toList_ofList, hk.compact_compact]
    exact ⟨rfl, rfl⟩

theorem exists_minify_member :
    IsUnambiguous "a . \t return / 2\n+ +b /* . */ in /c/g of 1\n.e // f".toList ∧
      HasCloseMembers "a . \t return / 2\n+ +b /* . */ in /c/g of 1\n.e // f".toList ∧
      ∃ result, minify "a . \t return / 2\n+ +b /* . */ in /c/g of 1\n.e // f" = .ok result ∧
        ((∀ s ∈ scan result.toList, s.isComment = false) ∧
          tokens (scan result.toList) =
            tokens (scan "a . \t return / 2\n+ +b /* . */ in /c/g of 1\n.e // f".toList)) ∧
        minify result = .ok result :=
  have hu : IsUnambiguous "a . \t return / 2\n+ +b /* . */ in /c/g of 1\n.e // f".toList := by
    decide +kernel
  have hm : HasCloseMembers "a . \t return / 2\n+ +b /* . */ in /c/g of 1\n.e // f".toList := by
    decide +kernel
  ⟨hu, hm, exists_minify hu hm⟩

end Respace.Script
