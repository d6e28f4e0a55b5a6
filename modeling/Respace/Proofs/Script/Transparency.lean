import Respace.Proofs.Script.Grammar
import Respace.Proofs.Script.Indentation

/-! A block comment in a line and a space in its place. The reader of a script passes a comment without a
    change of what it takes the last token for, but two readers look at the text of the script as it
    stands: that of a pattern, which a slash before the comment may start, and that of a keyword behind
    it.

    In front of the comment, a slash of code that may open a pattern has nothing in its line that closes
    one. A comment starts and ends with a slash, so that the body that is looked for is inside a class
    behind it; and so it is behind the space, unless what stands behind the slash escapes the start of
    the comment. Behind the comment, two readers see the same but for a point in front of the comment,
    which the space leaves in sight.

    Main statement: where no keyword takes part in the latter, the tokens are the same with the space
    just when no slash escapes the comment or nothing closes a pattern behind it. -/

namespace Respace.Script

open Text

/-! ### Bodies of patterns -/

namespace BodyState

/-- A body that goes on behind a star and a slash is inside a class. -/
theorem after_closer {s : BodyState} {cs : List Char} (h : s.after (cs ++ ['*', '/']) ≠ closed) :
    s.after (cs ++ ['*', '/']) = within true := by
  rw [after_append] at h ⊢
  generalize s.after cs = t at h ⊢
  rcases t with k | k | _
  · cases k
    · exact absurd rfl h
    · rfl
  · cases k
    · exact absurd rfl h
    · rfl
  · exact absurd rfl h

/-- A body that goes on behind a slash is inside a class, or it escapes the slash. -/
theorem next_space_of_slash {s : BodyState} (h : s.next '/' ≠ closed) :
    s.next ' ' = if s = escaped false then within false else within true := by
  rcases s with k | k | _
  · cases k
    · exact absurd rfl h
    · rfl
  · cases k <;> rfl
  · exact absurd rfl h

/-- A body escapes what stands behind a backslash only. -/
theorem eq_backslash_of_next {s : BodyState} {c : Char} {k : Bool} (h : s.next c = escaped k) :
    c = '\\' := by
  by_contra hc
  rcases s with i | i | _
  · rw [next, if_neg hc] at h
    split at h
    · cases h
    · split at h <;> cases h
  · cases h
  · cases h

theorem getLast?_of_escaped {cs : List Char} {i k : Bool} (h : (within i).after cs = escaped k) :
    cs.getLast? = some '\\' := by
  rcases List.eq_nil_or_concat cs with rfl | ⟨ds, c, rfl⟩
  · cases h
  · rw [List.concat_eq_append, after_append] at h
    rw [List.concat_eq_append, List.getLast?_concat, eq_backslash_of_next h]

/-- A body that a comment and what follows it leave open goes on to be open with a space in place of the
    comment, unless it escapes the comment and is closed behind it. -/
theorem after_firstLine_space_iff {s : BodyState} {comment rest : List Char}
    (hc : IsClosedBlock comment) (hl : comment.any isLineEnd = false)
    (h : s.after (firstLine (comment ++ rest)) ≠ closed) :
    s.after (firstLine (' ' :: rest)) ≠ closed ↔
      s ≠ escaped false ∨ (within false).after (firstLine rest) ≠ closed := by
  rw [firstLine_append, if_neg (by simp [hl]), after_append] at h
  obtain ⟨body, -, rfl⟩ := hc
  have hopen : s.after ('/' :: '*' :: body ++ ['*', '/']) ≠ closed := by
    intro hs
    change s.after ('/' :: '*' :: (body ++ ['*', '/'])) = closed at hs
    rw [hs, closed_after] at h
    exact h rfl
  have hslash : s.after ['/'] ≠ closed := ne_closed_of_after hopen
  have hin : s.after ('/' :: '*' :: (body ++ ['*', '/'])) = within true := after_closer hopen
  rw [hin] at h
  rw [after_firstLine_cons s (by decide), next_space_of_slash hslash]
  by_cases hs : s = escaped false
  · simp [hs]
  · simp [hs, h]

end BodyState

/-! ### In front of the comment -/

/-- Whether an item is no slash that may open a pattern and whose body escapes what stands behind the text
    `rest`, in the same line. -/
def Item.EscapesNothing (last : Lookbehind) (rest : List Char) : Item → Prop
  | char c =>
    c = '/' → last.opensPattern = true → rest.any isLineEnd = false →
      (BodyState.within false).after rest ≠ .escaped false
  | lexeme _ => True

instance (last : Lookbehind) (rest : List Char) : (x : Item) → Decidable (x.EscapesNothing last rest)
  | .char c =>
    inferInstanceAs (Decidable (c = '/' → last.opensPattern = true → rest.any isLineEnd = false →
      (BodyState.within false).after rest ≠ .escaped false))
  | .lexeme _ => isTrue trivial

/-- Whether no slash of code, read as the start of a pattern, escapes what stands behind segments. -/
def EscapesNothing (segments : List Segment) : Prop :=
  EachItem Item.EscapesNothing [] .start (itemsOf segments)

instance (segments : List Segment) : Decidable (EscapesNothing segments) :=
  inferInstanceAs (Decidable (EachItem _ _ _ _))

/-- Whether nothing in the first line of segments closes a pattern that has started before them. -/
def ClosesNothing (segments : List Segment) : Prop :=
  (BodyState.within false).after (firstLine (sourceText segments)) ≠ .closed

instance (segments : List Segment) : Decidable (ClosesNothing segments) :=
  inferInstanceAs (Decidable (_ ≠ _))

section

variable {last : Lookbehind} {mid comment rest : List Char} {x : Item}

/-- A slash in front of a comment keeps its part with a space in place of the comment, unless it escapes
    the comment and is closed behind it. -/
theorem Item.SlashStands.space_iff (h : x.SlashStands last (mid ++ (comment ++ rest)))
    (hc : IsClosedBlock comment) (hl : comment.any isLineEnd = false) :
    x.SlashStands last (mid ++ ' ' :: rest) ↔
      x.EscapesNothing last mid ∨ (BodyState.within false).after (firstLine rest) ≠ .closed := by
  cases x with
  | lexeme s => exact ⟨fun _ => .inl trivial, fun _ => h⟩
  | char c =>
    by_cases hs : c = '/' ∧ last.opensPattern = true
    · have hopen := splitPattern?_eq_none_iff.1 (h hs.1 hs.2)
      simp only [SlashStands, EscapesNothing, hs, forall_const, splitPattern?_eq_none_iff]
      rw [firstLine_append, List.any_append] at hopen ⊢
      cases hm : mid.any isLineEnd with
      | true =>
        rw [hm] at hopen
        simpa using hopen.1
      | false =>
        have hspace : isLineEnd ' ' = false := by decide
        rw [hm, List.any_append, hl, if_neg (by decide), BodyState.after_append] at hopen
        rw [if_neg (by decide), BodyState.after_append,
          BodyState.after_firstLine_space_iff hc hl hopen.1, List.any_cons, hspace]
        simp [show rest.any isLineEnd = true from hopen.2]
    · have hstand : (Item.char c).SlashStands last (mid ++ ' ' :: rest) := fun hc ho => absurd ⟨hc, ho⟩ hs
      exact ⟨fun _ => .inl fun hc ho => absurd ⟨hc, ho⟩ hs, fun _ => hstand⟩

end

/-! ### Behind the comment -/

/-- Whether the word that the text `back` ends in follows a point over a comment: nothing but spaces and
    tabs part it from the comment, nor the comment from a point, in which the text `ahead` ends. Both
    texts are given backwards. -/
def followsPointOver (ahead comment back : List Char) : Bool :=
  (back.dropWhile isWord).dropWhile (fun c => c == ' ' || c == '\t') == comment.reverse ++ ahead &&
    (ahead.dropWhile fun c => c == ' ' || c == '\t').head? == some '.'

/-- Whether the last token is an expression keyword that follows a point over a comment. -/
def Lookbehind.isMemberOver (ahead comment : List Char) : Lookbehind → Bool
  | code back => endsInKeyword back && followsPointOver ahead comment back
  | _ => false

/-- Whether an item is no pattern behind a keyword that follows a point over a comment. -/
def Item.KeepsMemberOver (ahead comment : List Char) (last : Lookbehind) (_rest : List Char) : Item → Prop
  | char _ => True
  | lexeme s => s.kind = .pattern → last.isMemberOver ahead comment = false

instance (ahead comment : List Char) (last : Lookbehind) (rest : List Char) :
    (x : Item) → Decidable (x.KeepsMemberOver ahead comment last rest)
  | .char _ => isTrue trivial
  | .lexeme s =>
    inferInstanceAs (Decidable (s.kind = .pattern → last.isMemberOver ahead comment = false))

/-- Whether no pattern stands behind an expression keyword that a block comment parts from a point. The
    scan reads such a word as a keyword, and as the name of a member without the comment. -/
def KeepsMembersOver (before : List Segment) (comment : List Char) (after : List Segment) : Prop :=
  EachItem (Item.KeepsMemberOver (sourceText before).reverse comment) [] .start
    (itemsOf (before ++ ⟨.blockComment, comment⟩ :: after))

instance (before : List Segment) (comment : List Char) (after : List Segment) :
    Decidable (KeepsMembersOver before comment after) :=
  inferInstanceAs (Decidable (EachItem _ _ _ _))

/-- Whether a reader behind the text `there`, with a space in place of the comment, sees what one of the
    script sees behind the text `seen`, but for a point in front of the comment. -/
structure SeesOver (ahead comment seen there : List Char) : Prop where
  sight : sightOf there = { sightOf seen with member := (sightOf there).member }
  kept : (sightOf seen).member = true → (sightOf there).member = true
  shown : (sightOf there).member = true →
    (sightOf seen).member = true ∨ followsPointOver ahead comment seen = true

/-- Whether the last tokens of the two readers let a slash open a pattern alike, but for a keyword that
    follows a point over the comment. -/
structure OpensOver (ahead comment : List Char) (last lastThere : Lookbehind) : Prop where
  here : lastThere.opensPattern = true → last.opensPattern = true
  there : last.opensPattern = true →
    lastThere.opensPattern = true ∨ last.isMemberOver ahead comment = true

section

variable {ahead comment seen there rest : List Char} {last lastThere : Lookbehind} {x : Item}
  {xs : List Item}

theorem followsPointOver_word {c : Char} (hc : isWord c = true) (back : List Char) :
    followsPointOver ahead comment (c :: back) = followsPointOver ahead comment back := by
  rw [followsPointOver, followsPointOver, List.dropWhile_cons_of_pos hc]

theorem followsPointOver_space {c : Char} (hc : (c == ' ' || c == '\t') = true) {back : List Char}
    (hw : (sightOf back).word = []) :
    followsPointOver ahead comment (c :: back) = followsPointOver ahead comment back := by
  have hcw : isWord c = false := by
    rw [Bool.or_eq_true, beq_iff_eq, beq_iff_eq] at hc
    rcases hc with rfl | rfl <;> decide
  have hback : back.dropWhile isWord = back := by
    have happend := List.takeWhile_append_dropWhile (p := isWord) (l := back)
    rwa [← word_sightOf, hw, List.nil_append] at happend
  rw [followsPointOver, followsPointOver, List.dropWhile_cons_of_neg (by simp [hcw]),
    List.dropWhile_cons, if_pos hc, hback]

namespace SeesOver

theorem of_eq (h : sightOf there = sightOf seen) : SeesOver ahead comment seen there where
  sight := by rw [h]
  kept := by rw [h]; exact id
  shown := by rw [h]; exact .inl

/-- Behind a comment nothing is seen, and behind a space no more than a point. -/
theorem start (hc : IsClosedBlock comment) (ahead : List Char) :
    SeesOver ahead comment (comment.reverse ++ ahead) (' ' :: ahead) := by
  obtain ⟨body, -, rfl⟩ := hc
  have hrev : ('/' :: '*' :: (body ++ ['*', '/'])).reverse ++ ahead =
      '/' :: ('*' :: (body.reverse ++ '*' :: '/' :: ahead)) := by simp
  have hclear : sightOf (('/' :: '*' :: (body ++ ['*', '/'])).reverse ++ ahead) = .clear := by
    rw [hrev, sightOf_cons, Sight.next_of_clearing _ (by simp)]
  have hslash : isWord '/' = false := by decide
  refine ⟨?_, ?_, fun hm => .inr ?_⟩
  · rw [hclear, sightOf_cons, Sight.next_blank _ (by decide)]
    rfl
  · rw [hclear]
    nofun
  · rw [member_sightOf, List.dropWhile_cons_of_neg (by decide), List.dropWhile_cons_of_pos (by decide)] at hm
    rw [followsPointOver, hm, hrev, List.dropWhile_cons_of_neg (by simp [hslash]),
      List.dropWhile_cons_of_neg (by decide), beq_self_eq_true, Bool.and_true]

theorem char (h : SeesOver ahead comment seen there) (c : Char) :
    SeesOver ahead comment (c :: seen) (c :: there) := by
  have hword : (sightOf there).word = (sightOf seen).word := by rw [h.sight]
  by_cases hc : isWord c = true
  · refine ⟨?_, ?_, ?_⟩ <;> simp only [sightOf_cons, Sight.next, hc, if_true]
    · rw [hword]
    · exact h.kept
    · rw [followsPointOver_word hc]
      exact h.shown
  · by_cases hs : (c == ' ' || c == '\t') = true
    · refine ⟨?_, ?_, ?_⟩ <;>
        simp only [sightOf_cons, Sight.next, hc, Bool.false_eq_true, if_false, hs, if_true,
          Bool.and_eq_true, hword]
      · exact fun hm => ⟨hm.1, h.kept hm.2⟩
      · intro hm
        rw [followsPointOver_space hs (List.isEmpty_iff.1 hm.1)]
        exact (h.shown hm.2).imp_left fun hseen => ⟨hm.1, hseen⟩
    · refine of_eq ?_
      simp only [sightOf_cons, Sight.next, hc, Bool.false_eq_true, if_false, hs]

theorem item (h : SeesOver ahead comment seen there) (hx : x.Fits rest) :
    SeesOver ahead comment (x.text.reverse ++ seen) (x.text.reverse ++ there) := by
  cases x with
  | char c => exact h.char c
  | lexeme s => exact of_eq (sightOf_lexeme hx there seen)

end SeesOver

theorem OpensOver.item (h : OpensOver ahead comment last lastThere)
    (hv : SeesOver ahead comment seen there) (x : Item) :
    OpensOver ahead comment (last.afterItem seen x) (lastThere.afterItem there x) := by
  cases x with
  | lexeme s =>
    change OpensOver ahead comment (last.after s) (lastThere.after s)
    rw [Lookbehind.after, Lookbehind.after]
    split
    · exact ⟨id, .inl⟩
    · exact h
  | char c =>
    change OpensOver ahead comment (last.afterCode c seen) (lastThere.afterCode c there)
    rw [Lookbehind.afterCode, Lookbehind.afterCode]
    split
    · exact h
    · have hopens : (Lookbehind.code (c :: there)).opensPattern = _ :=
        opensPattern_of_member hv.sight hv.kept
      refine ⟨fun ho => ?_, fun ho => ?_⟩
      · rw [hopens, Bool.and_eq_true] at ho
        exact ho.1
      · change (categoryOf (c :: seen)).opensPattern = true at ho
        rw [hopens, ho, Bool.true_and, Bool.not_eq_true']
        cases hk : endsInKeyword (c :: seen) && (sightOf there).member with
        | false => exact .inl rfl
        | true =>
          -- a keyword is no member in the script, so that the space shows the point
          rw [Bool.and_eq_true] at hk
          obtain ⟨hw, hm⟩ := isWord_of_endsInKeyword hk.1
          have hover := (hv.shown hk.2).resolve_left (by rw [hm]; exact Bool.false_ne_true)
          refine .inr ?_
          rw [Lookbehind.isMemberOver, hk.1, followsPointOver_word hw, hover]
          rfl

/-- A slash behind the comment keeps its part, but for a pattern behind a keyword that follows a point
    over the comment. -/
theorem Item.SlashStands.over (h : x.SlashStands last rest)
    (hk : x.KeepsMemberOver ahead comment last rest) (hl : OpensOver ahead comment last lastThere) :
    x.SlashStands lastThere rest := by
  cases x with
  | char c => exact fun hc ho => h hc (hl.here ho)
  | lexeme s =>
    intro hp
    refine (hl.there (h hp)).resolve_right ?_
    rw [hk hp]
    nofun

/-- The slashes behind the comment keep their parts. -/
theorem SlashesStand.over (hs : SlashesStand seen last xs) (hf : AllFit xs)
    (hk : EachItem (Item.KeepsMemberOver ahead comment) seen last xs)
    (hv : SeesOver ahead comment seen there) (hl : OpensOver ahead comment last lastThere) :
    SlashesStand there lastThere xs := by
  induction xs generalizing seen there last lastThere with
  | nil => trivial
  | cons x xs ih => exact ⟨hs.1.over hk.1 hl, ih hs.2 hf.2 hk.2 (hv.item hf.1) (hl.item hv x)⟩

end

/-! ### Comments replaced -/

/-- The items of segments with a space between them. -/
def itemsAround (before after : List Segment) : List Item :=
  itemsOf before ++ .char ' ' :: itemsOf after

section

variable {text comment : List Char} {before after : List Segment}

theorem textOf_itemsAround (before after : List Segment) :
    textOf (itemsAround before after) = sourceText before ++ ' ' :: sourceText after := by
  rw [itemsAround, textOf_append, textOf_char, textOf_itemsOf, textOf_itemsOf]

theorem allFit_itemsAround (hc : IsClosedBlock comment)
    (hf : AllFit (itemsOf (before ++ ⟨.blockComment, comment⟩ :: after))) :
    AllFit (itemsAround before after) := by
  rw [itemsOf_around (k := .blockComment) nofun] at hf
  obtain ⟨body, -, rfl⟩ := hc
  refine hf.exchange (c := '/') (d := ' ') rfl rfl (fun x hx => ?_) ⟨by decide, nofun⟩
  cases x with
  | char e => exact fun _ => by decide
  | lexeme s =>
    refine ⟨fun _ => by decide, fun hk => ?_⟩
    exact absurd (hx.2 hk) (by decide)

/-- Around a space in place of a comment the slashes keep their parts just when no slash escapes the
    comment or nothing closes a pattern behind it. -/
theorem slashesStand_itemsAround_iff (h : scan text = before ++ ⟨.blockComment, comment⟩ :: after)
    (hc : IsClosedBlock comment) (hl : comment.any isLineEnd = false)
    (hm : KeepsMembersOver before comment after) :
    SlashesStand [] .start (itemsAround before after) ↔ EscapesNothing before ∨ ClosesNothing after := by
  obtain ⟨hf, hs⟩ := reads_iff.1 (reads_scan text).1
  rw [h, itemsOf_around (k := .blockComment) nofun] at hf hs
  rw [KeepsMembersOver, itemsOf_around (k := .blockComment) nofun] at hm
  rw [SlashesStand, itemsAround, eachItem_append]
  rw [SlashesStand, eachItem_append] at hs
  rw [eachItem_append] at hm
  simp only [textOf_lexeme, textOf_char, textOf_itemsOf, List.append_nil] at hs hm ⊢
  obtain ⟨hfront, -, hback⟩ := hs
  obtain ⟨-, -, hkeep⟩ := hm
  have hbehind := SlashesStand.over hback hf.behind.2 hkeep (.start hc _) ⟨id, .inl⟩
  refine (and_iff_left ⟨slashStands_blank _ _ _ (by decide), hbehind⟩).trans ?_
  refine (hfront.congr fun last mid x hx => hx.space_iff hc hl).trans ?_
  by_cases hr : ClosesNothing after
  · exact iff_of_true (hfront.imp fun _ _ _ _ => .inr hr) (.inr hr)
  · rw [or_iff_left hr]
    exact hfront.congr fun _ _ _ _ => or_iff_left hr

/-- The tokens are the same with a space in place of a comment just when the slashes keep their parts. -/
theorem tokens_itemsAround_iff (h : scan text = before ++ ⟨.blockComment, comment⟩ :: after)
    (hc : IsClosedBlock comment) :
    tokens (scan (sourceText before ++ ' ' :: sourceText after)) = tokens (scan text) ↔
      SlashesStand [] .start (itemsAround before after) := by
  have hf := allFit_scan text
  rw [h] at hf
  have hblank : (Item.char ' ').token? = none := by decide
  have htokens : tokens (scan text) = (itemsAround before after).filterMap (·.token?) := by
    rw [tokens_eq, h, itemsOf_around (k := .blockComment) nofun, itemsAround, List.filterMap_append,
      List.filterMap_append, List.filterMap_cons_none hblank, List.filterMap_cons_none rfl]
  rw [htokens, tokens_eq, ← textOf_itemsAround]
  exact filterMap_scanFrom_iff tellsSlashes_token? (allFit_itemsAround hc hf)

theorem escapesNothing_of_getLast? (h : (sourceText before).getLast? ≠ some '\\') :
    EscapesNothing before := by
  rw [← textOf_itemsOf] at h
  rw [EscapesNothing]
  generalize itemsOf before = xs, ([] : List Char) = seen, Lookbehind.start = last at h
  induction xs generalizing seen last with
  | nil => trivial
  | cons x xs ih =>
    have hxs : (textOf xs).getLast? ≠ some '\\' := by
      intro hx
      rw [textOf_cons, List.getLast?_append, hx] at h
      exact h rfl
    refine ⟨?_, ih _ _ hxs⟩
    cases x with
    | lexeme s => trivial
    | char c => exact fun _ _ _ he => hxs (BodyState.getLast?_of_escaped he)

/-- No keyword follows a point over a comment that follows none. -/
theorem keepsMembersOver_of_head?
    (h : ((sourceText before).reverse.dropWhile fun c => c == ' ' || c == '\t').head? ≠ some '.') :
    KeepsMembersOver before comment after := by
  refine .of_forall (fun last rest x => ?_) ..
  cases x with
  | char c => trivial
  | lexeme s =>
    intro _
    cases last with
    | start | literal => rfl
    | code back => simp [Lookbehind.isMemberOver, followsPointOver, h]

/-- A comment that stands behind neither a backslash nor a point parts tokens as a space does. -/
theorem tokens_space_for_comment (h : scan text = before ++ ⟨.blockComment, comment⟩ :: after)
    (hc : IsClosedBlock comment) (hl : comment.any isLineEnd = false)
    (hback : (sourceText before).getLast? ≠ some '\\')
    (hpoint : ((sourceText before).reverse.dropWhile fun c => c == ' ' || c == '\t').head? ≠ some '.') :
    tokens (scan (sourceText before ++ ' ' :: sourceText after)) = tokens (scan text) := by
  rw [tokens_itemsAround_iff h hc,
    slashesStand_itemsAround_iff h hc hl (keepsMembersOver_of_head? hpoint)]
  exact .inl (escapesNothing_of_getLast? hback)

/-- With a space in place of a comment in a line a script has the same tokens just when no slash before the
    comment, read as the start of a pattern, escapes the comment, or nothing behind the comment closes
    that pattern. Then its literals are the same. -/
theorem tokens_space_for_comment_iff (h : scan text = before ++ ⟨.blockComment, comment⟩ :: after)
    (hc : IsClosedBlock comment) (hl : comment.any isLineEnd = false)
    (hm : KeepsMembersOver before comment after) :
    (tokens (scan (sourceText before ++ ' ' :: sourceText after)) = tokens (scan text) ↔
      EscapesNothing before ∨ ClosesNothing after) ∧
    (EscapesNothing before ∨ ClosesNothing after →
      literalTexts (scan (sourceText before ++ ' ' :: sourceText after)) = literalTexts (scan text)) := by
  have htokens := (tokens_itemsAround_iff h hc).trans (slashesStand_itemsAround_iff h hc hl hm)
  refine ⟨htokens, fun hopen => ?_⟩
  rw [literalTexts_eq_tokens, literalTexts_eq_tokens, htokens.2 hopen]

end

-- a keyword behind a comment is the name of a member when a space stands in place of the comment
example : ¬ KeepsMembersOver [⟨.code, ['a', '.']⟩] "/**/".toList
    [⟨.code, "return ".toList⟩, ⟨.pattern, "/b/".toList⟩] := by decide +kernel

theorem tokens_space_for_comment_class :
    scan "(/[/* / */ /c/g\n".toList = [⟨.code, "(/[".toList⟩] ++ ⟨.blockComment, "/* / */".toList⟩ ::
        [⟨.code, [' ']⟩, ⟨.pattern, "/c/g".toList⟩, ⟨.code, ['\n']⟩] ∧
      IsClosedBlock "/* / */".toList ∧ "/* / */".toList.any isLineEnd = false ∧
      KeepsMembersOver [⟨.code, "(/[".toList⟩] "/* / */".toList
        [⟨.code, [' ']⟩, ⟨.pattern, "/c/g".toList⟩, ⟨.code, ['\n']⟩] ∧
      (tokens (scan "(/[  /c/g\n".toList) = tokens (scan "(/[/* / */ /c/g\n".toList) ↔
        EscapesNothing [⟨.code, "(/[".toList⟩] ∨
          ClosesNothing [⟨.code, [' ']⟩, ⟨.pattern, "/c/g".toList⟩, ⟨.code, ['\n']⟩]) ∧
      (EscapesNothing [⟨.code, "(/[".toList⟩] ∨
          ClosesNothing [⟨.code, [' ']⟩, ⟨.pattern, "/c/g".toList⟩, ⟨.code, ['\n']⟩] →
        literalTexts (scan "(/[  /c/g\n".toList) = literalTexts (scan "(/[/* / */ /c/g\n".toList)) :=
  have h : scan "(/[/* / */ /c/g\n".toList =
      [⟨.code, "(/[".toList⟩] ++ ⟨.blockComment, "/* / */".toList⟩ ::
        [⟨.code, [' ']⟩, ⟨.pattern, "/c/g".toList⟩, ⟨.code, ['\n']⟩] := by decide +kernel
  have hc : IsClosedBlock "/* / */".toList := ⟨[' ', '/', ' '], by decide, by decide⟩
  have hl : "/* / */".toList.any isLineEnd = false := by decide
  have hm : KeepsMembersOver [⟨.code, "(/[".toList⟩] "/* / */".toList
      [⟨.code, [' ']⟩, ⟨.pattern, "/c/g".toList⟩, ⟨.code, ['\n']⟩] := by decide +kernel
  ⟨h, hc, hl, hm, tokens_space_for_comment_iff h hc hl hm⟩

/-- A slash that escapes the start of a comment is inside a class behind the comment, and opens a pattern
    without it. -/
theorem literalTexts_space_for_comment_ne :
    scan "/\\/*[*/ /\n".toList =
        [⟨.code, ['/', '\\']⟩] ++ ⟨.blockComment, "/*[*/".toList⟩ :: [⟨.code, [' ', '/', '\n']⟩] ∧
      IsClosedBlock "/*[*/".toList ∧ "/*[*/".toList.any isLineEnd = false ∧
      literalTexts (scan (sourceText [⟨.code, ['/', '\\']⟩] ++
        ' ' :: sourceText [⟨.code, [' ', '/', '\n']⟩])) ≠ literalTexts (scan "/\\/*[*/ /\n".toList) :=
  ⟨by decide +kernel, ⟨['['], by decide, by decide⟩, by decide, by decide +kernel⟩

end Respace.Script
