import Respace.Proofs.Script.Indentation

/-! The indented form of a script with whatever blanks. All blanks of a line come to one space there, while
    the scan takes a keyword behind a point for the name of a member only when nothing but spaces and tabs
    parts the two. So there is one way for the indented form to have other tokens than the script and to be
    handed out all the same: a pattern behind a keyword that another blank parts from a point becomes a
    division, and the literals happen to agree.

    The other blanks are replaced by spaces first, which leaves the indented form as it is. Without such a
    pattern this does not change how the script reads, and what is known of plain blanks applies. -/

namespace Respace.Script

open Text

/-! ### Blanks replaced by spaces -/

/-- A blank that the readers do not take alike, as a space. -/
def plainChar (c : Char) : Char := if isBlank c && !plainBlanks.contains c then ' ' else c

/-- An item with its blank replaced, if it is one. -/
def Item.plain : Item → Item
  | char c => char (plainChar c)
  | lexeme s => lexeme s

theorem plainChar_of_not_isBlank {c : Char} (hc : isBlank c = false) : plainChar c = c := by
  rw [plainChar, hc]
  rfl

theorem plainChar_of_mem {c : Char} (hc : c ∈ plainBlanks) : plainChar c = c := by
  rw [plainChar, List.contains_iff_mem.2 hc, Bool.not_true, Bool.and_false]
  rfl

/-- A blank is left as it is, or it is one that ends no line and becomes a space. -/
theorem plainChar_eq (c : Char) :
    plainChar c = c ∨ plainChar c = ' ' ∧ isBlank c = true ∧ isLineEnd c = false := by
  rw [plainChar]
  split
  · rename_i h
    rw [Bool.and_eq_true, Bool.not_eq_true', ← Bool.not_eq_true, List.contains_iff_mem] at h
    refine .inr ⟨rfl, h.1, ?_⟩
    rw [← Bool.not_eq_true, isLineEnd_iff]
    rintro (rfl | rfl) <;> exact h.2 (by decide)
  · exact .inl rfl

theorem plainChar_mem {c : Char} (hc : isBlank c = true) : plainChar c ∈ plainBlanks := by
  rw [plainChar, hc, Bool.true_and]
  split
  · decide
  · rename_i h
    simpa using h

@[simp] theorem isBlank_plainChar (c : Char) : isBlank (plainChar c) = isBlank c := by
  rcases plainChar_eq c with h | ⟨h, hb, -⟩
  · rw [h]
  · rw [h, hb]
    decide

@[simp] theorem isLineEnd_plainChar (c : Char) : isLineEnd (plainChar c) = isLineEnd c := by
  rcases plainChar_eq c with h | ⟨h, -, hl⟩
  · rw [h]
  · rw [h, hl]
    decide

theorem plainChar_eq_lineEnd_iff {c d : Char} (hd : isLineEnd d = true) : plainChar c = d ↔ c = d := by
  rcases plainChar_eq c with h | ⟨h, -, hl⟩
  · rw [h]
  · rw [h]
    constructor
    · rintro rfl
      exact absurd hd (by decide)
    · rintro rfl
      rw [hd] at hl
      cases hl

theorem lineBreaks_cons {c : Char} {cs : List Char} (h : ∀ ds, c = '\r' → cs = '\n' :: ds → False) :
    lineBreaks (c :: cs) = if isLineEnd c then lineBreaks cs + 1 else lineBreaks cs := by
  rw [lineBreaks]
  exact h

theorem lineBreaks_map_plainChar (cs : List Char) : lineBreaks (cs.map plainChar) = lineBreaks cs := by
  have hcons : ∀ {c : Char} {cs : List Char}, (∀ ds, c = '\r' → cs = '\n' :: ds → False) →
      ∀ ds, plainChar c = '\r' → cs.map plainChar = '\n' :: ds → False := by
    intro c cs h ds hc hcs
    obtain ⟨d, cs, rfl, hd, -⟩ := List.map_eq_cons_iff.1 hcs
    rw [plainChar_eq_lineEnd_iff (by decide)] at hc hd
    exact h cs hc (hd ▸ rfl)
  fun_induction lineBreaks cs with
  | case1 => rfl
  | case2 cs ih =>
    have hr : plainChar '\r' = '\r' ∧ plainChar '\n' = '\n' := by decide
    rw [List.map_cons, List.map_cons, hr.1, hr.2, lineBreaks, ih]
  | case3 c cs h hc ih =>
    rw [List.map_cons, lineBreaks_cons (hcons h), ih, isLineEnd_plainChar, if_pos hc]
  | case4 c cs h hc ih =>
    rw [List.map_cons, lineBreaks_cons (hcons h), ih, isLineEnd_plainChar, if_neg hc]

theorem Gap.ofRun_map_plainChar (run : List Char) : ofRun (run.map plainChar) = ofRun run := by
  rw [ofRun, ofRun, lineBreaks_map_plainChar]
  simp only [List.map_eq_nil_iff]

/-! ### The indented form with its blanks replaced -/

section

variable {left : Option Bool} {run : List Char} {reached size : Nat} {x : Item} {xs : List Item}

theorem Item.plain_of_not_isBlank (hx : x.isBlank = false) : x.plain = x := by
  cases x with
  | char c => exact congrArg char (plainChar_of_not_isBlank hx)
  | lexeme s => rfl

theorem Item.isBlank_plain (x : Item) : x.plain.isBlank = x.isBlank := by
  cases x with
  | char c => exact isBlank_plainChar c
  | lexeme s => rfl

theorem firstInk?_map_plain (xs : List Item) :
    firstInk? (textOf (xs.map .plain)) = firstInk? (textOf xs) := by
  induction xs with
  | nil => rfl
  | cons x xs ih =>
    rw [List.map_cons, textOf_cons, textOf_cons, Page.firstInk?_append, Page.firstInk?_append, ih]
    cases hx : x.isBlank with
    | false => rw [Item.plain_of_not_isBlank hx]
    | true =>
      obtain ⟨c, rfl, hc⟩ := Item.exists_char_of_isBlank hx
      have hn : ∀ d, isBlank d = true → firstInk? [d] = none := by
        intro d hd
        simp [firstInk?, hd]
      rw [show (Item.char c).plain.text = [plainChar c] from rfl, show (Item.char c).text = [c] from rfl,
        hn c hc, hn _ (by rwa [isBlank_plainChar])]

theorem stops_map_plain :
    stops left (run.map plainChar) reached (xs.map .plain) = stops left run reached xs := by
  induction xs generalizing left run reached with
  | nil => rfl
  | cons x xs ih =>
    rw [List.map_cons]
    cases hx : x.isBlank with
    | true =>
      obtain ⟨c, rfl, hc⟩ := Item.exists_char_of_isBlank hx
      rw [stops_blank hx, stops_blank (by rw [Item.isBlank_plain, hx]), ← ih, List.map_append]
      rfl
    | false =>
      have hgap : gapBefore left (run.map plainChar) x = gapBefore left run x := by
        cases left with
        | none => rfl
        | some ended => rw [gapBefore, gapBefore, Gap.ofRun_map_plainChar]
      rw [Item.plain_of_not_isBlank hx, stops_ink hx, stops_ink hx, hgap, firstInk?_map_plain, ← ih]
      rfl

theorem head?_textOf_map_plain (h : AllFit xs) :
    (textOf (xs.map .plain)).head? = (textOf xs).head?.map plainChar := by
  cases xs with
  | nil => rfl
  | cons x xs =>
    cases x with
    | char c => rfl
    | lexeme s =>
      obtain ⟨c, cs, hc, hb⟩ := h.1.exists_ink rfl
      have ht : s.text = c :: cs := hc
      rw [List.map_cons, Item.plain, textOf_lexeme, textOf_lexeme, ht]
      exact congrArg some (plainChar_of_not_isBlank hb).symm

/-- An item in front of a character may stand in front of that character replaced as well. -/
theorem Item.AdmitsChar.plain {c : Char} (h : x.AdmitsChar c) : x.AdmitsChar (plainChar c) := by
  rcases plainChar_eq c with hc | ⟨hc, -, hl⟩
  · rwa [hc]
  · rw [hc]
    cases x with
    | char d =>
      intro _
      decide
    | lexeme s =>
      refine ⟨fun _ => by decide, fun hk => ?_⟩
      rw [h.2 hk] at hl
      cases hl

theorem allFit_map_plain (h : AllFit xs) : AllFit (xs.map .plain) := by
  induction xs with
  | nil => trivial
  | cons x xs ih =>
    have hhead := head?_textOf_map_plain h.2
    refine ⟨?_, ih h.2⟩
    cases hx : x.isBlank with
    | true =>
      obtain ⟨c, rfl, hc⟩ := Item.exists_char_of_isBlank hx
      have hb : ∀ d ∈ [plainChar c], isBlank d = true := by simpa using hc
      exact (allFit_chars hb (ih h.2)).1
    | false =>
      rw [Item.plain_of_not_isBlank hx]
      refine h.1.move (fun hn => ?_) fun d hd => ?_
      · rw [hn] at hhead
        exact List.head?_eq_none_iff.1 hhead
      · rw [hhead, Option.mem_def, Option.map_eq_some_iff] at hd
        obtain ⟨c, hc, rfl⟩ := hd
        exact (h.1.admits c hc).plain

theorem BodyState.next_plainChar (s : BodyState) (c : Char) : s.next (plainChar c) = s.next c := by
  rcases plainChar_eq c with h | ⟨h, hb, -⟩
  · rw [h]
  · rw [h, s.next_blank hb]

/-- Replacing blanks leads a body to where it was led before. -/
theorem after_firstLine_map_plain (s : BodyState) :
    s.after (firstLine (textOf (xs.map .plain))) = s.after (firstLine (textOf xs)) := by
  induction xs generalizing s with
  | nil => rfl
  | cons x xs ih =>
    cases x with
    | char c =>
      rw [List.map_cons, Item.plain, textOf_char, textOf_char]
      cases hl : isLineEnd c with
      | true =>
        rw [BodyState.after_firstLine_lineEnd s hl, BodyState.after_firstLine_lineEnd s (by simpa using hl)]
      | false =>
        rw [BodyState.after_firstLine_cons s hl, BodyState.after_firstLine_cons s (by simpa using hl),
          BodyState.next_plainChar, ih]
    | lexeme t =>
      rw [List.map_cons, Item.plain, textOf_lexeme, textOf_lexeme, firstLine_append, firstLine_append]
      split
      · rfl
      · rw [BodyState.after_append, BodyState.after_append, ih]

theorem any_isLineEnd_map_plain (xs : List Item) :
    (textOf (xs.map .plain)).any isLineEnd = (textOf xs).any isLineEnd := by
  induction xs with
  | nil => rfl
  | cons x xs ih =>
    rw [List.map_cons, textOf_cons, textOf_cons, List.any_append, List.any_append, ih]
    cases x with
    | char c => simp [Item.plain, Item.text]
    | lexeme s => rfl

/-- A slash that divides goes on to divide when blanks behind it are replaced. -/
theorem splitPattern?_map_plain (h : splitPattern? (textOf xs) = none) :
    splitPattern? (textOf (xs.map .plain)) = none := by
  rw [splitPattern?_eq_none_iff] at h ⊢
  rw [after_firstLine_map_plain, any_isLineEnd_map_plain]
  exact h

end

/-! ### Points in the same line -/

/-- Whether the word that a text, given backwards, ends in follows a point in its line, over whatever
    blanks. -/
def followsPoint (back : List Char) : Bool :=
  ((back.dropWhile isWord).dropWhile fun c => isBlank c && !isLineEnd c).head? == some '.'

/-- Whether the last token is an expression keyword that follows a point in its line. -/
def Lookbehind.isMember : Lookbehind → Bool
  | code back => endsInKeyword back && followsPoint back
  | _ => false

/-- Whether an item is no pattern behind a keyword that follows a point in its line. -/
def Item.KeepsMember (last : Lookbehind) (_rest : List Char) : Item → Prop
  | char _ => True
  | lexeme s => s.kind = .pattern → last.isMember = false

instance (last : Lookbehind) (rest : List Char) : (x : Item) → Decidable (x.KeepsMember last rest)
  | .char _ => isTrue trivial
  | .lexeme s => inferInstanceAs (Decidable (s.kind = .pattern → last.isMember = false))

/-- Whether no pattern of a script stands behind an expression keyword that follows a point in its line.
    The scan reads such a word as a keyword when a blank other than spaces and tabs stands there. -/
def KeepsMembers (text : List Char) : Prop :=
  EachItem Item.KeepsMember [] .start (itemsOf (scan text))

instance (text : List Char) : Decidable (KeepsMembers text) :=
  inferInstanceAs (Decidable (EachItem _ _ _ _))

/-- What is seen of a text, given backwards, when all blanks of a line are taken for spaces. -/
def lineSightOf (back : List Char) : Sight := { sightOf back with member := followsPoint back }

theorem followsPoint_word {c : Char} (hc : isWord c = true) (back : List Char) :
    followsPoint (c :: back) = followsPoint back := by
  rw [followsPoint, followsPoint, List.dropWhile_cons_of_pos hc]

theorem followsPoint_ink {c : Char} (hw : isWord c = false) (hb : (isBlank c && !isLineEnd c) = false)
    (back : List Char) : followsPoint (c :: back) = (c == '.') := by
  rw [followsPoint, List.dropWhile_cons_of_neg (by simp [hw]), List.dropWhile_cons_of_neg (by simp [hb])]
  rfl

theorem followsPoint_blank {c : Char} (hb : isBlank c = true) (hl : isLineEnd c = false)
    (back : List Char) :
    followsPoint (c :: back) = ((sightOf back).word.isEmpty && followsPoint back) := by
  have hw := isWord_of_isBlank hb
  rw [followsPoint, followsPoint, List.dropWhile_cons_of_neg (by simp [hw]),
    List.dropWhile_cons_of_pos (by simp [hb, hl]), word_sightOf]
  cases back with
  | nil => rfl
  | cons d back =>
    by_cases hd : isWord d = true
    · -- a word at the end of the text is no point
      have hn := isBlank_of_isWord hd
      have hp : d ≠ '.' := (not_space_of_isWord hd).2.2
      simp [hd, hn, hp]
    · simp [hd]

theorem lineSightOf_cons (c : Char) (back : List Char) :
    lineSightOf (c :: back) = (lineSightOf back).next (plainChar c) := by
  cases hb : isBlank c with
  | false =>
    rw [plainChar_of_not_isBlank hb, lineSightOf, sightOf_cons]
    by_cases hw : isWord c = true
    · rw [followsPoint_word hw, Sight.next, Sight.next, if_pos hw, if_pos hw]
      rfl
    · have hw := Bool.not_eq_true _ ▸ hw
      rw [followsPoint_ink hw (by simp [hb]), Sight.next_ink _ hw hb, Sight.next_ink _ hw hb]
  | true =>
    have hw := isWord_of_isBlank hb
    cases hl : isLineEnd c with
    | true =>
      have hp : (c == '.') = false := by
        rcases isLineEnd_iff.1 hl with rfl | rfl <;> decide
      rw [lineSightOf, sightOf_cons, followsPoint_ink hw (by simp [hl]), hp, Sight.next_lineEnd _ hl,
        Sight.next_lineEnd _ (by simpa using hl)]
      rfl
    | false =>
      rw [lineSightOf, sightOf_cons, followsPoint_blank hb hl, Sight.next_blank _ hb,
        Sight.next_space _ (plainChar_mem hb) (by simpa using hl), Sight.next_blank _ (by decide)]
      rfl

/-- A point that spaces and tabs leave in sight is in the same line. -/
theorem followsPoint_of_member {back : List Char} (h : (sightOf back).member = true) :
    followsPoint back = true := by
  rw [member_sightOf] at h
  rw [followsPoint]
  generalize back.dropWhile isWord = cs at h
  induction cs with
  | nil => exact h
  | cons c cs ih =>
    by_cases hc : (c == ' ' || c == '\t') = true
    · rw [List.dropWhile_cons, if_pos hc] at h
      rw [Bool.or_eq_true, beq_iff_eq, beq_iff_eq] at hc
      have hb : (isBlank c && !isLineEnd c) = true := by rcases hc with rfl | rfl <;> decide
      rw [List.dropWhile_cons, if_pos hb]
      exact ih h
    · rw [List.dropWhile_cons, if_neg hc] at h
      obtain rfl : c = '.' := by simpa using h
      rw [List.dropWhile_cons_of_neg (by decide)]
      rfl

/-! ### A reader of the script and one of replaced blanks -/

/-- Whether a reader of replaced blanks, behind the text `there`, sees what a reader of the script does
    behind the text `seen` when it takes all blanks of a line for spaces; both texts are given backwards.
    Behind a line comment it is about to. -/
def InView (seen there rest : List Char) : Prop :=
  sightOf there = lineSightOf seen ∨ ∀ c ∈ rest.head?, isLineEnd c = true

section

variable {seen there rest : List Char} {last lastThere : Lookbehind}

theorem InView.char {c : Char} (h : InView seen there (c :: rest)) :
    sightOf (plainChar c :: there) = lineSightOf (c :: seen) := by
  rw [sightOf_cons, lineSightOf_cons]
  rcases h with h | h
  · rw [h]
  · have hl : isLineEnd (plainChar c) = true := by simpa using h c rfl
    rw [Sight.next_lineEnd _ hl, Sight.next_lineEnd _ hl]

theorem sightOf_words {ws : List Char} (hw : ∀ c ∈ ws, isWord c = true)
    (h : sightOf there = lineSightOf seen) : sightOf (ws ++ there) = lineSightOf (ws ++ seen) := by
  induction ws with
  | nil => exact h
  | cons c ws ih =>
    rw [List.forall_mem_cons] at hw
    rw [List.cons_append, List.cons_append, sightOf_cons, lineSightOf_cons, ih hw.2,
      plainChar_of_not_isBlank (isBlank_of_isWord hw.1)]

/-- Both readers see the same behind a lexeme: its closer hides the text before it. -/
theorem inView_lexeme {s : Segment} (h : Ends s rest) (seen there : List Char) :
    InView (s.text.reverse ++ seen) (s.text.reverse ++ there) rest := by
  by_cases hr : rest = []
  · exact .inr (by simp [hr])
  by_cases hk : s.kind = .lineComment
  · cases h with
    | line hs => exact .inr (isLineEnd_of_splitLine hs)
    | block | string | pattern => cases hk
  · left
    obtain ⟨cs, d, flags, ht, hd, hf⟩ := h.exists_closer hr hk
    rw [ht, List.reverse_append, List.reverse_cons, List.append_assoc, List.append_assoc,
      List.append_assoc, List.append_assoc]
    refine sightOf_words (by simpa using hf) ?_
    rw [List.singleton_append, List.singleton_append, sightOf_cons, lineSightOf_cons]
    simp only [quoteChars, List.mem_cons, List.not_mem_nil, or_false] at hd
    rcases hd with rfl | rfl | rfl | rfl <;> rfl

/-- In view of all blanks of a line a slash opens a pattern behind the same characters, but for keywords
    that follow a point. -/
theorem opensPattern_categoryOf {c : Char} (h : sightOf there = lineSightOf seen) :
    (categoryOf (c :: there)).opensPattern =
      ((categoryOf (c :: seen)).opensPattern &&
        !(endsInKeyword (c :: seen) && followsPoint (c :: seen))) := by
  rw [opensPattern_of_member h followsPoint_of_member]
  cases hk : endsInKeyword (c :: seen) with
  | false => rfl
  | true => rw [followsPoint_word (isWord_of_endsInKeyword hk).1]

variable {x : Item} {xs : List Item}

theorem InView.item (h : InView seen there (x.text ++ rest)) (hx : x.Fits rest) :
    InView (x.text.reverse ++ seen) (x.plain.text.reverse ++ there) rest := by
  cases x with
  | char c => exact .inl h.char
  | lexeme s => exact inView_lexeme hx seen there

/-- The last tokens of the two readers go on to let a slash open a pattern alike, but for keywords that
    follow a point. -/
theorem InView.opensPattern (h : InView seen there (x.text ++ rest))
    (hl : lastThere.opensPattern = (last.opensPattern && !last.isMember)) :
    (lastThere.afterItem there x.plain).opensPattern =
      ((last.afterItem seen x).opensPattern && !(last.afterItem seen x).isMember) := by
  cases x with
  | lexeme s =>
    change (lastThere.after s).opensPattern = ((last.after s).opensPattern && !(last.after s).isMember)
    rw [Lookbehind.after, Lookbehind.after]
    split
    · rfl
    · exact hl
  | char c =>
    change (lastThere.afterCode (plainChar c) there).opensPattern =
      ((last.afterCode c seen).opensPattern && !(last.afterCode c seen).isMember)
    rw [Lookbehind.afterCode, Lookbehind.afterCode, isBlank_plainChar]
    split
    · exact hl
    · rename_i hb
      have hsight : sightOf there = lineSightOf seen := by
        refine h.resolve_right fun hline => hb ?_
        exact isBlank_of_isLineEnd (hline c rfl)
      rw [plainChar_of_not_isBlank (Bool.not_eq_true _ ▸ hb)]
      exact opensPattern_categoryOf hsight

/-- Whether a pattern may stand where an item is one. -/
def Item.PatternStands (last : Lookbehind) (_rest : List Char) : Item → Prop
  | char _ => True
  | lexeme s => s.kind = .pattern → last.opensPattern = true

/-- A slash keeps its part when blanks are replaced, but for a pattern behind a keyword that follows a
    point. -/
theorem Item.SlashStands.plain (h : x.SlashStands last (textOf xs)) (hk : x.KeepsMember last (textOf xs))
    (hl : lastThere.opensPattern = (last.opensPattern && !last.isMember)) :
    x.plain.SlashStands lastThere (textOf (xs.map .plain)) := by
  cases x with
  | char c =>
    intro hc ho
    obtain rfl : c = '/' := by
      rcases plainChar_eq c with h | ⟨h, -, -⟩
      · rw [← h, hc]
      · rw [h] at hc
        exact absurd hc (by decide)
    rw [hl, Bool.and_eq_true] at ho
    exact splitPattern?_map_plain (h rfl ho.1)
  | lexeme s =>
    intro hp
    rw [hl, h hp, hk hp]
    rfl

/-- A pattern behind a keyword that follows a point does not stand any more when blanks are replaced. -/
theorem Item.PatternStands.keepsMember {rest' : List Char} (h : x.plain.PatternStands lastThere rest')
    (hl : lastThere.opensPattern = (last.opensPattern && !last.isMember)) : x.KeepsMember last rest := by
  cases x with
  | char c => trivial
  | lexeme s =>
    intro hk
    have ho := h hk
    rw [hl, Bool.and_eq_true, Bool.not_eq_true'] at ho
    exact ho.2

/-- When no pattern stands behind a keyword that follows a point, the slashes keep their part when blanks
    are replaced; otherwise a pattern does not stand any more. -/
theorem slashes_map_plain (hf : AllFit xs) (hv : InView seen there (textOf xs))
    (hl : lastThere.opensPattern = (last.opensPattern && !last.isMember))
    (hs : SlashesStand seen last xs) :
    (EachItem Item.KeepsMember seen last xs → SlashesStand there lastThere (xs.map .plain)) ∧
      (EachItem Item.PatternStands there lastThere (xs.map .plain) →
        EachItem Item.KeepsMember seen last xs) := by
  induction xs generalizing seen there last lastThere with
  | nil => exact ⟨id, id⟩
  | cons x xs ih =>
    obtain ⟨hstand, hkeep⟩ := ih hf.2 (hv.item hf.1) (hv.opensPattern hl) hs.2
    constructor
    · intro hk
      exact ⟨hs.1.plain hk.1 hl, hstand hk.2⟩
    · intro hp
      exact ⟨hp.1.keepsMember hl, hkeep hp.2⟩

end

/-! ### Patterns of the indented form -/

theorem patternStands_blank (last : Lookbehind) (rest : List Char) (c : Char) (_ : isBlank c = true) :
    (Item.char c).PatternStands last rest := trivial

theorem Item.SlashStands.patternStands {last : Lookbehind} {rest : List Char} {x : Item}
    (h : x.SlashStands last rest) : x.PatternStands last rest := by
  cases x with
  | char c => trivial
  | lexeme s => exact h

section

variable {left : Option Bool} {run seen other : List Char} {last lastThere : Lookbehind}
  {reached size : Nat} {xs : List Item}

/-- Patterns stand in the items when they do in what is laid out. -/
theorem patternsStand_of_laidOut (h : AllFit xs)
    (hp : ∀ c, .char c ∈ xs → isBlank c = true → c ∈ plainBlanks)
    (hrun : ∀ c ∈ run, c ∈ plainBlanks) (ha : Alike left run seen other (textOf xs))
    (hl : last.opensPattern = lastThere.opensPattern)
    (hs : EachItem Item.PatternStands other lastThere (laidOut size (stops left run reached xs))) :
    EachItem Item.PatternStands seen last xs := by
  induction xs generalizing left run seen other last lastThere reached with
  | nil => trivial
  | cons x xs ih =>
    have hp' : ∀ c, .char c ∈ xs → isBlank c = true → c ∈ plainBlanks := by
      intro c hc
      exact hp c (List.mem_cons_of_mem _ hc)
    cases hx : x.isBlank with
    | true =>
      obtain ⟨c, rfl, hc⟩ := Item.exists_char_of_isBlank hx
      have hcp := hp c (List.mem_cons_self ..) hc
      have hlast : last.afterItem seen (.char c) = last := if_pos hc
      have hrun' : ∀ d ∈ run ++ [c], d ∈ plainBlanks := by
        simpa [or_imp, forall_and] using ⟨hrun, hcp⟩
      rw [stops_blank hx] at hs
      refine ⟨trivial, ?_⟩
      rw [hlast]
      exact ih h.2 hp' hrun' (ha.blank hcp) hl hs
    | false =>
      rw [stops_ink hx, laidOut_cons,
        eachItem_chars patternStands_blank fun c hc => isBlank_gap hc] at hs
      refine ⟨?_, ih h.2 hp' (by simp) (ha.item hrun h.1 hx _ _)
        (ha.opensPattern hrun h.1 hx hl _) hs.2⟩
      cases x with
      | char c => trivial
      | lexeme s =>
        intro hk
        rw [hl]
        exact hs.1 hk

end

/-! ### Ink -/

/-- An item as it is compared: no blank of code, and a comment without the blanks it ends in. -/
def Item.ink? (x : Item) : Option Item := if x.isBlank then none else some x.trimmed

/-- The characters of code, literals and comments of segments, in order. -/
def inkOf (segments : List Segment) : List Item := (itemsOf segments).filterMap (·.ink?)

theorem tellsSlashes_ink? : TellsSlashes Item.ink? := by
  intro body
  exact ⟨.char '/', .lexeme ⟨.pattern, '/' :: body⟩, by decide, rfl, by simp⟩

theorem Item.ink?_trimmed (x : Item) : x.trimmed.ink? = x.ink? := by
  rw [ink?, ink?, isBlank_trimmed, trimmed_trimmed]

/-- The ink of the indented form is that of the script just when each slash keeps its part there. -/
theorem ink_indented_iff (size : Nat) (text : List Char) :
    inkOf (scan (indented size (scan text))) = inkOf (scan text) ↔
      SlashesStand [] .start (laidOut size (stopsOf text)) := by
  have hfit : AllFit (laidOut size (stopsOf text)) := allFit_laidOut (allFit_scan text)
  have hink : (laidOut size (stopsOf text)).filterMap (·.ink?) = inkOf (scan text) := by
    refine filterMap_laidOut (fun c hc => ?_) Item.ink?_trimmed
    rw [Item.ink?, if_pos (show (Item.char c).isBlank = true from hc)]
  rw [← filterMap_scanFrom_iff tellsSlashes_ink? hfit, hink, ← indented_eq]
  rfl

theorem HasPlainBlanks.of_mem {text : List Char}
    (h : ∀ c, .char c ∈ itemsOf (scan text) → isBlank c = true → c ∈ plainBlanks) :
    HasPlainBlanks text := by
  intro s hs hk c hc
  refine h c (List.mem_flatMap.2 ⟨s, hs, ?_⟩)
  rw [Segment.items, if_pos hk]
  exact List.mem_map_of_mem hc

theorem mem_plainBlanks_of_mem_map {xs : List Item} {c : Char} (hc : .char c ∈ xs.map Item.plain)
    (hb : isBlank c = true) : c ∈ plainBlanks := by
  obtain ⟨x, -, hx⟩ := List.mem_map.1 hc
  cases x with
  | char d =>
    obtain rfl := Item.char.inj hx
    exact plainChar_mem (by simpa using hb)
  | lexeme s => cases hx

theorem Item.literal?_plain (x : Item) : x.plain.literal? = x.literal? := by
  cases x <;> rfl

/-! ### Reading the indented form again -/

/-- The items of a script with its blanks replaced. -/
def plainOf (text : List Char) : List Item := (itemsOf (scan text)).map .plain

section

variable {text : List Char} {size : Nat}

theorem allFit_plainOf (text : List Char) : AllFit (plainOf text) := allFit_map_plain (allFit_scan text)

theorem stops_plainOf (text : List Char) : stops none [] 0 (plainOf text) = stopsOf text :=
  (stops_map_plain : stops none ([].map plainChar) 0 _ = _)

/-- The slashes of a script keep their part when its blanks are replaced, unless a pattern stands behind a
    keyword that follows a point in its line. -/
theorem KeepsMembers.slashesStand_plainOf (h : KeepsMembers text) :
    SlashesStand [] .start (plainOf text) :=
  (slashes_map_plain (allFit_scan text) (.inl rfl) rfl (reads_iff.1 (reads_scan text).1).2).1 h

theorem keepsMembers_of_plainOf (h : EachItem Item.PatternStands [] .start (plainOf text)) :
    KeepsMembers text :=
  (slashes_map_plain (allFit_scan text) (.inl rfl) rfl (reads_iff.1 (reads_scan text).1).2).2 h

/-- A script without such patterns has an indented form that reads as it was laid out, when its literals
    are those of the script. -/
theorem KeepsMembers.slashesStand (h : KeepsMembers text)
    (hl : literalTexts (scan (indented size (scan text))) = literalTexts (scan text)) :
    SlashesStand [] .start (laidOut size (stopsOf text)) := by
  -- the script with its blanks replaced has the same indented form and the same literals
  have hread : itemsOf (scan (textOf (plainOf text))) = plainOf text :=
    (reads_iff.2 ⟨allFit_plainOf text, h.slashesStand_plainOf⟩).itemsOf_scan
  have hplain : HasPlainBlanks (textOf (plainOf text)) := by
    refine .of_mem fun c hc hb => ?_
    rw [hread] at hc
    exact mem_plainBlanks_of_mem_map hc hb
  have hstops : stopsOf (textOf (plainOf text)) = stopsOf text := by
    rw [stopsOf, hread, stops_plainOf]
  have hliterals : literalTexts (scan (textOf (plainOf text))) = literalTexts (scan text) := by
    rw [literalTexts_eq, literalTexts_eq, hread, plainOf, List.filterMap_map]
    exact congrArg (List.filterMap · _) (funext Item.literal?_plain)
  have hholds := (hplain.literalTexts_iff size).1 (by
    rw [indented_eq, hstops, ← indented_eq, hl, hliterals])
  rw [← hstops]
  exact (hplain.slashes size).2.2 hholds

/-- When the slashes of the indented form keep their part, no such pattern stands in the script. -/
theorem keepsMembers_of_slashesStand (h : SlashesStand [] .start (laidOut size (stopsOf text))) :
    KeepsMembers text := by
  have ha : Alike none [] [] [] (textOf (plainOf text)) := ⟨rfl, rfl⟩
  rw [← stops_plainOf] at h
  refine keepsMembers_of_plainOf (patternsStand_of_laidOut (allFit_plainOf text) ?_ (by simp) ha rfl
    (h.imp fun _ _ _ => Item.SlashStands.patternStands))
  exact fun c => mem_plainBlanks_of_mem_map

/-- With plain blanks the scan loses no point from sight that the indented form shows. -/
theorem HasPlainBlanks.keepsMembers (h : HasPlainBlanks text) : KeepsMembers text := by
  have hplain : plainOf text = itemsOf (scan text) := by
    refine (List.map_congr_left fun x hx => ?_).trans (List.map_id _)
    cases x with
    | lexeme s => rfl
    | char c =>
      cases hb : isBlank c with
      | false => exact congrArg Item.char (plainChar_of_not_isBlank hb)
      | true => exact congrArg Item.char (plainChar_of_mem (h.mem hx hb))
  refine keepsMembers_of_plainOf ?_
  rw [hplain]
  exact (reads_iff.1 (reads_scan text).1).2.imp fun _ _ _ => Item.SlashStands.patternStands

end

/-- An indented form that is handed out has the ink of the script just when no pattern of the script
    stands behind an expression keyword that follows a point in its line. -/
theorem beautify_ink_iff {text result : String} {n : Nat} (hn : n ≤ 8)
    (h : beautify (.integer n) text = .ok result) :
    inkOf (scan result.toList) = inkOf (scan text.toList) ↔ KeepsMembers text.toList := by
  rw [beautify_eq (le_widestSize hn)] at h
  split at h
  · rename_i hl
    obtain rfl := Except.ok.inj h
    rw [String.toList_ofList, ink_indented_iff]
    exact ⟨keepsMembers_of_slashesStand, fun hk => hk.slashesStand hl⟩
  · cases h

theorem beautify_ink_blanks :
    4 ≤ 8 ∧ beautify (.integer 4) "a.in\x0b= \x7bb\u00a0: /c/,\x0cd\x7d // e \x0b" =
        .ok "a.in = \x7b\n    b : /c/,\n    d\n\x7d // e" ∧
      (inkOf (scan "a.in = \x7b\n    b : /c/,\n    d\n\x7d // e".toList) =
          inkOf (scan "a.in\x0b= \x7bb\u00a0: /c/,\x0cd\x7d // e \x0b".toList) ↔
        KeepsMembers "a.in\x0b= \x7bb\u00a0: /c/,\x0cd\x7d // e \x0b".toList) :=
  have h : beautify (.integer 4) "a.in\x0b= \x7bb\u00a0: /c/,\x0cd\x7d // e \x0b" =
      .ok "a.in = \x7b\n    b : /c/,\n    d\n\x7d // e" := by decide +kernel
  ⟨by decide, h, beautify_ink_iff (by decide) h⟩

/-- A vertical tab hides a point from the scan of the script but not from that of the indented form, where
    the pattern `/b/` is found one slash further on. -/
theorem beautify_ink_ne :
    beautify (.integer 2) "a.\x0breturn /b/ /b/" = .ok "a. return /b/ /b/" ∧
      inkOf (scan "a. return /b/ /b/".toList) ≠ inkOf (scan "a.\x0breturn /b/ /b/".toList) := by
  decide +kernel

end Respace.Script
