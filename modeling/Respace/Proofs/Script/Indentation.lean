import Respace.Proofs.Script.Page
import Respace.Proofs.Script.Sight
import Respace.Proofs.Script.Unclosed
import Respace.Script.Reformat

/-! The indented form of a script reads as its stops, laid out, or it is not handed out. Two readers, one
    of the script and one of the indented form, see the same in front of each item: gaps hide what the
    blanks in their place hide, and the line breaks that are added stand where nothing of the text before
    is seen anyway. So a slash of the indented form may open a pattern just where it may in the script.

    The only slash that is read in another way is one that divides because of a line end that the
    indented form drops, and it makes the literals differ, for all sizes of the indentation or for none.
    Hence a script that is indented twice, with any two sizes, is indented as it is by the second run
    alone. -/

namespace Respace.Script

open Text

/-! ### What is seen behind a gap -/

namespace Sight

theorem after_endsLine (s : Sight) {g : Gap} (h : g.endsLine = true) (width : Nat) :
    s.after (g.text width) = clear := by
  refine s.after_break (fun c hc => ?_) (by rw [Gap.any_isLineEnd_text, h])
  rcases Gap.isBlank_of_mem_text hc with rfl | rfl <;> simp [plainBlanks]

/-- A gap hides what the blanks in its place hide. -/
theorem after_gap (s : Sight) {run : List Char} (h : ∀ c ∈ run, c ∈ plainBlanks) (width : Nat) :
    s.after ((Gap.ofRun run).text width) = s.after run := by
  by_cases hr : run = []
  · rw [hr]
    rfl
  cases hl : run.any isLineEnd with
  | true => rw [after_endsLine s (by rw [Gap.endsLine_ofRun, hl]), after_break s h hl]
  | false =>
    have hn : ∀ c ∈ run, isLineEnd c = false := by simpa using hl
    rw [Gap.ofRun_eq_space hr hl, after_spaces s hr fun c hc => ⟨h c hc, hn c hc⟩]
    rfl

theorem next_of_clearing (s : Sight) {c : Char} (hc : c ∈ ['\x7b', '\x7d', ';', ',', '/']) :
    s.next c = clear := by
  simp only [List.mem_cons, List.not_mem_nil, or_false] at hc
  have hw : isWord '\x7b' = false ∧ isWord '\x7d' = false ∧ isWord ';' = false ∧ isWord ',' = false ∧
      isWord '/' = false := by decide
  rcases hc with rfl | rfl | rfl | rfl | rfl <;> simp [next, hw, clear]

end Sight

/-- What is seen behind a lexeme does not depend on the text before it. -/
theorem sightOf_lexeme {s : Segment} {rest : List Char} (h : Ends s rest) (a b : List Char) :
    sightOf (s.text.reverse ++ a) = sightOf (s.text.reverse ++ b) := by
  rw [sightOf_reverse_append, sightOf_reverse_append]
  have hfirst : ∀ {d : Char} {ds : List Char}, d = '/' ∨ d ∈ quoteChars →
      (sightOf a).after (d :: ds) = (sightOf b).after (d :: ds) := by
    intro d ds hd
    rw [Sight.after_cons, Sight.after_cons]
    simp only [quoteChars, List.mem_cons, List.not_mem_nil, or_false] at hd
    rcases hd with rfl | rfl | rfl | rfl <;> rfl
  cases h with
  | line | block | pattern => exact hfirst (.inl rfl)
  | string hq => exact hfirst (.inr hq)

/-! ### Two readers -/

/-- Whether a reader behind the text `seen` and a reader of the indented form, behind the text `other`, are
    to see the same in front of the next item; both texts are given backwards. The first has passed the
    blanks `run`, and `rest` is what it has before it. -/
def Alike (left : Option Bool) (run seen other rest : List Char) : Prop := match left with
  | none => sightOf seen = .clear ∧ sightOf other = .clear
  | some false => sightOf seen = (sightOf other).after run
  | some true => sightOf seen = .clear ∨ (run = [] ∧ ∀ c ∈ rest.head?, isLineEnd c = true)

section

variable {left : Option Bool} {run seen other rest : List Char} {last lastThere : Lookbehind}
  {reached size width : Nat} {x : Item} {xs : List Item}

theorem Alike.blank {c : Char} (h : Alike left run seen other (c :: rest)) (hc : c ∈ plainBlanks) :
    Alike left (run ++ [c]) (c :: seen) other rest := by
  rcases left with _ | _ | _
  · exact ⟨by rw [sightOf_cons, h.1, Sight.clear_next hc], h.2⟩
  · change sightOf (c :: seen) = (sightOf other).after (run ++ [c])
    rw [sightOf_cons, show sightOf seen = _ from h, Sight.after_append]
    rfl
  · left
    rw [sightOf_cons]
    rcases h with h | ⟨-, h⟩
    · rw [h, Sight.clear_next hc]
    · exact Sight.next_lineEnd _ (h c rfl)

/-- The two readers see the same in front of an item that does not break the line by itself. -/
theorem Alike.sightOf_eq (h : Alike left run seen other (x.text ++ rest))
    (hrun : ∀ c ∈ run, c ∈ plainBlanks) (hx : x.Fits rest) (hb : x.isBlank = false)
    (hs : x.startsLine = false) :
    sightOf seen = sightOf (((gapBefore left run x).text width).reverse ++ other) := by
  rw [sightOf_reverse_append]
  rcases left with _ | _ | _
  · rw [h.1, h.2]
    rfl
  · rw [gapBefore_of_open rfl hs, Sight.after_gap _ hrun]
    exact h
  · have hg : (gapBefore (some true) run x).endsLine = true := by
      rw [gapBefore, Gap.endsLine_widened]
      rfl
    rw [Sight.after_endsLine _ hg]
    rcases h with h | ⟨-, h⟩
    · exact h
    · -- an item starts with ink, which ends no line
      obtain ⟨c, cs, hc, hi⟩ := hx.exists_ink hb
      have hl := h c (by rw [hc]; rfl)
      rw [isBlank_of_isLineEnd hl] at hi
      cases hi

/-- Behind a comment nothing is seen, or its line ends, or nothing follows. -/
theorem sightOf_comment {s : Segment} (h : Ends s rest) (hs : s.isComment = true) :
    sightOf (s.text.reverse ++ seen) = .clear ∨ ∀ c ∈ rest.head?, isLineEnd c = true := by
  cases h with
  | line hl => exact .inr (isLineEnd_of_splitLine hl)
  | @block body _ hb =>
    by_cases hr : rest = []
    · exact .inr (by simp [hr])
    · left
      obtain ⟨ds, rfl⟩ := List.getLast?_eq_some_iff.1 (getLast?_splitBlock hb hr)
      rw [← List.cons_append, ← List.cons_append, List.reverse_append]
      change sightOf ('/' :: _) = _
      rw [sightOf_cons, Sight.next_of_clearing _ (by simp)]
  | string | pattern => cases hs

theorem Alike.item (h : Alike left run seen other (x.text ++ rest))
    (hrun : ∀ c ∈ run, c ∈ plainBlanks) (hx : x.Fits rest) (hb : x.isBlank = false)
    (next : Option Char) (width : Nat) :
    Alike (some (x.endsLine next)) [] (x.text.reverse ++ seen)
      (x.trimmed.text.reverse ++ (((gapBefore left run x).text width).reverse ++ other)) rest := by
  cases he : x.endsLine next with
  | true =>
    cases x with
    | char c =>
      have hc : c ∈ ['\x7b', '\x7d', ';', ',', '/'] := by
        simp only [Item.endsLine, Bool.or_eq_true, Bool.and_eq_true, beq_iff_eq] at he
        rcases he with (rfl | rfl) | ⟨rfl, -⟩ <;> simp
      exact .inl ((sightOf_cons c seen).trans (Sight.next_of_clearing _ hc))
    | lexeme s => exact (sightOf_comment hx he).imp_right fun hr => ⟨rfl, hr⟩
  | false =>
    have ht : x.trimmed = x := by
      by_contra ht
      rw [Item.endsLine_of_trimmed_ne ht] at he
      cases he
    change sightOf _ = sightOf _
    rw [ht, sightOf_reverse_append, sightOf_reverse_append]
    cases hs : x.startsLine with
    | true =>
      obtain rfl := eq_of_beq hs
      have hc : ∀ s : Sight, s.after ['\x7d'] = .clear := fun s =>
        s.next_of_clearing (c := '\x7d') (by simp)
      exact (hc _).trans (hc _).symm
    | false => rw [h.sightOf_eq hrun hx hb hs]

/-- The last tokens of the two readers go on to let a slash open a pattern alike. -/
theorem Alike.opensPattern (h : Alike left run seen other (x.text ++ rest))
    (hrun : ∀ c ∈ run, c ∈ plainBlanks) (hx : x.Fits rest) (hb : x.isBlank = false)
    (hl : last.opensPattern = lastThere.opensPattern) (width : Nat) :
    (last.afterItem seen x).opensPattern =
      (lastThere.afterItem (((gapBefore left run x).text width).reverse ++ other)
        x.trimmed).opensPattern := by
  cases x with
  | lexeme s =>
    change (last.after s).opensPattern = (lastThere.after _).opensPattern
    rw [Lookbehind.after, Lookbehind.after]
    change (if s.isLiteral then _ else _ : Lookbehind).opensPattern =
      (if s.isLiteral then _ else _ : Lookbehind).opensPattern
    cases s.isLiteral
    · exact hl
    · rfl
  | char c =>
    have hc : ¬ isBlank c = true := Bool.not_eq_true _ ▸ hb
    have hcat : categoryOf (c :: seen) =
        categoryOf (c :: (((gapBefore left run (.char c)).text width).reverse ++ other)) := by
      cases hs : (Item.char c).startsLine with
      | true =>
        obtain rfl : c = '\x7d' := Item.char.inj (eq_of_beq hs)
        exact categoryOf_closingBrace _ _
      | false => exact categoryOf_congr (h.sightOf_eq hrun hx hb hs) c
    change (last.afterCode c seen).opensPattern = (lastThere.afterCode c _).opensPattern
    rw [Lookbehind.afterCode, Lookbehind.afterCode, if_neg hc, if_neg hc]
    exact congrArg Category.opensPattern hcat

/-! ### Slashes of the indented form -/

theorem eachItem_chars {P : Lookbehind → List Char → Item → Prop}
    (hP : ∀ last rest c, isBlank c = true → P last rest (.char c)) {cs : List Char}
    (hcs : ∀ c ∈ cs, isBlank c = true) (seen : List Char) (last : Lookbehind) (ys : List Item) :
    EachItem P seen last (cs.map .char ++ ys) ↔ EachItem P (cs.reverse ++ seen) last ys := by
  induction cs generalizing seen with
  | nil => rfl
  | cons c cs ih =>
    rw [List.forall_mem_cons] at hcs
    have hl : last.afterItem seen (.char c) = last := if_pos hcs.1
    rw [List.map_cons, List.cons_append, EachItem, hl, List.reverse_cons, List.append_assoc,
      ← ih hcs.2]
    exact and_iff_right (hP _ _ _ hcs.1)

theorem slashStands_blank (last : Lookbehind) (rest : List Char) (c : Char) (hc : isBlank c = true) :
    (Item.char c).SlashStands last rest := by
  rintro rfl
  exact absurd hc (by decide)

theorem slashIsOpen_blank (last : Lookbehind) (rest : List Char) (c : Char) (hc : isBlank c = true) :
    (Item.char c).SlashIsOpen last rest := (slashStands_blank last rest c hc).slashIsOpen

/-- Whether a line end is left in the indented form of items. -/
def holdsLineEnd (left : Option Bool) (run : List Char) (xs : List Item) : Bool :=
  (textOf (laidOut 0 (stops left run 0 xs))).any isLineEnd

/-- Line ends depend neither on the size of the indentation nor on the depth. -/
theorem any_isLineEnd_laidOut (left : Option Bool) (run : List Char) (reached size : Nat)
    (xs : List Item) :
    (textOf (laidOut size (stops left run reached xs))).any isLineEnd = holdsLineEnd left run xs := by
  have h : ∀ reached' size', (textOf (laidOut size (stops left run reached xs))).any isLineEnd =
      (textOf (laidOut size' (stops left run reached' xs))).any isLineEnd := by
    intro reached' size'
    induction xs generalizing left run reached reached' with
    | nil => rfl
    | cons x xs ih =>
      cases hx : x.isBlank with
      | true => rw [stops_blank hx, stops_blank hx, ih]
      | false =>
        rw [stops_ink hx, stops_ink hx, textOf_laidOut_cons, textOf_laidOut_cons]
        simp only [List.any_append, Gap.any_isLineEnd_text]
        rw [ih]
  exact h 0 0

/-- Whether the indented form holds a line end behind each slash of code that may open a pattern. -/
def HoldsSlashes (seen : List Char) (last : Lookbehind) : List Item → Prop
  | [] => True
  | x :: xs =>
    (x = .char '/' → last.opensPattern = true →
      holdsLineEnd (some (x.endsLine (firstInk? (textOf xs)))) [] xs = true) ∧
      HoldsSlashes (x.text.reverse ++ seen) (last.afterItem seen x) xs

/-- No slash of code is closed in its line of the indented form, and each keeps its part there just when a
    line end is left behind those that may open a pattern. -/
theorem slashes_laidOut (reached : Nat) (h : AllFit xs)
    (hp : ∀ c, .char c ∈ xs → isBlank c = true → c ∈ plainBlanks)
    (hrun : ∀ c ∈ run, c ∈ plainBlanks) (ha : Alike left run seen other (textOf xs))
    (hl : last.opensPattern = lastThere.opensPattern) (hs : SlashesStand seen last xs) :
    EachItem Item.SlashIsOpen other lastThere (laidOut size (stops left run reached xs)) ∧
      (SlashesStand other lastThere (laidOut size (stops left run reached xs)) ↔
        HoldsSlashes seen last xs) := by
  induction xs generalizing left run seen other last lastThere reached with
  | nil => exact ⟨trivial, Iff.rfl⟩
  | cons x xs ih =>
    have hp' := fun c hc => hp c (List.mem_cons_of_mem _ hc)
    cases hx : x.isBlank with
    | true =>
      obtain ⟨c, rfl, hc⟩ := Item.exists_char_of_isBlank hx
      have hcp := hp c (List.mem_cons_self ..) hc
      have hlast : last.afterItem seen (.char c) = last := if_pos hc
      have hslash : ¬ Item.char c = .char '/' := by
        rintro he
        obtain rfl := Item.char.inj he
        exact absurd hc (by decide)
      have hs' := hs.2
      rw [hlast] at hs'
      rw [stops_blank hx, HoldsSlashes, hlast]
      have hrun' : ∀ d ∈ run ++ [c], d ∈ plainBlanks := by
        simpa [or_imp, forall_and] using ⟨hrun, hcp⟩
      obtain ⟨h1, h2⟩ := ih reached h.2 hp' hrun' (ha.blank hcp) hl hs'
      exact ⟨h1, h2.trans (and_iff_right fun he => absurd he hslash).symm⟩
    | false =>
      have ha' := ha.item hrun h.1 hx (firstInk? (textOf xs)) (size * x.depth reached)
      have hl' := ha.opensPattern hrun h.1 hx hl (size * x.depth reached)
      obtain ⟨h1, h2⟩ := ih (x.depthAfter (x.depth reached)) h.2 hp' (by simp) ha' hl' hs.2
      have hopen : x.trimmed.SlashIsOpen lastThere (textOf (laidOut size
          (stops (some (x.endsLine (firstInk? (textOf xs)))) [] (x.depthAfter (x.depth reached)) xs))) := by
        cases x with
        | lexeme s => exact fun hk => hl ▸ hs.1 hk
        | char c =>
          intro hc hlt
          have ho := hs.1.slashIsOpen hc (hl ▸ hlt)
          exact after_firstLine_laidOut h.2 (by simp) ho
      rw [stops_ink hx, laidOut_cons]
      have hblank := fun c (hc : c ∈ (gapBefore left run x).text (size * x.depth reached)) => isBlank_gap hc
      refine ⟨(eachItem_chars slashIsOpen_blank hblank ..).2 ⟨hopen, h1⟩, ?_⟩
      refine (eachItem_chars slashStands_blank hblank ..).trans (and_congr ?_ h2)
      rw [hopen.slashStands_iff, Item.trimmed_eq_char_iff, any_isLineEnd_laidOut, ← hl]

end

/-! ### Reading the indented form again -/

/-- Whether the blanks of the code of a script are spaces, tabs, line feeds and carriage returns. -/
def HasPlainBlanks (text : List Char) : Prop :=
  ∀ s ∈ scan text, s.kind = .code → ∀ c ∈ s.text, isBlank c = true → c ∈ plainBlanks

instance (text : List Char) : Decidable (HasPlainBlanks text) :=
  decidable_of_iff ((scan text).all fun s =>
    s.kind != .code || s.text.all fun c => !isBlank c || plainBlanks.contains c) (by
      simp [HasPlainBlanks, imp_iff_not_or])

/-- The stops of a script. -/
def stopsOf (text : List Char) : List Stop := stops none [] 0 (itemsOf (scan text))

section

variable {text : List Char}

theorem indented_eq (size : Nat) (text : List Char) :
    indented size (scan text) = textOf (laidOut size (stopsOf text)) := indented_scan size text

theorem HasPlainBlanks.mem (h : HasPlainBlanks text) {c : Char} (hc : .char c ∈ itemsOf (scan text))
    (hb : isBlank c = true) : c ∈ plainBlanks := by
  obtain ⟨s, hs, hc⟩ := List.mem_flatMap.1 hc
  rw [Segment.items] at hc
  split at hc
  · rename_i hk
    obtain ⟨d, hd, he⟩ := List.mem_map.1 hc
    obtain rfl := Item.char.inj he
    exact h s hs hk d hd hb
  · simp at hc

theorem HasPlainBlanks.slashes (h : HasPlainBlanks text) (size : Nat) :
    EachItem Item.SlashIsOpen [] .start (laidOut size (stopsOf text)) ∧
      (SlashesStand [] .start (laidOut size (stopsOf text)) ↔
        HoldsSlashes [] .start (itemsOf (scan text))) :=
  slashes_laidOut 0 (allFit_scan text) (fun _ => h.mem) (by simp) ⟨rfl, rfl⟩ rfl
    (reads_iff.1 (reads_scan text).1).2

/-- When line ends are left behind its slashes, the indented form of a script reads as it was laid out. -/
theorem HasPlainBlanks.itemsOf_scan (h : HasPlainBlanks text)
    (hh : HoldsSlashes [] .start (itemsOf (scan text))) (size : Nat) :
    itemsOf (scan (indented size (scan text))) = laidOut size (stopsOf text) := by
  rw [indented_eq]
  exact (reads_iff.2 ⟨allFit_laidOut (allFit_scan text), (h.slashes size).2.2 hh⟩).itemsOf_scan

/-- The literals of the indented form are those of the script just when line ends are left behind its
    slashes. -/
theorem HasPlainBlanks.literalTexts_iff (h : HasPlainBlanks text) (size : Nat) :
    literalTexts (scan (indented size (scan text))) = literalTexts (scan text) ↔
      HoldsSlashes [] .start (itemsOf (scan text)) := by
  constructor
  · intro hl
    by_contra hh
    have hn := literals_ne (allFit_laidOut (allFit_scan text)) (h.slashes size).1
      fun hs => hh ((h.slashes size).2.1 hs)
    refine hn ?_
    rw [filterMap_literal?_laidOut, ← literalTexts_eq, ← literalTexts_eq, ← hl, indented_eq]
    rfl
  · intro hh
    rw [literalTexts_eq, h.itemsOf_scan hh, stopsOf, filterMap_literal?_laidOut, ← literalTexts_eq]

theorem HasPlainBlanks.stopsOf_indented (h : HasPlainBlanks text)
    (hh : HoldsSlashes [] .start (itemsOf (scan text))) (size : Nat) :
    stopsOf (indented size (scan text)) = stopsOf text := by
  change stops none [] 0 (itemsOf (scan (indented size (scan text)))) = stopsOf text
  rw [h.itemsOf_scan hh]
  exact stops_laidOut (allFit_scan text)

end

/-- The indented form of a script, or the script itself where the form is not handed out. -/
def beautified (size : Nat) (text : String) : String :=
  (beautify (.integer size) text).toOption.getD text

/-- Segments are written with any size that is not too wide. -/
theorem renderIndented_eq {size : Nat} (hsize : size ≤ widestSize) (segments : List Segment) :
    renderIndented size segments = .ok (indented size segments) := by
  rw [renderIndented, decide_eq_false (Int.not_lt.2 hsize), Bool.false_and]
  exact congrArg Except.ok (Draft.render_leave (draftOf segments) .line size)

/-- The indented form is handed out just when its literals are those of the script. -/
theorem beautifyChars_eq {size : Nat} (hsize : size ≤ widestSize) (text : List Char) :
    beautifyChars (.ok size) text =
      if literalTexts (scan (indented size (scan text))) = literalTexts (scan text) then
        .ok (indented size (scan text))
      else .error .literalsDiffer := by
  have hr := renderIndented_eq hsize (scan text)
  cases text with
  | nil =>
    have hi : indented size [] = [] := rfl
    rw [scan_nil, hi, scan_nil, if_pos rfl]
    rfl
  | cons c cs =>
    simp only [beautifyChars, List.isEmpty_cons, Bool.false_eq_true, if_false]
    change (renderIndented size (scan (c :: cs)) >>= _) = _
    rw [hr]
    rfl

theorem beautify_eq {size : Nat} (hsize : size ≤ widestSize) (text : String) :
    beautify (.integer size) text =
      if literalTexts (scan (indented size (scan text.toList))) = literalTexts (scan text.toList) then
        .ok (String.ofList (indented size (scan text.toList)))
      else .error .literalsDiffer := by
  have hs : indentSize (.integer size) = .ok size := by simp [indentSize, Json.whole]
  rw [beautify, hs, beautifyChars_eq hsize]
  split <;> rfl

theorem toList_beautified {size : Nat} (hsize : size ≤ widestSize) (text : String) :
    (beautified size text).toList =
      if literalTexts (scan (indented size (scan text.toList))) = literalTexts (scan text.toList) then
        indented size (scan text.toList)
      else text.toList := by
  rw [beautified, beautify_eq hsize]
  split <;> simp [Except.toOption]

theorem le_widestSize {size : Nat} (h : size ≤ 8) : size ≤ widestSize := by
  have hw : widestSize = 9223372036854775807 := by decide
  omega

/-- Indenting a script twice is indenting it with the second size. -/
theorem beautified_beautified {text : String} (h : HasPlainBlanks text.toList) {n m : Nat}
    (hn : n ≤ 8) (hm : m ≤ 8) : beautified m (beautified n text) = beautified m text := by
  rw [← String.toList_inj, toList_beautified (le_widestSize hm) (beautified n text),
    toList_beautified (le_widestSize hm) text, toList_beautified (le_widestSize hn) text]
  by_cases hh : HoldsSlashes [] .start (itemsOf (scan text.toList))
  · -- both sizes lay out the same stops
    have hs := h.stopsOf_indented hh n
    have hi : indented m (scan (indented n (scan text.toList))) = indented m (scan text.toList) := by
      rw [indented_eq m (indented n _), hs, ← indented_eq]
    have hl := fun k => (h.literalTexts_iff k).2 hh
    rw [if_pos (hl n), if_pos (hl m), hi, if_pos (by rw [hl m, hl n])]
  · have hl := fun k => mt (h.literalTexts_iff k).1 hh
    rw [if_neg (hl n), if_neg (hl m)]

theorem beautified_beautified_four_two :
    HasPlainBlanks "a=\x7bb:/c/g,\td\x7d\r\n// e\n".toList ∧ 4 ≤ 8 ∧ 2 ≤ 8 ∧
      beautified 2 (beautified 4 "a=\x7bb:/c/g,\td\x7d\r\n// e\n") =
        beautified 2 "a=\x7bb:/c/g,\td\x7d\r\n// e\n" :=
  have h : HasPlainBlanks "a=\x7bb:/c/g,\td\x7d\r\n// e\n".toList := by decide +kernel
  ⟨h, by decide, by decide, beautified_beautified h (by decide) (by decide)⟩

end Respace.Script
