import Respace.Proofs.Script.Spacing

/-! A slash that may open a pattern divides only since nothing closes the pattern in its line. When the
    script is laid out again its lines do not get longer, so that nothing closes the pattern there
    either: the slash still divides, unless no line end is left behind it. In that case it takes the whole
    rest of the script for a pattern, and the literals are others than before. -/

namespace Respace.Script

open Text

/-! ### The first line of what is laid out -/

theorem firstLine_append (cs ds : List Char) :
    firstLine (cs ++ ds) = if cs.any isLineEnd then firstLine cs else cs ++ firstLine ds := by
  induction cs with
  | nil => rfl
  | cons c cs ih =>
    rw [List.cons_append, firstLine_cons, firstLine_cons, ih, List.any_cons]
    cases isLineEnd c <;> cases cs.any isLineEnd <;> rfl

/-- The first line of a text goes on in a longer text. -/
theorem exists_firstLine_append (cs ds : List Char) :
    ∃ es, firstLine (cs ++ ds) = firstLine cs ++ es := by
  rw [firstLine_append]
  split
  · exact ⟨[], by simp⟩
  · rename_i h
    refine ⟨firstLine ds, ?_⟩
    have hc := firstLine_append cs []
    rw [if_neg h, List.append_nil] at hc
    rw [hc]
    simp [firstLine]

theorem firstLine_gap {g : Gap} (h : g.endsLine = true) (width : Nat) :
    firstLine (g.text width) = [] := by
  have hl : isLineEnd '\n' = true := by decide
  cases g with
  | nothing | space => cases h
  | line | emptyLine => rw [Gap.text, firstLine_cons, hl]; rfl

theorem firstLine_of_head? {cs : List Char} (h : ∀ c ∈ cs.head?, isLineEnd c = true) :
    firstLine cs = [] := by
  cases cs with
  | nil => rfl
  | cons c cs => rw [firstLine_cons, h c rfl]; rfl

theorem firstLine_append_lineEnd (cs : List Char) {ds : List Char}
    (h : ∀ c ∈ ds.head?, isLineEnd c = true) : firstLine (cs ++ ds) = firstLine cs := by
  have hn := firstLine_append cs []
  rw [List.append_nil] at hn
  rw [firstLine_append, firstLine_of_head? h]
  exact hn.symm

namespace BodyState

theorem next_blank (s : BodyState) {c : Char} (hc : isBlank c = true) : s.next c = s.next ' ' := by
  have hn : c ≠ '\\' ∧ c ≠ '/' ∧ c ≠ '[' ∧ c ≠ ']' := by
    refine ⟨?_, ?_, ?_, ?_⟩ <;>
    · rintro rfl
      exact absurd hc (by decide)
  cases s with
  | within k => cases k <;> simp [next, hn]
  | escaped k => rfl
  | closed => rfl

theorem next_space_next (s : BodyState) : (s.next ' ').next ' ' = s.next ' ' := by
  rcases s with k | k | _
  · cases k <;> rfl
  · cases k <;> rfl
  · rfl

theorem after_blanks (s : BodyState) {cs : List Char} (hcs : cs ≠ [])
    (h : ∀ c ∈ cs, isBlank c = true) : s.after cs = s.next ' ' := by
  induction cs generalizing s with
  | nil => exact absurd rfl hcs
  | cons c cs ih =>
    rw [List.forall_mem_cons] at h
    rw [after_cons, next_blank s h.1]
    cases cs with
    | nil => rfl
    | cons d cs => rw [ih _ (by simp) h.2, next_space_next]

/-- A gap in a line leads a body to where the blanks in its place do. -/
theorem after_gap (s : BodyState) {run : List Char} (h : ∀ c ∈ run, isBlank c = true)
    (hl : (Gap.ofRun run).endsLine = false) (width : Nat) :
    s.after ((Gap.ofRun run).text width) = s.after run := by
  by_cases hr : run = []
  · rw [hr]
    rfl
  · rw [Gap.ofRun_eq_space hr (by rw [← Gap.endsLine_ofRun, hl]), after_blanks s hr h]
    rfl

end BodyState

section

variable {left : Option Bool} {ended : Bool} {run : List Char} {reached size : Nat} {x : Item}
  {xs : List Item}

/-- A body that is open at the end of a line that an item starts is open there when the item is trimmed
    and another text follows it. -/
theorem after_firstLine_item {rest other : List Char}
    (hc : x.trimmed ≠ x → ∀ c ∈ other.head?, isLineEnd c = true)
    (hr : ∀ s : BodyState, s.after (firstLine rest) ≠ .closed → s.after (firstLine other) ≠ .closed)
    {s : BodyState} (ho : s.after (firstLine (x.text ++ rest)) ≠ .closed) :
    s.after (firstLine (x.trimmed.text ++ other)) ≠ .closed := by
  by_cases ht : x.trimmed = x
  · rw [ht]
    rw [firstLine_append] at ho ⊢
    split
    · rename_i hl
      rwa [if_pos hl] at ho
    · rename_i hl
      rw [if_neg hl, BodyState.after_append] at ho
      rw [BodyState.after_append]
      exact hr _ ho
  · -- the line ends behind a trimmed comment at the latest
    obtain ⟨ds, hd, -⟩ := x.exists_text_trimmed
    obtain ⟨es, he⟩ := exists_firstLine_append x.trimmed.text (ds ++ rest)
    rw [hd, List.append_assoc, he] at ho
    rw [firstLine_append_lineEnd _ (hc ht)]
    exact BodyState.ne_closed_of_after ho

/-- A body that is open at the end of its line is open at the end of the line that is laid out. -/
theorem after_firstLine_laidOut (h : AllFit xs) (hrun : ∀ c ∈ run, isBlank c = true) {s : BodyState}
    (ho : s.after (firstLine (run ++ textOf xs)) ≠ .closed) :
    s.after (firstLine (textOf (laidOut size (stops (some ended) run reached xs)))) ≠ .closed := by
  have hs : s ≠ .closed := fun hs => ho (by rw [hs, BodyState.closed_after])
  induction xs generalizing ended run reached s with
  | nil => exact hs
  | cons x xs ih =>
    cases hx : x.isBlank with
    | true =>
      obtain ⟨c, rfl, hc⟩ := Item.exists_char_of_isBlank hx
      rw [stops_blank hx]
      refine ih h.2 ?_ (by simpa [Item.text] using ho) hs
      simpa [Item.text, or_imp, forall_and] using ⟨hrun, hc⟩
    | false =>
      rw [stops_ink hx, textOf_laidOut_cons, firstLine_append, Gap.any_isLineEnd_text]
      split
      · rename_i hg
        rwa [firstLine_gap hg]
      · rename_i hg
        rw [Bool.not_eq_true, gapBefore, Gap.endsLine_widened, Bool.or_eq_false_iff,
          Bool.or_eq_false_iff, Gap.endsLine_ofRun] at hg
        rw [firstLine_append, if_neg (by simp [hg.2]), BodyState.after_append] at ho
        rw [gapBefore_of_open hg.1.1 hg.1.2, BodyState.after_append,
          BodyState.after_gap s hrun (by rw [Gap.endsLine_ofRun, hg.2])]
        refine after_firstLine_item (fun ht c hc => ?_) (fun t hopen => ?_) ho
        · rw [Item.endsLine_of_trimmed_ne ht] at hc
          obtain rfl := head?_laidOut_ended hc
          decide
        · exact ih h.2 (by simp) hopen fun hs => hopen (by rw [hs, BodyState.closed_after])

end

/-! ### Slashes that are not closed -/

/-- A body that is open at the end of its line is no pattern when another line follows, and else the rest
    of the text. -/
theorem splitPattern?_of_open {rest : List Char}
    (h : (BodyState.within false).after (firstLine rest) ≠ .closed) :
    splitPattern? rest = if rest.any isLineEnd then none else some (rest, []) := by
  rw [splitPattern?, splitBody?_of_open h]
  split <;> simp [before]

/-- A slash divides when nothing closes a pattern in its line and another line follows. -/
theorem splitPattern?_eq_none_iff {rest : List Char} :
    splitPattern? rest = none ↔
      (BodyState.within false).after (firstLine rest) ≠ .closed ∧ rest.any isLineEnd = true := by
  by_cases h : (BodyState.within false).after (firstLine rest) = .closed
  · have hn := splitBody?_ne_none h
    rw [splitPattern?, Option.map_eq_none_iff]
    exact ⟨fun he => absurd he hn, fun he => absurd h he.1⟩
  · rw [splitPattern?_of_open h]
    cases rest.any isLineEnd <;> simp [h]

namespace Item

/-- Whether no slash of code that may open a pattern is closed in its line, and a pattern may stand where
    it does. -/
def SlashIsOpen (last : Lookbehind) (rest : List Char) : Item → Prop
  | char c =>
    c = '/' → last.opensPattern = true → (BodyState.within false).after (firstLine rest) ≠ .closed
  | lexeme s => s.kind = .pattern → last.opensPattern = true

/-- A slash that divides is not closed in its line. -/
theorem SlashStands.slashIsOpen {last : Lookbehind} {rest : List Char} {x : Item}
    (h : x.SlashStands last rest) : x.SlashIsOpen last rest := by
  cases x with
  | lexeme s => exact h
  | char c =>
    intro hc hl
    exact (splitPattern?_eq_none_iff.1 (h hc hl)).1

/-- A slash that is not closed in its line divides just when another line follows. -/
theorem SlashIsOpen.slashStands_iff {last : Lookbehind} {rest : List Char} {x : Item}
    (h : x.SlashIsOpen last rest) :
    x.SlashStands last rest ↔
      (x = char '/' → last.opensPattern = true → rest.any isLineEnd = true) := by
  cases x with
  | lexeme s => exact ⟨nofun, fun _ => h⟩
  | char c =>
    simp only [SlashStands, char.injEq]
    refine forall_congr' fun hc => forall_congr' fun hl => ?_
    rw [splitPattern?_of_open (h hc hl)]
    cases rest.any isLineEnd <;> simp

theorem length_literal?_le {x : Item} {text : List Char} (h : x.literal? = some text) :
    text.length ≤ x.text.length := by
  cases x with
  | char c => cases h
  | lexeme s =>
    rw [literal?] at h
    split at h
    · obtain rfl := Option.some.inj h
      exact le_refl _
    · cases h

end Item

theorem length_le_of_mem_literals {xs : List Item} {text : List Char}
    (h : text ∈ xs.filterMap (·.literal?)) : text.length ≤ (textOf xs).length := by
  induction xs with
  | nil => simp at h
  | cons x xs ih =>
    rw [textOf_cons, List.length_append]
    cases hx : x.literal? with
    | none =>
      rw [List.filterMap_cons_none hx] at h
      exact (ih h).trans (Nat.le_add_left ..)
    | some t =>
      rw [List.filterMap_cons_some hx, List.mem_cons] at h
      rcases h with rfl | h
      · exact (Item.length_literal?_le hx).trans (Nat.le_add_right ..)
      · exact (ih h).trans (Nat.le_add_left ..)

/-- Where a slash that is not closed in its line does not divide, it takes the rest of the text for a
    pattern, which is none of the literals behind it. -/
theorem literals_ne {seen : List Char} {last : Lookbehind} {xs : List Item} (h : AllFit xs)
    (ho : EachItem Item.SlashIsOpen seen last xs) (hn : ¬ SlashesStand seen last xs) :
    (itemsOf (scanFrom seen last [] (textOf xs))).filterMap (·.literal?) ≠
      xs.filterMap (·.literal?) := by
  induction xs generalizing seen last with
  | nil => exact absurd trivial hn
  | cons x xs ih =>
    obtain ⟨hx, hxs⟩ := h
    obtain ⟨hox, hoxs⟩ := ho
    rw [textOf_cons]
    by_cases hs : x.SlashStands last (textOf xs)
    · have hn' := ih hxs hoxs fun hss => hn ⟨hs, hss⟩
      rw [itemsOf_scanFrom_cons (Item.isReadBefore_iff.2 ⟨hx, hs⟩)]
      cases hl : x.literal? with
      | none => rwa [List.filterMap_cons_none hl, List.filterMap_cons_none hl]
      | some text =>
        rw [List.filterMap_cons_some hl, List.filterMap_cons_some hl]
        exact fun he => hn' (List.cons.inj he).2
    · rw [hox.slashStands_iff] at hs
      simp only [Classical.not_imp, Bool.not_eq_true] at hs
      obtain ⟨rfl, hl, hr⟩ := hs
      have hp : splitPattern? (textOf xs) = some (textOf xs, []) := by
        rw [splitPattern?_of_open (hox rfl hl), hr]
        rfl
      have hb : lexeme? last ('/' :: textOf xs) = some (⟨.pattern, '/' :: textOf xs⟩, []) := by
        simp [lexeme?_slash (hx.2 rfl), hl, hp, lexeme]
      intro he
      have hm : '/' :: textOf xs ∈ xs.filterMap (·.literal?) := by
        rw [List.filterMap_cons_none (show (Item.char '/').literal? = none from rfl)] at he
        rw [← he]
        change _ ∈ (itemsOf (scanFrom seen last [] ('/' :: textOf xs))).filterMap _
        rw [itemsOf_scanFrom_lexeme hb, scanFrom_nil]
        simp [Item.literal?, Segment.isLiteral]
      exact absurd (length_le_of_mem_literals hm) (by simp)

end Respace.Script
