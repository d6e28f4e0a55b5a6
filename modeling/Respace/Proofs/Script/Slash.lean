import Respace.Proofs.Script.Item

/-! Items that stand in some text stand in another one too, as long as nothing behind them joins them and
    each slash keeps its part. The parts of a slash are the only thing that depends on the text before
    it: a slash of code must not be taken for a pattern, nor a pattern for a division.

    Main statement: what is seen of a text is what is seen of the items it is made of just when each slash
    keeps its part, whatever is looked at, as long as it tells a slash of code from a pattern. The first
    slash that does not keep its part is an item of the other kind. -/

namespace Respace.Script

open Text

namespace Item

/-- Whether an item ends where it does before a text, whatever stands in front of it. -/
def Fits (rest : List Char) : Item → Prop
  | char c => c ∉ quoteChars ∧ (c = '/' → rest.head? ≠ some '/' ∧ rest.head? ≠ some '*')
  | lexeme s => Ends s rest

/-- Whether a slash keeps its part: one of code does not open a pattern, and a pattern may stand here. -/
def SlashStands (last : Lookbehind) (rest : List Char) : Item → Prop
  | char c => c = '/' → last.opensPattern = true → splitPattern? rest = none
  | lexeme s => s.kind = .pattern → last.opensPattern = true

instance (last : Lookbehind) (rest : List Char) : (x : Item) → Decidable (x.SlashStands last rest)
  | char c =>
    inferInstanceAs (Decidable (c = '/' → last.opensPattern = true → splitPattern? rest = none))
  | lexeme s => inferInstanceAs (Decidable (s.kind = .pattern → last.opensPattern = true))

theorem isReadBefore_iff {last : Lookbehind} {rest : List Char} {x : Item} :
    x.IsReadBefore last rest ↔ x.Fits rest ∧ x.SlashStands last rest := by
  cases x with
  | lexeme s => exact ⟨ends_of_lexeme?, fun h => h.1.lexeme? h.2⟩
  | char c =>
    by_cases hq : c ∈ quoteChars
    · simp [IsReadBefore, Fits, lexeme?_quote hq, hq]
    by_cases hc : c = '/'
    · subst hc
      by_cases hh : rest.head? ≠ some '/' ∧ rest.head? ≠ some '*'
      · by_cases hl : last.opensPattern = true <;>
          simp [IsReadBefore, Fits, SlashStands, lexeme?_slash hh, hq, hh, hl]
      · have hc := lexeme?_comment last (Decidable.or_iff_not_not_and_not.2 hh)
        simp [IsReadBefore, Fits, hc, hh]
    · simp [IsReadBefore, Fits, SlashStands, lexeme?_other hq hc, hq, hc]

/-- Whether an item may stand in front of a character and end there. -/
def AdmitsChar (c : Char) : Item → Prop
  | char d => d = '/' → c ≠ '/' ∧ c ≠ '*'
  | lexeme s => (s.kind = .pattern → isWord c = false) ∧ (s.kind = .lineComment → isLineEnd c = true)

/-- What an item asks of another text behind it. -/
def Admits (other : List Char) (x : Item) : Prop := ∀ c ∈ other.head?, x.AdmitsChar c

theorem Fits.admits {x : Item} {rest : List Char} (h : x.Fits rest) : x.Admits rest := by
  intro c hc
  cases x with
  | char d =>
    intro hd
    obtain ⟨h1, h2⟩ := h.2 hd
    rw [Option.mem_def.1 hc] at h1 h2
    exact ⟨fun he => h1 (congrArg some he), fun he => h2 (congrArg some he)⟩
  | lexeme s =>
    cases h with
    | line hs => exact ⟨nofun, fun _ => isLineEnd_of_splitLine hs c hc⟩
    | block => exact ⟨nofun, nofun⟩
    | string => exact ⟨nofun, nofun⟩
    | pattern _ hp => exact ⟨fun _ => head?_of_splitPattern? hp c hc, nofun⟩

/-- An item that ends before one text ends before another one that it admits. -/
theorem Fits.move {x : Item} {rest other : List Char} (h : x.Fits rest)
    (hend : rest = [] → other = []) (ha : x.Admits other) : x.Fits other := by
  cases x with
  | char c =>
    refine ⟨h.1, fun hc => ⟨fun ho => ?_, fun ho => ?_⟩⟩
    · exact (ha _ ho hc).1 rfl
    · exact (ha _ ho hc).2 rfl
  | lexeme s =>
    by_cases hr : rest = []
    · rw [hend hr]
      exact hr ▸ h
    cases h with
    | @line body rest hs =>
      have hb : ∀ c ∈ body, isLineEnd c = false := fun c hc =>
        isLineEnd_of_mem_splitLine (by rw [hs]; exact hc)
      exact .line (splitLine_behind hb fun c hc => (ha c hc).2 rfl)
    | @block body rest hs => exact .block (splitBlock_behind hs hr other)
    | @string quote body rest hq hs => exact .string hq (splitString_behind hs hr other)
    | @pattern body rest hh hs =>
      obtain ⟨c, cs, rfl⟩ := List.exists_cons_of_ne_nil (splitPattern?_ne_nil hs (by simp [hr]))
      exact .pattern hh (splitPattern?_behind hs hr fun c hc => (ha c hc).1 rfl)

theorem Fits.text_ne_nil {x : Item} {rest : List Char} (h : x.Fits rest) : x.text ≠ [] := by
  cases x with
  | char c => simp [text]
  | lexeme s => cases h <;> simp [text]

/-- Whether an item is a blank of code or a comment. -/
def IsOmitted : Item → Prop
  | char c => Text.isBlank c = true
  | lexeme s => s.isComment = true

/-- Items that fit are gaps just when they are blanks of code or comments. -/
theorem Fits.isOmitted_iff {x : Item} {rest : List Char} (h : x.Fits rest) :
    x.IsOmitted ↔ x.token? = none := by
  cases x with
  | char c => by_cases hc : Text.isBlank c <;> simp [IsOmitted, token?, charToken?, hc]
  | lexeme s => cases h <;> simp [IsOmitted, token?, Segment.isComment]

theorem isBlank_of_mem_quoteChars {c : Char} (hc : c ∈ quoteChars) : Text.isBlank c = false := by
  have h : quoteChars.all (!Text.isBlank ·) = true := by decide
  simpa using List.all_eq_true.1 h c hc

theorem isBlank_head?_lexeme {s : Segment} {rest : List Char} (h : (lexeme s).Fits rest) {c : Char}
    (hc : s.text.head? = some c) : isBlank c = false := by
  cases h with
  | string hq =>
    obtain rfl := Option.some.inj hc
    exact isBlank_of_mem_quoteChars hq
  | line | block | pattern =>
    obtain rfl := Option.some.inj hc
    decide

end Item

/-! ### Runs of items -/

/-- Whether each item of a run ends where it does before those behind it. -/
def AllFit : List Item → Prop
  | [] => True
  | x :: xs => x.Fits (textOf xs) ∧ AllFit xs

theorem AllFit.text_ne_nil {xs : List Item} (h : AllFit xs) : ∀ x ∈ xs, x.text ≠ [] := by
  induction xs with
  | nil => simp
  | cons x xs ih => exact List.forall_mem_cons.2 ⟨h.1.text_ne_nil, ih h.2⟩

theorem AllFit.behind {xs ys : List Item} (h : AllFit (xs ++ ys)) : AllFit ys := by
  induction xs with
  | nil => exact h
  | cons x xs ih => exact ih h.2

theorem head?_textOf_append (xs ys : List Item) :
    (textOf (xs ++ ys)).head? = ((textOf xs).head?).or (textOf ys).head? := by
  rw [textOf_append, List.head?_append]

/-- Items go on to fit when one of them is exchanged for one that fits in its place, as long as the
    character that it starts with may stand where the other one does. -/
theorem AllFit.exchange {c d : Char} {y z : Item} (hy : y.text.head? = some c)
    (hz : z.text.head? = some d) (hcd : ∀ x : Item, x.AdmitsChar c → x.AdmitsChar d)
    {xs ys : List Item} (h : AllFit (xs ++ y :: ys)) (hf : z.Fits (textOf ys)) :
    AllFit (xs ++ z :: ys) := by
  induction xs with
  | nil => exact ⟨hf, h.2⟩
  | cons x xs ih =>
    rw [List.cons_append] at h ⊢
    have hheadY : (textOf (xs ++ y :: ys)).head? = (textOf xs).head?.or (some c) := by
      rw [head?_textOf_append, textOf_cons, List.head?_append, hy, Option.some_or]
    have hheadZ : (textOf (xs ++ z :: ys)).head? = (textOf xs).head?.or (some d) := by
      rw [head?_textOf_append, textOf_cons, List.head?_append, hz, Option.some_or]
    refine ⟨h.1.move (fun hn => ?_) fun e he => ?_, ih h.2⟩
    · rw [hn, List.head?_nil] at hheadY
      cases hx : (textOf xs).head? <;> simp [hx] at hheadY
    · have ha := h.1.admits
      rw [Item.Admits, hheadY] at ha
      rw [hheadZ] at he
      cases hx : (textOf xs).head? with
      | none =>
        rw [hx] at ha he
        obtain rfl := Option.some.inj he
        exact hcd x (ha c rfl)
      | some f =>
        rw [hx] at ha he
        exact ha e he

/-- Whether each slash of a run keeps its part, behind the text `seen`, given backwards. -/
def SlashesStand (seen : List Char) (last : Lookbehind) (xs : List Item) : Prop :=
  EachItem Item.SlashStands seen last xs

instance (seen : List Char) (last : Lookbehind) (xs : List Item) :
    Decidable (SlashesStand seen last xs) :=
  inferInstanceAs (Decidable (EachItem _ _ _ _))

theorem reads_iff {seen : List Char} {last : Lookbehind} {xs : List Item} :
    Reads seen last xs ↔ AllFit xs ∧ SlashesStand seen last xs := by
  induction xs generalizing seen last with
  | nil => simp [Reads, AllFit, SlashesStand, EachItem]
  | cons x xs ih =>
    have hx : x.IsReadBefore last (textOf xs) ↔ _ := Item.isReadBefore_iff
    exact (and_congr hx ih).trans and_and_and_comm

theorem allFit_scan (text : List Char) : AllFit (itemsOf (scan text)) :=
  (reads_iff.1 (reads_scan text).1).1

/-- A slash of code that does not keep its part is read as a pattern, and a pattern as a slash of code. -/
theorem exists_item_of_slash {last : Lookbehind} {x : Item} {rest : List Char} (hx : x.Fits rest)
    (hs : ¬ x.SlashStands last rest) (seen : List Char) :
    ∃ y ys body, itemsOf (scanFrom seen last [] (x.text ++ rest)) = y :: ys ∧
      (x = .char '/' ∧ y = .lexeme ⟨.pattern, '/' :: body⟩ ∨
        x = .lexeme ⟨.pattern, '/' :: body⟩ ∧ y = .char '/') := by
  cases x with
  | char c =>
    simp only [Item.SlashStands, Classical.not_imp] at hs
    obtain ⟨rfl, hl, hp⟩ := hs
    obtain ⟨⟨body, r⟩, hp⟩ := Option.ne_none_iff_exists'.1 hp
    have hb : lexeme? last ('/' :: rest) = some (⟨.pattern, '/' :: body⟩, r) := by
      simp [lexeme?_slash (hx.2 rfl), hl, hp, lexeme]
    exact ⟨_, _, body, itemsOf_scanFrom_lexeme hb seen, .inl ⟨rfl, rfl⟩⟩
  | lexeme s =>
    simp only [Item.SlashStands, Classical.not_imp] at hs
    obtain ⟨hk, hl⟩ := hs
    cases hx with
    | line => simp at hk
    | block => simp at hk
    | string => simp at hk
    | @pattern body _ hh hp =>
      have hn : lexeme? last ('/' :: (body ++ rest)) = none := by simp [lexeme?_slash hh, hl]
      exact ⟨_, _, body, itemsOf_scanFrom_char hn seen, .inr ⟨rfl, rfl⟩⟩

/-- Whether a view of items tells a slash of code from a pattern. -/
def TellsSlashes {α : Type} (view : Item → Option α) : Prop :=
  ∀ body, ∃ a b, view (.char '/') = some a ∧ view (.lexeme ⟨.pattern, '/' :: body⟩) = some b ∧ a ≠ b

theorem tellsSlashes_token? : TellsSlashes Item.token? :=
  fun body => ⟨.char '/', .literal true ('/' :: body), by decide, rfl, by simp⟩

/-- What is seen of a text is what is seen of the items it is made of just when each slash keeps its
    part. -/
theorem filterMap_scanFrom_iff {α : Type} {view : Item → Option α} (hview : TellsSlashes view)
    {seen : List Char} {last : Lookbehind} {xs : List Item} (h : AllFit xs) :
    (itemsOf (scanFrom seen last [] (textOf xs))).filterMap view = xs.filterMap view ↔
      SlashesStand seen last xs := by
  constructor
  · intro he
    induction xs generalizing seen last with
    | nil => trivial
    | cons x xs ih =>
      obtain ⟨hx, hxs⟩ := h
      rw [textOf_cons] at he
      by_cases hs : x.SlashStands last (textOf xs)
      · rw [itemsOf_scanFrom_cons (Item.isReadBefore_iff.2 ⟨hx, hs⟩)] at he
        refine ⟨hs, ih hxs ?_⟩
        cases ht : view x <;> simpa [List.filterMap_cons, ht] using he
      · obtain ⟨y, ys, body, hy, hxy⟩ := exists_item_of_slash hx hs seen
        obtain ⟨a, b, ha, hb, hab⟩ := hview body
        rw [hy] at he
        rcases hxy with ⟨rfl, rfl⟩ | ⟨rfl, rfl⟩
        · rw [List.filterMap_cons_some ha, List.filterMap_cons_some hb] at he
          exact absurd (List.cons.inj he).1.symm hab
        · rw [List.filterMap_cons_some ha, List.filterMap_cons_some hb] at he
          exact absurd (List.cons.inj he).1 hab
  · intro hs
    rw [(reads_iff.2 ⟨h, hs⟩).itemsOf_scanFrom]
    rfl

end Respace.Script
