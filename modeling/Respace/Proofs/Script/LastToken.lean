import Mathlib.Data.List.Induction
import Respace.Proofs.Script.Slash
import Respace.Script.Position

/-! What a reader of a script remembers is the last token in front of it. The reader changes what it
    remembers from item to item; said at once for all items that it has passed, it is the last of them
    that is neither a blank nor a comment, with the whole text up to there if that is a character of code.
    So the category of that character, read in the text of the script, settles whether a slash may start
    a pattern. -/

namespace Respace.Script

open Text

def Item.IsPattern : Item → Prop
  | char _ => False
  | lexeme s => s.kind = .pattern

/-- Whether `y` is the last token of items, behind the items `front`: after it there are only blanks and
    comments. -/
def IsLastToken (front : List Item) (y : Item) (xs : List Item) : Prop :=
  y.token? ≠ none ∧ ∃ gaps, xs = front ++ y :: gaps ∧ ∀ z ∈ gaps, z.token? = none

/-- Whether a pattern may start behind the first items of a text: there is no token among them, or the last
    one is a character of code after which an expression may start. -/
def PatternMayFollow (text : List Char) (xs : List Item) : Prop :=
  (∀ y ∈ xs, y.token? = none) ∨
    ∃ front c category, IsLastToken front (.char c) xs ∧
      categoryAt? text (textOf front).length = some category ∧
      category ∈ [Category.start, .operator, .openBracket, .separator, .keyword]

/-! ### What is remembered -/

theorem afterItems_append (last : Lookbehind) (seen : List Char) (xs ys : List Item) :
    last.afterItems seen (xs ++ ys) =
      (last.afterItems seen xs).afterItems ((textOf xs).reverse ++ seen) ys := by
  induction xs generalizing last seen with
  | nil => rfl
  | cons x xs ih =>
    rw [List.cons_append, Lookbehind.afterItems, ih, Lookbehind.afterItems, textOf_cons,
      List.reverse_append, List.append_assoc]

theorem afterItems_gaps {gaps : List Item} (h : ∀ z ∈ gaps, z.token? = none) (last : Lookbehind)
    (seen : List Char) : last.afterItems seen gaps = last := by
  induction gaps generalizing seen with
  | nil => rfl
  | cons z gaps ih =>
    rw [List.forall_mem_cons] at h
    rw [Lookbehind.afterItems, Lookbehind.afterItem_gap h.1, ih h.2]

/-- Behind its last token a reader remembers this token. -/
theorem IsLastToken.afterItems_eq {front xs : List Item} {y : Item} (h : IsLastToken front y xs) :
    Lookbehind.start.afterItems [] xs =
      (Lookbehind.start.afterItems [] front).afterItem (textOf front).reverse y := by
  obtain ⟨-, gaps, rfl, hgaps⟩ := h
  rw [afterItems_append, Lookbehind.afterItems, afterItems_gaps hgaps, List.append_nil]

theorem exists_isLastToken (xs : List Item) :
    (∀ y ∈ xs, y.token? = none) ∨ ∃ front y, IsLastToken front y xs := by
  induction xs using List.reverseRecOn with
  | nil => exact .inl nofun
  | append_singleton xs x ih =>
    by_cases hx : x.token? = none
    · rcases ih with hn | ⟨front, y, hy, gaps, rfl, hgaps⟩
      · exact .inl (List.forall_mem_append.2 ⟨hn, List.forall_mem_singleton.2 hx⟩)
      · exact .inr ⟨front, y, hy, gaps ++ [x], by simp,
          List.forall_mem_append.2 ⟨hgaps, List.forall_mem_singleton.2 hx⟩⟩
    · exact .inr ⟨xs, x, hx, [], rfl, nofun⟩

theorem IsLastToken.opensPattern_lexeme {front xs : List Item} {s : Segment}
    (h : IsLastToken front (.lexeme s) xs) :
    (Lookbehind.start.afterItems [] xs).opensPattern = false := by
  obtain ⟨t, ht⟩ := Option.ne_none_iff_exists'.1 h.1
  rw [h.afterItems_eq, Lookbehind.afterItem, Lookbehind.after, if_pos (Segment.isLiteral_of_token? ht)]
  rfl

theorem categoryAt?_length (cs : List Char) (c : Char) (ds : List Char) :
    categoryAt? (cs ++ c :: ds) cs.length = some (categoryOf (c :: cs.reverse)) := by
  have htake : (cs ++ c :: ds).take (cs.length + 1) = cs ++ [c] := by
    rw [List.take_length_add_append]
    rfl
  have hlength : (cs.length : Int) < (cs ++ c :: ds).length := by
    rw [List.length_append, List.length_cons]
    omega
  rw [categoryAt?, if_neg (by omega), if_pos hlength, Int.toNat_natCast, htake, List.reverse_append]
  rfl

/-- What the last character of code lets a slash do can be read in the text of the script. -/
theorem IsLastToken.opensPattern_char {front xs : List Item} {c : Char}
    (h : IsLastToken front (.char c) xs) (rest : List Char) :
    (Lookbehind.start.afterItems [] xs).opensPattern = true ↔
      ∃ category, categoryAt? (textOf xs ++ rest) (textOf front).length = some category ∧
        category ∈ [Category.start, .operator, .openBracket, .separator, .keyword] := by
  obtain ⟨gaps, rfl, -⟩ := h.2
  have hb : ¬ isBlank c = true := by
    intro hb
    simp [IsLastToken, Item.token?, charToken?, hb] at h
  have hcategory : categoryAt? (textOf (front ++ .char c :: gaps) ++ rest) (textOf front).length =
      some (categoryOf (c :: (textOf front).reverse)) := by
    rw [textOf_append, textOf_char, List.append_assoc]
    exact categoryAt?_length ..
  rw [h.afterItems_eq, Lookbehind.afterItem, Lookbehind.afterCode, if_neg hb, hcategory,
    Lookbehind.opensPattern, Lookbehind.category]
  cases categoryOf (c :: (textOf front).reverse) <;> simp [Category.opensPattern]

/-- A reader lets a slash start a pattern just where one may follow. -/
theorem opensPattern_iff (xs : List Item) (rest : List Char) :
    (Lookbehind.start.afterItems [] xs).opensPattern = true ↔
      PatternMayFollow (textOf xs ++ rest) xs := by
  constructor
  · intro hopen
    rcases exists_isLastToken xs with hn | ⟨front, y, hy⟩
    · exact .inl hn
    cases y with
    | char c =>
      obtain ⟨category, hcategory⟩ := (hy.opensPattern_char rest).1 hopen
      exact .inr ⟨front, c, category, hy, hcategory⟩
    | lexeme s =>
      rw [hy.opensPattern_lexeme] at hopen
      cases hopen
  · rintro (hn | ⟨front, c, category, hc, hcategory⟩)
    · rw [afterItems_gaps hn]
      rfl
    · exact (hc.opensPattern_char rest).2 ⟨category, hcategory⟩

/-! ### Slashes of a script -/

/-- A pattern ends somewhere behind its slash, if there is one. -/
theorem exists_patternEnd?_iff (cs ds : List Char) :
    (∃ stop, patternEnd? (cs ++ '/' :: ds) cs.length = some (some stop)) ↔
      splitPattern? ds ≠ none := by
  have hread : readFrom? (cs ++ '/' :: ds) (cs.length + 1) = some ds := by
    have hdrop : (cs ++ '/' :: ds).drop (cs.length + 1) = ds := by simp
    rw [readFrom?, if_pos (by omega)]
    exact congrArg some hdrop
  rw [patternEnd?, hread]
  cases hs : splitPattern? ds <;> simp [hs]

section

variable {text : List Char} {before after : List Item} {x : Item}

/-- In front of each item of a script the reader remembers the last token of those before it. -/
theorem isReadBefore_of_scan (h : itemsOf (scan text) = before ++ x :: after) :
    x.IsReadBefore (Lookbehind.start.afterItems [] before) (textOf after) := by
  have hreads := (reads_scan text).1
  rw [h] at hreads
  exact (eachItem_append.1 hreads).2.1

theorem text_of_scan (h : itemsOf (scan text) = before ++ x :: after) :
    text = textOf before ++ (x.text ++ textOf after) := by
  rw [← (reads_scan text).2, h, textOf_append, textOf_cons]

/-- A pattern of a script ends where its reader says, and stands where one may start. -/
theorem Item.IsPattern.exists_patternEnd? (hp : x.IsPattern)
    (h : itemsOf (scan text) = before ++ x :: after) :
    (∃ stop, patternEnd? text (textOf before).length = some (some stop)) ∧
      (Lookbehind.start.afterItems [] before).opensPattern = true := by
  have hread := isReadBefore_of_scan h
  rw [text_of_scan h]
  cases x with
  | char c => exact hp.elim
  | lexeme s =>
    obtain ⟨hends, hopen⟩ := ends_of_lexeme? hread
    cases hends with
    | line | block | string => cases hp
    | pattern _ hsplit => exact ⟨(exists_patternEnd?_iff _ _).2 (by simp [hsplit]), hopen hp⟩

/-- A slash of a script that is code or starts a pattern starts one just when there is a pattern behind it
    and a pattern may follow what stands before it: no token at all, or a character of code after which an
    expression may start, comments and blanks apart. After a literal it never does. -/
theorem isPattern_iff (h : itemsOf (scan text) = before ++ x :: after)
    (hx : x = .char '/' ∨ x.IsPattern) :
    (x.IsPattern ↔ (∃ stop, patternEnd? text (textOf before).length = some (some stop)) ∧
        PatternMayFollow text before) ∧
      ∀ front s, IsLastToken front (.lexeme s) before → ¬ x.IsPattern := by
  have htext := text_of_scan h
  have hopens := opensPattern_iff before (x.text ++ textOf after)
  rw [← htext] at hopens
  refine ⟨⟨fun hp => ?_, fun ⟨hstop, hmay⟩ => ?_⟩, fun front s hs hp => ?_⟩
  · obtain ⟨hstop, hopen⟩ := hp.exists_patternEnd? h
    exact ⟨hstop, hopens.1 hopen⟩
  · -- a slash of code has no pattern behind it where one may start
    rcases hx with rfl | hp
    · have hnone := (Item.isReadBefore_iff.1 (isReadBefore_of_scan h)).2 rfl (hopens.2 hmay)
      rw [htext] at hstop
      exact absurd hnone ((exists_patternEnd?_iff _ _).1 hstop)
    · exact hp
  · have hopen := (hp.exists_patternEnd? h).2
    rw [hs.opensPattern_lexeme] at hopen
    cases hopen

end

/-- Behind a slash that divides, and a comment, a pattern may start. -/
theorem isPattern_comment :
    let text := "a/ /* b */ /c[/]/g".toList
    let before := [.char 'a', .char '/', .char ' ', .lexeme ⟨.blockComment, "/* b */".toList⟩, .char ' ']
    let x : Item := .lexeme ⟨.pattern, "/c[/]/g".toList⟩
    itemsOf (scan text) = before ++ x :: [] ∧ (x = .char '/' ∨ x.IsPattern) ∧
      (∃ stop, patternEnd? text (textOf before).length = some (some stop)) ∧
        PatternMayFollow text before := by
  intro text before x
  have h : itemsOf (scan text) = before ++ x :: [] := by decide +kernel
  have hx : x = .char '/' ∨ x.IsPattern := .inr rfl
  exact ⟨h, hx, (isPattern_iff h hx).1.1 rfl⟩

end Respace.Script
