import Respace.Proofs.Script.Compaction
import Respace.Proofs.Script.Grammar
import Respace.Proofs.Script.Indentation

/-! Strings are opaque to both forms of a script: what a closed string holds between its quotes is copied
    and decides nothing. A form looks at a string from outside only. In front of it the next character
    that is not blank may be the quote that opens it, which settles whether a comma ends its line; behind
    it the last character written is the quote that closes it, which settles whether a gap has to stay.
    Both are the same for all strings of one quote, so that what is written before and behind the string
    is the same text for all of them. -/

namespace Respace.Script

open Text

theorem IsClosedString.head? {quote : Char} {s : List Char} (h : IsClosedString quote s) :
    s.head? = some quote := by
  obtain ⟨body, -, rfl⟩ := h
  rfl

theorem IsClosedString.getLast? {quote : Char} {s : List Char} (h : IsClosedString quote s) :
    s.getLast? = some quote := by
  obtain ⟨body, -, rfl⟩ := h
  simp [List.getLast?_cons]

theorem IsClosedString.fits {quote : Char} {s : List Char} (h : IsClosedString quote s)
    (hq : quote ∈ quoteChars) (rest : List Char) : (Item.lexeme ⟨.string, s⟩).Fits rest := by
  obtain ⟨body, hb, rfl⟩ := h
  have hne : quote ≠ '\\' := by
    rintro rfl
    exact absurd hq (by decide)
  refine Ends.string hq ?_
  rw [List.append_assoc]
  exact hb.splitString hne rest

/-! ### The indented form -/

/-- In front of a string its quote is the next ink at the latest. -/
theorem firstInk?_string {quote : Char} (hq : isBlank quote = false) (xs ys : List Item) {s : List Char}
    (hs : s.head? = some quote) :
    firstInk? (textOf (xs ++ .lexeme ⟨.string, s⟩ :: ys)) = (firstInk? (textOf xs) <|> some quote) := by
  obtain ⟨cs, rfl⟩ := List.head?_eq_some_iff.1 hs
  rw [textOf_append, Page.firstInk?_append, textOf_lexeme, List.cons_append, firstInk?_cons hq]

/-- The stops around a string are the same for all strings of one quote. -/
theorem exists_stops_string {quote : Char} (hq : isBlank quote = false) (left : Option Bool)
    (run : List Char) (reached : Nat) (xs ys : List Item) :
    ∃ front gap depth back, ∀ s : List Char, s.head? = some quote →
      stops left run reached (xs ++ .lexeme ⟨.string, s⟩ :: ys) =
        front ++ ⟨gap, depth, .lexeme ⟨.string, s⟩⟩ :: back := by
  induction xs generalizing left run reached with
  | nil =>
    refine ⟨[], gapBefore left run (.lexeme ⟨.string, []⟩), reached, stops (some false) [] reached ys,
      fun s _ => ?_⟩
    rw [List.nil_append, stops_ink rfl]
    rfl
  | cons x xs ih =>
    cases hx : x.isBlank with
    | true =>
      obtain ⟨front, gap, depth, back, h⟩ := ih left (run ++ x.text) reached
      refine ⟨front, gap, depth, back, fun s hs => ?_⟩
      rw [List.cons_append, stops_blank hx, h s hs]
    | false =>
      obtain ⟨front, gap, depth, back, h⟩ :=
        ih (some (x.endsLine (firstInk? (textOf xs) <|> some quote))) []
          (x.depthAfter (x.depth reached))
      refine ⟨⟨gapBefore left run x, x.depth reached, x.trimmed⟩ :: front, gap, depth, back,
        fun s hs => ?_⟩
      rw [List.cons_append, stops_ink hx, firstInk?_string hq xs ys hs, h s hs, List.cons_append]

/-! ### The compact form -/

/-- A last token is looked at from behind only. -/
theorem compactAfter_congr {t u : Token} (hl : lastOf (some t) = lastOf (some u))
    (hp : t.isPattern = u.isPattern) (gap : Bool) (ts : List (Option Token)) :
    compactAfter (some t) gap ts = compactAfter (some u) gap ts := by
  induction ts generalizing gap with
  | nil => rfl
  | cons v ts ih =>
    cases v with
    | none => exact ih true
    | some v =>
      have hk : keepApart (some t) v = keepApart (some u) v := by
        simp only [keepApart, hl, Option.any_some, hp]
      rw [compactAfter, compactAfter, hk]

/-- What is written around a string is the same for all strings of one quote. -/
theorem exists_compactAfter_string (quote : Char) (last : Option Token) (gap : Bool)
    (ts us : List (Option Token)) :
    ∃ front back, ∀ s : List Char, s.head? = some quote → s.getLast? = some quote →
      compactAfter last gap (ts ++ some (.literal false s) :: us) = front ++ s ++ back := by
  induction ts generalizing last gap with
  | nil =>
    refine ⟨if gap && needsSpace (lastOf last) [quote] (last.any (·.isPattern)) then [' '] else [],
      compactAfter (some (.literal false [quote])) false us, fun s hs hl => ?_⟩
    have hlast : lastOf (some (.literal false s)) = lastOf (some (.literal false [quote])) := by
      rw [lastOf, lastOf, Token.text, Token.text, hl]
      rfl
    rw [List.nil_append, compactAfter, keepApart, Token.text, hs, compactAfter_congr hlast rfl]
    rfl
  | cons t ts ih =>
    cases t with
    | none => exact ih last true
    | some t =>
      obtain ⟨front, back, h⟩ := ih (some t) false
      refine ⟨(if gap && keepApart last t then [' '] else []) ++ t.text ++ front, back,
        fun s hs hl => ?_⟩
      rw [List.cons_append, compactAfter, h s hs hl]
      simp only [List.append_assoc]

/-! ### Strings exchanged -/

section

variable {before after : List Segment} {quote : Char} {literal : List Char}

theorem tokensWithGaps_string (before after : List Segment) (s : List Char) :
    tokensWithGaps (before ++ ⟨.string, s⟩ :: after) =
      tokensWithGaps before ++ some (.literal false s) :: tokensWithGaps after := by
  rw [tokensWithGaps, List.flatMap_append]
  rfl

/-- Segments go on to fit when a string is exchanged for one of the same quote. -/
theorem allFit_string (hq : quote ∈ quoteChars) (hl : IsClosedString quote literal)
    (h : AllFit (itemsOf (before ++ ⟨.string, literal⟩ :: after))) {s : List Char}
    (hs : IsClosedString quote s) : AllFit (itemsOf (before ++ ⟨.string, s⟩ :: after)) := by
  have hhead : ∀ {t}, IsClosedString quote t → (Item.lexeme ⟨.string, t⟩).text.head? = some quote :=
    fun ht => ht.head?
  rw [itemsOf_around (k := .string) nofun] at h ⊢
  exact h.exchange (hhead hl) (hhead hs) (fun _ => id) (hs.fits hq _)

/-- Exchanging a string makes no segment of code the neighbour of another. -/
theorem apart_string
    (h : (before ++ ⟨.string, literal⟩ :: after).IsChain fun a b => a.kind = .code → b.kind ≠ .code)
    (s : List Char) :
    (before ++ ⟨.string, s⟩ :: after).IsChain fun a b => a.kind = .code → b.kind ≠ .code := by
  rw [← List.isChain_map (R := fun j k : Kind => j = .code → k ≠ .code) Segment.kind] at h ⊢
  simpa using h

/-- Around a string the indented form is the same for all strings of one quote. -/
theorem exists_renderIndented_string (hq : quote ∈ quoteChars) (hl : IsClosedString quote literal)
    (hc : (before ++ ⟨.string, literal⟩ :: after).IsChain fun a b => a.kind = .code → b.kind ≠ .code)
    (hf : AllFit (itemsOf (before ++ ⟨.string, literal⟩ :: after))) {size : Nat} (hsize : size ≤ 8) :
    ∃ front back, ∀ s, IsClosedString quote s →
      renderIndented size (before ++ ⟨.string, s⟩ :: after) = .ok (front ++ s ++ back) := by
  obtain ⟨front, gap, depth, back, h⟩ := exists_stops_string (Item.isBlank_of_mem_quoteChars hq) none [] 0
    (itemsOf before) (itemsOf after)
  refine ⟨textOf (laidOut size front) ++ gap.text (size * depth), textOf (laidOut size back),
    fun s hs => ?_⟩
  rw [renderIndented_eq (le_widestSize hsize),
    indented_of_allFit (apart_string hc s) (allFit_string hq hl hf hs),
    itemsOf_around (k := .string) nofun, h s hs.head?, laidOut, List.flatMap_append, textOf_append]
  change Except.ok (textOf (laidOut size front) ++ textOf (laidOut size (_ :: back))) = _
  rw [textOf_laidOut_cons]
  simp only [Item.text, List.append_assoc]

/-- Around a string the compact form is the same for all strings of one quote. -/
theorem exists_renderCompact_string (hq : quote ∈ quoteChars) (hl : IsClosedString quote literal)
    (hf : AllFit (itemsOf (before ++ ⟨.string, literal⟩ :: after))) :
    ∃ front back, ∀ s, IsClosedString quote s →
      renderCompact (before ++ ⟨.string, s⟩ :: after) = .ok (front ++ s ++ back) := by
  obtain ⟨front, back, h⟩ := exists_compactAfter_string quote none false (tokensWithGaps before)
    (tokensWithGaps after)
  refine ⟨front, back, fun s hs => ?_⟩
  rw [renderCompact_eq (allFit_string hq hl hf hs), compact, tokensWithGaps_string,
    h s hs.head? hs.getLast?]

end

theorem scan_string {text : List Char} {i : Nat} {s : List Char} (h : (scan text)[i]? = some ⟨.string, s⟩) :
    scan text = (scan text).take i ++ ⟨.string, s⟩ :: (scan text).drop (i + 1) := by
  obtain ⟨hi, he⟩ := List.getElem?_eq_some_iff.1 h
  rw [← he, List.cons_getElem_drop_succ, List.take_append_drop]

theorem mem_quoteChars_of_scan {text : List Char} {i : Nat} {quote : Char} {s : List Char}
    (h : (scan text)[i]? = some ⟨.string, s⟩) (hs : IsClosedString quote s) : quote ∈ quoteChars := by
  have hfit := allFit_scan text
  have hhead := hs.head?
  rw [scan_string h, itemsOf_around (k := .string) nofun] at hfit
  cases hfit.behind.1 with
  | string hq =>
    obtain rfl := Option.some.inj hhead
    exact hq

/-- What a closed string of a script holds decides nothing: both forms copy it, and what they write before
    it and behind it is the same whatever closed string of the same quote stands in its place. -/
theorem exists_render_set {text : List Char} {i : Nat} {quote : Char} {literal : List Char}
    (h : (scan text)[i]? = some ⟨.string, literal⟩) (hl : IsClosedString quote literal) {size : Nat}
    (hsize : size ≤ 8) :
    (∃ front back, ∀ s, IsClosedString quote s →
      renderIndented size ((scan text).set i ⟨.string, s⟩) = .ok (front ++ s ++ back)) ∧
    ∃ front back, ∀ s, IsClosedString quote s →
      renderCompact ((scan text).set i ⟨.string, s⟩) = .ok (front ++ s ++ back) := by
  have hq := mem_quoteChars_of_scan h hl
  have hsplit := scan_string h
  have hset : ∀ s, (scan text).set i ⟨.string, s⟩ =
      (scan text).take i ++ ⟨.string, s⟩ :: (scan text).drop (i + 1) := fun s =>
    (List.set_eq_take_append_cons_drop ..).trans (if_pos (List.getElem?_eq_some_iff.1 h).1)
  have hchain := apart_scan text
  have hfit := allFit_scan text
  rw [hsplit] at hchain hfit
  simp only [hset]
  exact ⟨exists_renderIndented_string hq hl hchain hfit hsize, exists_renderCompact_string hq hl hfit⟩

theorem exists_render_set_escape :
    (scan "f('\\'\x7b', /* b */ 1)".toList)[1]? = some ⟨.string, "'\\'\x7b'".toList⟩ ∧
      IsClosedString '\'' "'\\'\x7b'".toList ∧ 4 ≤ 8 ∧
      (∃ front back, ∀ s, IsClosedString '\'' s →
        renderIndented 4 ((scan "f('\\'\x7b', /* b */ 1)".toList).set 1 ⟨.string, s⟩) =
          .ok (front ++ s ++ back)) ∧
      ∃ front back, ∀ s, IsClosedString '\'' s →
        renderCompact ((scan "f('\\'\x7b', /* b */ 1)".toList).set 1 ⟨.string, s⟩) =
          .ok (front ++ s ++ back) :=
  have h : (scan "f('\\'\x7b', /* b */ 1)".toList)[1]? = some ⟨.string, "'\\'\x7b'".toList⟩ := by
    decide +kernel
  have hl : IsClosedString '\'' "'\\'\x7b'".toList :=
    ⟨['\\', '\'', '\x7b'], .escape '\'' (.char (by decide) (by decide) .nil), by decide⟩
  ⟨h, hl, by decide, exists_render_set h hl (by decide)⟩

end Respace.Script
