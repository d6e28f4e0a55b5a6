import Respace.Proofs.Script.Lexeme
import Respace.Script.Scan
import Respace.Script.Compact

/-! A script as a run of items: the characters of its code, one by one, and its lexemes as wholes. Items
    are what a reader of the script recognises, and a run of items is what it reads just when each of
    them is recognised in front of the text of those behind it. -/

namespace Respace.Script

open Text

/-- A character of code, or a lexeme. -/
inductive Item where
  | char (c : Char)
  | lexeme (s : Segment)
  deriving DecidableEq

namespace Item

def text : Item → List Char
  | char c => [c]
  | lexeme s => s.text

/-- The token of an item; blanks and comments are gaps. -/
def token? : Item → Option Token
  | char c => charToken? c
  | lexeme s => match s.kind with
    | .string => some (.literal false s.text)
    | .pattern => some (.literal true s.text)
    | _ => none

/-- Whether a lookbehind recognises an item in front of a text. -/
def IsReadBefore (last : Lookbehind) (rest : List Char) : Item → Prop
  | char c => lexeme? last (c :: rest) = none
  | lexeme s => lexeme? last (s.text ++ rest) = some (s, rest)

end Item

/-- The last token after an item that stands behind the text `seen`, given backwards. -/
def Lookbehind.afterItem (last : Lookbehind) (seen : List Char) : Item → Lookbehind
  | .char c => last.afterCode c seen
  | .lexeme s => last.after s

theorem Segment.isLiteral_of_token? {s : Segment} {t : Token} (ht : (Item.lexeme s).token? = some t) :
    s.isLiteral = true := by
  obtain ⟨kind, text⟩ := s
  cases kind <;> first | rfl | cases ht

theorem Lookbehind.afterItem_gap {x : Item} (hx : x.token? = none) (last : Lookbehind)
    (seen : List Char) : last.afterItem seen x = last := by
  cases x with
  | char c =>
    refine if_pos ?_
    by_contra hc
    simp [Item.token?, charToken?, hc] at hx
  | lexeme s =>
    refine if_neg ?_
    obtain ⟨kind, text⟩ := s
    cases kind <;> first | exact Bool.false_ne_true | cases hx

/-- The text of items. -/
def textOf (xs : List Item) : List Char := xs.flatMap (·.text)

def Segment.items (s : Segment) : List Item :=
  if s.kind = .code then s.text.map .char else [.lexeme s]

/-- The items of segments. -/
def itemsOf (segments : List Segment) : List Item := segments.flatMap (·.items)

/-- Whether a property holds of each item of a run, with the last token before it and the text behind it.
    The run stands behind the text `seen`, given backwards. -/
def EachItem (P : Lookbehind → List Char → Item → Prop) (seen : List Char) (last : Lookbehind) :
    List Item → Prop
  | [] => True
  | x :: xs =>
    P last (textOf xs) x ∧ EachItem P (x.text.reverse ++ seen) (last.afterItem seen x) xs

instance EachItem.decide {P : Lookbehind → List Char → Item → Prop}
    [∀ last rest x, Decidable (P last rest x)] :
    (seen : List Char) → (last : Lookbehind) → (xs : List Item) → Decidable (EachItem P seen last xs)
  | _, _, [] => isTrue trivial
  | seen, last, x :: xs =>
    have := EachItem.decide (P := P) (x.text.reverse ++ seen) (last.afterItem seen x) xs
    inferInstanceAs (Decidable (P last (textOf xs) x ∧ _))

theorem EachItem.of_forall {P : Lookbehind → List Char → Item → Prop} (h : ∀ last rest x, P last rest x)
    (seen : List Char) (last : Lookbehind) (xs : List Item) : EachItem P seen last xs := by
  induction xs generalizing seen last with
  | nil => trivial
  | cons x xs ih => exact ⟨h _ _ _, ih _ _⟩

theorem EachItem.imp {P Q : Lookbehind → List Char → Item → Prop}
    (h : ∀ last rest x, P last rest x → Q last rest x) {seen : List Char} {last : Lookbehind}
    {xs : List Item} (hxs : EachItem P seen last xs) : EachItem Q seen last xs := by
  induction xs generalizing seen last with
  | nil => trivial
  | cons x xs ih => exact ⟨h _ _ _ hxs.1, ih hxs.2⟩

/-- Whether items are what a reader recognises in their text. -/
def Reads (seen : List Char) (last : Lookbehind) (xs : List Item) : Prop :=
  EachItem Item.IsReadBefore seen last xs

theorem itemsOf_cons (s : Segment) (segments : List Segment) :
    itemsOf (s :: segments) = s.items ++ itemsOf segments := rfl

theorem reads_char {seen : List Char} {last : Lookbehind} {c : Char} {xs : List Item} :
    Reads seen last (.char c :: xs) ↔
      lexeme? last (c :: textOf xs) = none ∧ Reads (c :: seen) (last.afterCode c seen) xs := Iff.rfl

theorem reads_lexeme {seen : List Char} {last : Lookbehind} {s : Segment} {xs : List Item} :
    Reads seen last (.lexeme s :: xs) ↔
      lexeme? last (s.text ++ textOf xs) = some (s, textOf xs) ∧
        Reads (s.text.reverse ++ seen) (last.after s) xs := Iff.rfl

@[simp] theorem textOf_nil : textOf [] = [] := rfl

@[simp] theorem textOf_cons (x : Item) (xs : List Item) : textOf (x :: xs) = x.text ++ textOf xs := rfl

theorem textOf_char (c : Char) (xs : List Item) : textOf (.char c :: xs) = c :: textOf xs := rfl

theorem textOf_lexeme (s : Segment) (xs : List Item) :
    textOf (.lexeme s :: xs) = s.text ++ textOf xs := rfl

@[simp] theorem textOf_append (xs ys : List Item) : textOf (xs ++ ys) = textOf xs ++ textOf ys := by
  simp [textOf]

@[simp] theorem textOf_map_char (cs : List Char) : textOf (cs.map .char) = cs := by
  induction cs with
  | nil => rfl
  | cons c cs ih => simp [Item.text, ih]

theorem textOf_items (s : Segment) : textOf s.items = s.text := by
  by_cases hs : s.kind = .code
  · rw [Segment.items, if_pos hs, textOf_map_char]
  · rw [Segment.items, if_neg hs, textOf_lexeme, textOf_nil, List.append_nil]

/-- The text of the items of segments is the text that the segments cover. -/
theorem textOf_itemsOf (segments : List Segment) : textOf (itemsOf segments) = sourceText segments := by
  induction segments with
  | nil => rfl
  | cons s segments ih =>
    rw [itemsOf_cons, textOf_append, textOf_items, ih]
    rfl

theorem itemsOf_around {k : Kind} (hk : k ≠ .code) (before after : List Segment) (text : List Char) :
    itemsOf (before ++ ⟨k, text⟩ :: after) =
      itemsOf before ++ .lexeme ⟨k, text⟩ :: itemsOf after := by
  simp [itemsOf, Segment.items, hk]

/-! ### Runs in front of runs -/

/-- The last token after items that stand behind the text `seen`, given backwards. -/
def Lookbehind.afterItems (last : Lookbehind) (seen : List Char) : List Item → Lookbehind
  | [] => last
  | x :: xs => (last.afterItem seen x).afterItems (x.text.reverse ++ seen) xs

/-- A property of each item of two runs is one of each item of the first, which has the text of the second
    one behind it, and one of each item of the second. -/
theorem eachItem_append {P : Lookbehind → List Char → Item → Prop} {seen : List Char} {last : Lookbehind}
    {xs ys : List Item} :
    EachItem P seen last (xs ++ ys) ↔
      EachItem (fun l mid x => P l (mid ++ textOf ys) x) seen last xs ∧
        EachItem P ((textOf xs).reverse ++ seen) (last.afterItems seen xs) ys := by
  induction xs generalizing seen last with
  | nil => exact (and_iff_right trivial).symm
  | cons x xs ih =>
    rw [List.cons_append, EachItem, EachItem, ih, textOf_append, textOf_cons, List.reverse_append,
      List.append_assoc, and_assoc]
    rfl

/-- Properties that are the same for all items with a third one are the same for a run with it. -/
theorem EachItem.congr {P Q R : Lookbehind → List Char → Item → Prop}
    (h : ∀ last rest x, P last rest x → (Q last rest x ↔ R last rest x)) {seen : List Char}
    {last : Lookbehind} {xs : List Item} (hxs : EachItem P seen last xs) :
    EachItem Q seen last xs ↔ EachItem R seen last xs := by
  induction xs generalizing seen last with
  | nil => exact Iff.rfl
  | cons x xs ih => exact and_congr (h _ _ _ hxs.1) (ih hxs.2)

/-! ### Lexemes -/

/-- A lexeme in front of a text: it is closed there, or it goes on to the end and nothing follows. -/
inductive Ends : Segment → List Char → Prop
  | line {body rest} (h : splitLine (body ++ rest) = (body, rest)) :
    Ends ⟨.lineComment, '/' :: '/' :: body⟩ rest
  | block {body rest} (h : splitBlock (body ++ rest) = (body, rest)) :
    Ends ⟨.blockComment, '/' :: '*' :: body⟩ rest
  | string {quote body rest} (hq : quote ∈ quoteChars)
    (h : splitString quote (body ++ rest) = (body, rest)) : Ends ⟨.string, quote :: body⟩ rest
  | pattern {body rest} (hh : (body ++ rest).head? ≠ some '/' ∧ (body ++ rest).head? ≠ some '*')
    (h : splitPattern? (body ++ rest) = some (body, rest)) : Ends ⟨.pattern, '/' :: body⟩ rest

theorem lexeme?_slash {last : Lookbehind} {cs : List Char}
    (h : cs.head? ≠ some '/' ∧ cs.head? ≠ some '*') :
    lexeme? last ('/' :: cs) =
      if last.opensPattern then (splitPattern? cs).map (lexeme .pattern ['/']) else none := by
  rw [lexeme?]
  · simp [quoteChars]
  · rintro ds - rfl
    simp at h
  · rintro ds - rfl
    simp at h

theorem lexeme?_comment (last : Lookbehind) {cs : List Char}
    (h : cs.head? = some '/' ∨ cs.head? = some '*') : lexeme? last ('/' :: cs) ≠ none := by
  cases cs with
  | nil => simp at h
  | cons c cs =>
    simp only [List.head?_cons, Option.some.injEq] at h
    rcases h with rfl | rfl <;> simp [lexeme?]

theorem lexeme?_quote {last : Lookbehind} {c : Char} (hc : c ∈ quoteChars) (cs : List Char) :
    lexeme? last (c :: cs) = some (lexeme .string [c] (splitString c cs)) := by
  rw [lexeme?, if_pos (List.contains_iff_mem.2 hc)]
  all_goals
    rintro ds rfl
    simp [quoteChars] at hc

theorem lexeme?_other {last : Lookbehind} {c : Char} (hq : c ∉ quoteChars) (hc : c ≠ '/')
    (cs : List Char) : lexeme? last (c :: cs) = none := by
  rw [lexeme?, if_neg (by simpa using hq), if_neg (by simp [hc])]
  all_goals exact fun ds hs => absurd hs hc

theorem ends_of_lexeme? {last : Lookbehind} {cs rest : List Char} {s : Segment}
    (h : lexeme? last cs = some (s, rest)) :
    Ends s rest ∧ (s.kind = .pattern → last.opensPattern = true) := by
  unfold lexeme? at h
  split at h
  · simp at h
  · rename_i cs
    simp only [lexeme, List.cons_append, List.nil_append, Option.some.injEq, Prod.mk.injEq] at h
    obtain ⟨rfl, rfl⟩ := h
    exact ⟨.line (by rw [splitLine_append]), by simp⟩
  · rename_i cs
    simp only [lexeme, List.cons_append, List.nil_append, Option.some.injEq, Prod.mk.injEq] at h
    obtain ⟨rfl, rfl⟩ := h
    exact ⟨.block (by rw [splitBlock_append]), by simp⟩
  · rename_i c cs h1 h2
    split at h
    · rename_i hq
      simp only [lexeme, List.cons_append, List.nil_append, Option.some.injEq, Prod.mk.injEq] at h
      obtain ⟨rfl, rfl⟩ := h
      exact ⟨.string (List.contains_iff_mem.1 hq) (by rw [splitString_append]), by simp⟩
    · split at h
      · rename_i hs
        rw [Bool.and_eq_true, beq_iff_eq] at hs
        obtain ⟨⟨body, r⟩, hp, he⟩ := Option.map_eq_some_iff.1 h
        simp only [lexeme, List.cons_append, List.nil_append, Prod.mk.injEq] at he
        obtain ⟨rfl, rfl⟩ := he
        have ha : body ++ r = cs := splitPattern?_append hp
        have hh : (body ++ r).head? ≠ some '/' ∧ (body ++ r).head? ≠ some '*' := by
          rw [ha]
          cases cs with
          | nil => simp
          | cons d ds =>
            constructor
            · rintro hd
              exact h1 ds hs.1 (by simpa using hd)
            · rintro hd
              exact h2 ds hs.1 (by simpa using hd)
        exact ⟨.pattern hh (by rw [ha]; exact hp), fun _ => hs.2⟩
      · simp at h

theorem Ends.lexeme? {s : Segment} {rest : List Char} (h : Ends s rest) {last : Lookbehind}
    (hl : s.kind = .pattern → last.opensPattern = true) :
    lexeme? last (s.text ++ rest) = some (s, rest) := by
  cases h with
  | line h => simp [Script.lexeme?, lexeme, h]
  | block h => simp [Script.lexeme?, lexeme, h]
  | string hq h => simp [lexeme?_quote hq, lexeme, h]
  | pattern hh h => simp [lexeme?_slash hh, hl rfl, h, lexeme]

/-- A lexeme that something follows ends in its closer, a quote or a slash, and in flags; a line comment
    has no closer. -/
theorem Ends.exists_closer {s : Segment} {rest : List Char} (h : Ends s rest) (hr : rest ≠ [])
    (hk : s.kind ≠ .lineComment) :
    ∃ cs c flags, s.text = cs ++ c :: flags ∧ (c = '/' ∨ c ∈ quoteChars) ∧
      ∀ d ∈ flags, isWord d = true := by
  cases h with
  | line => exact absurd rfl hk
  | @block body _ hb =>
    obtain ⟨ds, rfl⟩ := List.getLast?_eq_some_iff.1 (getLast?_splitBlock hb hr)
    exact ⟨'/' :: '*' :: ds, '/', [], rfl, .inl rfl, nofun⟩
  | @string quote body _ hq hs =>
    obtain ⟨ds, rfl⟩ := List.getLast?_eq_some_iff.1 (getLast?_splitString hs hr)
    exact ⟨quote :: ds, quote, [], rfl, .inr hq, nofun⟩
  | @pattern body _ _ hp =>
    obtain ⟨b, r, hb, rfl, rfl⟩ := splitPattern?_eq_some hp
    have hne : r ≠ [] := by
      rintro rfl
      exact hr rfl
    obtain ⟨ds, rfl⟩ := List.getLast?_eq_some_iff.1 (getLast?_splitBody? hb hne)
    refine ⟨'/' :: ds, '/', r.takeWhile isWord, by simp, .inl rfl, ?_⟩
    exact fun d hd => List.mem_takeWhile_imp hd

/-! ### What a scan reads -/

theorem scan_nil : scan [] = [] := by
  rw [scan, scanFrom]
  rfl

theorem scanFrom_nil (seen : List Char) (last : Lookbehind) (code : List Char) :
    scanFrom seen last code [] = withCode code [] := by
  rw [scanFrom]
  rfl

theorem scanFrom_lexeme {last : Lookbehind} {cs rest : List Char} {s : Segment}
    (h : lexeme? last cs = some (s, rest)) (seen code : List Char) :
    scanFrom seen last code cs =
      withCode code (s :: scanFrom (s.text.reverse ++ seen) (last.after s) [] rest) := by
  rw [scanFrom]
  split
  · rename_i s' rest' h'
    rw [h, Option.some.injEq, Prod.mk.injEq] at h'
    obtain ⟨rfl, rfl⟩ := h'
    rw [List.reverseAux_eq]
  · rename_i h'
    rw [h] at h'
    exact absurd h' (by simp)

theorem scanFrom_char {last : Lookbehind} {c : Char} {cs : List Char}
    (h : lexeme? last (c :: cs) = none) (seen code : List Char) :
    scanFrom seen last code (c :: cs) = scanFrom (c :: seen) (last.afterCode c seen) (c :: code) cs := by
  rw [scanFrom]
  split
  · rename_i s' rest' h'
    rw [h] at h'
    exact absurd h' (by simp)
  · rfl

theorem itemsOf_withCode (code : List Char) (segments : List Segment) :
    itemsOf (withCode code segments) = code.reverse.map .char ++ itemsOf segments := by
  cases code with
  | nil => rfl
  | cons c code => simp [withCode, itemsOf, Segment.items]

theorem itemsOf_lexeme {last : Lookbehind} {cs rest : List Char} {s : Segment}
    (h : lexeme? last cs = some (s, rest)) (segments : List Segment) :
    itemsOf (s :: segments) = .lexeme s :: itemsOf segments := by
  cases (ends_of_lexeme? h).1 <;> rfl

/-- A scan of a text gives items that are read in it. -/
theorem exists_reads (seen : List Char) (last : Lookbehind) (code cs : List Char) :
    ∃ xs, itemsOf (scanFrom seen last code cs) = code.reverse.map .char ++ xs ∧ textOf xs = cs ∧
      Reads seen last xs := by
  fun_induction scanFrom seen last code cs with
  | case1 seen last code cs s rest h hlt ih =>
    obtain ⟨xs, hi, rfl, hx⟩ := ih
    obtain rfl := (lexeme?_spec h).1
    rw [List.reverseAux_eq] at hx
    refine ⟨.lexeme s :: xs, ?_, rfl, h, hx⟩
    rw [itemsOf_withCode, itemsOf_lexeme h, hi]
    rfl
  | case2 seen last code h => exact ⟨[], itemsOf_withCode _ _, rfl, trivial⟩
  | case3 seen last code c rest h ih =>
    obtain ⟨xs, hi, rfl, hx⟩ := ih
    exact ⟨.char c :: xs, by rw [hi]; simp, rfl, h, hx⟩

/-- Items that are read in a text are those of its scan. -/
theorem Reads.itemsOf_scanFrom {seen : List Char} {last : Lookbehind} {xs : List Item}
    (h : Reads seen last xs) (code : List Char) :
    itemsOf (scanFrom seen last code (textOf xs)) = code.reverse.map .char ++ xs := by
  induction xs generalizing seen last code with
  | nil => rw [textOf_nil, scanFrom_nil, itemsOf_withCode]; rfl
  | cons x xs ih =>
    cases x with
    | char c =>
      obtain ⟨hx, hxs⟩ := reads_char.1 h
      rw [textOf_char, scanFrom_char hx, ih hxs]
      simp
    | lexeme s =>
      obtain ⟨hx, hxs⟩ := reads_lexeme.1 h
      rw [textOf_lexeme, scanFrom_lexeme hx, itemsOf_withCode, itemsOf_lexeme hx, ih hxs]
      simp

/-- The items of a script are read in it, and make up its text. -/
theorem reads_scan (text : List Char) :
    Reads [] .start (itemsOf (scan text)) ∧ textOf (itemsOf (scan text)) = text := by
  obtain ⟨xs, hi, ht, hx⟩ := exists_reads [] .start [] text
  rw [scan, hi]
  exact ⟨hx, ht⟩

/-- A run of items that is read in its text is what a scan of the text gives. -/
theorem Reads.itemsOf_scan {xs : List Item} (h : Reads [] .start xs) :
    itemsOf (scan (textOf xs)) = xs := h.itemsOf_scanFrom []

theorem itemsOf_scanFrom_code (seen : List Char) (last : Lookbehind) (code cs : List Char) :
    itemsOf (scanFrom seen last code cs) =
      code.reverse.map .char ++ itemsOf (scanFrom seen last [] cs) := by
  obtain ⟨xs, hi, rfl, hx⟩ := exists_reads seen last [] cs
  rw [hx.itemsOf_scanFrom, hx.itemsOf_scanFrom]
  rfl

theorem itemsOf_scanFrom_lexeme {last : Lookbehind} {cs rest : List Char} {s : Segment}
    (h : lexeme? last cs = some (s, rest)) (seen : List Char) :
    itemsOf (scanFrom seen last [] cs) =
      .lexeme s :: itemsOf (scanFrom (s.text.reverse ++ seen) (last.after s) [] rest) := by
  rw [scanFrom_lexeme h, itemsOf_withCode, itemsOf_lexeme h]
  rfl

theorem itemsOf_scanFrom_char {last : Lookbehind} {c : Char} {cs : List Char}
    (h : lexeme? last (c :: cs) = none) (seen : List Char) :
    itemsOf (scanFrom seen last [] (c :: cs)) =
      .char c :: itemsOf (scanFrom (c :: seen) (last.afterCode c seen) [] cs) := by
  rw [scanFrom_char h, itemsOf_scanFrom_code]
  rfl

theorem itemsOf_scanFrom_cons {last : Lookbehind} {x : Item} {rest : List Char}
    (h : x.IsReadBefore last rest) (seen : List Char) :
    itemsOf (scanFrom seen last [] (x.text ++ rest)) =
      x :: itemsOf (scanFrom (x.text.reverse ++ seen) (last.afterItem seen x) [] rest) := by
  cases x with
  | char c => exact itemsOf_scanFrom_char h seen
  | lexeme s => exact itemsOf_scanFrom_lexeme h seen

/-! ### Tokens and literals -/

/-- The tokens of segments, without the gaps. -/
def tokens (segments : List Segment) : List Token := (tokensWithGaps segments).filterMap id

/-- The text of a literal. -/
def Item.literal? : Item → Option (List Char)
  | char _ => none
  | lexeme s => if s.isLiteral then some s.text else none

theorem lexeme_mem_itemsOf {segments : List Segment} {s : Segment} (hs : s ∈ segments)
    (hk : s.kind ≠ .code) : .lexeme s ∈ itemsOf segments :=
  List.mem_flatMap.2 ⟨s, hs, by simp [Segment.items, hk]⟩

theorem tokensWithGaps_eq (segments : List Segment) :
    tokensWithGaps segments = (itemsOf segments).map (·.token?) := by
  induction segments with
  | nil => rfl
  | cons s segments ih =>
    have hs : s.tokens = s.items.map (·.token?) := by
      obtain ⟨kind, text⟩ := s
      cases kind <;> simp [Segment.tokens, Segment.items, Item.token?, Function.comp_def]
    rw [itemsOf_cons, List.map_append, ← ih, ← hs]
    rfl

theorem tokens_eq (segments : List Segment) :
    tokens segments = (itemsOf segments).filterMap (·.token?) := by
  rw [tokens, tokensWithGaps_eq, List.filterMap_map]
  rfl

theorem literalTexts_eq (segments : List Segment) :
    literalTexts segments = (itemsOf segments).filterMap (·.literal?) := by
  induction segments with
  | nil => rfl
  | cons s segments ih =>
    rw [itemsOf_cons, List.filterMap_append, ← ih]
    obtain ⟨kind, text⟩ := s
    cases kind <;> simp [literalTexts, Segment.items, Item.literal?, Segment.isLiteral]

def Token.literal? : Token → Option (List Char)
  | char _ => none
  | literal _ text => some text

theorem Item.literal?_eq (x : Item) : x.literal? = x.token?.bind (·.literal?) := by
  cases x with
  | char c => by_cases hc : isBlank c <;> simp [literal?, token?, charToken?, Token.literal?, hc]
  | lexeme s =>
    obtain ⟨kind, text⟩ := s
    cases kind <;> rfl

theorem literalTexts_eq_tokens (segments : List Segment) :
    literalTexts segments = (tokens segments).filterMap (·.literal?) := by
  rw [literalTexts_eq, tokens_eq, List.filterMap_filterMap]
  exact congrArg (List.filterMap · _) (funext Item.literal?_eq)

end Respace.Script
