import Respace.Proofs.Script.Slash
import Respace.Script.Reformat

/-! The compact form of a script as a run of items: the tokens of the script, with one space where two of
    them have to stay apart. All of them fit there, so that reading the compact form again gives the
    tokens of the script just when each slash keeps its part.

    The literals alone do not tell: `/`, a line end and `/ /` are a slash and a pattern, and in the
    compact form `/ / /` the same pattern stands in front of the slash. -/

namespace Respace.Script

open Text

/-- The items of the compact form, after a last token that a gap follows when `gap`. -/
def compactItems (last : Option Token) (gap : Bool) : List Item → List Item
  | [] => []
  | x :: xs => match x.token? with
    | none => compactItems last true xs
    | some t => (if gap && keepApart last t then [.char ' '] else []) ++
      x :: compactItems (some t) false xs

theorem compactItems_gap {x : Item} (hx : x.token? = none) (last : Option Token) (gap : Bool)
    (xs : List Item) : compactItems last gap (x :: xs) = compactItems last true xs := by
  rw [compactItems, hx]

theorem compactItems_token {x : Item} {t : Token} (hx : x.token? = some t) (last : Option Token)
    (gap : Bool) (xs : List Item) :
    compactItems last gap (x :: xs) =
      (if gap && keepApart last t then [.char ' '] else []) ++ x :: compactItems (some t) false xs := by
  rw [compactItems, hx]

/-- The items of the compact form of a script. -/
def compactOf (text : List Char) : List Item := compactItems none false (itemsOf (scan text))

theorem charToken?_eq_some_iff {c : Char} {t : Token} :
    charToken? c = some t ↔ isBlank c = false ∧ t = .char c := by
  by_cases hc : isBlank c <;> simp [charToken?, hc, eq_comm]

theorem Item.text_of_token? {x : Item} {t : Token} (h : x.token? = some t) : x.text = t.text := by
  cases x with
  | char c =>
    obtain ⟨-, rfl⟩ := charToken?_eq_some_iff.1 h
    rfl
  | lexeme s =>
    obtain ⟨kind, text⟩ := s
    cases kind <;> cases h <;> rfl

theorem textOf_compactItems (xs : List Item) (last : Option Token) (gap : Bool) :
    textOf (compactItems last gap xs) = compactAfter last gap (xs.map (·.token?)) := by
  induction xs generalizing last gap with
  | nil => rfl
  | cons x xs ih =>
    rw [List.map_cons]
    cases ht : x.token? with
    | none => rw [compactItems_gap ht, ih, compactAfter]
    | some t =>
      rw [compactItems_token ht, compactAfter, textOf_append, textOf_cons, ih,
        Item.text_of_token? ht, List.append_assoc]
      split <;> rfl

theorem textOf_compactOf (text : List Char) : textOf (compactOf text) = compact (scan text) := by
  rw [compactOf, textOf_compactItems, compact, tokensWithGaps_eq]

/-! ### Nothing is heavier

Characters may be counted, or their bytes, or line feeds alone: in whichever way they are weighed, as long
as nothing is lighter than a space, the compact form weighs no more than the script. -/

/-- The weight of a text, given the weight of each character. -/
def weight (f : Char → Nat) : List Char → Nat
  | [] => 0
  | c :: cs => f c + weight f cs

section weight

variable {f : Char → Nat}

@[simp] theorem weight_nil : weight f [] = 0 := rfl

@[simp] theorem weight_cons (c : Char) (cs : List Char) : weight f (c :: cs) = f c + weight f cs := rfl

@[simp] theorem weight_append (cs ds : List Char) : weight f (cs ++ ds) = weight f cs + weight f ds := by
  induction cs with
  | nil => simp
  | cons c cs ih => rw [List.cons_append, weight_cons, weight_cons, ih, Nat.add_assoc]

theorem weight_one (cs : List Char) : weight (fun _ => 1) cs = cs.length := by
  induction cs with
  | nil => rfl
  | cons c cs ih => rw [weight_cons, ih, List.length_cons, Nat.add_comm]

theorem le_weight (hf : ∀ c, f ' ' ≤ f c) {cs : List Char} (h : cs ≠ []) : f ' ' ≤ weight f cs := by
  obtain ⟨c, cs, rfl⟩ := List.exists_cons_of_ne_nil h
  exact (hf c).trans (Nat.le_add_right ..)

/-- A space of the compact form is paid for by a character of the gap in its place. -/
theorem weight_compactItems_le (hf : ∀ c, f ' ' ≤ f c) {xs : List Item} (h : AllFit xs)
    (last : Option Token) (gap : Bool) :
    weight f (textOf (compactItems last gap xs)) ≤ weight f (textOf xs) + gap.toNat * f ' ' := by
  induction xs generalizing last gap with
  | nil => simp [compactItems]
  | cons x xs ih =>
    obtain ⟨hx, hxs⟩ := h
    rw [textOf_cons, weight_append]
    cases ht : x.token? with
    | none =>
      have hpaid := le_weight hf hx.text_ne_nil
      have := ih hxs last true
      rw [Bool.toNat_true] at this
      rw [compactItems_gap ht]
      omega
    | some t =>
      have := ih hxs (some t) false
      rw [Bool.toNat_false] at this
      rw [compactItems_token ht, textOf_append, textOf_cons, weight_append, weight_append]
      have hspace : weight f (textOf (if gap && keepApart last t then [.char ' '] else [])) ≤
          gap.toNat * f ' ' := by
        cases gap <;> cases keepApart last t <;> simp [Item.text]
      omega

/-- The compact form weighs no more than the script, if nothing is lighter than a space. -/
theorem weight_compact_le (hf : ∀ c, f ' ' ≤ f c) (text : List Char) :
    weight f (compact (scan text)) ≤ weight f text := by
  have := weight_compactItems_le hf (allFit_scan text) none false
  rw [(reads_scan text).2, ← compactOf, textOf_compactOf] at this
  simpa using this

end weight

theorem length_compactItems_le {xs : List Item} (h : AllFit xs) (last : Option Token) (gap : Bool) :
    (textOf (compactItems last gap xs)).length ≤ (textOf xs).length + gap.toNat := by
  have := weight_compactItems_le (f := fun _ => 1) (fun _ => Nat.le_refl 1) h last gap
  rwa [weight_one, weight_one, Nat.mul_one] at this

theorem length_compact_le (text : List Char) : (compact (scan text)).length ≤ text.length := by
  have := weight_compact_le (f := fun _ => 1) (fun _ => Nat.le_refl 1) text
  rwa [weight_one, weight_one] at this

theorem renderCompact_eq {segments : List Segment} (h : AllFit (itemsOf segments)) :
    renderCompact segments = .ok (compact segments) := by
  rw [renderCompact, if_neg]
  intro he
  obtain ⟨s, hs, hl⟩ := List.any_eq_true.1 he
  simp only [Bool.and_eq_true, List.isEmpty_iff] at hl
  have hk : s.kind ≠ .code := by
    intro hk
    simp [Segment.isLiteral, hk] at hl
  exact h.text_ne_nil _ (lexeme_mem_itemsOf hs hk) hl.2

theorem renderCompact_scan (text : List Char) :
    renderCompact (scan text) = .ok (compact (scan text)) := renderCompact_eq (allFit_scan text)

/-- The compact form is handed out just when its literals are those of the script. -/
theorem minifyChars_eq (text : List Char) :
    minifyChars text =
      if literalTexts (scan (compact (scan text))) = literalTexts (scan text) then
        .ok (compact (scan text))
      else .error .literalsDiffer := by
  cases text with
  | nil =>
    rw [scan_nil]
    simp [minifyChars, compact, tokensWithGaps, compactAfter, scan_nil, pure, Except.pure]
  | cons c cs =>
    have hlen := length_compact_le (c :: cs)
    simp only [minifyChars, renderCompact_scan]
    change (if _ ∧ _ then Except.ok _ else Except.error _) = _
    simp only [hlen, true_and]

/-! ### Items of the compact form fit -/

theorem head?_textOf_cons {x : Item} (hx : x.text ≠ []) (xs : List Item) :
    (textOf (x :: xs)).head? = x.text.head? := by
  obtain ⟨c, cs, h⟩ := List.exists_cons_of_ne_nil hx
  simp [h]

/-- Behind a gap there is a space, or a character that may stand next to the last token. -/
theorem head?_compactItems_gap {xs : List Item} (h : AllFit xs) {t : Token} {c : Char}
    (hc : (textOf (compactItems (some t) true xs)).head? = some c) :
    c = ' ' ∨ needsSpace (lastOf (some t)) [c] t.isPattern = false := by
  induction xs with
  | nil => simp [compactItems] at hc
  | cons x xs ih =>
    cases hu : x.token? with
    | none =>
      rw [compactItems_gap hu] at hc
      exact ih h.2 hc
    | some u =>
      rw [compactItems_token hu, Bool.true_and] at hc
      cases hk : keepApart (some t) u with
      | true =>
        rw [hk, if_pos rfl] at hc
        exact .inl (by simpa [Item.text] using hc.symm)
      | false =>
        rw [hk, if_neg (by simp), List.nil_append, head?_textOf_cons h.1.text_ne_nil,
          Item.text_of_token? hu] at hc
        right
        rwa [keepApart, hc] at hk

/-- Behind a token there is what stood there, a space, or a character that may stand next to it. -/
theorem head?_compactItems {xs : List Item} (h : AllFit xs) {t : Token} {c : Char}
    (hc : (textOf (compactItems (some t) false xs)).head? = some c) :
    c = ' ' ∨ needsSpace (lastOf (some t)) [c] t.isPattern = false ∨ (textOf xs).head? = some c := by
  cases xs with
  | nil => simp [compactItems] at hc
  | cons x xs =>
    cases hu : x.token? with
    | none =>
      rw [compactItems_gap hu] at hc
      rcases head?_compactItems_gap h.2 hc with hs | hs
      · exact .inl hs
      · exact .inr (.inl hs)
    | some u =>
      rw [compactItems_token hu, Bool.false_and, if_neg (by simp), List.nil_append,
        head?_textOf_cons h.1.text_ne_nil] at hc
      rw [head?_textOf_cons h.1.text_ne_nil]
      exact .inr (.inr hc)

theorem isWordText_singleton (c : Char) : isWordText [c] = isWord c := by
  simp [isWordText, isWord]

/-- A token admits a space, and a character that may stand next to it. -/
theorem admitsChar_of_token? {x : Item} {t : Token} (ht : x.token? = some t) {rest : List Char}
    (hx : x.Fits rest) {c : Char} (h : c = ' ' ∨ needsSpace (lastOf (some t)) [c] t.isPattern = false) :
    x.AdmitsChar c := by
  cases x with
  | char d =>
    obtain ⟨-, rfl⟩ := charToken?_eq_some_iff.1 ht
    rintro rfl
    constructor
    · rintro rfl
      exact absurd h (by decide)
    · rintro rfl
      exact absurd h (by decide)
  | lexeme s =>
    cases hx with
    | line => cases ht
    | block => cases ht
    | string => exact ⟨nofun, nofun⟩
    | @pattern body _ hh hp =>
      refine ⟨fun _ => ?_, nofun⟩
      obtain rfl : .literal true ('/' :: body) = t := Option.some.inj ht
      rcases h with rfl | hs
      · decide
      · have hne : (lastOf (some (.literal true ('/' :: body)))).isEmpty = false := by
          simp [lastOf, Token.text, List.getLast?_cons]
        simp only [needsSpace, hne, Token.isPattern, isWordText_singleton, Bool.true_or, Bool.and_true,
          List.isEmpty_cons, Bool.not_false, Bool.true_and, Bool.or_eq_false_iff] at hs
        exact hs.1.1

theorem allFit_compactItems {xs : List Item} (h : AllFit xs) (last : Option Token) (gap : Bool) :
    AllFit (compactItems last gap xs) := by
  induction xs generalizing last gap with
  | nil => trivial
  | cons x xs ih =>
    cases ht : x.token? with
    | none => rw [compactItems_gap ht]; exact ih h.2 last true
    | some t =>
      have hx : x.Fits (textOf (compactItems (some t) false xs)) := by
        refine h.1.move (fun hn => ?_) (fun c hc => ?_)
        · have := length_compactItems_le h.2 (some t) false
          simpa [hn] using this
        · rcases head?_compactItems h.2 hc with hs | hs | hs
          · exact admitsChar_of_token? ht h.1 (.inl hs)
          · exact admitsChar_of_token? ht h.1 (.inr hs)
          · exact h.1.admits c hs
      rw [compactItems_token ht]
      split
      · exact ⟨⟨by decide, by simp⟩, hx, ih h.2 (some t) false⟩
      · exact ⟨hx, ih h.2 (some t) false⟩

theorem allFit_compactOf (text : List Char) : AllFit (compactOf text) :=
  allFit_compactItems (allFit_scan text) none false

/-! ### Reading the compact form again -/

theorem token?_of_mem_compactItems {y : Item} {xs : List Item} {last : Option Token} {gap : Bool}
    (hy : y ∈ compactItems last gap xs) : y = .char ' ' ∨ ∃ t, y.token? = some t := by
  induction xs generalizing last gap with
  | nil => simp [compactItems] at hy
  | cons x xs ih =>
    cases ht : x.token? with
    | none =>
      rw [compactItems_gap ht] at hy
      exact ih hy
    | some t =>
      rw [compactItems_token ht, List.mem_append, List.mem_cons] at hy
      rcases hy with hy | rfl | hy
      · left
        split at hy
        · exact List.mem_singleton.1 hy
        · simp at hy
      · exact .inr ⟨t, ht⟩
      · exact ih hy

/-- No token is lost and none is added. -/
theorem filterMap_compactItems (xs : List Item) (last : Option Token) (gap : Bool) :
    (compactItems last gap xs).filterMap (·.token?) = xs.filterMap (·.token?) := by
  induction xs generalizing last gap with
  | nil => rfl
  | cons x xs ih =>
    cases ht : x.token? with
    | none => rw [compactItems_gap ht, ih, List.filterMap_cons_none ht]
    | some t =>
      have hs : (Item.char ' ').token? = none := by decide
      rw [compactItems_token ht, List.filterMap_append, List.filterMap_cons_some ht,
        List.filterMap_cons_some ht, ih]
      split <;> simp [hs]

/-- Whether each slash of a script keeps its part in the compact form: a slash of code that stands where
    a pattern may start has no pattern behind it there, and a pattern stands where one may start. -/
def KeepsSlashes (text : List Char) : Prop := SlashesStand [] .start (compactOf text)

instance (text : List Char) : Decidable (KeepsSlashes text) :=
  inferInstanceAs (Decidable (SlashesStand _ _ _))

theorem tokens_compact_iff (text : List Char) :
    tokens (scan (compact (scan text))) = tokens (scan text) ↔ KeepsSlashes text := by
  rw [KeepsSlashes, ← filterMap_scanFrom_iff tellsSlashes_token? (allFit_compactOf text), compactOf, filterMap_compactItems,
    ← compactOf, textOf_compactOf, ← tokens_eq]
  exact Iff.of_eq (congrArg _ (tokens_eq _))

/-- A script that keeps its slashes reads in the compact form as it was put together. -/
theorem KeepsSlashes.itemsOf_scan {text : List Char} (h : KeepsSlashes text) :
    itemsOf (scan (compact (scan text))) = compactOf text := by
  rw [← textOf_compactOf]
  exact (reads_iff.2 ⟨allFit_compactOf text, h⟩).itemsOf_scan

theorem KeepsSlashes.not_isComment {text : List Char} (h : KeepsSlashes text) :
    ∀ s ∈ scan (compact (scan text)), s.isComment = false := by
  rintro ⟨kind, cs⟩ hs
  have hy : kind ≠ .code → .lexeme ⟨kind, cs⟩ ∈ compactOf text := fun hk =>
    h.itemsOf_scan ▸ lexeme_mem_itemsOf hs hk
  cases kind with
  | code | string | pattern => rfl
  | lineComment | blockComment =>
    rcases token?_of_mem_compactItems (hy (by decide)) with he | ⟨t, ht⟩
    · cases he
    · cases ht

theorem minify_eq_ok_iff {text result : String} :
    minify text = .ok result ↔
      literalTexts (scan (compact (scan text.toList))) = literalTexts (scan text.toList) ∧
        result = String.ofList (compact (scan text.toList)) := by
  rw [minify, minifyChars_eq]
  split
  · simp_all [Except.map, eq_comm]
  · simp_all [Except.map]

/-- The compact form of a script holds no comment and the tokens of the script just when each slash
    keeps its part. -/
theorem minify_tokens_iff {text result : String} (h : minify text = .ok result) :
    ((∀ s ∈ scan result.toList, s.isComment = false) ∧
      tokens (scan result.toList) = tokens (scan text.toList)) ↔ KeepsSlashes text.toList := by
  obtain ⟨-, rfl⟩ := minify_eq_ok_iff.1 h
  rw [String.toList_ofList]
  constructor
  · exact fun hr => (tokens_compact_iff _).1 hr.2
  · exact fun hk => ⟨hk.not_isComment, (tokens_compact_iff _).2 hk⟩

theorem minify_tokens_division :
    minify "a / /b/ // c" = .ok "a/ /b/" ∧ (∀ s ∈ scan "a/ /b/".toList, s.isComment = false) ∧
      tokens (scan "a/ /b/".toList) = tokens (scan "a / /b/ // c".toList) :=
  have h : minify "a / /b/ // c" = .ok "a/ /b/" := by decide +kernel
  ⟨h, (minify_tokens_iff h).2 (by decide +kernel)⟩

/-- A pattern that moves in front of a slash leaves the star of a comment behind. -/
theorem minify_tokens_ne :
    minify "/\n/ /*" = .ok "/ / /*" ∧ ¬ (∀ s ∈ scan "/ / /*".toList, s.isComment = false) ∧
      tokens (scan "/ / /*".toList) ≠ tokens (scan "/\n/ /*".toList) := by
  decide +kernel

end Respace.Script
