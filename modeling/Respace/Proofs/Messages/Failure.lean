import Mathlib.Tactic.MkIffOfInductiveProp
import Respace.Proofs.Except
import Respace.Proofs.Messages.Template
import Respace.Proofs.Number.Binary64

/-! Failures that come out. A message with a field that cannot be used stays as it is, but not every field
    that fails counts as such: a value may have nothing under a name, it may have no items or none under such
    a key, it may take no style, it may be nested too deeply to be shown, and a whole number may be no character
    or too large for a floating-point number. Filling a message in breaks off at the first field that fails in
    one of these ways, if all in front of it is filled in. All of it holds whatever members there are. -/

namespace Respace.Messages

open Number

variable {α : Type} {Ω : Type} {M : Members Ω} {args : Values} {depth : Nat}

/-- Whether a failure comes out, instead of leaving the message as it is. -/
@[simp] def Failure.IsReported (e : Failure) : Prop := e ≠ .unusable

open Failure (IsReported)

/-! ### Paths -/

/-- An index that is too large to be looked up. -/
def IsHugeIndex (key : List Char) : Prop := isIndex key = true ∧ 2 ^ 63 ≤ Text.decimalNumber key

/-- Whether a part has no place for a step: nothing under the name; no items at all, or none under a key that
    is not an index. -/
def Part.Lacks (M : Members Ω) : Part Ω → Step → Prop
  | p, .name name => Fails IsReported (M.named p name)
  | .value (.list _), .key key => isIndex key = false
  | .value (.text _), .key key => isIndex key = false
  | .value (.object _), .key _ => False
  | .value _, .key key => ¬ IsHugeIndex key
  | .thing o, .key key => ¬ IsHugeIndex key ∧ Fails IsReported (M.item o key)
  | _, .broken => False

theorem not_fails_elim {β : Type} {found : Option β} {f : β → α} :
    ¬ Fails IsReported (found.elim (.error .unusable) fun b => .ok (f b)) := by
  cases found <;> simp

theorem fails_item_iff {p : Part Ω} {key : List Char} :
    Fails IsReported (item M p key) ↔ p.Lacks M (.key key) := by
  unfold item
  dsimp only [Function.comp_def]
  by_cases hhuge : IsHugeIndex key
  · rw [if_pos (by simpa [IsHugeIndex] using hhuge)]
    obtain v | o := p
    · cases v <;> simp [Part.Lacks, hhuge, hhuge.1]
    · simp [Part.Lacks, hhuge]
  · rw [if_neg (by simpa [IsHugeIndex] using hhuge)]
    obtain v | o := p
    · cases v with
      | list vs => cases hi : isIndex key <;> simp [Part.Lacks, hi, not_fails_elim]
      | text s => cases hi : isIndex key <;> simp [Part.Lacks, hi, not_fails_elim, Function.comp_def]
      | object fields => cases hi : isIndex key <;> simp [Part.Lacks, not_fails_elim]
      | _ => simpa [Part.Lacks] using hhuge
    · simp [Part.Lacks, hhuge]

theorem fails_take_iff {p : Part Ω} {step : Step} :
    Fails IsReported (p.take M step) ↔ p.Lacks M step := by
  cases step with
  | name name => cases p <;> exact Iff.rfl
  | key key => exact fails_item_iff
  | broken =>
    rw [Part.take, fails_error_iff]
    cases p with
    | value v => cases v <;> simp [Part.Lacks]
    | thing o => simp [Part.Lacks]

/-- Whether a path leads astray: the value of its name is given, and some way on there is no place for the
    next step. -/
def LeadsAstray (M : Members Ω) (args : Values) (path : List Char) : Prop :=
  nameAhead path ≠ [] ∧ isIndex (nameAhead path) = false ∧
    ∃ v, args.lookup (String.ofList (nameAhead path)) = some v ∧ ∃ before step after p,
      steps (path.drop (nameAhead path).length) = before ++ step :: after ∧
      before.foldlM (Part.take M) (.value v) = .ok p ∧ p.Lacks M step

theorem fails_valueAt_iff {path : List Char} :
    Fails IsReported (valueAt M args path) ↔ LeadsAstray M args path := by
  rw [valueAt_eq, LeadsAstray]
  split
  · next h =>
    rw [Bool.or_eq_true, List.isEmpty_iff] at h
    refine iff_of_false (by simp) ?_
    rintro ⟨hne, hi, -⟩
    simp [hne, hi] at h
  · next h =>
    rw [Bool.or_eq_true, List.isEmpty_iff, not_or, Bool.not_eq_true] at h
    split
    · next hv => simp [hv]
    · next v hv =>
      simp only [fails_foldlM_iff, fails_take_iff, hv, Option.some.injEq, exists_eq_left', h, ne_eq,
        not_false_eq_true, true_and]

/-! ### Styles -/

namespace Style

/-- Whether characters can be shown in a style: it asks for no precision, no sign and no marks. -/
@[mk_iff]
structure FitsCharacters (s : Style) : Prop where
  precision : s.precision = none
  noNegativeZero : s.noNegativeZero = false
  sign : s.sign = none
  alternate : s.alternate = false

/-- The types of floating-point numbers. -/
def floatTypes : List Char := ['e', 'E', 'f', 'F', 'g', 'G', '%']

/-- Whether a style refuses a whole number: as a character that there is not, or as a floating-point number
    past all of them. -/
def Refuses (s : Style) (n : Int) : Prop :=
  (s.type = some 'c' ∧ s.FitsCharacters ∧ (n < 0 ∨ 0x10ffff < n)) ∨
    (∃ t ∈ floatTypes, s.type = some t) ∧ Binary64.overflow ≤ n.natAbs

variable {s : Style} {n : Int}

theorem fails_character_iff :
    Fails IsReported (s.character n) ↔ s.FitsCharacters ∧ (n < 0 ∨ 0x10ffff < n) := by
  have hfits : (s.precision.isSome || s.noNegativeZero || s.sign.isSome || s.alternate) = true ↔
      ¬ s.FitsCharacters := by
    rw [fitsCharacters_iff]
    cases s.precision <;> cases s.noNegativeZero <;> cases s.sign <;> cases s.alternate <;> simp
  have hlong : Int.pow 2 63 = 9223372036854775808 := rfl
  rw [character]
  by_cases hs : s.FitsCharacters
  · rw [if_neg (by rw [hfits]; exact not_not_intro hs), hlong]
    simp only [hs, true_and]
    split
    · simp
      omega
    · split
      · simp_all
      · simp_all
  · rw [if_pos (hfits.2 hs)]
    simp [hs]

/-- As a floating-point number a whole number fails only if it is past all of them. -/
theorem fails_asFloat_iff :
    Fails IsReported (match Binary64.ofRatio (n < 0) n.natAbs 1 with
      | .infinite _ => .error .tooLargeForFloat
      | x => (s.float? x).elim (.error .unusable) .ok) ↔ Binary64.overflow ≤ n.natAbs := by
  have hlarge : (∃ b, Binary64.ofRatio (n < 0) n.natAbs 1 = .infinite b) ↔ _ :=
    Binary64.ofRatio_eq_infinite_iff
  rw [← hlarge]
  split
  · next b h => simp [h]
  · next x h =>
    refine iff_of_false ?_ fun ⟨b, hb⟩ => h b hb
    cases s.float? (Binary64.ofRatio (n < 0) n.natAbs 1) <;> simp

theorem fails_integer_iff : Fails IsReported (s.integer n) ↔ s.Refuses n := by
  have hbase : ∀ t ∈ floatTypes, base? t = none := by simp [floatTypes, base?]
  have hfloat : floatTypes.contains (s.type.getD 'd') = true ↔ ∃ t ∈ floatTypes, s.type = some t := by
    rw [List.contains_iff_mem]
    cases s.type with
    | none => simp [floatTypes]
    | some t => simp
  have htypes : "eEfFgG%".toList = floatTypes := rfl
  rw [integer, Refuses, htypes]
  dsimp only
  by_cases hc : s.type = some 'c'
  · rw [if_pos (by rw [hc]; rfl), fails_character_iff]
    simp [hc, floatTypes]
  · have htype : (s.type.getD 'd' == 'c') = false := by
      cases ht : s.type <;> simp_all
    rw [if_neg (by simp [htype])]
    simp only [hc, false_and, false_or]
    cases hb : base? (s.type.getD 'd') with
    | some found =>
      refine iff_of_false (by dsimp only; split <;> simp) ?_
      rintro ⟨⟨t, ht, hst⟩, -⟩
      rw [hst, Option.getD_some, hbase t ht] at hb
      cases hb
    | none =>
      by_cases hf : floatTypes.contains (s.type.getD 'd') = true
      · dsimp only
        rw [if_neg (by simp only [hf, Bool.not_true, Bool.false_eq_true, not_false_eq_true])]
        exact fails_asFloat_iff.trans (and_iff_right (hfloat.1 hf)).symm
      · dsimp only
        rw [if_pos (by simpa only [Bool.not_eq_true', Bool.not_eq_true] using hf)]
        exact iff_of_false (by simp) fun h => hf (hfloat.2 h.1)

/-- Truth values count as zero and one, which no style refuses. -/
theorem not_refuses_truth (b : Bool) : ¬ s.Refuses (if b then 1 else 0) := by
  have hnumber : 0 ≤ (if b then 1 else 0 : Int) ∧ (if b then 1 else 0 : Int) ≤ 1 := by
    cases b <;> decide
  rintro (⟨-, -, h⟩ | ⟨-, h⟩)
  · omega
  · have := Binary64.one_lt_overflow
    omega

theorem not_refuses_of_read?_nil (h : read? [] = some s) : ¬ s.Refuses n := by
  cases h
  simp [Refuses]

end Style

/-- Whether a value takes no such style: null, lists and objects take none but the empty one. -/
def IsRefused (style : List Char) : Json → Prop
  | .null => style ≠ []
  | .list _ => style ≠ []
  | .object _ => style ≠ []
  | .integer n => ∃ s, Style.read? style = some s ∧ s.Refuses n
  | _ => False

/-- No value refuses the empty style. -/
theorem not_isRefused_nil (v : Json) : ¬ IsRefused [] v := by
  cases v with
  | integer n =>
    rintro ⟨s, hs, hn⟩
    exact Style.not_refuses_of_read?_nil hs hn
  | _ => simp [IsRefused]

theorem not_fails_mapError {ε : Type} {x : Except ε α} :
    ¬ Fails IsReported (x.mapError fun _ => .unusable) := by
  cases x <;> simp [Except.mapError]

theorem fails_shown_iff {v : Json} {style : List Char} :
    Fails IsReported (shown style v) ↔ IsRefused style v := by
  rw [shown]
  by_cases hs : style = []
  · subst hs
    rw [if_pos List.isEmpty_nil]
    exact iff_of_false not_fails_mapError (not_isRefused_nil v)
  · rw [if_neg (by simpa using hs)]
    cases hr : Style.read? style with
    | none => cases v <;> simp [IsRefused, hs, hr]
    | some s =>
      cases v with
      | text t => cases ht : s.text? t.toList <;> simp [IsRefused, ht]
      | number x => cases hx : s.float? x <;> simp [IsRefused, hx]
      | bool b => simp only [Option.elim_some, Style.fails_integer_iff, s.not_refuses_truth, IsRefused]
      | integer n => simp [IsRefused, hr, Style.fails_integer_iff]
      | _ => simp [IsRefused, hs]

/-- Whether a part cannot be shown in a style: a value is too deep to be shown as it is, or takes no such
    style, and a thing has its own say. -/
def Part.Refuses (M : Members Ω) (style : List Char) : Part Ω → Prop
  | .value v => (style = [] ∧ v.fits (M.room none) = false) ∨ IsRefused style v
  | .thing o => Fails IsReported (M.styled o style)

theorem fails_styled_iff {p : Part Ω} {style : List Char} :
    Fails IsReported (p.styled M style) ↔ p.Refuses M style := by
  cases p with
  | value v =>
    rw [Part.styled, Part.Refuses, ← fails_shown_iff]
    by_cases hdeep : style = [] ∧ v.fits (M.room none) = false <;> simp [hdeep]
  | thing o => exact Iff.rfl

/-! ### Fields -/

theorem not_fails_inserted {p : Part Ω} : ¬ Fails IsReported (p.inserted M) := by
  cases p with
  | value v => exact not_fails_mapError
  | thing o => simp [Part.inserted]

theorem not_fails_display {p : Part Ω} : ¬ Fails IsReported (p.display M) := by
  cases p with
  | value v => exact not_fails_mapError
  | thing o => simp [Part.display]

/-- Whether a part is to be converted to a text, and is too deep for it. -/
def Part.IsTooDeep (M : Members Ω) (conversion : Option Char) (p : Part Ω) : Prop :=
  conversion ∈ [some 's', some 'r', some 'a'] ∧ p.fits M conversion = false

theorem fails_asText_iff {conversion : Option Char} {p : Part Ω} {shown : Except Failure String}
    (h : ¬ Fails IsReported shown) :
    Fails IsReported (p.asText M conversion shown) ↔ p.fits M conversion = false := by
  rw [Part.asText]
  split
  · next hfits => exact iff_of_false (mt fails_map_iff.1 h) (by simp [hfits])
  · next hfits => simpa using hfits

/-- Any other conversion that cannot be made is unusable. -/
theorem fails_converted_iff {conversion : Option Char} {p : Part Ω} :
    Fails IsReported (converted M conversion p) ↔ p.IsTooDeep M conversion := by
  have hascii (f : String → String) : ¬ Fails IsReported ((p.display M).map f) :=
    mt fails_map_iff.1 not_fails_display
  unfold converted Part.IsTooDeep
  split
  · simp
  · simpa using fails_asText_iff not_fails_inserted
  · simpa using fails_asText_iff not_fails_display
  · simpa using fails_asText_iff (hascii _)
  · simp_all

/-- The part that a field leads to is missing just when its path leads astray, or when what it leads to is too
    deep to be converted. -/
theorem fails_part_iff {f : Slot} :
    Fails IsReported (f.part M args) ↔ LeadsAstray M args f.path ∨
      ∃ p, valueAt M args f.path = .ok p ∧ p.IsTooDeep M f.conversion := by
  simp only [Slot.part, fails_bind_iff, fails_valueAt_iff, fails_converted_iff]

/-- Whether filling a template in comes to a field: all in front of it is filled in. -/
def Reaches (M : Members Ω) (args : Values) (depth : Nat) (cs : List Char) (f : Slot) : Prop :=
  ∃ before after, pieces cs = before ++ .slot f :: after ∧
    ∀ q ∈ before, ∃ t, q.filled M args depth = .ok t

/-- Whether filling a template in breaks off at a field: its path leads astray, what it leads to is too deep to
    be converted, filling its style in breaks off, or what it leads to cannot be shown in that style. -/
inductive BreaksOff (M : Members Ω) (args : Values) : Nat → List Char → Prop
  | path {depth : Nat} {cs : List Char} {f : Slot} (hf : Reaches M args depth cs f)
      (hpath : LeadsAstray M args f.path) : BreaksOff M args (depth + 1) cs
  | conversion {depth : Nat} {cs : List Char} {f : Slot} {p : Part Ω} (hf : Reaches M args depth cs f)
      (hp : valueAt M args f.path = .ok p) (hdeep : p.IsTooDeep M f.conversion) :
      BreaksOff M args (depth + 1) cs
  | inStyle {depth : Nat} {cs : List Char} {f : Slot} {p : Part Ω} (hf : Reaches M args depth cs f)
      (hp : f.part M args = .ok p) (hfields : '\x7b' ∈ f.style) (hstyle : BreaksOff M args depth f.style) :
      BreaksOff M args (depth + 1) cs
  | style {depth : Nat} {cs style : List Char} {f : Slot} {p : Part Ω} (hf : Reaches M args depth cs f)
      (hp : f.part M args = .ok p) (hstyle : f.filledStyle M args depth = .ok style)
      (hrefused : p.Refuses M style) : BreaksOff M args (depth + 1) cs

/-- A field fails in one of four ways. -/
theorem fails_filled_iff {f : Slot} :
    Fails IsReported (f.filled M args depth) ↔ LeadsAstray M args f.path ∨
      (∃ p, valueAt M args f.path = .ok p ∧ p.IsTooDeep M f.conversion) ∨ ∃ p, f.part M args = .ok p ∧
      (('\x7b' ∈ f.style ∧ Fails IsReported (fill M args depth f.style)) ∨
        ∃ style, f.filledStyle M args depth = .ok style ∧ p.Refuses M style) := by
  have hstyle : Fails IsReported (f.filledStyle M args depth) ↔
      '\x7b' ∈ f.style ∧ Fails IsReported (fill M args depth f.style) := by
    rw [Slot.filledStyle]
    by_cases h : '\x7b' ∈ f.style <;> simp [h]
  simp only [Slot.filled, fails_bind_iff, fails_part_iff, hstyle, fails_styled_iff, or_assoc]

/-- A template fails at the first field that fails, if all in front of it is filled in. -/
theorem fails_fill_succ_iff {cs : List Char} :
    Fails IsReported (fill M args (depth + 1) cs) ↔
      ∃ f, Reaches M args depth cs f ∧ Fails IsReported (f.filled M args depth) := by
  rw [fill_succ, fails_map_iff, fails_mapM_iff]
  constructor
  · rintro ⟨before, q, after, hcs, hbefore, hq⟩
    cases q with
    | char c => simp [Piece.filled] at hq
    | slot f => exact ⟨f, ⟨before, after, hcs, hbefore⟩, hq⟩
    | stray => simp [Piece.filled] at hq
  · rintro ⟨f, ⟨before, after, hcs, hbefore⟩, hf⟩
    exact ⟨before, .slot f, after, hcs, hbefore, hf⟩

/-- A template fails just when filling it in breaks off at a field. -/
theorem fails_fill_iff {cs : List Char} :
    Fails IsReported (fill M args depth cs) ↔ BreaksOff M args depth cs := by
  induction depth generalizing cs with
  | zero =>
    rw [fill]
    exact iff_of_false (by simp) fun h => by cases h
  | succ depth ih =>
    simp only [fails_fill_succ_iff, fails_filled_iff, ih]
    constructor
    · rintro ⟨f, hf, hpath | ⟨p, hp, hdeep⟩ | ⟨p, hp, ⟨hfields, hstyle⟩ | ⟨style, hstyle, hrefused⟩⟩⟩
      · exact .path hf hpath
      · exact .conversion hf hp hdeep
      · exact .inStyle hf hp hfields hstyle
      · exact .style hf hp hstyle hrefused
    · intro h
      cases h with
      | path hf hpath => exact ⟨_, hf, .inl hpath⟩
      | conversion hf hp hdeep => exact ⟨_, hf, .inr (.inl ⟨_, hp, hdeep⟩)⟩
      | inStyle hf hp hfields hstyle => exact ⟨_, hf, .inr (.inr ⟨_, hp, .inl ⟨hfields, hstyle⟩⟩)⟩
      | style hf hp hstyle hrefused => exact ⟨_, hf, .inr (.inr ⟨_, hp, .inr ⟨_, hstyle, hrefused⟩⟩)⟩

end Respace.Messages
