import Respace.Json.Printer
import Respace.Json.Reader
import Respace.Proofs.Text.Digit
import Mathlib.Tactic.IntervalCases

/-! What is printed is read back. -/

namespace Respace.Json

/-! ### Texts -/

/-- A control character is spelled by four hexadecimal digits. -/
theorem exists_hex_control {n : Nat} (hn : n < 0x20) :
    ∃ a b c d, Text.hex 4 n = [a, b, c, d] ∧ hexUnit? a b c d = some n := by
  interval_cases n <;> exact ⟨_, _, _, _, rfl, rfl⟩

theorem textUnits?_backslash {c e : Char} (he : escaped? e = some c) (rest : List Char) :
    textUnits? ('\\' :: e :: rest) =
      (textUnits? rest).map fun (units, rest) => (c.toNat :: units, rest) := by
  have hu : e ≠ 'u' := by
    rintro rfl
    cases he
  rw [textUnits?, he, Option.map_eq_bind]
  · rfl
  · rintro _ _ _ _ _ rfl
    exact absurd rfl hu

theorem textUnits?_plain {c : Char} (hq : c ≠ '"') (hb : c ≠ '\\') (hc : ¬ c.toNat < 0x20)
    (rest : List Char) :
    textUnits? (c :: rest) = (textUnits? rest).map fun (units, rest) => (c.toNat :: units, rest) := by
  rw [textUnits?, if_neg hc, Option.map_eq_bind]
  · rfl
  all_goals simp_all

theorem textUnits?_escapeChar (c : Char) (rest : List Char) :
    textUnits? (escapeChar c ++ rest) =
      (textUnits? rest).map fun (units, rest) => (c.toNat :: units, rest) := by
  unfold escapeChar
  split
  any_goals exact textUnits?_backslash rfl rest
  next hq hb _ _ _ _ _ =>
    split
    · next hc =>
      obtain ⟨a, b, c, d, he, hu⟩ := exists_hex_control hc
      rw [he, List.cons_append, List.cons_append]
      simp only [List.cons_append, List.nil_append, textUnits?, hu, Option.map_eq_bind]
      rfl
    · next hc => exact textUnits?_plain hq hb hc rest

theorem textUnits?_escaped (cs rest : List Char) :
    textUnits? (cs.flatMap escapeChar ++ '"' :: rest) = some (cs.map Char.toNat, rest) := by
  induction cs with
  | nil => rfl
  | cons c cs ih => rw [List.flatMap_cons, List.append_assoc, textUnits?_escapeChar, ih]; rfl

/-- A character is no half of a pair. -/
theorem not_half (c : Char) :
    (0xd800 ≤ c.toNat && c.toNat < 0xe000) = false ∧ (0xd800 ≤ c.toNat && c.toNat < 0xdc00) = false := by
  have hv : c.toNat < 0xd800 ∨ 0xdfff < c.toNat := c.valid.imp id And.left
  simp only [Bool.and_eq_false_iff, decide_eq_false_iff_not]
  omega

theorem ofUnits_toNat (cs : List Char) : ofUnits (cs.map Char.toNat) = cs := by
  induction cs with
  | nil => rfl
  | cons c cs ih =>
    cases cs with
    | nil => simp only [List.map_cons, List.map_nil, ofUnits, (not_half c).1, Bool.false_eq_true, if_false,
        Char.ofNat_toNat]
    | cons d cs =>
      rw [List.map_cons] at ih
      simp only [List.map_cons, ofUnits, (not_half c).1, (not_half c).2, Bool.false_and,
        Bool.false_eq_true, if_false, Char.ofNat_toNat, ih]

/-- A text between quotes is read back, whatever follows it. -/
theorem exists_readText?_quotedText (s : String) :
    ∃ cs, (quotedText s).toList = '"' :: cs ∧ ∀ rest, readText? (cs ++ rest) = some (s, rest) := by
  refine ⟨s.toList.flatMap escapeChar ++ ['"'], by simp [quotedText], fun rest => ?_⟩
  rw [List.append_assoc, List.singleton_append, readText?, textUnits?_escaped]
  simp only [Option.map_some, ofUnits_toNat, String.ofList_toList]

/-! ### Whole numbers -/

/-- Whether a whole number ends where a text starts: no digit, point or power of ten follows. -/
def EndsNumber (rest : List Char) : Prop :=
  ∀ c ∈ rest.head?, c.isDigit = false ∧ c ≠ '.' ∧ c ≠ 'e' ∧ c ≠ 'E'

theorem readPower_of_endsNumber {rest : List Char} (h : EndsNumber rest) :
    readPower rest = (none, rest) := by
  cases rest with
  | nil => rfl
  | cons c rest =>
    obtain ⟨-, -, he, hE⟩ := h c rfl
    simp [readPower, he, hE]

/-- The whole part of a number that starts with its decimal digits is these digits. -/
theorem wholePart_toDigits (n : Nat) {rest : List Char} (h : EndsNumber rest) :
    wholePart (Nat.toDigits 10 n ++ rest) = Nat.toDigits 10 n := by
  by_cases hn : n = 0
  · subst hn
    rfl
  · rw [wholePart]
    · rw [List.takeWhile_append_of_pos fun c hc => Nat.isDigit_of_mem_toDigits (by decide) (by decide) hc]
      cases rest with
      | nil => simp
      | cons c rest => simp [(h c rfl).1]
    · intro tail ht
      have hhead := congrArg List.head? ht
      rw [List.head?_append, Option.or_of_isSome (by simp [Nat.toDigits_ne_nil])] at hhead
      exact Text.head?_toDigits_ne hn hhead

theorem fractionPart_of_endsNumber {rest : List Char} (h : EndsNumber rest) :
    fractionPart rest = [] := by
  rw [fractionPart]
  rintro after rfl
  exact (h '.' rfl).2.1 rfl

theorem readMagnitude?_toDigits {n : Nat} (hn : (Nat.toDigits 10 n).length ≤ Text.maxDigits)
    (negative : Bool) {rest : List Char} (h : EndsNumber rest) :
    readMagnitude? negative (Nat.toDigits 10 n ++ rest) =
      some (integer (if negative then -(n : Int) else n), rest) := by
  have hne : (Nat.toDigits 10 n).isEmpty = false := by simp [Nat.toDigits_ne_nil]
  simp only [readMagnitude?, wholePart_toDigits n h, List.drop_left, fractionPart_of_endsNumber h,
    readPower_of_endsNumber h, hne, Text.decimalNumber_toDigits, gt_iff_lt, Nat.not_lt.2 hn,
    List.isEmpty_nil, Option.isNone_none, Bool.and_self, Bool.false_eq_true, if_true, if_false]

/-! ### Gaps between values -/

/-- Characters that may stand between two values. -/
def IsGap (cs : List Char) : Prop := ∀ c ∈ cs, c = ' ' ∨ c = '\n'

theorem skipBlanks_gap {gap : List Char} (hg : IsGap gap) (rest : List Char) :
    skipBlanks (gap ++ rest) = skipBlanks rest := by
  refine List.dropWhile_append_of_pos fun c hc => ?_
  rcases hg c hc with rfl | rfl <;> rfl

theorem isGap_lineStart (indent : Option Nat) (depth : Nat) : IsGap (lineStart indent depth).toList := by
  intro c hc
  cases indent with
  | none => simp [lineStart] at hc
  | some n => simp [lineStart] at hc; tauto

/-- Two items stand apart by a comma and a gap. -/
theorem exists_separator (indent : Option Nat) (depth : Nat) :
    ∃ gap, (separator indent depth).toList = ',' :: gap ∧ IsGap gap := by
  cases indent with
  | none => exact ⟨[' '], by simp [separator], by simp [IsGap]⟩
  | some n => exact ⟨(lineStart (some n) depth).toList, by simp [separator], isGap_lineStart _ _⟩

/-! ### Values -/

mutual

/-- Values that are read as they are written: without fractions, with whole numbers that are not too long
    to be read, and without two fields of one name. -/
def IsPlain : Json → Prop
  | integer n => (Nat.toDigits 10 n.natAbs).length ≤ Text.maxDigits
  | number _ => False
  | list items => ArePlain items
  | object fields => (fields.map Prod.fst).Nodup ∧ HavePlain fields
  | _ => True

/-- The items of a list are plain. -/
def ArePlain : List Json → Prop
  | [] => True
  | v :: rest => v.IsPlain ∧ ArePlain rest

/-- The fields of an object have plain values. -/
def HavePlain : List (String × Json) → Prop
  | [] => True
  | (_, v) :: rest => v.IsPlain ∧ HavePlain rest

end

theorem setField_of_notMem {fields : List (String × Json)} {key : String} (value : Json)
    (h : key ∉ fields.map Prod.fst) : setField fields key value = fields ++ [(key, value)] := by
  induction fields with
  | nil => rfl
  | cons f fields ih =>
    rw [List.map_cons, List.mem_cons, not_or] at h
    rw [setField, if_neg (by simpa using Ne.symm h.1), ih h.2, List.cons_append]

/-- Fields of different names spell the object that has them. -/
theorem ofFields_of_nodup {fields : List (String × Json)} (h : (fields.map Prod.fst).Nodup) :
    ofFields fields = object fields := by
  suffices hall : ∀ fields done : List (String × Json), ((done ++ fields).map Prod.fst).Nodup →
      fields.foldl (fun fs f => setField fs f.1 f.2) done = done ++ fields by
    rw [ofFields, hall fields [] h, List.nil_append]
  intro fields
  induction fields with
  | nil => simp
  | cons f fields ih =>
    intro done hd
    have hf : f.1 ∉ done.map Prod.fst := by
      rw [List.map_append, List.map_cons, List.nodup_append] at hd
      exact fun hm => hd.2.2 _ hm _ (List.mem_cons_self ..) rfl
    rw [List.foldl_cons, setField_of_notMem f.2 hf, ih _ (by simpa using hd), List.append_assoc,
      List.singleton_append]

/-- How a whole number is written: a sign, and its decimal digits. -/
theorem toList_toString_int (n : Int) :
    (toString n).toList = (if n < 0 then ['-'] else []) ++ Nat.toDigits 10 n.natAbs := by
  rw [show toString n = n.repr from rfl, Int.repr_eq_if]
  split
  · next h =>
    rw [if_neg (by omega), Nat.toList_repr, List.nil_append, show n.natAbs = n.toNat by omega]
  · next h =>
    rw [if_pos (by omega), String.toList_append, Nat.toList_repr, show n.natAbs = (-n).toNat by omega]
    rfl

theorem exists_toDigits_cons (n : Nat) :
    ∃ c cs, Nat.toDigits 10 n = c :: cs ∧ c.isDigit = true := by
  obtain ⟨c, cs, h⟩ := List.exists_cons_of_ne_nil (Nat.toDigits_ne_nil (b := 10) (n := n))
  exact ⟨c, cs, h, Nat.isDigit_of_mem_toDigits (by decide) (by decide) (h ▸ List.mem_cons_self ..)⟩

/-- What starts with a digit is read as a number without a sign, behind a minus as a negative one. -/
theorem readNumber?_digit {c : Char} (hc : c.isDigit = true) (cs : List Char) :
    readNumber? (c :: cs) = readMagnitude? false (c :: cs) ∧
      readNumber? ('-' :: c :: cs) = readMagnitude? true (c :: cs) := by
  constructor <;>
  · rw [readNumber?] <;>
    · rintro _ h
      cases h
      exact absurd hc (by decide)

theorem readNumber?_integer {n : Int} (hn : (Nat.toDigits 10 n.natAbs).length ≤ Text.maxDigits)
    {rest : List Char} (h : EndsNumber rest) :
    readNumber? ((toString n).toList ++ rest) = some (integer n, rest) := by
  have hread := fun negative => readMagnitude?_toDigits hn negative h
  obtain ⟨c, cs, hcs, hc⟩ := exists_toDigits_cons n.natAbs
  obtain ⟨hplus, hminus⟩ := readNumber?_digit hc (cs ++ rest)
  rw [hcs, List.cons_append] at hread
  rw [toList_toString_int, hcs]
  split
  · next hneg =>
    rw [List.singleton_append, List.cons_append, List.cons_append, hminus, hread, if_pos rfl,
      show -(n.natAbs : Int) = n by omega]
  · next hpos =>
    rw [List.nil_append, List.cons_append, hplus, hread, if_neg (by decide),
      show (n.natAbs : Int) = n by omega]

theorem readValue?_integer {n : Int} (hn : (Nat.toDigits 10 n.natAbs).length ≤ Text.maxDigits)
    (fuel : Nat) {rest : List Char} (h : EndsNumber rest) :
    readValue? (fuel + 1) ((toString n).toList ++ rest) = some (integer n, rest) := by
  rw [← readNumber?_integer hn h, toList_toString_int]
  obtain ⟨c, cs, hcs, hc⟩ := exists_toDigits_cons n.natAbs
  rw [hcs]
  split
  · rw [List.singleton_append, List.cons_append, List.cons_append, readValue?] <;> exact nofun
  · rw [List.nil_append, List.cons_append, readValue?] <;>
    · rintro _ h
      rw [(List.cons.inj h).1] at hc
      exact absurd hc (by decide)

theorem exists_toList_bracketed (indent : Option Nat) (depth : Nat) (opening closing : String)
    (items : List String) :
    ∃ cs, (bracketed indent depth opening closing items).toList = opening.toList ++ cs := by
  rw [bracketed]
  split
  · exact ⟨_, String.toList_append⟩
  · simp only [String.toList_append, List.append_assoc]
    exact ⟨_, rfl⟩

/-- The first character of a written value stands in no gap and closes no list. -/
theorem exists_printAt_cons (indent : Option Nat) (depth : Nat) {v : Json} (hv : v.IsPlain) :
    ∃ c cs, (printAt indent depth v).toList = c :: cs ∧ c ∉ [' ', '\t', '\n', '\r', ']'] := by
  cases v with
  | null => exact ⟨'n', "ull".toList, by simp [printAt], by decide⟩
  | bool b =>
    cases b with
    | true => exact ⟨'t', "rue".toList, by simp [printAt], by decide⟩
    | false => exact ⟨'f', "alse".toList, by simp [printAt], by decide⟩
  | integer n =>
    obtain ⟨c, cs, hcs, hc⟩ := exists_toDigits_cons n.natAbs
    rw [printAt, toList_toString_int, hcs]
    split
    · exact ⟨'-', c :: cs, rfl, by decide⟩
    · refine ⟨c, cs, rfl, fun hm => ?_⟩
      simp only [List.mem_cons, List.not_mem_nil, or_false] at hm
      rcases hm with rfl | rfl | rfl | rfl | rfl <;> exact absurd hc (by decide)
  | number x => exact hv.elim
  | text s =>
    obtain ⟨cs, hcs, -⟩ := exists_readText?_quotedText s
    exact ⟨'"', cs, by rw [printAt, hcs], by decide⟩
  | list items =>
    obtain ⟨cs, hcs⟩ := exists_toList_bracketed indent depth "[" "]"
      (printItems indent (depth + 1) items)
    exact ⟨'[', cs, by rw [printAt, hcs]; rfl, by decide⟩
  | object fields =>
    obtain ⟨cs, hcs⟩ := exists_toList_bracketed indent depth "\x7b" "\x7d"
      (printFields indent (depth + 1) fields)
    exact ⟨'\x7b', cs, by rw [printAt, hcs]; rfl, by decide⟩

theorem skipBlanks_printAt (indent : Option Nat) (depth : Nat) {v : Json} (hv : v.IsPlain)
    (rest : List Char) :
    skipBlanks ((printAt indent depth v).toList ++ rest) = (printAt indent depth v).toList ++ rest := by
  obtain ⟨c, cs, hcs, hc⟩ := exists_printAt_cons indent depth hv
  simp only [List.mem_cons, List.not_mem_nil, or_false, not_or] at hc
  rw [hcs, List.cons_append, skipBlanks, List.dropWhile_cons_of_neg]
  simp [hc]

/-! ### Lists and objects -/

theorem endsNumber_close {gap : List Char} (hg : IsGap gap) {c : Char} (hc : c = ']' ∨ c = '\x7d')
    (rest : List Char) : EndsNumber (gap ++ c :: rest) := by
  rintro d hd
  cases gap with
  | nil =>
    cases hd
    rcases hc with rfl | rfl <;> decide
  | cons e gap =>
    cases hd
    rcases hg d (by simp) with rfl | rfl <;> decide

theorem endsNumber_comma (rest : List Char) : EndsNumber (',' :: rest) := by
  rintro d ⟨⟩
  decide

theorem skipBlanks_close {gap : List Char} (hg : IsGap gap) {c : Char} (hc : c = ']' ∨ c = '\x7d')
    (rest : List Char) : skipBlanks (gap ++ c :: rest) = c :: rest := by
  rw [skipBlanks_gap hg]
  rcases hc with rfl | rfl <;> rfl

theorem skipBlanks_comma (rest : List Char) : skipBlanks (',' :: rest) = ',' :: rest := rfl

theorem skipBlanks_colon (rest : List Char) : skipBlanks (':' :: rest) = ':' :: rest := rfl

theorem skipBlanks_space (rest : List Char) : skipBlanks (' ' :: rest) = skipBlanks rest := rfl

/-- A field of an object as it is written. -/
def fieldText (indent : Option Nat) (depth : Nat) (k : String) (v : Json) : String :=
  quotedText k ++ ": " ++ printAt indent depth v

/-- The name of a written field is read back, and a colon, a space and the value follow it. -/
theorem exists_fieldText (indent : Option Nat) (depth : Nat) (k : String) (v : Json) :
    ∃ cs, (fieldText indent depth k v).toList =
        '"' :: (cs ++ ':' :: ' ' :: (printAt indent depth v).toList) ∧
      ∀ rest, readText? (cs ++ rest) = some (k, rest) := by
  obtain ⟨cs, hcs, hread⟩ := exists_readText?_quotedText k
  exact ⟨cs, by simp [fieldText, hcs], hread⟩

/-- The texts of several items, with what stands between them. -/
def joined (indent : Option Nat) (depth : Nat) (items : List String) : List Char :=
  ((separator indent depth).intercalate items).toList

theorem joined_singleton (indent : Option Nat) (depth : Nat) (s : String) :
    joined indent depth [s] = s.toList := by
  rw [joined, String.intercalate_singleton]

/-- Several items are joined by a comma and a gap behind the first. -/
theorem exists_joined_cons (indent : Option Nat) (depth : Nat) (s t : String) (rest : List String) :
    ∃ gap, IsGap gap ∧
      joined indent depth (s :: t :: rest) =
        s.toList ++ ',' :: (gap ++ joined indent depth (t :: rest)) := by
  obtain ⟨gap, hs, hg⟩ := exists_separator indent depth
  refine ⟨gap, hg, ?_⟩
  rw [joined, joined, String.toList_intercalate, List.map_cons, List.map_cons,
    List.intercalate_cons_cons, hs, String.toList_intercalate, List.map_cons, hs, List.append_assoc,
    List.cons_append]

theorem exists_joined (indent : Option Nat) (depth : Nat) (s : String) (rest : List String) :
    ∃ more, joined indent depth (s :: rest) = s.toList ++ more := by
  cases rest with
  | nil => exact ⟨[], by rw [joined_singleton, List.append_nil]⟩
  | cons t rest =>
    obtain ⟨gap, -, h⟩ := exists_joined_cons indent depth s t rest
    exact ⟨_, h⟩

/-- Items between brackets are joined, with a gap at both ends. -/
theorem exists_bracketed (indent : Option Nat) (depth : Nat) (opening closing s : String)
    (items : List String) :
    ∃ before after, IsGap before ∧ IsGap after ∧
      (bracketed indent depth opening closing (s :: items)).toList =
        opening.toList ++
          (before ++ (joined indent (depth + 1) (s :: items) ++ (after ++ closing.toList))) := by
  refine ⟨_, _, isGap_lineStart indent (depth + 1), isGap_lineStart indent depth, ?_⟩
  simp only [bracketed, joined, List.isEmpty_cons, Bool.false_eq_true, if_false, String.toList_append,
    List.append_assoc]

section readers

variable {fuel : Nat} {cs value more rest gap : List Char} {key : String} {v : Json} {items : List Json}
  {fields : List (String × Json)}

theorem readValue?_list (hs : skipBlanks more = more) (hne : more.head? ≠ some ']')
    (hi : readItems? fuel more = some (items, rest)) (hg : IsGap gap) :
    readValue? (fuel + 1) ('[' :: (gap ++ more)) = some (list items, rest) := by
  rw [readValue?, skipBlanks_gap hg, hs]
  split
  · exact absurd rfl hne
  · rw [hi]
    rfl

theorem readValue?_object (hf : readFields? fuel ('"' :: more) = some (fields, rest)) (hg : IsGap gap) :
    readValue? (fuel + 1) ('\x7b' :: (gap ++ '"' :: more)) = some (ofFields fields, rest) := by
  have hs : skipBlanks ('"' :: more) = '"' :: more := rfl
  rw [readValue?, skipBlanks_gap hg, hs]
  split
  · next h => cases h
  · rw [hf]
    rfl

theorem readItems?_last (hv : readValue? fuel cs = some (v, gap ++ ']' :: rest)) (hg : IsGap gap) :
    readItems? (fuel + 1) cs = some ([v], rest) := by
  have hclose := skipBlanks_close hg (.inl rfl) rest
  rw [readItems?, hv, Option.bind_eq_bind, Option.bind_some]
  simp only [hclose]
  rfl

theorem readItems?_more (hv : readValue? fuel cs = some (v, ',' :: (gap ++ more)))
    (hg : IsGap gap) (hs : skipBlanks more = more) (hi : readItems? fuel more = some (items, rest)) :
    readItems? (fuel + 1) cs = some (v :: items, rest) := by
  rw [readItems?, hv, Option.bind_eq_bind, Option.bind_some]
  simp only [skipBlanks_comma, skipBlanks_gap hg, hs, hi]
  rfl

theorem readFields?_last (hk : readText? cs = some (key, ':' :: ' ' :: more))
    (hs : skipBlanks more = more) (hv : readValue? fuel more = some (v, gap ++ '\x7d' :: rest))
    (hg : IsGap gap) : readFields? (fuel + 1) ('"' :: cs) = some ([(key, v)], rest) := by
  have hclose := skipBlanks_close hg (.inr rfl) rest
  rw [readFields?, hk, Option.bind_eq_bind, Option.bind_some]
  simp only [skipBlanks_colon, skipBlanks_space, hs, hv, Option.bind_eq_bind,
    Option.bind_some, hclose]
  rfl

theorem readFields?_more (hk : readText? cs = some (key, ':' :: ' ' :: value))
    (hs : skipBlanks value = value) (hv : readValue? fuel value = some (v, ',' :: (gap ++ more)))
    (hg : IsGap gap) (hm : skipBlanks more = more) (hf : readFields? fuel more = some (fields, rest)) :
    readFields? (fuel + 1) ('"' :: cs) = some ((key, v) :: fields, rest) := by
  rw [readFields?, hk, Option.bind_eq_bind, Option.bind_some]
  simp only [skipBlanks_colon, skipBlanks_space, hs, hv, Option.bind_eq_bind,
    Option.bind_some, skipBlanks_comma, skipBlanks_gap hg, hm, hf]
  rfl

end readers

/-- No gap is skipped before the items of a list, and the list is not closed there. -/
theorem skipBlanks_joined (indent : Option Nat) (depth : Nat) {v : Json} (hv : v.IsPlain)
    (items : List String) (rest : List Char) :
    let more := joined indent depth (printAt indent depth v :: items) ++ rest
    skipBlanks more = more ∧ more.head? ≠ some ']' := by
  obtain ⟨more, hm⟩ := exists_joined indent depth (printAt indent depth v) items
  obtain ⟨c, cs, hcs, hc⟩ := exists_printAt_cons indent depth hv
  simp only [hm, List.append_assoc]
  refine ⟨skipBlanks_printAt indent depth hv _, ?_⟩
  rw [hcs, List.cons_append, List.head?_cons]
  rintro ⟨⟩
  exact hc (by simp)

theorem skipBlanks_field (indent : Option Nat) (depth : Nat) (k : String) (v : Json)
    (items : List String) (rest : List Char) :
    skipBlanks (joined indent depth (fieldText indent depth k v :: items) ++ rest) =
      joined indent depth (fieldText indent depth k v :: items) ++ rest := by
  obtain ⟨more, hm⟩ := exists_joined indent depth (fieldText indent depth k v) items
  obtain ⟨cs, hcs, -⟩ := exists_fieldText indent depth k v
  rw [hm, hcs]
  rfl

mutual

/-- A written value is read back, and what follows it is left, unless that goes on with a number. -/
theorem readValue?_printAt (indent : Option Nat) (depth : Nat) :
    ∀ (v : Json) (fuel : Nat) (rest : List Char), v.IsPlain → EndsNumber rest →
      2 * (printAt indent depth v).toList.length ≤ fuel →
      readValue? fuel ((printAt indent depth v).toList ++ rest) = some (v, rest)
  | v, 0, rest, hv, hr, hf => by
    obtain ⟨c, cs, hcs, -⟩ := exists_printAt_cons indent depth hv
    simp [hcs] at hf
  | null, fuel + 1, rest, _, _, _ => by simp [printAt, readValue?]
  | bool true, fuel + 1, rest, _, _, _ => by simp [printAt, readValue?]
  | bool false, fuel + 1, rest, _, _, _ => by simp [printAt, readValue?]
  | integer n, fuel + 1, rest, hv, hr, _ => by rw [printAt, readValue?_integer hv fuel hr]
  | number x, _, _, hv, _, _ => hv.elim
  | text s, fuel + 1, rest, _, _, _ => by
    obtain ⟨cs, hcs, hread⟩ := exists_readText?_quotedText s
    rw [printAt, hcs, List.cons_append, readValue?, hread]
    rfl
  | list [], fuel + 1, rest, _, _, _ => by simp [printAt, printItems, bracketed, readValue?, skipBlanks]
  | list (v :: items), fuel + 1, rest, hv, _, hf => by
    obtain ⟨before, after, hb, ha, hlist⟩ := exists_bracketed indent depth "[" "]"
      (printAt indent (depth + 1) v) (printItems indent (depth + 1) items)
    rw [printAt, printItems, hlist] at hf ⊢
    have hread := readItems?_printItems indent (depth + 1) v items fuel after rest hv ha
      (by simp at hf; omega)
    obtain ⟨hskip, hhead⟩ := skipBlanks_joined indent (depth + 1) hv.1
      (printItems indent (depth + 1) items) (after ++ ']' :: rest)
    simpa using readValue?_list hskip hhead hread hb
  | object [], fuel + 1, rest, _, _, _ => by
    simp [printAt, printFields, bracketed, readValue?, skipBlanks]
  | object ((k, v) :: fields), fuel + 1, rest, hv, _, hf => by
    obtain ⟨before, after, hb, ha, hlist⟩ := exists_bracketed indent depth "\x7b" "\x7d"
      (fieldText indent (depth + 1) k v) (printFields indent (depth + 1) fields)
    rw [printAt, printFields, ← fieldText, hlist] at hf ⊢
    have hread := readFields?_printFields indent (depth + 1) k v fields fuel after rest hv.2 ha
      (by simp at hf; omega)
    obtain ⟨more, hm⟩ := exists_joined indent (depth + 1) (fieldText indent (depth + 1) k v)
      (printFields indent (depth + 1) fields)
    obtain ⟨cs, hcs, -⟩ := exists_fieldText indent (depth + 1) k v
    rw [hm, hcs, List.cons_append, List.cons_append] at hread
    rw [← ofFields_of_nodup hv.1, hm, hcs]
    simpa using readValue?_object hread hb
termination_by v => sizeOf v
decreasing_by all_goals simp

/-- The written items of a list are read back up to the bracket that closes it. -/
theorem readItems?_printItems (indent : Option Nat) (depth : Nat) :
    ∀ (v : Json) (items : List Json) (fuel : Nat) (gap rest : List Char), ArePlain (v :: items) →
      IsGap gap →
      2 * (joined indent depth (printAt indent depth v :: printItems indent depth items)).length < fuel →
      readItems? fuel (joined indent depth (printAt indent depth v :: printItems indent depth items) ++
        (gap ++ ']' :: rest)) = some (v :: items, rest)
  | _, _, 0, _, _, _, _, hf => by omega
  | v, [], fuel + 1, gap, rest, hv, hg, hf => by
    rw [printItems, joined_singleton] at hf ⊢
    exact readItems?_last (readValue?_printAt indent depth v fuel _ hv.1
      (endsNumber_close hg (.inl rfl) _) (by omega)) hg
  | v, w :: items, fuel + 1, gap, rest, hv, hg, hf => by
    obtain ⟨between, hb, hjoin⟩ := exists_joined_cons indent depth (printAt indent depth v)
      (printAt indent depth w) (printItems indent depth items)
    rw [printItems, hjoin] at hf ⊢
    have hread := readItems?_printItems indent depth w items fuel gap rest hv.2 hg (by simp at hf; omega)
    have hvalue (rest : List Char) := readValue?_printAt indent depth v fuel (',' :: rest) hv.1
      (endsNumber_comma rest) (by simp at hf; omega)
    rw [List.append_assoc, List.cons_append, List.append_assoc]
    exact readItems?_more (hvalue _) hb (skipBlanks_joined indent depth hv.2.1 _ _).1 hread
termination_by v items => sizeOf (v :: items)
decreasing_by all_goals simp <;> omega

/-- The written fields of an object are read back up to the bracket that closes it. -/
theorem readFields?_printFields (indent : Option Nat) (depth : Nat) :
    ∀ (k : String) (v : Json) (fields : List (String × Json)) (fuel : Nat) (gap rest : List Char),
      HavePlain ((k, v) :: fields) → IsGap gap →
      2 * (joined indent depth (fieldText indent depth k v :: printFields indent depth fields)).length <
        fuel →
      readFields? fuel
        (joined indent depth (fieldText indent depth k v :: printFields indent depth fields) ++
          (gap ++ '\x7d' :: rest)) = some ((k, v) :: fields, rest)
  | k, v, [] => by
    intro fuel gap rest hv hg hf
    obtain ⟨fuel, rfl⟩ := Nat.exists_eq_add_one_of_ne_zero (Nat.ne_zero_of_lt hf)
    obtain ⟨cs, hcs, hkey⟩ := exists_fieldText indent depth k v
    rw [HavePlain] at hv
    rw [printFields, joined_singleton, hcs] at hf ⊢
    have hlen : 2 * (printAt indent depth v).toList.length ≤ fuel := by simp at hf; omega
    have hvalue := readValue?_printAt indent depth v fuel (gap ++ '\x7d' :: rest) hv.1
      (endsNumber_close hg (.inr rfl) rest) hlen
    rw [List.cons_append, List.append_assoc, List.cons_append, List.cons_append]
    exact readFields?_last (hkey _) (skipBlanks_printAt indent depth hv.1 _) hvalue hg
  | k, v, (l, w) :: fields => by
    intro fuel gap rest hv hg hf
    obtain ⟨fuel, rfl⟩ := Nat.exists_eq_add_one_of_ne_zero (Nat.ne_zero_of_lt hf)
    rw [HavePlain] at hv
    obtain ⟨cs, hcs, hkey⟩ := exists_fieldText indent depth k v
    obtain ⟨between, hb, hjoin⟩ := exists_joined_cons indent depth (fieldText indent depth k v)
      (fieldText indent depth l w) (printFields indent depth fields)
    rw [printFields, ← fieldText, hjoin, hcs] at hf ⊢
    have hread := readFields?_printFields indent depth l w fields fuel gap rest hv.2 hg
      (by simp at hf; omega)
    have hvalue (rest : List Char) := readValue?_printAt indent depth v fuel (',' :: rest) hv.1
      (endsNumber_comma rest) (by simp at hf; omega)
    simp only [List.cons_append, List.append_assoc]
    exact readFields?_more (hkey _) (skipBlanks_printAt indent depth hv.1 _) (hvalue _) hb
      (skipBlanks_field indent depth l w _ _) hread
termination_by k v fields => sizeOf ((k, v) :: fields)
decreasing_by all_goals simp <;> omega

end

/-- A plain value that is written is read back, on one line or on several. -/
theorem read?_printAt {v : Json} (hv : v.IsPlain) (indent : Option Nat) (depth : Nat) :
    read? (printAt indent depth v) = some v := by
  have hskip := skipBlanks_printAt indent depth hv []
  have hread := readValue?_printAt indent depth v (2 * (printAt indent depth v).toList.length + 2) [] hv
    nofun (by omega)
  rw [List.append_nil] at hskip hread
  simp only [read?, hskip, hread, Option.bind_eq_bind, Option.bind_some]
  rfl

end Respace.Json
