import Mathlib.Data.List.TakeWhile
import Respace.Script.Lexeme

/-! Where a lexeme ends is settled by its own characters. A string, a block comment and a pattern that
    are closed end in the same place whatever follows them; a line comment asks for the end of its line
    and a pattern for a character that is not one of its flags.

    The body of a pattern is read by an automaton, one character at a time. A slash opens no pattern
    just when its line ends before the automaton has closed. -/

namespace Respace.Script

open Text

/-! ### One step of each reader -/

theorem splitString_cons {c : Char} (hc : c ≠ '\\') (quote : Char) (cs : List Char) :
    splitString quote (c :: cs) =
      if c == quote then ([c], cs) else before [c] (splitString quote cs) := by
  rw [splitString] <;> simp [hc]

theorem splitBlock_cons {c : Char} {cs : List Char} (h : c = '*' → cs.head? ≠ some '/') :
    splitBlock (c :: cs) = before [c] (splitBlock cs) := by
  rw [splitBlock]
  rintro ds rfl rfl
  exact h rfl rfl

theorem splitBody?_cons {c : Char} (hc : c ≠ '\\') (inClass : Bool) (cs : List Char) :
    splitBody? inClass (c :: cs) =
      if isLineEnd c then none
      else if inClass then (splitBody? (c != ']') cs).map (before [c])
      else if c == '/' then some (['/'], cs)
      else (splitBody? (c == '[') cs).map (before [c]) := by
  rw [splitBody?] <;> simp [hc]

theorem map_before_eq_some {ds body rest : List Char} {split : Option (List Char × List Char)}
    (h : split.map (before ds) = some (body, rest)) : ∃ b, split = some (b, rest) ∧ body = ds ++ b := by
  obtain ⟨⟨b, r⟩, hs, he⟩ := Option.map_eq_some_iff.1 h
  simp only [before, Prod.mk.injEq] at he
  obtain ⟨rfl, rfl⟩ := he
  exact ⟨b, hs, rfl⟩

/-- A character that neither ends the text as a backslash nor escapes another one is no backslash. -/
theorem ne_backslash {c : Char} {cs : List Char} (h1 : c = '\\' → cs = [] → False)
    (h2 : ∀ d ds, c = '\\' → cs = d :: ds → False) : c ≠ '\\' := by
  intro hc
  cases cs with
  | nil => exact h1 hc rfl
  | cons d ds => exact h2 d ds hc rfl

/-! ### Another text behind a closed lexeme -/

theorem splitString_behind {quote : Char} {cs body rest : List Char}
    (h : splitString quote cs = (body, rest)) (hr : rest ≠ []) (other : List Char) :
    splitString quote (body ++ other) = (body, other) := by
  fun_induction splitString quote cs generalizing body rest with
  | case1 => simp_all
  | case2 => simp_all
  | case3 c cs ih =>
    simp only [before, Prod.mk.injEq] at h
    obtain ⟨rfl, rfl⟩ := h
    simp [splitString, before, ih rfl hr]
  | case4 c cs h1 h2 hq =>
    simp only [Prod.mk.injEq] at h
    obtain ⟨rfl, rfl⟩ := h
    rw [List.singleton_append, splitString_cons (ne_backslash h1 h2), if_pos hq]
  | case5 c cs h1 h2 hq ih =>
    simp only [before, Prod.mk.injEq] at h
    obtain ⟨rfl, rfl⟩ := h
    rw [List.singleton_append, List.cons_append, splitString_cons (ne_backslash h1 h2), if_neg hq,
      ih rfl hr]
    rfl

theorem head?_splitBlock (cs : List Char) : (splitBlock cs).1.head? = cs.head? := by
  fun_cases splitBlock cs <;> simp [before]

/-- A closed block comment ends in the same place whatever follows it. -/
theorem splitBlock_behind {cs body rest : List Char} (h : splitBlock cs = (body, rest))
    (hr : rest ≠ []) (other : List Char) : splitBlock (body ++ other) = (body, other) := by
  fun_induction splitBlock cs generalizing body rest with
  | case1 => simp_all
  | case2 cs =>
    simp only [Prod.mk.injEq] at h
    obtain ⟨rfl, rfl⟩ := h
    rfl
  | case3 c cs hc ih =>
    simp only [before, Prod.mk.injEq] at h
    obtain ⟨rfl, rfl⟩ := h
    have hne : (splitBlock cs).1 ≠ [] := by
      intro he
      have hcs := head?_splitBlock cs
      cases cs with
      | nil => simp [splitBlock] at hr
      | cons d ds => simp [he] at hcs
    rw [List.singleton_append, List.cons_append, splitBlock_cons, ih rfl hr]
    · rfl
    · rintro rfl
      rw [List.head?_append, head?_splitBlock]
      cases cs with
      | nil => simp [splitBlock] at hne
      | cons d ds =>
        intro hd
        obtain rfl : d = '/' := by simpa using hd
        exact hc ds rfl rfl

/-- The body of a closed pattern ends in the same place whatever follows it. -/
theorem splitBody?_behind {inClass : Bool} {cs body rest : List Char}
    (h : splitBody? inClass cs = some (body, rest)) (hr : rest ≠ []) (other : List Char) :
    splitBody? inClass (body ++ other) = some (body, other) := by
  fun_induction splitBody? inClass cs generalizing body rest with
  | case1 => simp_all
  | case2 => simp_all
  | case3 => simp at h
  | case4 inClass c cs hc ih =>
    obtain ⟨b, hs, rfl⟩ := map_before_eq_some h
    simp [splitBody?, hc, ih hs hr, before]
  | case5 => simp at h
  | case6 c cs h1 h2 hc ih =>
    obtain ⟨b, hs, rfl⟩ := map_before_eq_some h
    simp [splitBody?_cons (ne_backslash h1 h2), hc, ih hs hr, before]
  | case7 inClass c cs h1 h2 hc hk hs =>
    simp only [Option.some.injEq, Prod.mk.injEq] at h
    obtain ⟨rfl, rfl⟩ := h
    simp [splitBody?_cons, hk, isLineEnd]
  | case8 inClass c cs h1 h2 hc hk hs ih =>
    obtain ⟨b, hb, rfl⟩ := map_before_eq_some h
    simp [splitBody?_cons (ne_backslash h1 h2), hc, hk, hs, ih hb hr, before]

theorem splitPattern?_eq_some {cs body rest : List Char} (h : splitPattern? cs = some (body, rest)) :
    ∃ b r, splitBody? false cs = some (b, r) ∧ body = b ++ r.takeWhile isWord ∧
      rest = r.dropWhile isWord := by
  obtain ⟨⟨b, r⟩, hs, he⟩ := Option.map_eq_some_iff.1 h
  simp only [before, Prod.mk.injEq] at he
  exact ⟨b, r, hs, he.1.symm, he.2.symm⟩

theorem splitBody?_ne_nil {inClass : Bool} {cs body rest : List Char}
    (h : splitBody? inClass cs = some (body, rest)) (hcs : cs ≠ []) : body ≠ [] := by
  have hmap : ∀ {d : Char} {ds : List Char} {o : Option (List Char × List Char)},
      o.map (before (d :: ds)) = some (body, rest) → body ≠ [] := by
    intro d ds o ho
    obtain ⟨b, -, rfl⟩ := map_before_eq_some ho
    simp
  fun_induction splitBody? inClass cs with
  | case1 => exact absurd rfl hcs
  | case2 | case7 =>
    simp only [Option.some.injEq, Prod.mk.injEq] at h
    simp [← h.1]
  | case3 | case5 => simp at h
  | case4 | case6 | case8 => exact hmap h

theorem splitPattern?_ne_nil {cs body rest : List Char}
    (h : splitPattern? cs = some (body, rest)) (hcs : cs ≠ []) : body ≠ [] := by
  obtain ⟨b, r, hs, rfl, -⟩ := splitPattern?_eq_some h
  exact fun he => splitBody?_ne_nil hs hcs (List.append_eq_nil_iff.1 he).1

/-- All flags of a pattern belong to it. -/
theorem head?_of_splitPattern? {cs body rest : List Char}
    (h : splitPattern? cs = some (body, rest)) : ∀ c ∈ rest.head?, isWord c = false := by
  obtain ⟨b, r, _, _, rfl⟩ := splitPattern?_eq_some h
  intro c hc
  have hnot := List.head?_dropWhile_not isWord r
  rw [Option.mem_def.1 hc] at hnot
  exact hnot

theorem takeWhile_of_boundary {p : Char → Bool} {cs rest : List Char} (hcs : ∀ c ∈ cs, p c = true)
    (hr : ∀ c, rest.head? = some c → p c = false) : (cs ++ rest).takeWhile p = cs := by
  rw [List.takeWhile_append_of_pos hcs]
  cases rest with
  | nil => simp
  | cons c rest => simp [hr c rfl]

theorem dropWhile_of_boundary {p : Char → Bool} {cs rest : List Char} (hcs : ∀ c ∈ cs, p c = true)
    (hr : ∀ c, rest.head? = some c → p c = false) : (cs ++ rest).dropWhile p = rest := by
  rw [List.dropWhile_append_of_pos hcs]
  cases rest with
  | nil => rfl
  | cons c rest => simp [hr c rfl]

/-- A closed pattern ends in the same place before any character that is not a flag. -/
theorem splitPattern?_behind {cs body rest other : List Char}
    (h : splitPattern? cs = some (body, rest)) (hr : rest ≠ [])
    (ho : ∀ c, other.head? = some c → isWord c = false) :
    splitPattern? (body ++ other) = some (body, other) := by
  obtain ⟨b, r, hs, rfl, rfl⟩ := splitPattern?_eq_some h
  have hne : r ≠ [] := by
    rintro rfl
    simp at hr
  have hflags : ∀ c ∈ r.takeWhile isWord, isWord c = true := fun c => List.mem_takeWhile_imp
  rw [splitPattern?, List.append_assoc, splitBody?_behind hs hne]
  simp only [Option.map_some, before]
  rw [takeWhile_of_boundary hflags ho, dropWhile_of_boundary hflags ho]

theorem isLineEnd_of_mem_splitLine {cs : List Char} {c : Char} (hc : c ∈ (splitLine cs).1) :
    isLineEnd c = false := by
  simpa using List.mem_takeWhile_imp hc

theorem isLineEnd_of_splitLine {cs body rest : List Char} (h : splitLine cs = (body, rest)) :
    ∀ c ∈ rest.head?, isLineEnd c = true := by
  intro c hc
  have hn := List.head?_dropWhile_not (!isLineEnd ·) cs
  have hd : cs.dropWhile (!isLineEnd ·) = rest := congrArg Prod.snd h
  rw [hd, Option.mem_def.1 hc] at hn
  simpa using hn

theorem splitLine_behind {body other : List Char} (hb : ∀ c ∈ body, isLineEnd c = false)
    (ho : ∀ c, other.head? = some c → isLineEnd c = true) :
    splitLine (body ++ other) = (body, other) := by
  have hb' : ∀ c ∈ body, (!isLineEnd c) = true := by simpa using hb
  have ho' : ∀ c, other.head? = some c → (!isLineEnd c) = false := by simpa using ho
  rw [splitLine, takeWhile_of_boundary hb' ho', dropWhile_of_boundary hb' ho']

/-- What a block comment leaves nothing behind leaves nothing behind either when it is cut short. -/
theorem splitBlock_cut {p q : List Char} (h : splitBlock (p ++ q) = (p ++ q, [])) :
    splitBlock p = (p, []) := by
  have hp := splitBlock_append p
  by_cases hr : (splitBlock p).2 = []
  · rw [hr, List.append_nil] at hp
    exact Prod.ext hp hr
  · have hq := splitBlock_behind rfl hr ((splitBlock p).2 ++ q)
    rw [← List.append_assoc, hp, h] at hq
    simp_all

theorem getLast?_splitBlock {cs body rest : List Char} (h : splitBlock cs = (body, rest))
    (hr : rest ≠ []) : body.getLast? = some '/' := by
  fun_induction splitBlock cs generalizing body rest with
  | case1 => simp_all
  | case2 cs =>
    simp only [Prod.mk.injEq] at h
    obtain ⟨rfl, rfl⟩ := h
    rfl
  | case3 c cs hc ih =>
    simp only [before, Prod.mk.injEq] at h
    obtain ⟨rfl, rfl⟩ := h
    simp [List.getLast?_cons, ih rfl hr]

theorem getLast?_splitString {quote : Char} {cs body rest : List Char}
    (h : splitString quote cs = (body, rest)) (hr : rest ≠ []) : body.getLast? = some quote := by
  fun_induction splitString quote cs generalizing body rest with
  | case1 => simp_all
  | case2 => simp_all
  | case3 c cs ih =>
    simp only [before, Prod.mk.injEq] at h
    obtain ⟨rfl, rfl⟩ := h
    simp [List.getLast?_cons, ih rfl hr]
  | case4 c cs h1 h2 hq =>
    simp only [Prod.mk.injEq] at h
    obtain ⟨rfl, rfl⟩ := h
    simpa using hq
  | case5 c cs h1 h2 hq ih =>
    simp only [before, Prod.mk.injEq] at h
    obtain ⟨rfl, rfl⟩ := h
    simp [List.getLast?_cons, ih rfl hr]

/-- What a step of the reader puts in front of a body does not change how the body ends. -/
theorem getLast?_of_map_before {c : Char} {ds body rest : List Char}
    {split : Option (List Char × List Char)} (h : split.map (before ds) = some (body, rest))
    (hs : ∀ b, split = some (b, rest) → b.getLast? = some c) : body.getLast? = some c := by
  obtain ⟨b, hb, rfl⟩ := map_before_eq_some h
  rw [List.getLast?_append, hs b hb]
  rfl

theorem getLast?_splitBody? {inClass : Bool} {cs body rest : List Char}
    (h : splitBody? inClass cs = some (body, rest)) (hr : rest ≠ []) :
    body.getLast? = some '/' := by
  fun_induction splitBody? inClass cs generalizing body with
  | case1 | case2 => simp_all
  | case3 | case5 => simp at h
  | case4 inClass c cs hc ih => exact getLast?_of_map_before h fun _ => ih
  | case6 c cs h1 h2 hc ih => exact getLast?_of_map_before h fun _ => ih
  | case7 inClass c cs h1 h2 hc hk hs =>
    simp only [Option.some.injEq, Prod.mk.injEq] at h
    simp [← h.1]
  | case8 inClass c cs h1 h2 hc hk hs ih => exact getLast?_of_map_before h fun _ => ih

/-! ### The body of a pattern as an automaton -/

/-- A reader of the body of a pattern: inside or outside a class, after a backslash, or behind the
    slash that closes. -/
inductive BodyState where
  | within (inClass : Bool)
  | escaped (inClass : Bool)
  | closed
  deriving DecidableEq

namespace BodyState

/-- The state after one more character. -/
def next : BodyState → Char → BodyState
  | closed, _ => closed
  | escaped k, _ => within k
  | within k, c =>
    if c = '\\' then escaped k
    else if k then within (c != ']')
    else if c = '/' then closed
    else within (c == '[')

/-- The state after more characters. -/
def after (s : BodyState) (cs : List Char) : BodyState := cs.foldl next s

theorem after_cons (s : BodyState) (c : Char) (cs : List Char) :
    s.after (c :: cs) = (s.next c).after cs := rfl

theorem after_append (s : BodyState) (cs ds : List Char) :
    s.after (cs ++ ds) = (s.after cs).after ds := List.foldl_append

theorem closed_after (cs : List Char) : closed.after cs = closed := by
  induction cs with
  | nil => rfl
  | cons c cs ih => exact ih

theorem ne_closed_of_after {s : BodyState} {cs ds : List Char} (h : s.after (cs ++ ds) ≠ closed) :
    s.after cs ≠ closed := by
  intro hc
  rw [after_append, hc, closed_after] at h
  exact h rfl

end BodyState

/-- The first line of a text, without its end. -/
def firstLine (cs : List Char) : List Char := cs.takeWhile (!isLineEnd ·)

theorem firstLine_cons (c : Char) (cs : List Char) :
    firstLine (c :: cs) = if isLineEnd c then [] else c :: firstLine cs := by
  by_cases hc : isLineEnd c <;> simp [firstLine, hc]

namespace BodyState

theorem after_firstLine_cons (s : BodyState) {c : Char} (hc : isLineEnd c = false) (cs : List Char) :
    s.after (firstLine (c :: cs)) = (s.next c).after (firstLine cs) := by
  rw [firstLine_cons, hc]
  rfl

theorem after_firstLine_lineEnd (s : BodyState) {c : Char} (hc : isLineEnd c = true) (cs : List Char) :
    s.after (firstLine (c :: cs)) = s := by
  rw [firstLine_cons, hc]
  rfl

theorem next_inClass {c : Char} (hc : c ≠ '\\') : (within true).next c = within (c != ']') := by
  simp [next, hc]

theorem next_slash {inClass : Bool} (hk : inClass = false) : (within inClass).next '/' = closed := by
  rw [hk]
  rfl

theorem next_other {inClass : Bool} {c : Char} (hc : c ≠ '\\') (hk : inClass = false) (hs : c ≠ '/') :
    (within inClass).next c = within (c == '[') := by
  simp [next, hc, hk, hs]

end BodyState

/-- A body that is not closed in its line is no body if another line follows, and else the rest of the
    text. -/
theorem splitBody?_of_open {inClass : Bool} {cs : List Char}
    (h : (BodyState.within inClass).after (firstLine cs) ≠ .closed) :
    splitBody? inClass cs = if cs.any isLineEnd then none else some (cs, []) := by
  have hback : isLineEnd '\\' = false := by decide
  fun_induction splitBody? inClass cs with
  | case1 => rfl
  | case2 => rfl
  | case3 inClass c cs hc => simp [hc]
  | case4 inClass c cs hc ih =>
    rw [Bool.not_eq_true] at hc
    rw [BodyState.after_firstLine_cons _ hback, BodyState.after_firstLine_cons _ hc] at h
    rw [ih h, List.any_cons, List.any_cons, hback, hc]
    cases cs.any isLineEnd <;> rfl
  | case5 inClass c cs h1 h2 hc => simp [hc]
  | case6 c cs h1 h2 hc ih =>
    rw [Bool.not_eq_true] at hc
    rw [BodyState.after_firstLine_cons _ hc, BodyState.next_inClass (ne_backslash h1 h2)] at h
    rw [ih h, List.any_cons, hc]
    cases cs.any isLineEnd <;> rfl
  | case7 inClass c cs h1 h2 hc hk hs =>
    rw [Bool.not_eq_true] at hc hk
    rw [BodyState.after_firstLine_cons _ hc, eq_of_beq hs, BodyState.next_slash hk,
      BodyState.closed_after] at h
    exact absurd rfl h
  | case8 inClass c cs h1 h2 hc hk hs ih =>
    rw [Bool.not_eq_true] at hc hk
    rw [BodyState.after_firstLine_cons _ hc,
      BodyState.next_other (ne_backslash h1 h2) hk (by simpa using hs)] at h
    rw [ih h, List.any_cons, hc]
    cases cs.any isLineEnd <;> rfl

/-- A body that is closed in its line is one. -/
theorem splitBody?_ne_none {inClass : Bool} {cs : List Char}
    (h : (BodyState.within inClass).after (firstLine cs) = .closed) :
    splitBody? inClass cs ≠ none := by
  have hback : isLineEnd '\\' = false := by decide
  fun_induction splitBody? inClass cs with
  | case1 => simp
  | case2 => simp
  | case3 inClass c cs hc =>
    rw [BodyState.after_firstLine_cons _ hback, BodyState.after_firstLine_lineEnd _ hc] at h
    cases h
  | case4 inClass c cs hc ih =>
    rw [Bool.not_eq_true] at hc
    rw [BodyState.after_firstLine_cons _ hback, BodyState.after_firstLine_cons _ hc] at h
    simpa using ih h
  | case5 inClass c cs h1 h2 hc =>
    rw [BodyState.after_firstLine_lineEnd _ hc] at h
    cases h
  | case6 c cs h1 h2 hc ih =>
    rw [Bool.not_eq_true] at hc
    rw [BodyState.after_firstLine_cons _ hc, BodyState.next_inClass (ne_backslash h1 h2)] at h
    simpa using ih h
  | case7 => simp
  | case8 inClass c cs h1 h2 hc hk hs ih =>
    rw [Bool.not_eq_true] at hc hk
    rw [BodyState.after_firstLine_cons _ hc,
      BodyState.next_other (ne_backslash h1 h2) hk (by simpa using hs)] at h
    simpa using ih h

end Respace.Script
