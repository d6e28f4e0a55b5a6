import Mathlib.Data.List.Infix
import Respace.Proofs.Script.Partition
import Respace.Proofs.Script.Sight
import Respace.Proofs.Script.Slash

/-! Each segment of a script is a word of the grammar of its kind. A lexeme ends at its first closer: a
    string at its quote, a block comment at a star and a slash, a pattern at a slash, where what is
    escaped closes nothing, nor does a slash inside a class. One that has no closer goes on to the end of
    the script, so that it is the last segment.

    The grammars are stated without the readers of lexemes. Each reader stops where its grammar does, by
    induction along the reader, and passes what its grammar has, by induction along the word. So segments
    are grammatical just when their items fit, and the scan of a text is the one way to cut it into
    grammatical segments in which each slash keeps its part. -/

namespace Respace.Script

open Text

/-! ### Grammars -/

/-- The inside of a string: pairs of a backslash and any character, and characters other than the quote
    and the backslash. -/
inductive StringBody (quote : Char) : List Char → Prop
  | nil : StringBody quote []
  | escape {cs} (c : Char) (h : StringBody quote cs) : StringBody quote ('\\' :: c :: cs)
  | char {c cs} (hq : c ≠ quote) (hb : c ≠ '\\') (h : StringBody quote cs) : StringBody quote (c :: cs)

/-- The inside of a pattern, which holds no line end. It starts inside a class or outside of one, and so
    it stops; slashes stand inside of classes only, unless they are escaped. -/
inductive PatternBody : Bool → Bool → List Char → Prop
  | nil (inClass : Bool) : PatternBody inClass inClass []
  | escape {i j c cs} (hl : isLineEnd c = false) (h : PatternBody i j cs) :
    PatternBody i j ('\\' :: c :: cs)
  | opening {j cs} (h : PatternBody true j cs) : PatternBody false j ('[' :: cs)
  | closing {j cs} (h : PatternBody false j cs) : PatternBody true j (']' :: cs)
  | outside {j c cs} (hc : c ∉ ['\\', '[', '/']) (hl : isLineEnd c = false)
    (h : PatternBody false j cs) : PatternBody false j (c :: cs)
  | inside {j c cs} (hc : c ∉ ['\\', ']']) (hl : isLineEnd c = false)
    (h : PatternBody true j cs) : PatternBody true j (c :: cs)

/-- A string that is closed by its quote. -/
def IsClosedString (quote : Char) (text : List Char) : Prop :=
  ∃ body, StringBody quote body ∧ text = quote :: (body ++ [quote])

/-- A block comment that is closed: by the first star and slash behind its opening. -/
def IsClosedBlock (text : List Char) : Prop :=
  ∃ body, ¬ ['*', '/'] <:+: body ∧ text = '/' :: '*' :: (body ++ ['*', '/'])

/-- A pattern that is closed, with its flags. -/
def IsClosedPattern (text : List Char) : Prop :=
  ∃ body flags, body ≠ [] ∧ body.head? ≠ some '*' ∧ PatternBody false false body ∧
    (∀ c ∈ flags, isWord c = true) ∧ text = '/' :: (body ++ '/' :: flags)

/-- Where a literal breaks off that is not closed: at its body's end, or at a backslash that escapes
    nothing. -/
def IsTail (tail : List Char) : Prop := tail = [] ∨ tail = ['\\']

/-- A string that goes on to the end of its script. -/
def IsOpenString (text : List Char) : Prop :=
  ∃ quote ∈ quoteChars, ∃ body tail, StringBody quote body ∧ IsTail tail ∧
    text = quote :: (body ++ tail)

/-- A block comment that goes on to the end of its script. -/
def IsOpenBlock (text : List Char) : Prop :=
  ∃ body, ¬ ['*', '/'] <:+: body ∧ text = '/' :: '*' :: body

/-- A pattern that goes on to the end of its script, maybe inside a class. -/
def IsOpenPattern (text : List Char) : Prop :=
  ∃ inClass body tail, (body ++ tail).head? ≠ some '*' ∧ PatternBody false inClass body ∧
    IsTail tail ∧ text = '/' :: (body ++ tail)

/-- Whether a segment is a word of the grammar of its kind, in front of the segments `after`. Lexemes that
    are not closed have none behind them, and no comment opens in code, up to the next character. -/
def Segment.IsWordBefore (after : List Segment) (s : Segment) : Prop := match s.kind with
  | .code =>
    (∀ c ∈ s.text, c ∉ quoteChars) ∧
      ∀ d, d = '/' ∨ d = '*' → ¬ ['/', d] <:+: s.text ++ (sourceText after).take 1
  | .string => (∃ quote ∈ quoteChars, IsClosedString quote s.text) ∨ after = [] ∧ IsOpenString s.text
  | .pattern =>
    IsClosedPattern s.text ∧ (∀ c ∈ (sourceText after).head?, isWord c = false) ∨
      after = [] ∧ IsOpenPattern s.text
  | .lineComment =>
    (∃ body, (∀ c ∈ body, isLineEnd c = false) ∧ s.text = '/' :: '/' :: body) ∧
      ∀ t ∈ after.head?, t.kind = .code ∧ ∃ c ∈ t.text.head?, isLineEnd c = true
  | .blockComment => IsClosedBlock s.text ∨ after = [] ∧ IsOpenBlock s.text

/-- Whether each of some segments is a word of the grammar of its kind, in front of those behind it. -/
def Grammatical : List Segment → Prop
  | [] => True
  | s :: after => s.IsWordBefore after ∧ Grammatical after

/-! ### Where readers stop -/

/-- Whether a reader has stopped behind a closer and the rest of a body, or at the end of the text. -/
def Stops (closed unclosed : List Char → Prop) (closer body rest : List Char) : Prop :=
  (∃ b, closed b ∧ body = b ++ closer) ∨
    rest = [] ∧ ∃ b tail, unclosed b ∧ IsTail tail ∧ body = b ++ tail

namespace Stops

variable {closed unclosed closed' unclosed' : List Char → Prop} {closer body rest : List Char}

theorem before (h : Stops closed unclosed closer body rest) (cs : List Char)
    (hc : ∀ b, closed b → closed' (cs ++ b)) (hu : ∀ b, unclosed b → unclosed' (cs ++ b)) :
    Stops closed' unclosed' closer (cs ++ body) rest := by
  rcases h with ⟨b, hb, rfl⟩ | ⟨hr, b, tail, hb, ht, rfl⟩
  · exact .inl ⟨cs ++ b, hc b hb, by rw [List.append_assoc]⟩
  · exact .inr ⟨hr, cs ++ b, tail, hu b hb, ht, by rw [List.append_assoc]⟩

end Stops

theorem stops_splitString {quote : Char} {cs body rest : List Char}
    (h : splitString quote cs = (body, rest)) :
    Stops (StringBody quote) (StringBody quote) [quote] body rest := by
  fun_induction splitString quote cs generalizing body rest with
  | case1 =>
    obtain ⟨rfl, rfl⟩ := Prod.mk.inj h
    exact .inr ⟨rfl, [], [], .nil, .inl rfl, rfl⟩
  | case2 =>
    obtain ⟨rfl, rfl⟩ := Prod.mk.inj h
    exact .inr ⟨rfl, [], ['\\'], .nil, .inr rfl, rfl⟩
  | case3 c cs ih =>
    obtain ⟨rfl, rfl⟩ := Prod.mk.inj h
    exact (ih rfl).before ['\\', c] (fun b => .escape c) fun b => .escape c
  | case4 c cs h1 h2 hq =>
    obtain ⟨rfl, rfl⟩ := Prod.mk.inj h
    exact .inl ⟨[], .nil, by rw [eq_of_beq hq]; rfl⟩
  | case5 c cs h1 h2 hq ih =>
    obtain ⟨rfl, rfl⟩ := Prod.mk.inj h
    have hc : c ≠ quote := by simpa using hq
    have hb : c ≠ '\\' := ne_backslash h1 h2
    exact (ih rfl).before [c] (fun b => .char hc hb) fun b => .char hc hb

theorem stops_splitBlock {cs body rest : List Char} (h : splitBlock cs = (body, rest)) :
    (∃ b, ¬ ['*', '/'] <:+: b ∧ body = b ++ ['*', '/']) ∨ rest = [] ∧ ¬ ['*', '/'] <:+: body := by
  fun_induction splitBlock cs generalizing body rest with
  | case1 =>
    obtain ⟨rfl, rfl⟩ := Prod.mk.inj h
    exact .inr ⟨rfl, by simp⟩
  | case2 cs =>
    obtain ⟨rfl, rfl⟩ := Prod.mk.inj h
    exact .inl ⟨[], by simp, rfl⟩
  | case3 c cs hc ih =>
    obtain ⟨rfl, rfl⟩ := Prod.mk.inj h
    have hcs := splitBlock_append cs
    -- no closer begins with `c`, since `cs` does not go on with a slash behind a star
    have hcons : ∀ b ds : List Char, b ++ ds = cs → ¬ ['*', '/'] <:+: b → ¬ ['*', '/'] <:+: c :: b := by
      intro b ds hb hn hi
      rcases List.infix_cons_iff.1 hi with hp | hi
      · obtain ⟨es, he⟩ := hp
        obtain ⟨rfl, rfl⟩ := List.cons.inj he
        exact hc (es ++ ds) rfl hb.symm
      · exact hn hi
    rcases ih rfl with ⟨b, hb, he⟩ | ⟨hr, hb⟩
    · rw [he, List.append_assoc] at hcs
      exact .inl ⟨c :: b, hcons b _ hcs hb, congrArg (c :: ·) he⟩
    · exact .inr ⟨hr, hcons _ _ hcs hb⟩

/-- A pattern stops at its first slash that is neither escaped nor inside a class. -/
theorem stops_splitBody? {inClass : Bool} {cs body rest : List Char}
    (h : splitBody? inClass cs = some (body, rest)) :
    Stops (PatternBody inClass false) (fun b => ∃ j, PatternBody inClass j b) ['/'] body rest := by
  fun_induction splitBody? inClass cs generalizing body rest with
  | case1 inClass =>
    obtain ⟨rfl, rfl⟩ := Prod.mk.inj (Option.some.inj h)
    exact .inr ⟨rfl, [], [], ⟨inClass, .nil _⟩, .inl rfl, rfl⟩
  | case2 inClass =>
    obtain ⟨rfl, rfl⟩ := Prod.mk.inj (Option.some.inj h)
    exact .inr ⟨rfl, [], ['\\'], ⟨inClass, .nil _⟩, .inr rfl, rfl⟩
  | case3 => cases h
  | case4 inClass c cs hl ih =>
    obtain ⟨b, hs, rfl⟩ := map_before_eq_some h
    have hl := Bool.not_eq_true _ ▸ hl
    exact (ih hs).before ['\\', c] (fun b => .escape hl) fun b => Exists.imp fun _ => .escape hl
  | case5 => cases h
  | case6 c cs h1 h2 hl ih =>
    obtain ⟨b, hs, rfl⟩ := map_before_eq_some h
    have hl := Bool.not_eq_true _ ▸ hl
    by_cases hc : c = ']'
    · subst hc
      exact (ih hs).before [']'] (fun b => .closing) fun b => Exists.imp fun _ => .closing
    · have hmem : c ∉ ['\\', ']'] := by simp [ne_backslash h1 h2, hc]
      have hk : (c != ']') = true := by simpa using hc
      have hrest := ih hs
      rw [hk] at hrest
      exact hrest.before [c] (fun b => .inside hmem hl) fun b => Exists.imp fun _ => .inside hmem hl
  | case7 inClass c cs h1 h2 hl hk hs =>
    obtain ⟨rfl, rfl⟩ := Prod.mk.inj (Option.some.inj h)
    obtain rfl := Bool.not_eq_true _ ▸ hk
    exact .inl ⟨[], .nil _, rfl⟩
  | case8 inClass c cs h1 h2 hl hk hs ih =>
    obtain ⟨b, hb, rfl⟩ := map_before_eq_some h
    obtain rfl := Bool.not_eq_true _ ▸ hk
    have hl := Bool.not_eq_true _ ▸ hl
    by_cases hc : c = '['
    · subst hc
      exact (ih hb).before ['['] (fun b => .opening) fun b => Exists.imp fun _ => .opening
    · have hmem : c ∉ ['\\', '[', '/'] := by
        have hs : c ≠ '/' := by simpa using hs
        simp [ne_backslash h1 h2, hc, hs]
      have hk : (c == '[') = false := by simpa using hc
      have hrest := ih hb
      rw [hk] at hrest
      exact hrest.before [c] (fun b => .outside hmem hl) fun b => Exists.imp fun _ => .outside hmem hl

/-! ### Where bodies are read to -/

/-- The body of a string is passed by its reader. -/
theorem StringBody.splitString_append {quote : Char} {body : List Char} (h : StringBody quote body)
    (cs : List Char) : splitString quote (body ++ cs) = before body (splitString quote cs) := by
  induction h with
  | nil => rfl
  | escape c h ih => rw [List.cons_append, List.cons_append, Script.splitString, ih]; rfl
  | char hc hb h ih =>
    rw [List.cons_append, splitString_cons hb, if_neg (by simpa using hc), ih]
    rfl

theorem StringBody.splitString {quote : Char} (hq : quote ≠ '\\') {body : List Char}
    (h : StringBody quote body) (rest : List Char) :
    splitString quote (body ++ quote :: rest) = (body ++ [quote], rest) := by
  rw [h.splitString_append, splitString_cons hq, if_pos (beq_self_eq_true quote)]
  rfl

/-- A text without a star and a slash is passed by the reader of block comments, unless the slash
    follows. -/
theorem splitBlock_passes {body cs : List Char} (h : ¬ ['*', '/'] <:+: body)
    (hcs : body.getLast? = some '*' → cs.head? ≠ some '/') :
    splitBlock (body ++ cs) = before body (splitBlock cs) := by
  induction body with
  | nil => rfl
  | cons c body ih =>
    have hb : ¬ ['*', '/'] <:+: body := fun hi => h (hi.trans (List.suffix_cons c body).isInfix)
    have hlast : body.getLast? = some '*' → cs.head? ≠ some '/' := by
      intro hl
      refine hcs ?_
      rw [List.getLast?_cons, hl]
      rfl
    rw [List.cons_append, splitBlock_cons, ih hb hlast]
    · rfl
    · rintro rfl
      cases body with
      | nil => exact hcs rfl
      | cons d body =>
        intro hd
        obtain rfl : d = '/' := by simpa using hd
        exact h ⟨[], body, rfl⟩

/-- The body of a pattern is passed by its reader. -/
theorem PatternBody.splitBody?_append {i j : Bool} {body : List Char} (h : PatternBody i j body)
    (cs : List Char) : splitBody? i (body ++ cs) = (splitBody? j cs).map (before body) := by
  have hmap : ∀ (ds b : List Char) (o : Option (List Char × List Char)),
      (o.map (before b)).map (before ds) = o.map (before (ds ++ b)) := by
    intro ds b o
    cases o <;> simp [before]
  have hsigns : isLineEnd '[' = false ∧ isLineEnd ']' = false := by decide
  induction h with
  | nil inClass =>
    have hid : before [] = id := rfl
    rw [List.nil_append, hid, Option.map_id]
    rfl
  | @escape i j c b hl h ih =>
    rw [List.cons_append, List.cons_append, splitBody?, if_neg (by simp [hl]), ih, hmap]
    rfl
  | @opening j b h ih =>
    rw [List.cons_append, splitBody?_cons (by decide), if_neg (by simp [hsigns]), if_neg (by decide),
      if_neg (by decide), beq_self_eq_true, ih, hmap]
    rfl
  | @closing j b h ih =>
    rw [List.cons_append, splitBody?_cons (by decide), if_neg (by simp [hsigns]), if_pos rfl,
      bne_self_eq_false, ih, hmap]
    rfl
  | @outside j c b hc hl h ih =>
    simp only [List.mem_cons, List.not_mem_nil, or_false, not_or] at hc
    rw [List.cons_append, splitBody?_cons hc.1, if_neg (by simp [hl]), if_neg (by decide),
      if_neg (by simp [hc]), beq_eq_false_iff_ne.2 hc.2.1, ih, hmap]
    rfl
  | @inside j c b hc hl h ih =>
    simp only [List.mem_cons, List.not_mem_nil, or_false, not_or] at hc
    rw [List.cons_append, splitBody?_cons hc.1, if_neg (by simp [hl]), if_pos rfl, bne_iff_ne.2 hc.2,
      ih, hmap]
    rfl

/-- The body of a pattern that starts outside of a class starts with no slash. -/
theorem PatternBody.head?_ne {j : Bool} {body : List Char} (h : PatternBody false j body) :
    body.head? ≠ some '/' := by
  cases h with
  | nil | escape | opening => simp
  | outside hc =>
    rintro he
    exact hc (by simp [Option.some.inj he])

theorem PatternBody.splitPattern? {body flags rest : List Char} (h : PatternBody false false body)
    (hf : ∀ c ∈ flags, isWord c = true) (hr : ∀ c ∈ rest.head?, isWord c = false) :
    splitPattern? (body ++ '/' :: flags ++ rest) = some (body ++ '/' :: flags, rest) := by
  have hslash : splitBody? false ('/' :: (flags ++ rest)) = some (['/'], flags ++ rest) := rfl
  rw [List.append_assoc, List.cons_append, Script.splitPattern?, h.splitBody?_append, hslash]
  simp [before, takeWhile_of_boundary hf hr, dropWhile_of_boundary hf hr]

/-- A pattern that is not closed is read up to the end. -/
theorem PatternBody.splitPattern?_tail {j : Bool} {body tail : List Char} (h : PatternBody false j body)
    (ht : IsTail tail) : Script.splitPattern? (body ++ tail) = some (body ++ tail, []) := by
  have htail : splitBody? j tail = some (tail, []) := by
    rcases ht with rfl | rfl <;> rfl
  rw [Script.splitPattern?, h.splitBody?_append, htail]
  simp [before]

/-! ### Segments -/

theorem sourceText_cons (s : Segment) (segments : List Segment) :
    sourceText (s :: segments) = s.text ++ sourceText segments := rfl

section

variable {s : Segment} {after segments : List Segment}

theorem eq_nil_of_sourceText (hn : ∀ t ∈ after, t.text ≠ []) (h : sourceText after = []) :
    after = [] := by
  cases after with
  | nil => rfl
  | cons t after => exact absurd (List.append_eq_nil_iff.1 h).1 (hn t (List.mem_cons_self ..))

/-- A line end in front of segments is code. -/
theorem isLineEnd_head?_iff (hn : ∀ t ∈ after, t.text ≠ []) (hf : AllFit (itemsOf after)) :
    (∀ c ∈ (sourceText after).head?, isLineEnd c = true) ↔
      ∀ t ∈ after.head?, t.kind = .code ∧ ∃ c ∈ t.text.head?, isLineEnd c = true := by
  cases after with
  | nil => simp [sourceText]
  | cons t after =>
    obtain ⟨c, cs, hc⟩ := List.exists_cons_of_ne_nil (hn t (List.mem_cons_self ..))
    rw [sourceText_cons, hc, List.cons_append, List.head?_cons, List.head?_cons]
    simp only [Option.mem_some_iff, forall_eq', hc, List.head?_cons, exists_eq_left']
    refine (and_iff_right_of_imp fun hl => ?_).symm
    by_contra hk
    rw [itemsOf_cons, Segment.items, if_neg hk] at hf
    have hb := Item.isBlank_head?_lexeme hf.1 (c := c) (by rw [hc]; rfl)
    rw [isBlank_of_isLineEnd hl] at hb
    cases hb

/-- A lexeme that ends before some segments is a word in front of them. -/
theorem Ends.isWordBefore (h : Ends s (sourceText after)) (hn : ∀ t ∈ after, t.text ≠ [])
    (hf : AllFit (itemsOf after)) : s.IsWordBefore after := by
  have hlast : sourceText after = [] → after = [] := eq_nil_of_sourceText hn
  cases h with
  | @line body _ hs =>
    refine ⟨⟨body, fun c hc => ?_, rfl⟩, (isLineEnd_head?_iff hn hf).1 (isLineEnd_of_splitLine hs)⟩
    exact isLineEnd_of_mem_splitLine (by rw [hs]; exact hc)
  | block hs =>
    rcases stops_splitBlock hs with ⟨b, hb, rfl⟩ | ⟨hr, hb⟩
    · exact .inl ⟨b, hb, rfl⟩
    · exact .inr ⟨hlast hr, _, hb, rfl⟩
  | @string quote body _ hq hs =>
    rcases stops_splitString hs with ⟨b, hb, rfl⟩ | ⟨hr, b, tail, hb, ht, rfl⟩
    · exact .inl ⟨quote, hq, b, hb, rfl⟩
    · exact .inr ⟨hlast hr, quote, hq, b, tail, hb, ht, rfl⟩
  | @pattern body _ hh hp =>
    obtain ⟨b, r, hs, rfl, hr⟩ := splitPattern?_eq_some hp
    rcases stops_splitBody? hs with ⟨b', hb, rfl⟩ | ⟨rfl, b', tail, ⟨j, hb⟩, ht, rfl⟩
    · refine .inl ⟨⟨b', r.takeWhile isWord, ?_, ?_, hb, fun c => List.mem_takeWhile_imp, ?_⟩,
        head?_of_splitPattern? hp⟩
      · rintro rfl
        exact hh.1 rfl
      · intro he
        obtain ⟨cs, rfl⟩ := List.head?_eq_some_iff.1 he
        exact hh.2 rfl
      · simp
    · rw [List.takeWhile_nil, List.append_nil, hr] at hh
      refine .inr ⟨hlast hr, j, b', tail, ?_, hb, ht, by simp⟩
      simpa using hh.2

theorem Segment.IsWordBefore.ends (h : s.IsWordBefore after) (hk : s.kind ≠ .code)
    (hn : ∀ t ∈ after, t.text ≠ []) (hf : AllFit (itemsOf after)) : Ends s (sourceText after) := by
  obtain ⟨kind, text⟩ := s
  have hquote : '\\' ∉ quoteChars := by decide
  cases kind with
  | code => exact absurd rfl hk
  | string =>
    rcases h with ⟨quote, hq, b, hb, rfl⟩ | ⟨rfl, quote, hq, b, tail, hb, ht, rfl⟩
    · refine .string hq ?_
      rw [List.append_assoc]
      exact hb.splitString (ne_of_mem_of_not_mem hq hquote) _
    · refine .string hq ?_
      change splitString quote (b ++ tail ++ []) = _
      rw [List.append_nil, hb.splitString_append]
      rcases ht with rfl | rfl <;> rfl
  | pattern =>
    rcases h with ⟨⟨b, flags, hne, hstar, hb, hflags, rfl⟩, hr⟩ | ⟨rfl, j, b, tail, hstar, hb, ht, rfl⟩
    · refine .pattern ?_ (hb.splitPattern? hflags hr)
      obtain ⟨c, cs, rfl⟩ := List.exists_cons_of_ne_nil hne
      exact ⟨hb.head?_ne, hstar⟩
    · have hslash : (b ++ tail).head? ≠ some '/' := by
        rw [List.head?_append]
        cases hh : b.head? with
        | none => rcases ht with rfl | rfl <;> simp
        | some c =>
          rw [Option.some_or, ← hh]
          exact hb.head?_ne
      have hnil : b ++ tail ++ sourceText [] = b ++ tail := List.append_nil _
      refine .pattern ?_ ?_ <;> rw [hnil]
      · exact ⟨hslash, hstar⟩
      · exact hb.splitPattern?_tail ht
  | lineComment =>
    obtain ⟨⟨b, hb, rfl⟩, hr⟩ := h
    exact .line (splitLine_behind hb ((isLineEnd_head?_iff hn hf).2 hr))
  | blockComment =>
    rcases h with ⟨b, hb, rfl⟩ | ⟨rfl, b, hb, rfl⟩
    · refine .block ?_
      rw [List.append_assoc, splitBlock_passes hb (by simp)]
      rfl
    · refine .block ?_
      rw [splitBlock_passes hb (by simp [sourceText])]
      simp [before, splitBlock, sourceText]

/-- Code holds no quote and no opening of a comment. -/
theorem allFit_code_iff {cs : List Char} {ys : List Item} :
    AllFit (cs.map .char ++ ys) ↔
      ((∀ c ∈ cs, c ∉ quoteChars) ∧
        ∀ d, d = '/' ∨ d = '*' → ¬ ['/', d] <:+: cs ++ (textOf ys).take 1) ∧ AllFit ys := by
  induction cs with
  | nil =>
    refine (and_iff_right ⟨nofun, fun d _ hi => ?_⟩).symm
    have hlength := hi.length_le
    simp only [List.nil_append, List.length_cons, List.length_nil, List.length_take] at hlength
    omega
  | cons c cs ih =>
    have hhead : ∀ d, [d] <+: cs ++ (textOf ys).take 1 ↔ (cs ++ textOf ys).head? = some d := by
      intro d
      cases cs with
      | nil => cases textOf ys <;> simp [eq_comm]
      | cons e cs => simp [eq_comm]
    have hfits : (Item.char c).Fits (textOf (cs.map .char ++ ys)) ↔ c ∉ quoteChars ∧
        ∀ d, d = '/' ∨ d = '*' → ¬ ['/', d] <+: c :: (cs ++ (textOf ys).take 1) := by
      rw [textOf_append, textOf_map_char, Item.Fits]
      refine and_congr_right fun _ => ?_
      simp only [List.cons_prefix_cons, hhead, not_and, forall_eq_or_imp, forall_eq, eq_comm (b := c)]
      exact imp_and
    rw [List.map_cons, List.cons_append, AllFit, hfits, ih, List.forall_mem_cons]
    simp only [List.cons_append, List.infix_cons_iff (a := c), not_or, imp_and, forall_and]
    tauto

/-- Segments are grammatical just when their items fit. -/
theorem grammatical_iff (hn : ∀ t ∈ segments, t.text ≠ []) :
    Grammatical segments ↔ AllFit (itemsOf segments) := by
  induction segments with
  | nil => exact Iff.rfl
  | cons s after ih =>
    obtain ⟨-, hn⟩ := List.forall_mem_cons.1 hn
    rw [Grammatical, ih hn, itemsOf_cons, Segment.items]
    split
    · rename_i hk
      rw [allFit_code_iff, textOf_itemsOf, Segment.IsWordBefore, hk]
    · rename_i hk
      change _ ↔ Ends s (textOf (itemsOf after)) ∧ AllFit (itemsOf after)
      rw [textOf_itemsOf]
      exact and_congr_left fun hf => ⟨fun h => h.ends hk hn hf, fun h => h.isWordBefore hn hf⟩

end

/-- Each segment of a script is a word of the grammar of its kind. -/
theorem grammatical_scan (text : List Char) :
    sourceText (scan text) = text ∧ Grammatical (scan text) :=
  ⟨(isPartition_scanFrom [] .start [] text).covers,
    (grammatical_iff (filled_scan text)).2 (allFit_scan text)⟩

/-- The segments of a script are the only ones that cut it, are grammatical and have each slash keep its
    part. -/
theorem scan_eq_iff {text : List Char} {segments : List Segment} :
    scan text = segments ↔
      IsPartition text segments ∧ Grammatical segments ∧ SlashesStand [] .start (itemsOf segments) := by
  have hpartition : IsPartition text (scan text) := isPartition_scanFrom [] .start [] text
  constructor
  · rintro rfl
    exact ⟨hpartition, (grammatical_iff (filled_scan text)).2 (allFit_scan text),
      (reads_iff.1 (reads_scan text).1).2⟩
  · rintro ⟨hp, hg, hs⟩
    have hreads : Reads [] .start (itemsOf segments) :=
      reads_iff.2 ⟨(grammatical_iff hp.filled).1 hg, hs⟩
    have hitems : itemsOf (scan text) = itemsOf segments := by
      rw [← hreads.itemsOf_scan, textOf_itemsOf, hp.covers]
    rw [← hpartition.segmentsOf_itemsOf, hitems, hp.segmentsOf_itemsOf]

end Respace.Script
