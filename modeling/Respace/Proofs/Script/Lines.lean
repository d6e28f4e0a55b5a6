import Mathlib.Data.List.Forall2
import Mathlib.Data.List.ReduceOption
import Respace.Proofs.Script.Page

/-! The lines of the indented form. A page takes up the items of a script one by one, blanks of code apart,
    so that its lines cut the script into groups of items: each line is made of one group, in its order,
    with nothing or one space between two items. What ends a line is the last item of its group, what
    starts one is the first, and the depth of a line is that of its first item.

    The invariant is about closed lines and the open one together: a line break moves the open line to the
    closed ones and changes nothing else, and so do blanks. Only a new item does, at the end of the open
    line or as a line of its own. -/

namespace Respace.Script

open Text

/-! ### Items in their places -/

/-- An item of a script in its place, between the items before it and those after it. -/
structure Spot where
  before : List Item
  item : Item
  after : List Item

/-- The items of a run that are no blanks of code, in their places; the items `before` stand in front of
    the run. -/
def spotsFrom (before : List Item) : List Item → List Spot
  | [] => []
  | x :: xs =>
    if x.isBlank then spotsFrom (before ++ [x]) xs
    else ⟨before, x, xs⟩ :: spotsFrom (before ++ [x]) xs

/-- The items of a script that are no blanks of code, in their places. -/
def spotsOf (text : List Char) : List Spot := spotsFrom [] (itemsOf (scan text))

/-- The depth behind an item: an opening brace of code adds a level, and a closing one takes one away if
    there is one. -/
def Item.braceStep (depth : Nat) : Item → Nat
  | char '\x7b' => depth + 1
  | char '\x7d' => depth - 1
  | _ => depth

/-- The depth that items come to. -/
def braceDepth (xs : List Item) : Nat := xs.foldl Item.braceStep 0

theorem braceDepth_concat (xs : List Item) (x : Item) :
    braceDepth (xs ++ [x]) = x.braceStep (braceDepth xs) := by
  rw [braceDepth, List.foldl_append]
  rfl

theorem Item.braceStep_eq (depth : Nat) (x : Item) :
    x.braceStep depth = x.depthAfter (x.depth depth) := by
  unfold braceStep
  split
  · rfl
  · rfl
  · rename_i h1 h2
    rw [Item.depthAfter, if_neg h1, Item.depth, if_neg h2]

theorem Item.braceStep_of_isBlank {x : Item} (hx : x.isBlank = true) (depth : Nat) :
    x.braceStep depth = depth := by
  unfold braceStep
  split
  · exact absurd hx (by decide)
  · exact absurd hx (by decide)
  · rfl

namespace Spot

/-- The depth of a line that starts with an item: a closing brace counts itself. -/
def depth (x : Spot) : Nat :=
  if x.item = .char '\x7d' then braceDepth (x.before ++ [x.item]) else braceDepth x.before

/-- Whether the line of an item ends behind it. -/
def endsLine (x : Spot) : Bool := x.item.endsLine (firstInk? (textOf x.after))

/-- Whether an item is written: it is no blank of code, and it ends where it does before what follows. -/
structure Stands (x : Spot) : Prop where
  fits : x.item.Fits (textOf x.after)
  ink : x.item.isBlank = false

/-- Whether an item may stand right behind another one in a line. -/
def MayFollow (x y : Spot) : Prop := x.endsLine = false ∧ y.item.startsLine = false

theorem depth_eq (x : Spot) : x.depth = x.item.depth (braceDepth x.before) := by
  rw [depth, Item.depth]
  split
  · rename_i hx
    rw [braceDepth_concat, hx]
    rfl
  · rfl

end Spot

/-! ### Items in a row -/

/-- Texts in a row, with nothing or one space between two of them. -/
inductive Spaced : List (List Char) → List Char → Prop
  | single (t : List Char) : Spaced [t] t
  | joined {ts cs} (h : Spaced ts cs) (t : List Char) : Spaced (ts ++ [t]) (cs ++ t)
  | apart {ts cs} (h : Spaced ts cs) (t : List Char) : Spaced (ts ++ [t]) (cs ++ ' ' :: t)

namespace Spaced

variable {ts : List (List Char)} {t cs : List Char}

theorem ne_nil (h : Spaced ts cs) : ts ≠ [] := by
  cases h <;> simp

theorem head? (h : Spaced ts cs) (ht : ts.head? = some t) {c : Char} (hc : t.head? = some c) :
    cs.head? = some c := by
  induction h with
  | single =>
    obtain rfl := Option.some.inj ht
    exact hc
  | joined h _ ih | apart h _ ih =>
    rw [List.head?_append_of_ne_nil _ h.ne_nil] at ht
    rw [List.head?_append, ih ht]
    rfl

theorem getLast? (h : Spaced ts cs) (ht : ts.getLast? = some t) (hn : t ≠ []) :
    cs.getLast? = t.getLast? := by
  cases h with
  | single =>
    obtain rfl := Option.some.inj ht
    rfl
  | joined h =>
    obtain rfl := Option.some.inj ((List.getLast?_concat).symm.trans ht)
    exact List.getLast?_append_of_ne_nil _ hn
  | apart h u =>
    obtain rfl := Option.some.inj ((List.getLast?_concat).symm.trans ht)
    rw [List.getLast?_append_of_ne_nil _ (by simp), List.getLast?_cons_of_ne_nil hn]

end Spaced

/-! ### Lines and groups -/

/-- Whether a line is made of a group of items. -/
structure Line.IsMadeOf (l : Line) (group : List Spot) : Prop where
  stands : ∀ x ∈ group, x.Stands
  written : Spaced (group.map (·.item.trimmed.text)) l.content
  depth : ∀ x ∈ group.head?, l.depth = x.depth
  chain : group.IsChain Spot.MayFollow

namespace Line.IsMadeOf

variable {l : Line} {group : List Spot} {x : Spot}

theorem single (hx : x.Stands) : IsMadeOf ⟨x.depth, [some x.item.piece]⟩ [x] where
  stands := List.forall_mem_singleton.2 hx
  written := by
    rw [Line.content_piece hx.fits hx.ink]
    exact .single _
  depth := by
    rintro y ⟨⟩
    rfl
  chain := .singleton x

/-- A line that is written as it is may go on with an item. -/
theorem concat (h : l.closed.IsMadeOf group) (hl : l.closed.content = l.closed.written) (hx : x.Stands)
    (hlast : ∀ y ∈ group.getLast?, y.MayFollow x) :
    IsMadeOf { l with pieces := some x.item.piece :: l.pieces } (group ++ [x]) where
  stands := List.forall_mem_append.2 ⟨h.stands, List.forall_mem_singleton.2 hx⟩
  written := by
    obtain ⟨depth, pieces⟩ := l
    have hw := h.written
    rw [hl] at hw
    rw [List.map_append, Line.content_piece hx.fits hx.ink]
    rcases pieces with _ | ⟨_ | s, pieces⟩
    · exact .joined hw _
    · rw [Line.written_none, List.append_assoc]
      exact .apart hw _
    · exact .joined hw _
  depth := by
    have hne : group ≠ [] := by
      rintro rfl
      exact h.written.ne_nil rfl
    have hdepth : l.closed.depth = l.depth := by
      obtain ⟨depth, pieces⟩ := l
      rcases pieces with _ | ⟨_ | s, pieces⟩ <;> rfl
    rw [List.head?_append_of_ne_nil _ hne]
    exact fun y hy => hdepth ▸ h.depth y hy
  chain := by
    refine List.isChain_append.2 ⟨h.chain, .singleton x, fun y hy z hz => ?_⟩
    obtain rfl := Option.some.inj hz
    exact hlast y hy

end Line.IsMadeOf

namespace Draft

/-- The lines of a draft, latest first, with the open one as it is when it is closed. -/
def lines (d : Draft) : List Line := d.lineBreak.rows.reduceOption

/-- Whether the lines of a draft are made of groups of items, latest first. The last item of an open line
    does not end it. -/
structure IsMadeOf (d : Draft) (groups : List (List Spot)) : Prop where
  stands : d.Stands
  lines : List.Forall₂ Line.IsMadeOf d.lines groups
  isOpen : d.current ≠ none → ∀ group ∈ groups.head?, ∀ x ∈ group.getLast?, x.endsLine = false

theorem lines_lineBreak (d : Draft) : d.lineBreak.lines = d.lines := by
  rw [lines, lineBreak_lineBreak, lines]

theorem lines_leave (d : Draft) (g : Gap) : (d.leave g).lines = d.lines := by
  cases g with
  | nothing => rfl
  | space => rw [lines, leave, lineBreak_space, lines]
  | line => exact lines_lineBreak d
  | emptyLine =>
    rw [lines, leave, blankLine]
    split
    · rw [lineBreak_lineBreak, lines]
    · rw [lineBreak, current_lineBreak, List.reduceOption_cons_of_none, lines]

namespace IsMadeOf

variable {d : Draft} {groups : List (List Spot)} {x : Spot}

theorem lineBreak (h : d.IsMadeOf groups) : d.lineBreak.IsMadeOf groups where
  stands := h.stands.lineBreak
  lines := (lines_lineBreak d).symm ▸ h.lines
  isOpen hc := absurd (current_lineBreak d) hc

theorem leave (h : d.IsMadeOf groups) (g : Gap) : (d.leave g).IsMadeOf groups where
  stands := h.stands.leave g
  lines := lines_leave d g ▸ h.lines
  isOpen hc := by
    cases g with
    | nothing => exact h.isOpen hc
    | space =>
      refine h.isOpen fun hn => hc ?_
      rw [Draft.leave, space, hn]
      rfl
    | line => exact absurd (current_lineBreak d) hc
    | emptyLine =>
      refine absurd ?_ hc
      rw [Draft.leave, blankLine]
      split <;> exact current_lineBreak d

/-- An item goes on with the open line, or it starts a line of its own. -/
theorem add (h : d.IsMadeOf groups) (hx : x.Stands)
    (hs : x.item.startsLine = true → d.current = none) :
    ∃ groups', List.Forall₂ Line.IsMadeOf (d.add x.item.piece x.depth).lines groups' ∧
      groups'.reverse.flatten = groups.reverse.flatten ++ [x] ∧
      ∀ group ∈ groups'.head?, group.getLast? = some x := by
  have hlines := h.lines
  obtain ⟨rows, current⟩ := d
  cases current with
  | none =>
    refine ⟨[x] :: groups, .cons (.single hx) hlines, by simp, ?_⟩
    rintro group ⟨⟩
    rfl
  | some l =>
    have hfirst : x.item.startsLine = false := by
      by_contra hf
      exact absurd (hs (Bool.not_eq_false _ ▸ hf)) (by simp)
    obtain ⟨group, groups, hl, hrest, rfl⟩ := List.forall₂_cons_left_iff.1 hlines
    refine ⟨(group ++ [x]) :: groups, .cons ?_ hrest, by simp, ?_⟩
    · refine hl.concat (h.stands.firm l rfl) hx fun y hy => ⟨?_, hfirst⟩
      exact h.isOpen nofun group rfl y hy
    · rintro _ ⟨⟩
      exact List.getLast?_concat

/-- An item ends its line where it has to. -/
theorem item (h : d.IsMadeOf groups) (hx : x.Stands)
    (hs : x.item.startsLine = true → d.current = none) :
    ∃ groups', (if x.endsLine then (d.add x.item.piece x.depth).lineBreak
        else d.add x.item.piece x.depth).IsMadeOf groups' ∧
      groups'.reverse.flatten = groups.reverse.flatten ++ [x] := by
  obtain ⟨groups', hlines, hflat, hlast⟩ := h.add hx hs
  have hstands := stands_add h.stands hx.fits hx.ink x.depth (firstInk? (textOf x.after))
  refine ⟨groups', ?_, hflat⟩
  rw [← Spot.endsLine] at hstands
  cases he : x.endsLine with
  | true =>
    rw [he, if_pos rfl] at hstands
    rw [← lines_lineBreak] at hlines
    exact ⟨hstands, hlines, fun hc => absurd (current_lineBreak _) hc⟩
  | false =>
    rw [he, if_neg nofun] at hstands
    refine ⟨hstands, hlines, fun _ group hg y hy => ?_⟩
    obtain rfl := Option.some.inj ((hlast group hg).symm.trans hy)
    exact he

end IsMadeOf

end Draft

/-! ### Lines of a script -/

/-- A page with more items is made of the groups that it was made of, and of groups of those items. -/
theorem exists_groups_items {p : Page} {groups : List (List Spot)} (h : p.draft.IsMadeOf groups)
    {before xs : List Item} (hd : p.depth = braceDepth before) (hxs : AllFit xs) (run : List Char) :
    ∃ groups', (p.items run xs).draft.IsMadeOf groups' ∧
      groups'.reverse.flatten = groups.reverse.flatten ++ spotsFrom before xs := by
  induction xs generalizing p groups before run with
  | nil => exact ⟨groups, h.leave _, (List.append_nil _).symm⟩
  | cons x xs ih =>
    cases hx : x.isBlank with
    | true =>
      rw [Page.items_blank hx, spotsFrom, if_pos hx]
      refine ih h ?_ hxs.2 _
      rw [braceDepth_concat, Item.braceStep_of_isBlank hx, hd]
    | false =>
      let spot : Spot := ⟨before, x, xs⟩
      have hspot : spot.Stands := ⟨hxs.1, hx⟩
      have hbefore : (p.draftBefore run x).IsMadeOf groups := by
        rw [Page.draftBefore]
        split
        · exact (h.leave _).lineBreak
        · exact h.leave _
      have hstarts : x.startsLine = true → (p.draftBefore run x).current = none := by
        intro hs
        rw [Page.draftBefore, if_pos hs]
        exact Draft.current_lineBreak _
      obtain ⟨groups₁, h₁, hflat₁⟩ := hbefore.item hspot hstarts
      rw [Spot.depth_eq, ← hd] at h₁
      have hdepth : ((p.leave run).item x (firstInk? (textOf xs))).depth =
          braceDepth (before ++ [x]) := by
        rw [braceDepth_concat, Item.braceStep_eq, ← hd]
        rfl
      obtain ⟨groups₂, h₂, hflat₂⟩ := ih (p := (p.leave run).item x _) h₁ hdepth hxs.2 []
      refine ⟨groups₂, ?_, ?_⟩
      · rw [Page.items_ink hx]
        exact h₂
      · rw [hflat₂, hflat₁, List.append_assoc, spotsFrom, if_neg (by simp [hx])]
        rfl

/-- The lines of a script are made of groups of its items, which are all of them in their order. -/
theorem exists_groups (text : List Char) :
    ∃ groups, groups.flatten = spotsOf text ∧
      List.Forall₂ Line.IsMadeOf (draftOf (scan text)).lines.reverse groups ∧
      (draftOf (scan text)).Stands := by
  have hempty : Page.empty.draft.IsMadeOf [] := ⟨Page.stands_empty.draft, .nil, nofun⟩
  have hdepth : Page.empty.depth = braceDepth [] := rfl
  obtain ⟨groups, h, hflat⟩ := exists_groups_items hempty hdepth (allFit_scan text) []
  have hd : draftOf (scan text) = (Page.empty.items [] (itemsOf (scan text))).draft :=
    congrArg Page.draft (Page.segments_eq (apart_scan text) _)
  rw [← hd] at h
  exact ⟨groups.reverse, hflat, List.forall₂_reverse_iff.2 h.lines, h.stands⟩

end Respace.Script
