import Respace.Proofs.Script.Draft
import Respace.Proofs.Script.Partition
import Respace.Script.Indent

/-! The indented form of a script is what its stops come to when they are laid out. A page is written
    item by item; each step ends the line in front of an item or behind it where it has to, and keeps
    the depth. The blanks in front of an item are one run, since no two segments of code are neighbours
    in a scan. -/

namespace Respace.Script

open Text

namespace Page

/-- A page with a run of blanks behind it. -/
def leave (p : Page) (run : List Char) : Page := { p with draft := p.draft.leave (Gap.ofRun run) }

/-- A page with one more item that is not blank. `next` is the character that is not blank after it. -/
def item (p : Page) (x : Item) (next : Option Char) : Page :=
  let draft := (if x.startsLine then p.draft.lineBreak else p.draft).add x.piece (x.depth p.depth)
  ⟨if x.endsLine next then draft.lineBreak else draft, x.depthAfter (x.depth p.depth)⟩

/-- A page with more items, behind the blanks `run`. -/
def items (p : Page) (run : List Char) : List Item → Page
  | [] => p.leave run
  | x :: xs =>
    if x.isBlank then p.items (run ++ x.text) xs
    else ((p.leave run).item x (firstInk? (textOf xs))).items [] xs

theorem items_blank {x : Item} (hx : x.isBlank = true) (p : Page) (run : List Char) (xs : List Item) :
    p.items run (x :: xs) = p.items (run ++ x.text) xs := by
  rw [items, if_pos hx]

theorem items_ink {x : Item} (hx : x.isBlank = false) (p : Page) (run : List Char) (xs : List Item) :
    p.items run (x :: xs) = ((p.leave run).item x (firstInk? (textOf xs))).items [] xs := by
  rw [items, hx]
  rfl

/-! ### Segments as items -/

theorem leave_nil (p : Page) : p.leave [] = p := rfl

theorem pending_eq (p : Page) (run : List Char) : p.pending run = p.leave run.reverse := by
  cases run with
  | nil => rfl
  | cons c run =>
    rw [pending, if_neg (by simp), blanks, leave, Gap.ofRun, if_neg (by simp)]
    generalize lineBreaks (c :: run).reverse = n
    rcases n with _ | _ | n <;> rfl

theorem char_eq (p : Page) (c : Char) (next : Option Char) :
    p.char c (if c == ',' then next else none) = p.item (.char c) next := by
  by_cases h1 : c = '\x7b'
  · subst h1
    rfl
  by_cases h2 : c = '\x7d'
  · subst h2
    rfl
  by_cases h3 : c = ';'
  · subst h3
    rfl
  by_cases h4 : c = ','
  · subst h4
    cases hn : next.any closeBrackets.contains <;>
      simp [char, item, add, lineBreak, Item.startsLine, Item.endsLine, Item.depth, Item.depthAfter,
        Item.piece, hn]
  · simp [char, item, add, Item.startsLine, Item.endsLine, Item.depth, Item.depthAfter, Item.piece,
      h1, h2, h3, h4]

theorem firstInk?_append (cs ds : List Char) :
    firstInk? (cs ++ ds) = (firstInk? cs <|> firstInk? ds) := by
  rw [firstInk?, List.find?_append, Option.or_eq_orElse]
  rfl

theorem firstInkOf?_eq (segments : List Segment) :
    firstInkOf? segments = firstInk? (textOf (itemsOf segments)) := by
  induction segments with
  | nil => rfl
  | cons s segments ih =>
    rw [itemsOf_cons, textOf_append, textOf_items, firstInk?_append, ← ih]
    cases h : firstInk? s.text <;> simp [firstInkOf?, h]

/-- A run of blanks is not split between a segment of code and what follows it. -/
theorem leave_items {after : List Segment} (h : ∀ s ∈ after.head?, s.kind ≠ .code) (p : Page)
    (run : List Char) : (p.leave run).items [] (itemsOf after) = p.items run (itemsOf after) := by
  cases after with
  | nil => rfl
  | cons s after =>
    rw [itemsOf_cons, Segment.items, if_neg (h s rfl), List.singleton_append, items_ink rfl,
      items_ink rfl, leave_nil]

theorem code_eq {after : List Segment} (h : ∀ s ∈ after.head?, s.kind ≠ .code) (p : Page)
    (run cs : List Char) :
    (p.code run after cs).items [] (itemsOf after) =
      p.items run.reverse (cs.map .char ++ itemsOf after) := by
  induction cs generalizing p run with
  | nil => rw [code, pending_eq, leave_items h, List.map_nil, List.nil_append]
  | cons c cs ih =>
    rw [code, List.map_cons, List.cons_append]
    cases hc : (Item.char c).isBlank with
    | true =>
      have hb : isBlank c = true := hc
      rw [if_pos hb, ih, items_blank hc, List.reverse_cons]
      rfl
    | false =>
      have hb : ¬ isBlank c = true := Bool.not_eq_true _ ▸ hc
      have hn : nextInk? cs after = firstInk? (textOf (cs.map .char ++ itemsOf after)) := by
        rw [nextInk?, firstInkOf?_eq, textOf_append, textOf_map_char, firstInk?_append]
      rw [if_neg hb, ih, items_ink hc, hn, char_eq, pending_eq]
      rfl

/-- A page with segments is one with their items, when no two segments of code are neighbours. -/
theorem segments_eq {segments : List Segment}
    (h : segments.IsChain fun a b => a.kind = .code → b.kind ≠ .code) (p : Page) :
    p.segments segments = p.items [] (itemsOf segments) := by
  induction segments generalizing p with
  | nil => rfl
  | cons s segments ih =>
    rw [List.isChain_cons] at h
    rw [Page.segments, ih h.2, itemsOf_cons]
    by_cases hs : s.kind = .code
    · rw [segment, hs, Segment.items, if_pos hs]
      exact code_eq (fun t ht => h.1 t ht hs) p [] s.text
    · rw [Segment.items, if_neg hs, List.singleton_append, items_ink rfl, leave_nil]
      congr 1
      obtain ⟨kind, text⟩ := s
      cases kind <;> first | rfl | exact absurd rfl hs

end Page

/-! ### Writing an item -/

namespace Page

/-- A page between two items: its draft stands, and the gap that it has noted is the one behind an item
    that ends its line when `left`, or there is no item yet. -/
structure Stands (left : Option Bool) (p : Page) : Prop where
  draft : p.draft.Stands
  gap : p.draft.gap? = left.map fun ended => Gap.nothing.widened ended
  depth : left = none → p.depth = 0

theorem stands_empty : empty.Stands none := by
  refine ⟨⟨⟨nofun, nofun⟩, nofun, nofun⟩, rfl, fun _ => rfl⟩

variable {left : Option Bool} {p : Page} {run rest : List Char} {x : Item} {xs : List Item}

/-- The draft of a page in front of an item. -/
def draftBefore (p : Page) (run : List Char) (x : Item) : Draft :=
  if x.startsLine then (p.leave run).draft.lineBreak else (p.leave run).draft

theorem Stands.draftBefore (h : p.Stands left) (run : List Char) (x : Item) :
    (p.draftBefore run x).Stands ∧
      (p.draftBefore run x).gap? = left.map fun _ => gapBefore left run x := by
  have hs := h.draft.leave (Gap.ofRun run)
  have hg := Draft.gap?_leave h.gap (Gap.ofRun run)
  rw [Page.draftBefore]
  cases hx : x.startsLine with
  | false =>
    refine ⟨hs, hg.trans ?_⟩
    cases left <;> simp [gapBefore, hx]
  | true =>
    refine ⟨hs.lineBreak, ?_⟩
    rw [if_pos rfl, Draft.gap?_lineBreak, leave, hg]
    cases left <;> simp [gapBefore, hx, Gap.widened_widened]

theorem render_draftBefore (p : Page) (run : List Char) (x : Item) (size : Nat) :
    (p.draftBefore run x).render size = p.draft.render size := by
  rw [draftBefore]
  split
  · rw [Draft.render_eq, Draft.lineBreak_lineBreak, ← Draft.render_eq, leave, Draft.render_leave]
  · rw [leave, Draft.render_leave]

theorem Stands.item (h : p.Stands left) (hx : x.Fits rest) (hb : x.isBlank = false)
    (run : List Char) (next : Option Char) :
    ((p.leave run).item x next).Stands (some (x.endsLine next)) := by
  obtain ⟨hs, -⟩ := h.draftBefore run x
  refine ⟨Draft.stands_add hs hx hb _ next, ?_, nofun⟩
  simp only [Page.item]
  split
  · rename_i he
    rw [Draft.gap?_lineBreak, Draft.gap?_add, he]
    rfl
  · rename_i he
    rw [Draft.gap?_add, Bool.eq_false_iff.2 he]
    rfl

theorem Stands.render_item (h : p.Stands left) (hx : x.Fits rest) (hb : x.isBlank = false)
    (run : List Char) (next : Option Char) (size : Nat) :
    ((p.leave run).item x next).draft.render size =
      p.draft.render size ++
        ((gapBefore left run x).text (size * x.depth p.depth) ++ x.trimmed.text) := by
  obtain ⟨hs, hg⟩ := h.draftBefore run x
  have hd : (p.draftBefore run x).gap? = none → x.depth p.depth = 0 := by
    intro hn
    rw [hg, Option.map_eq_none_iff] at hn
    rw [h.depth hn, Item.depth]
    split <;> rfl
  have hadd := Draft.render_add hs hx hb hd size
  rw [render_draftBefore, hg] at hadd
  have hitem : ((p.leave run).item x next).draft.render size =
      ((p.draftBefore run x).add x.piece (x.depth p.depth)).render size := by
    simp only [Page.item]
    split
    · rw [Draft.render_eq, Draft.lineBreak_lineBreak]
      rfl
    · rfl
  rw [hitem, hadd, List.append_assoc]
  cases left <;> rfl

/-- A page with more items is written as they are laid out. -/
theorem Stands.render_items (h : p.Stands left) (hxs : AllFit xs) (run : List Char) (size : Nat) :
    (p.items run xs).draft.render size =
      p.draft.render size ++ textOf (laidOut size (stops left run p.depth xs)) := by
  induction xs generalizing p left run with
  | nil =>
    rw [items, leave, Draft.render_leave]
    exact (List.append_nil _).symm
  | cons x xs ih =>
    cases hx : x.isBlank with
    | true => rw [items_blank hx, stops_blank hx, ih h hxs.2]
    | false =>
      rw [items_ink hx, stops_ink hx, ih (h.item hxs.1 hx run _) hxs.2, h.render_item hxs.1 hx,
        textOf_laidOut_cons, List.append_assoc, List.append_assoc]
      rfl

end Page

/-- The indented form of segments is their stops, laid out, when no two segments of code are neighbours
    and their items fit. -/
theorem indented_of_allFit {segments : List Segment}
    (hc : segments.IsChain fun a b => a.kind = .code → b.kind ≠ .code) (hf : AllFit (itemsOf segments))
    (size : Nat) :
    indented size segments = textOf (laidOut size (stops none [] 0 (itemsOf segments))) := by
  have hd : draftOf segments = (Page.empty.items [] (itemsOf segments)).draft :=
    congrArg Page.draft (Page.segments_eq hc _)
  rw [indented, hd, Page.stands_empty.render_items hf]
  rfl

/-- The indented form of a script is its stops, laid out. -/
theorem indented_scan (size : Nat) (text : List Char) :
    indented size (scan text) = textOf (laidOut size (stops none [] 0 (itemsOf (scan text)))) :=
  indented_of_allFit (apart_scan text) (allFit_scan text) size

end Respace.Script
