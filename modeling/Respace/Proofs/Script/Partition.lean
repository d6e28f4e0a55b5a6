import Mathlib.Data.List.Chain
import Respace.Proofs.Script.Item

/-! The segments of a script cut it into parts. Each step of a scan takes at least one character off the
    text, as a lexeme or as one more character of code, so that it comes to the end of the text; the code
    that it holds back is the part in front of the next lexeme. Segments that cut a text are settled by
    their items: code goes as far as the characters do. -/

namespace Respace.Script

/-- Whether segments cut a text into parts: together they are the text, none is empty, and code is never
    next to code. -/
structure IsPartition (text : List Char) (segments : List Segment) : Prop where
  covers : sourceText segments = text
  filled : ∀ s ∈ segments, s.text ≠ []
  apart : segments.IsChain fun a b => a.kind = .code → b.kind ≠ .code

namespace IsPartition

variable {text code : List Char} {segments : List Segment} {s : Segment}

theorem nil : IsPartition [] [] := ⟨rfl, nofun, .nil⟩

/-- A part that is not code may stand in front of all others. -/
theorem cons (h : IsPartition text segments) (hs : s.text ≠ []) (hk : s.kind ≠ .code) :
    IsPartition (s.text ++ text) (s :: segments) := by
  refine ⟨?_, ?_, ?_⟩
  · rw [← h.covers]
    rfl
  · exact List.forall_mem_cons.2 ⟨hs, h.filled⟩
  · rw [List.isChain_cons]
    exact ⟨fun t _ hc => absurd hc hk, h.apart⟩

/-- Code may stand in front of what is not code. -/
theorem withCode (h : IsPartition text segments) (hk : ∀ s ∈ segments.head?, s.kind ≠ .code) :
    IsPartition (code.reverse ++ text) (withCode code segments) := by
  rw [Script.withCode]
  cases code with
  | nil => exact h
  | cons c code =>
    refine ⟨?_, ?_, ?_⟩
    · rw [← h.covers]
      rfl
    · exact List.forall_mem_cons.2 ⟨by simp, h.filled⟩
    · exact List.isChain_cons.2 ⟨fun t ht _ => hk t ht, h.apart⟩

end IsPartition

/-- The rest of a scan cuts the code held back and the rest of the text. -/
theorem isPartition_scanFrom (seen : List Char) (last : Lookbehind) (code cs : List Char) :
    IsPartition (code.reverse ++ cs) (scanFrom seen last code cs) := by
  fun_induction scanFrom seen last code cs with
  | case1 seen last code cs s rest h hlt ih =>
    obtain ⟨rfl, hs⟩ := lexeme?_spec h
    have hk : s.kind ≠ .code := by
      intro hk
      cases (ends_of_lexeme? h).1 <;> cases hk
    refine (ih.cons hs hk).withCode ?_
    rintro t ⟨⟩
    exact hk
  | case2 seen last code h => exact IsPartition.nil.withCode (by simp)
  | case3 seen last code c rest h ih =>
    rw [List.reverse_cons, List.append_assoc] at ih
    exact ih

theorem filled_scan (text : List Char) : ∀ s ∈ scan text, s.text ≠ [] :=
  (isPartition_scanFrom [] .start [] text).filled

theorem apart_scan (text : List Char) :
    (scan text).IsChain fun a b => a.kind = .code → b.kind ≠ .code :=
  (isPartition_scanFrom [] .start [] text).apart

/-- The segments of a script cut it into parts. -/
theorem isPartition_scan (text : List Char) : IsPartition text (scan text) :=
  isPartition_scanFrom [] .start [] text

/-! ### Segments of items -/

/-- A character in front of segments, as code of their own or as more of the code that these start with. -/
def codeBefore (c : Char) : List Segment → List Segment
  | ⟨.code, text⟩ :: segments => ⟨.code, c :: text⟩ :: segments
  | segments => ⟨.code, [c]⟩ :: segments

/-- The segments that items make up. -/
def segmentsOf : List Item → List Segment
  | [] => []
  | .char c :: xs => codeBefore c (segmentsOf xs)
  | .lexeme s :: xs => s :: segmentsOf xs

theorem codeBefore_of_kind (c : Char) {segments : List Segment}
    (h : ∀ s ∈ segments.head?, s.kind ≠ .code) : codeBefore c segments = ⟨.code, [c]⟩ :: segments := by
  rcases segments with _ | ⟨⟨k, text⟩, segments⟩
  · rfl
  · cases k with
    | code => exact absurd rfl (h _ rfl)
    | string | pattern | lineComment | blockComment => rfl

theorem segmentsOf_code {c : Char} {cs : List Char} {xs : List Item}
    (h : ∀ s ∈ (segmentsOf xs).head?, s.kind ≠ .code) :
    segmentsOf ((c :: cs).map .char ++ xs) = ⟨.code, c :: cs⟩ :: segmentsOf xs := by
  induction cs generalizing c with
  | nil => exact codeBefore_of_kind c h
  | cons d cs ih =>
    change codeBefore c (segmentsOf ((d :: cs).map .char ++ xs)) = _
    rw [ih]
    rfl

/-- Segments that cut a text are those that their items make up. -/
theorem IsPartition.segmentsOf_itemsOf {text : List Char} {segments : List Segment}
    (h : IsPartition text segments) : segmentsOf (itemsOf segments) = segments := by
  obtain ⟨-, hfilled, hapart⟩ := h
  induction segments with
  | nil => rfl
  | cons s segments ih =>
    rw [List.forall_mem_cons] at hfilled
    rw [List.isChain_cons] at hapart
    have hrest := ih hfilled.2 hapart.2
    rw [itemsOf_cons, Segment.items]
    split
    · rename_i hk
      obtain ⟨c, cs, hc⟩ := List.exists_cons_of_ne_nil hfilled.1
      rw [hc, segmentsOf_code, hrest, ← hk, ← hc]
      rw [hrest]
      exact fun t ht => hapart.1 t ht hk
    · exact congrArg (s :: ·) hrest

end Respace.Script
