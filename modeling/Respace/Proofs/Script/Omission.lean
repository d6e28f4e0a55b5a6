import Respace.Proofs.Script.Compaction

/-! The compact form leaves out and adds almost nothing: comments and the blanks of code are dropped, and
    one space may take their place between two items that are kept. All other characters stand in their
    order, so that the compact form is never longer than the script and is always written; it is handed
    out unless its literals differ from those of the script. -/

namespace Respace.Script

open Text

/-- Whether a text is what is left of items when blanks of code and comments are dropped from them: nothing
    stands in their place, or one space between two items that are kept. `kept` tells that there is an item
    in front that is kept, and `dropped` that something was dropped behind it. -/
inductive LeftOver : Bool → Bool → List Item → List Char → Prop
  | nil (kept dropped) : LeftOver kept dropped [] []
  | drop {kept dropped x xs cs} (hx : x.IsOmitted) (h : LeftOver kept true xs cs) :
    LeftOver kept dropped (x :: xs) cs
  | keep {kept dropped x xs cs} (hx : ¬ x.IsOmitted) (h : LeftOver true false xs cs) :
    LeftOver kept dropped (x :: xs) (x.text ++ cs)
  | space {x xs cs} (hx : ¬ x.IsOmitted) (h : LeftOver true false xs cs) :
    LeftOver true true (x :: xs) (' ' :: (x.text ++ cs))

theorem leftOver_compactItems {xs : List Item} (h : AllFit xs) (last : Option Token) (gap : Bool) :
    LeftOver last.isSome gap xs (textOf (compactItems last gap xs)) := by
  induction xs generalizing last gap with
  | nil => exact .nil _ _
  | cons x xs ih =>
    obtain ⟨hx, hxs⟩ := h
    cases ht : x.token? with
    | none =>
      rw [compactItems_gap ht]
      exact .drop (hx.isOmitted_iff.2 ht) (ih hxs last true)
    | some t =>
      have hkept : ¬ x.IsOmitted := by simp [hx.isOmitted_iff, ht]
      have hrest := ih hxs (some t) false
      rw [compactItems_token ht, textOf_append, textOf_cons]
      split
      · rename_i hspace
        obtain ⟨rfl, hapart⟩ := Bool.and_eq_true_iff.1 hspace
        cases last with
        | none => cases hapart
        | some last => exact .space hkept hrest
      · exact .keep hkept hrest

/-- The compact form of a script is always written. It is the script without its blanks of code and its
    comments, with one space at the most between two items that are kept, where something was dropped; so
    it is no longer than the script, and it is handed out unless the literals differ. The items are all of
    the script, in its order. -/
theorem exists_renderCompact (text : String) :
    ∃ result, renderCompact (scan text.toList) = .ok result ∧
      textOf (itemsOf (scan text.toList)) = text.toList ∧
      LeftOver false false (itemsOf (scan text.toList)) result ∧
      result.length ≤ text.toList.length ∧
      minify text =
        if literalTexts (scan result) = literalTexts (scan text.toList) then .ok (String.ofList result)
        else .error .literalsDiffer := by
  refine ⟨_, renderCompact_scan text.toList, (reads_scan _).2, ?_, length_compact_le _, ?_⟩
  · rw [← textOf_compactOf]
    exact leftOver_compactItems (allFit_scan _) none false
  · rw [minify, minifyChars_eq]
    split <;> rfl

end Respace.Script
