import Respace.Proofs.Script.Indentation

/-! Indentation moves no ink. What is laid out differs from the script in blanks alone: gaps are blanks,
    they stand for blanks of code, and a comment is only cut short where it ends in blanks. So all other
    characters of code, literals and comments are written once and in their order, whether or not the
    indented form is handed out in the end. -/

namespace Respace.Script

open Text

theorem filter_blanks {cs : List Char} (h : ∀ c ∈ cs, isBlank c = true) : cs.filter (!isBlank ·) = [] := by
  rw [List.filter_eq_nil_iff]
  intro c hc
  simp [h c hc]

theorem Item.filter_trimmed (x : Item) :
    x.trimmed.text.filter (!Text.isBlank ·) = x.text.filter (!Text.isBlank ·) := by
  obtain ⟨ds, hx, hds⟩ := x.exists_text_trimmed
  rw [hx, List.filter_append, filter_blanks hds, List.append_nil]

theorem filter_laidOut (size : Nat) (left : Option Bool) (run : List Char) (reached : Nat)
    (xs : List Item) :
    (textOf (laidOut size (stops left run reached xs))).filter (!isBlank ·) =
      (textOf xs).filter (!isBlank ·) := by
  induction xs generalizing left run reached with
  | nil => rfl
  | cons x xs ih =>
    rw [textOf_cons, List.filter_append]
    cases hx : x.isBlank with
    | true =>
      obtain ⟨c, rfl, hc⟩ := Item.exists_char_of_isBlank hx
      have hb : ∀ d ∈ (Item.char c).text, isBlank d = true := by
        intro d hd
        rwa [List.mem_singleton.1 hd]
      rw [stops_blank hx, ih, filter_blanks hb, List.nil_append]
    | false =>
      rw [stops_ink hx, textOf_laidOut_cons, List.filter_append, List.filter_append, ih,
        filter_blanks fun _ => isBlank_gap, List.nil_append, Item.filter_trimmed]

/-- The indented form of a script has the ink of the script, in the same order. -/
theorem filter_indented (size : Nat) (text : List Char) :
    (indented size (scan text)).filter (!isBlank ·) = text.filter (!isBlank ·) := by
  rw [indented_scan, filter_laidOut, (reads_scan text).2]

/-- A script is written with the ink that it has: without its blanks, what is written is the script, so
    that each brace and any other character of ink is there as often as in the script. -/
theorem exists_renderIndented_ink (text : List Char) {size : Nat} (hs : size ≤ 8) :
    ∃ result, renderIndented size (scan text) = .ok result ∧
      result.filter (!isBlank ·) = text.filter (!isBlank ·) ∧
      ∀ c, isBlank c = false → result.count c = text.count c := by
  have hink := filter_indented size text
  refine ⟨_, renderIndented_eq (le_widestSize hs) _, hink, fun c hc => ?_⟩
  have hcount : ∀ cs : List Char, (cs.filter (!isBlank ·)).count c = cs.count c := fun cs =>
    List.count_filter (p := fun d => !isBlank d) (by rw [hc]; rfl)
  rw [← hcount, hink, hcount]

theorem exists_renderIndented_ink_three :
    3 ≤ 8 ∧ ∃ result, renderIndented 3 (scan "a \x7b '\x7b ' ,b; // \x7d \n\n\n\x7d\x7d".toList) = .ok result ∧
      result.filter (!isBlank ·) = "a \x7b '\x7b ' ,b; // \x7d \n\n\n\x7d\x7d".toList.filter (!isBlank ·) ∧
      ∀ c, isBlank c = false →
        result.count c = "a \x7b '\x7b ' ,b; // \x7d \n\n\n\x7d\x7d".toList.count c :=
  ⟨by decide, exists_renderIndented_ink _ (by decide)⟩

end Respace.Script
