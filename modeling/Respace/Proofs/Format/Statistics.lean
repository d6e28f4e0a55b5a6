import Respace.Format.Result
import Respace.Proofs.Except
import Respace.Proofs.Script.Compaction

/-! Sizes before and after. The compact form of a script weighs no more than the script in any way in which
    nothing is lighter than a space, and so it has no more bytes, lines and characters. Tokens that are
    estimated from characters do not grow either; they are estimated wherever no encoder answers. -/

namespace Respace.Format

open Logging Script

variable {load : Loader} {kept : Encoders} {r : Request} {s : Statistics}

/-! ### Texts that weigh no more -/

/-- Whether a text weighs no more than another, in any way in which nothing is lighter than a space. -/
def IsNoHeavier (output source : String) : Prop :=
  ∀ f : Char → Nat, (∀ c, f ' ' ≤ f c) → weight f output.toList ≤ weight f source.toList

namespace IsNoHeavier

variable {output source : String}

theorem refl (source : String) : IsNoHeavier source source := fun _ _ => Nat.le_refl _

theorem byteSize_le (h : IsNoHeavier output source) :
    Text.byteSize output.toList ≤ Text.byteSize source.toList := by
  have hbytes (cs : List Char) : Text.byteSize cs = weight Char.utf8Size cs := by
    induction cs with
    | nil => rfl
    | cons c cs ih => rw [weight_cons, ← ih]; rfl
  rw [hbytes, hbytes]
  exact h _ Char.utf8Size_pos

theorem lineCount_le (h : IsNoHeavier output source) : lineCount output ≤ lineCount source := by
  have hlines (cs : List Char) : cs.count '\n' = weight (fun c => if c = '\n' then 1 else 0) cs := by
    induction cs with
    | nil => rfl
    | cons c cs ih => rw [weight_cons, ← ih, List.count_cons, Nat.add_comm]; simp
  rw [lineCount, lineCount, hlines, hlines]
  exact Nat.succ_le_succ (h _ fun c => Nat.zero_le _)

theorem estimate_le (h : IsNoHeavier output source) : estimate output ≤ estimate source := by
  have hlength := h (fun _ => 1) fun _ => Nat.le_refl 1
  rw [weight_one, weight_one, String.length_toList, String.length_toList] at hlength
  exact Nat.div_le_div_right (Nat.add_le_add_right hlength 3)

end IsNoHeavier

/-- What is handed out for a compact form is that form or the script itself, and weighs no more than the
    script. -/
theorem isNoHeavier_formatSource (load : Loader) (hm : Mode.parse r.mode = .ok .minify) :
    IsNoHeavier (formatSource load r).1.output r.source := by
  rw [formatSource, hm]
  dsimp only [reform, minify]
  rw [minifyChars_eq]
  by_cases hsame : literalTexts (scan (compact (scan r.source.toList))) =
      literalTexts (scan r.source.toList)
  · rw [if_pos hsame]
    intro f hf
    simpa [Except.map] using weight_compact_le hf r.source.toList
  · rw [if_neg hsame]
    exact IsNoHeavier.refl r.source

/-! ### Tokens that are estimated -/

/-- An encoder that counts the tokens of no text. -/
def Encoder.Fails (e : Encoder) : Prop := ∀ text, ∃ message, e text = .error message

/-- Where encoders fail, those that are looked up do, and so do those that are kept from then on. -/
theorem encoderOf_fails (hl : ∀ name e, load name = .ok e → e.Fails) (hk : ∀ p ∈ kept, p.2.Fails)
    (name : String) :
    (∀ e, (encoderOf load kept name).1 = .ok e → e.Fails) ∧
      ∀ p ∈ (encoderOf load kept name).2.encoders, p.2.Fails := by
  have hadd {e : Encoder} (he : e.Fails) : ∀ p ∈ (name, e) :: kept, p.2.Fails :=
    List.forall_mem_cons.2 ⟨he, hk⟩
  rw [encoderOf]
  split
  · next e hfound =>
    refine ⟨fun e' he' => ?_, hk⟩
    cases he'
    obtain ⟨before, after, hkept, -⟩ := List.lookup_eq_some_iff.1 hfound
    exact hk (name, e) (by simp [hkept])
  · split
    · next e hload => exact ⟨fun e' he' => by cases he'; exact hl _ _ hload, hadd (hl _ _ hload)⟩
    · exact ⟨nofun, hk⟩
    · split
      · next e hload => exact ⟨fun e' he' => by cases he'; exact hl _ _ hload, hadd (hl _ _ hload)⟩
      · exact ⟨nofun, hk⟩

/-- Where encoders fail, only the tokens of the empty text are counted. -/
theorem encode_of_fails (hl : ∀ name e, load name = .ok e → e.Fails) (hk : ∀ p ∈ kept, p.2.Fails)
    (text : String) (model : Json) :
    (∀ n, (encode load kept text model).1 = .ok n → n = estimate text) ∧
      ∀ p ∈ (encode load kept text model).2.encoders, p.2.Fails := by
  rw [encode]
  split
  · next he =>
    refine ⟨fun n hn => ?_, hk⟩
    cases hn
    rw [String.isEmpty_iff.1 he]
    rfl
  · split
    · exact ⟨nofun, hk⟩
    · next name _ =>
      obtain ⟨hfound, hkept⟩ := encoderOf_fails hl hk name
      refine ⟨fun n hn => ?_, hkept⟩
      obtain ⟨e, he, hcount⟩ := exceptBind_eq_ok_iff.1 hn
      obtain ⟨message, hfails⟩ := hfound e he text
      rw [mapError_eq_ok_iff, hfails] at hcount
      cases hcount

theorem countTokens_of_fails (hl : ∀ name e, load name = .ok e → e.Fails)
    (hk : ∀ p ∈ kept, p.2.Fails) (text : String) (model : Json) :
    (countTokens load kept text model).1 = estimate text ∧
      ∀ p ∈ (countTokens load kept text model).2.2.encoders, p.2.Fails := by
  obtain ⟨hcount, hkept⟩ := encode_of_fails hl hk text model
  rw [countTokens]
  generalize encode load kept text model = encoded at hcount hkept
  obtain ⟨e | n, loaded⟩ := encoded
  · exact ⟨rfl, hkept⟩
  · exact ⟨hcount n rfl, hkept⟩

/-! ### Statistics -/

theorem measure_eq_ok {mode : Mode} {source output : String} {model : Json} {records : List Record}
    (h : measure load mode source output model = .ok (s, records)) :
    s.inputBytes = Text.byteSize source.toList ∧ s.outputBytes = Text.byteSize output.toList ∧
      s.inputLines = lineCount source ∧ s.outputLines = lineCount output ∧
      s.inputTokens = (countTokens load [] source model).1 ∧
      s.outputTokens =
        (countTokens load (countTokens load [] source model).2.2.encoders output model).1 := by
  rw [measure] at h
  split at h
  all_goals
    obtain ⟨ratio, -, h⟩ := bind_eq_ok_iff.1 h
    cases h
    exact ⟨rfl, rfl, rfl, rfl, rfl, rfl⟩

theorem measure_of_statistics {mode : Mode} {source output : String} {model : Json}
    (h : (statistics load mode source output model).1 = some s) :
    ∃ records, measure load mode source output model = .ok (s, records) := by
  rw [statistics] at h
  split at h
  · cases h
  · split at h
    · next s' records hm =>
      cases h
      exact ⟨records, hm⟩
    · cases h

/-- The statistics of a result are measured from the script and from what is handed out. -/
theorem measure_of_formatSource {mode : Mode} (hm : Mode.parse r.mode = .ok mode)
    (hs : (formatSource load r).1.statistics = some s) :
    ∃ records,
      measure load mode r.source (formatSource load r).1.output r.model = .ok (s, records) := by
  rw [formatSource, hm] at hs ⊢
  dsimp only at hs ⊢
  split at hs
  · exact measure_of_statistics hs
  · cases hs

/-- Whether the tokens of both texts are estimated from their characters. -/
structure Statistics.AreEstimates (s : Statistics) (source output : String) : Prop where
  input : s.inputTokens = estimate source
  output : s.outputTokens = estimate output

/-- Where encoders fail, the tokens of all statistics are estimated. -/
theorem areEstimates_of_fails {mode : Mode} (hl : ∀ name e, load name = .ok e → e.Fails)
    (hm : Mode.parse r.mode = .ok mode) (hs : (formatSource load r).1.statistics = some s) :
    s.AreEstimates r.source (formatSource load r).1.output := by
  obtain ⟨records, h⟩ := measure_of_formatSource hm hs
  obtain ⟨-, -, -, -, hin, hout⟩ := measure_eq_ok h
  have hnone : ∀ p ∈ ([] : Encoders), p.2.Fails := nofun
  obtain ⟨hfirst, hkept⟩ := countTokens_of_fails hl hnone r.source r.model
  exact ⟨hin.trans hfirst, hout.trans (countTokens_of_fails hl hkept _ _).1⟩

/-- The compact form makes no size worse: neither the bytes nor the lines grow, nor do the tokens where
    they are estimated. -/
theorem statistics_minify_le (hm : Mode.parse r.mode = .ok .minify)
    (hs : (formatSource load r).1.statistics = some s) :
    s.outputBytes ≤ s.inputBytes ∧ s.outputLines ≤ s.inputLines ∧
      (s.AreEstimates r.source (formatSource load r).1.output → s.outputTokens ≤ s.inputTokens) := by
  obtain ⟨records, h⟩ := measure_of_formatSource hm hs
  obtain ⟨hinBytes, houtBytes, hinLines, houtLines, -, -⟩ := measure_eq_ok h
  have hle := isNoHeavier_formatSource load hm
  refine ⟨?_, ?_, fun hcount => ?_⟩
  · rw [hinBytes, houtBytes]
    exact hle.byteSize_le
  · rw [hinLines, houtLines]
    exact hle.lineCount_le
  · rw [hcount.input, hcount.output]
    exact hle.estimate_le

/-- A script with a comment beyond ASCII, where the encoders are loaded but fail. -/
theorem statistics_minify_le_comment :
    let load : Loader := fun _ => .ok fun _ => .error "encode failed"
    let r : Request :=
      ⟨"a +/* ü */+ b\n\n// é\nreturn `c\nd`;\n", .text "minify", .null, true, .text "gpt-4o"⟩
    Mode.parse r.mode = .ok .minify ∧ ∃ s, (formatSource load r).1.statistics = some s ∧
      s.AreEstimates r.source (formatSource load r).1.output ∧ s.outputBytes ≤ s.inputBytes ∧
      s.outputLines ≤ s.inputLines ∧ s.outputTokens ≤ s.inputTokens := by
  intro load r
  have hm : Mode.parse r.mode = .ok .minify := rfl
  have hsome : (formatSource load r).1.statistics.isSome = true := by decide +kernel
  obtain ⟨s, hs⟩ := Option.isSome_iff_exists.1 hsome
  have hload : ∀ name e, load name = .ok e → e.Fails := by
    intro name e he text
    cases he
    exact ⟨_, rfl⟩
  have hcount := areEstimates_of_fails hload hm hs
  obtain ⟨hbytes, hlines, htokens⟩ := statistics_minify_le hm hs
  exact ⟨hm, s, hs, hcount, hbytes, hlines, htokens hcount⟩

end Respace.Format
