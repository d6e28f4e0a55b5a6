import Mathlib.Data.List.Induction
import Respace.Logging.Hub

/-! What calls for a setup make of the log. A call takes effect if it is forced or the log is not marked as
    set up. It takes down what the log has set up, and when it finds sinks it puts a queue and a listener
    in its place and marks the log. The mark is never taken back: where a forced call finds no sinks, or
    fails, the log is marked and has no queue, so that calls without force pass it by from then on. A
    forced call depends on no call before it: but for the mark it makes of the log what it would have made
    of a fresh one. -/

namespace Respace.Logging

/-- A call for a setup: the folder it is made from, the setup, whether it is forced, and what is written by
    then. -/
structure Call where
  cwd : String
  setup : Setup
  forced : Bool
  written : Written

namespace Call

/-- What a call finds: sinks, or why it fails. -/
def found (k : Call) : Except SetupError (List Sink) :=
  (buildSinks k.cwd k.setup (levelOf k.setup.level) k.written).1

/-- The sinks that a call finds; none when it fails. -/
def sinks (k : Call) : List Sink := match k.found with
  | .ok sinks => sinks
  | .error _ => []

/-- The handlers that a call adds: the way into the queue if it finds sinks, the emergency console if it
    fails. -/
def handlers (k : Call) : List Handler := match k.found with
  | .ok [] => []
  | .ok _ => [.queue]
  | .error _ => [.emergency]

theorem handlers_of_sinks {k : Call} (hs : k.sinks ≠ []) : k.handlers = [.queue] := by
  rw [sinks] at hs
  rw [handlers]
  rcases hk : k.found with e | _ | ⟨s, ss⟩ <;> simp_all

/-- A call adds one handler of the log's own, or none. -/
theorem handlers_own (k : Call) : k.handlers.length ≤ 1 ∧ ∀ x ∈ k.handlers, x.isOwn = true := by
  rw [handlers]
  split
  · exact ⟨Nat.zero_le 1, nofun⟩
  · exact ⟨Nat.le_refl 1, by simp [Handler.isOwn]⟩
  · exact ⟨Nat.le_refl 1, by simp [Handler.isOwn]⟩

end Call

namespace Hub

/-- The log after a call. -/
def afterCall (h : Hub) (k : Call) : Hub := (h.configure k.cwd k.setup k.forced k.written).1

/-- The log after a run of calls. -/
def afterCalls (h : Hub) (calls : List Call) : Hub := calls.foldl afterCall h

/-- Whether entries reach sinks: of the log's own handlers there is one, the way into the queue, and a
    listener that runs takes them out of it. -/
structure IsListening (h : Hub) : Prop where
  queue : h.handlers.filter Handler.isOwn = [.queue]
  listener : ∃ sinks, sinks ≠ [] ∧ h.listener = some ⟨sinks, true⟩

variable {h : Hub} {k : Call}

theorem afterCall_of_ignored (hc : h.configured = true) (hf : k.forced = false) :
    h.afterCall k = h := by
  simp [afterCall, configure, hc, hf]

/-- What a call that takes effect makes of the log: handlers of others and the mark stay, all else comes
    from the call. -/
theorem afterCall_of_effect (he : k.forced = true ∨ h.configured = false) :
    h.afterCall k =
      { level := levelOf k.setup.level
        configured := h.configured || !k.sinks.isEmpty
        handlers := h.handlers.filter (!·.isOwn) ++ k.handlers
        listener := if k.sinks = [] then none else some ⟨k.sinks, true⟩ } := by
  have hpass : (h.configured && !k.forced) = false := by
    rcases he with he | he <;> simp [he]
  rcases hb : buildSinks k.cwd k.setup (levelOf k.setup.level) k.written with
    ⟨e | _ | ⟨sink, sinks⟩, w⟩ <;>
  simp [afterCall, configure, hpass, hb, Call.sinks, Call.handlers, Call.found, tornDown]

/-- Entries reach sinks after a call that takes effect just when it finds some. -/
theorem isListening_afterCall_iff (he : k.forced = true ∨ h.configured = false) :
    (h.afterCall k).IsListening ↔ k.sinks ≠ [] := by
  rw [afterCall_of_effect he]
  constructor
  · rintro ⟨-, sinks, -, hl⟩ hs
    simp [hs] at hl
  · intro hs
    have hown : (h.handlers.filter (!·.isOwn)).filter Handler.isOwn = [] := by simp
    refine ⟨?_, k.sinks, hs, if_neg hs⟩
    rw [Call.handlers_of_sinks hs, List.filter_append, hown]
    rfl

theorem afterCalls_concat (h : Hub) (calls : List Call) (k : Call) :
    h.afterCalls (calls ++ [k]) = (h.afterCalls calls).afterCall k := by
  rw [afterCalls, List.foldl_append]
  rfl

/-- The mark tells that some call has found sinks. -/
theorem configured_afterCalls_iff (hc : h.configured = false) (calls : List Call) :
    (h.afterCalls calls).configured = true ↔ ∃ k ∈ calls, k.sinks ≠ [] := by
  induction calls using List.reverseRecOn with
  | nil => simp [afterCalls, hc]
  | append_singleton calls k ih =>
    rw [afterCalls_concat]
    simp only [List.mem_append, List.mem_singleton, or_and_right, exists_or, exists_eq_left, ← ih]
    by_cases he : k.forced = true ∨ (h.afterCalls calls).configured = false
    · simp [afterCall_of_effect he]
    · rw [not_or, Bool.not_eq_true, Bool.not_eq_false] at he
      simp [afterCall_of_ignored he.2 he.1, he.2]

end Hub

/-- Whether the last call that takes effect finds sinks: no forced call follows, and it is forced itself or
    the first to find any. -/
def LastFindsSinks (calls : List Call) : Prop :=
  ∃ before k after, calls = before ++ k :: after ∧ k.sinks ≠ [] ∧
    (k.forced = true ∨ ∀ j ∈ before, j.sinks = []) ∧ ∀ j ∈ after, j.forced = false

theorem not_lastFindsSinks_nil : ¬ LastFindsSinks [] := by
  rintro ⟨before, k, after, h, -⟩
  simp at h

/-- A further call counts if it is forced or no call before it has found sinks. -/
theorem lastFindsSinks_concat_iff (calls : List Call) (k : Call) :
    LastFindsSinks (calls ++ [k]) ↔
      if k.forced = true ∨ ∀ j ∈ calls, j.sinks = [] then k.sinks ≠ [] else LastFindsSinks calls := by
  constructor
  · rintro ⟨before, j, after, h, hs, hj, ha⟩
    rcases List.eq_nil_or_concat after with rfl | ⟨after, i, rfl⟩
    · obtain ⟨rfl, rfl⟩ := List.append_singleton_inj.1 h
      rwa [if_pos hj]
    · rw [List.concat_eq_append, ← List.cons_append, ← List.append_assoc] at h
      obtain ⟨rfl, rfl⟩ := List.append_singleton_inj.1 h
      rw [if_neg]
      · exact ⟨before, j, after, rfl, hs, hj, fun i hi => ha i (by simp [hi])⟩
      · rintro (hf | hn)
        · simp [ha k (by simp)] at hf
        · exact hs (hn j (by simp))
  · split
    · next hk => exact fun hs => ⟨calls, k, [], rfl, hs, hk, nofun⟩
    · next hk =>
      rintro ⟨before, j, after, rfl, hs, hj, ha⟩
      refine ⟨before, j, after ++ [k], by simp, hs, hj, fun i hi => ?_⟩
      rcases List.mem_append.1 hi with hi | hi
      · exact ha i hi
      · rw [List.mem_singleton.1 hi]
        exact Bool.eq_false_iff.2 fun hf => hk (.inl hf)

namespace Hub

/-- Entries reach sinks after a run of calls just when the last one that takes effect finds some. -/
theorem isListening_afterCalls_iff {h : Hub} (hc : h.configured = false) (hl : h.listener = none)
    (calls : List Call) : (h.afterCalls calls).IsListening ↔ LastFindsSinks calls := by
  induction calls using List.reverseRecOn with
  | nil =>
    refine ⟨?_, fun hn => absurd hn not_lastFindsSinks_nil⟩
    rintro ⟨-, sinks, -, hs⟩
    rw [show h.afterCalls [] = h from rfl, hl] at hs
    cases hs
  | append_singleton calls k ih =>
    -- the log is marked just when a call before has found sinks
    have hmark : (h.afterCalls calls).configured = false ↔ ∀ j ∈ calls, j.sinks = [] := by
      rw [← Bool.not_eq_true, configured_afterCalls_iff hc]
      simp
    have heffect := or_congr_right (a := k.forced = true) hmark
    rw [afterCalls_concat, lastFindsSinks_concat_iff]
    by_cases he : k.forced = true ∨ ∀ j ∈ calls, j.sinks = []
    · rw [if_pos he, isListening_afterCall_iff (heffect.2 he)]
    · rw [if_neg he, ← ih]
      rw [← heffect, not_or, Bool.not_eq_true, Bool.not_eq_false] at he
      rw [afterCall_of_ignored he.2 he.1]

/-- What the mark of a log tells after any run of calls in a fresh program, whose log has handlers of others
    only. It says that entries reach sinks, by one queue with a listener behind it, just when no call has
    found sinks, or the last call that took effect has: the mark is wrong from a forced call without sinks
    on, up to the next forced call with sinks. -/
theorem configured_imp_isListening_iff (names : List String) (calls : List Call) :
    (((fresh (names.map .foreign)).afterCalls calls).configured = true →
        ((fresh (names.map .foreign)).afterCalls calls).IsListening) ↔
      (∀ k ∈ calls, k.sinks = []) ∨ LastFindsSinks calls := by
  rw [configured_afterCalls_iff rfl, isListening_afterCalls_iff rfl rfl]
  constructor
  · intro h
    by_cases hs : ∃ k ∈ calls, k.sinks ≠ []
    · exact .inr (h hs)
    · exact .inl (by simpa using hs)
  · rintro (h | h)
    · rintro ⟨k, hk, hs⟩
      exact absurd (h k hk) hs
    · exact fun _ => h

/-- A forced call that turns the console off, after one with a console, leaves the mark without a queue. -/
theorem not_isListening_of_configured :
    ¬ ∀ (names : List String) (calls : List Call),
      ((fresh (names.map .foreign)).afterCalls calls).configured = true →
        ((fresh (names.map .foreign)).afterCalls calls).IsListening := by
  intro hall
  have h := hall [] [⟨"/", .default, false, ⟨"", ⟨[]⟩⟩⟩,
    ⟨"/", { Setup.default with console := .bool false }, true, ⟨"", ⟨[]⟩⟩⟩] rfl
  obtain ⟨-, sinks, -, hl⟩ := h
  cases hl

/-! ### Forced calls -/

/-- The handlers of others, in their order. -/
def others (h : Hub) : List Handler := h.handlers.filter (!·.isOwn)

theorem others_afterCall (h : Hub) (k : Call) : (h.afterCall k).others = h.others := by
  by_cases he : k.forced = true ∨ h.configured = false
  · have hown : k.handlers.filter (!·.isOwn) = [] :=
      List.filter_eq_nil_iff.2 fun x hx => by simp [k.handlers_own.2 x hx]
    rw [others, afterCall_of_effect he, List.filter_append, hown, List.append_nil, List.filter_filter]
    simp [others]
  · rw [not_or, Bool.not_eq_true, Bool.not_eq_false] at he
    rw [afterCall_of_ignored he.2 he.1]

theorem others_afterCalls (h : Hub) (calls : List Call) : (h.afterCalls calls).others = h.others := by
  induction calls using List.reverseRecOn with
  | nil => rfl
  | append_singleton calls k ih => rw [afterCalls_concat, others_afterCall, ih]

theorem others_fresh (names : List String) :
    (fresh (names.map .foreign)).others = names.map .foreign := by
  refine List.filter_eq_self.2 fun x hx => ?_
  obtain ⟨name, -, rfl⟩ := List.mem_map.1 hx
  rfl

/-- A forced call forgets all calls before it. It leaves the level, the handlers and the listener with its
    sinks just as the same call leaves them in a fresh program with the same handlers of others: these
    come first and in their order, and at most one handler of the log's own follows. -/
theorem afterCall_forced (names : List String) (calls : List Call) (k : Call) :
    let first := fresh (names.map .foreign)
    let forced := { k with forced := true }
    let after := (first.afterCalls calls).afterCall forced
    let afresh := first.afterCall forced
    after.level = afresh.level ∧ after.handlers = afresh.handlers ∧ after.listener = afresh.listener ∧
      ∃ own, after.handlers = names.map .foreign ++ own ∧ own.length ≤ 1 ∧
        ∀ x ∈ own, x.isOwn = true := by
  intro first forced after afresh
  have hothers : (first.afterCalls calls).others = names.map .foreign := by
    rw [others_afterCalls, others_fresh]
  have hforced (h : Hub) : h.afterCall forced =
      { level := levelOf k.setup.level
        configured := h.configured || !forced.sinks.isEmpty
        handlers := h.others ++ forced.handlers
        listener := if forced.sinks = [] then none else some ⟨forced.sinks, true⟩ } :=
    afterCall_of_effect (.inl rfl)
  have hafter : after =
      { afresh with configured := (first.afterCalls calls).configured || !forced.sinks.isEmpty } := by
    rw [show after = _ from hforced _, show afresh = _ from hforced _, hothers, others_fresh]
  have hhandlers : after.handlers = names.map .foreign ++ forced.handlers := by
    rw [show after = _ from hforced _, hothers]
  refine ⟨?_, ?_, ?_, forced.handlers, hhandlers, forced.handlers_own⟩ <;> rw [hafter]

end Hub

end Respace.Logging
