/-! Results that may be errors: when a chain of steps ends well, and where it fails. -/

namespace Respace

variable {ε ε' α β : Type}

/-! ### Ending well -/

/-- Two steps in a row end well just when the first does and the second does with what it gives. -/
theorem bind_eq_ok_iff {x : Except ε α} {f : α → Except ε β} {b : β} :
    x >>= f = .ok b ↔ ∃ a, x = .ok a ∧ f a = .ok b := by
  cases x with
  | error e => exact ⟨nofun, nofun⟩
  | ok a => exact ⟨fun h => ⟨a, rfl, h⟩, fun ⟨_, ha, h⟩ => Except.ok.inj ha ▸ h⟩

theorem exceptBind_eq_ok_iff {x : Except ε α} {f : α → Except ε β} {b : β} :
    x.bind f = .ok b ↔ ∃ a, x = .ok a ∧ f a = .ok b := bind_eq_ok_iff

/-- What is done to the result of two steps is done to the result of the second. -/
theorem map_exceptBind (x : Except ε α) (f : α → Except ε β) {γ : Type} (g : β → γ) :
    (x >>= f).map g = x >>= fun a => (f a).map g := by
  cases x <;> rfl

theorem map_eq_ok_iff {x : Except ε α} {f : α → β} {b : β} :
    x.map f = .ok b ↔ ∃ a, x = .ok a ∧ f a = b := by
  cases x <;> simp [Except.map]

theorem mapError_eq_ok_iff {x : Except ε α} {f : ε → ε'} {a : α} :
    x.mapError f = .ok a ↔ x = .ok a := by
  cases x with
  | error e => exact ⟨nofun, nofun⟩
  | ok a => exact ⟨fun h => Except.ok.inj h ▸ rfl, fun h => Except.ok.inj h ▸ rfl⟩

/-- A list is gone through in the same way by steps that agree on its items. -/
theorem mapM_congr {f g : α → Except ε β} {l : List α} (h : ∀ a ∈ l, f a = g a) : l.mapM f = l.mapM g := by
  induction l with
  | nil => rfl
  | cons a l ih =>
    obtain ⟨ha, hl⟩ := List.forall_mem_cons.1 h
    rw [List.mapM_cons, List.mapM_cons, ha, ih hl]

/-! ### Failing -/

/-- Whether a result is an error such as `P` says. -/
def Fails (P : ε → Prop) (x : Except ε α) : Prop := ∃ e, x = .error e ∧ P e

variable {P : ε → Prop}

@[simp] theorem fails_ok_iff {a : α} : Fails P (.ok a) ↔ False := by simp [Fails]

@[simp] theorem fails_error_iff {e : ε} : Fails P (.error e : Except ε α) ↔ P e := by simp [Fails]

/-- Two steps in a row fail if the first does, or the second after it. -/
theorem fails_bind_iff {x : Except ε α} {f : α → Except ε β} :
    Fails P (x >>= f) ↔ Fails P x ∨ ∃ a, x = .ok a ∧ Fails P (f a) := by
  cases x with
  | error e => simp [Fails, bind, Except.bind]
  | ok a => simp [Fails, bind, Except.bind]

theorem fails_map_iff {x : Except ε α} {f : α → β} : Fails P (f <$> x) ↔ Fails P x := by
  cases x <;> simp [Fails, Functor.map, Except.map]

/-- A list fails at its first item that fails. -/
theorem fails_mapM_iff {f : α → Except ε β} {l : List α} :
    Fails P (l.mapM f) ↔ ∃ before a after, l = before ++ a :: after ∧
      (∀ x ∈ before, ∃ b, f x = .ok b) ∧ Fails P (f a) := by
  induction l with
  | nil => simp [pure, Except.pure]
  | cons x xs ih =>
    have hrest {b : β} : Fails P (xs.mapM f >>= fun bs => pure (b :: bs)) ↔ Fails P (xs.mapM f) := by
      simp [fails_bind_iff, pure, Except.pure]
    rw [List.mapM_cons, fails_bind_iff]
    simp only [hrest, ih]
    constructor
    · rintro (h | ⟨b, hb, before, a, after, rfl, hbefore, ha⟩)
      · exact ⟨[], x, xs, rfl, nofun, h⟩
      · exact ⟨x :: before, a, after, rfl, List.forall_mem_cons.2 ⟨⟨b, hb⟩, hbefore⟩, ha⟩
    · rintro ⟨_ | ⟨y, before⟩, a, after, hl, hbefore, ha⟩
      · cases hl
        exact .inl ha
      · cases hl
        obtain ⟨⟨b, hb⟩, hbefore⟩ := List.forall_mem_cons.1 hbefore
        exact .inr ⟨b, hb, before, a, after, rfl, hbefore, ha⟩

theorem fails_foldlM_iff {f : β → α → Except ε β} {l : List α} {b : β} :
    Fails P (l.foldlM f b) ↔ ∃ before a after c, l = before ++ a :: after ∧
      before.foldlM f b = .ok c ∧ Fails P (f c a) := by
  induction l generalizing b with
  | nil => simp [pure, Except.pure]
  | cons x xs ih =>
    rw [List.foldlM_cons, fails_bind_iff]
    simp only [ih]
    constructor
    · rintro (h | ⟨b', hb, before, a, after, c, rfl, hbefore, ha⟩)
      · exact ⟨[], x, xs, b, rfl, rfl, h⟩
      · exact ⟨x :: before, a, after, c, rfl, by rw [List.foldlM_cons, hb]; exact hbefore, ha⟩
    · rintro ⟨_ | ⟨y, before⟩, a, after, c, hl, hbefore, ha⟩
      · cases hl
        cases hbefore
        exact .inl ha
      · cases hl
        rw [List.foldlM_cons] at hbefore
        obtain ⟨b', hb, hbefore⟩ := bind_eq_ok_iff.1 hbefore
        exact .inr ⟨b', hb, before, a, after, c, rfl, hbefore, ha⟩

end Respace
