import Respace.Messages.Template

/-! Messages in pieces. A template is read into characters and fields before any of them is filled in, up to
    the first brace that neither opens nor closes a field; a path is read into steps before any of them is
    taken. Filling a message in is then filling in its pieces in turn, and following a path is taking its
    steps in turn. -/

namespace Respace.Messages

variable {Ω : Type} (M : Members Ω)

/-! ### Templates -/

/-- A piece of a template: a character, a field, or a brace out of place. -/
inductive Piece where
  | char (c : Char)
  | slot (f : Slot)
  | stray

/-- The pieces of a template, up to the first brace out of place. -/
def pieces (cs : List Char) : List Piece :=
  match cs with
  | [] => []
  | '\x7b' :: '\x7b' :: rest => .char '\x7b' :: pieces rest
  | '\x7d' :: '\x7d' :: rest => .char '\x7d' :: pieces rest
  | '\x7d' :: _ => [.stray]
  | '\x7b' :: rest =>
    match h : splitField? rest with
    | none => [.stray]
    | some (f, after) =>
      have := splitField?_length h
      .slot f :: pieces after
  | c :: rest => .char c :: pieces rest
termination_by cs.length

namespace Slot

/-- What the path of a field leads to, converted. -/
def part (args : Values) (f : Slot) : Except Failure (Part Ω) :=
  valueAt M args f.path >>= converted M f.conversion

/-- The style of a field, with its own fields filled in. -/
def filledStyle (args : Values) (depth : Nat) (f : Slot) : Except Failure (List Char) :=
  if f.style.contains '\x7b' then fill M args depth f.style else .ok f.style

/-- What is put in the place of a field. -/
def filled (args : Values) (depth : Nat) (f : Slot) : Except Failure (List Char) := do
  (← f.part M args).styled M (← f.filledStyle M args depth)

end Slot

/-- What is put in the place of a piece. -/
def Piece.filled (args : Values) (depth : Nat) : Piece → Except Failure (List Char)
  | char c => .ok [c]
  | slot f => f.filled M args depth
  | stray => .error .unusable

/-- Pieces are filled in one by one, and what comes of each is put behind what came of those before. -/
theorem flatten_mapM_cons {α β ε : Type} (f : α → Except ε (List β)) (a : α) (l : List α) :
    List.flatten <$> (a :: l).mapM f = do
      let t ← f a
      return t ++ (← List.flatten <$> l.mapM f) := by
  rw [List.mapM_cons]
  cases f a with
  | error e => rfl
  | ok t => cases l.mapM f <;> rfl

/-- A message is filled in piece by piece. -/
theorem fill_succ (args : Values) (depth : Nat) (cs : List Char) :
    fill M args (depth + 1) cs = List.flatten <$> (pieces cs).mapM (Piece.filled M args depth) := by
  fun_induction pieces cs with
  | case1 => exact fill.eq_2 M args _ (Nat.succ_ne_zero depth)
  | case2 rest ih =>
    rw [fill, ih, flatten_mapM_cons]
    rfl
  | case3 rest ih =>
    rw [fill, ih, flatten_mapM_cons]
    rfl
  | case4 tail hnot => exact fill.eq_5 M args _ tail (Nat.succ_ne_zero depth) fun _ rest _ => hnot rest
  | case5 rest hnot hnone =>
    rw [fill.eq_6 _ _ _ _ hnot]
    split
    · rfl
    · next hsome => cases hnone.symm.trans hsome
  | case6 rest hnot f after hsome _ ih =>
    rw [fill.eq_6 _ _ _ _ hnot, flatten_mapM_cons, ← ih]
    split
    · next hnone => cases hnone.symm.trans hsome
    · next f' after' hsome' =>
      cases hsome.symm.trans hsome'
      simp only [Piece.filled, Slot.filled, Slot.part, Slot.filledStyle, bind_assoc]
      cases f.style.contains '\x7b' <;> rfl
  | case7 c rest hopen hclose hc ho ih =>
    rw [fill.eq_7 _ _ _ _ _ hopen hclose hc ho, ih, flatten_mapM_cons]
    rfl

/-! ### Paths -/

/-- A step on a path: to a named part, to what is under a key, or to nothing that can be read. -/
inductive Step where
  | name (name : String)
  | key (key : List Char)
  | broken

/-- The name that a path starts with. -/
abbrev nameAhead (cs : List Char) : List Char := cs.takeWhile fun c => c != '.' && c != '['

/-- The key that stands in front of the closing bracket. -/
abbrev keyAhead (cs : List Char) : List Char := cs.takeWhile (· != ']')

/-- The steps of a path, up to the first that cannot be read. -/
def steps (cs : List Char) : List Step :=
  match cs with
  | [] => []
  | '.' :: cs =>
    if (nameAhead cs).isEmpty then [.broken]
    else .name (String.ofList (nameAhead cs)) :: steps (cs.drop (nameAhead cs).length)
  | '[' :: cs =>
    if (keyAhead cs).isEmpty || (keyAhead cs).length == cs.length then [.broken]
    else .key (keyAhead cs) :: steps (cs.drop ((keyAhead cs).length + 1))
  | _ :: _ => [.broken]
termination_by cs.length

/-- The part of a part that a step leads to. -/
def Part.take (p : Part Ω) : Step → Except Failure (Part Ω)
  | .name name => M.named p name
  | .key key => item M p key
  | .broken => .error .unusable

theorem follow_eq {fuel : Nat} {cs : List Char} (h : cs.length ≤ fuel) (p : Part Ω) :
    follow M p fuel cs = (steps cs).foldlM (Part.take M) p := by
  induction fuel generalizing cs p with
  | zero =>
    obtain rfl := List.length_eq_zero_iff.1 (Nat.le_zero.1 h)
    rw [follow, steps]
    rfl
  | succ fuel ih =>
    have hshorter (n : Nat) {c : Char} {cs : List Char} (h : (c :: cs).length ≤ fuel + 1) :
        (cs.drop n).length ≤ fuel := by
      rw [List.length_cons] at h
      rw [List.length_drop]
      omega
    rw [steps.eq_def]
    split
    · rfl
    · next cs =>
      rw [follow]
      split
      · rfl
      · simp only [ih (hshorter _ h)]
        rfl
    · next cs =>
      rw [follow]
      split
      · rfl
      · simp only [ih (hshorter _ h)]
        rfl
    · next c cs hdot hopen => exact follow.eq_5 M p fuel c cs hdot hopen

/-- The part that a path leads to: the value of its name, and from there on step by step. -/
theorem valueAt_eq (args : Values) (path : List Char) :
    valueAt M args path =
      if (nameAhead path).isEmpty || isIndex (nameAhead path) then .error .unusable
      else match args.lookup (String.ofList (nameAhead path)) with
        | none => .error .unusable
        | some v => (steps (path.drop (nameAhead path).length)).foldlM (Part.take M) (.value v) := by
  have hfollow (v : Json) : follow M (.value v) path.length (path.drop (nameAhead path).length) =
      (steps (path.drop (nameAhead path).length)).foldlM (Part.take M) (.value v) :=
    follow_eq M (by rw [List.length_drop]; omega) _
  simp only [← hfollow]
  rfl

end Respace.Messages
