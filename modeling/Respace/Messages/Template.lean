import Respace.Messages.Style

/-! Messages with fields to fill in. A field in braces names a value, then parts of it, and may ask for a
    conversion and a style; a style may hold fields itself, but not in their styles. Doubled braces
    stand for themselves.

    A path through the parts of a value may lead out of all documents, to things such as the class of a value
    or one of its methods. What there is under which name, and how it looks, is given by members. -/

namespace Respace.Messages

open Number

/-- A field between its braces: the path to a value, a conversion, and a style that may hold fields. -/
structure Slot where
  path : List Char
  conversion : Option Char
  style : List Char

/-- Puts a character in front of the first of three parts. -/
def inFront {α β : Type} (c : Char) (split : List Char × α × β) : List Char × α × β :=
  (c :: split.1, split.2)

/-- Splits the path of a field off, and the character that ends it. In square brackets all characters
    belong to the path. -/
def splitPath? (inBrackets : Bool) : List Char → Option (List Char × Char × List Char)
  | [] => none
  | c :: cs =>
    if inBrackets then (splitPath? (c != ']') cs).map (inFront c)
    else if c == '\x7b' then none
    else if c == '\x7d' || c == ':' || c == '!' then some ([], c, cs)
    else (splitPath? (c == '[') cs).map (inFront c)

/-- Splits a style off, up to the brace that closes the field; `depth` counts the braces that are open
    inside. -/
def splitStyle? (depth : Nat) : List Char → Option (List Char × List Char)
  | [] => none
  | c :: cs =>
    if c == '\x7d' && depth == 0 then some ([], cs)
    else
      let depth := if c == '\x7b' then depth + 1 else if c == '\x7d' then depth - 1 else depth
      (splitStyle? depth cs).map fun (style, rest) => (c :: style, rest)

/-- Splits a field off after its opening brace. -/
def splitField? (cs : List Char) : Option (Slot × List Char) := do
  let (path, ending, rest) ← splitPath? false cs
  let styled (conversion : Option Char) (rest : List Char) :=
    (splitStyle? 0 rest).map fun (style, rest) => ((⟨path, conversion, style⟩ : Slot), rest)
  if ending == '\x7d' then return (⟨path, none, []⟩, rest)
  else if ending == ':' then styled none rest
  else match rest with
    | c :: '\x7d' :: rest => return (⟨path, some c, []⟩, rest)
    | c :: ':' :: rest => styled (some c) rest
    | _ => none

theorem splitPath?_length {inBrackets : Bool} {cs path rest : List Char} {ending : Char}
    (h : splitPath? inBrackets cs = some (path, ending, rest)) : rest.length < cs.length := by
  fun_induction splitPath? inBrackets cs generalizing path
  all_goals simp_all [inFront]
  all_goals grind

theorem splitStyle?_length {depth : Nat} {cs style rest : List Char}
    (h : splitStyle? depth cs = some (style, rest)) : rest.length < cs.length := by
  fun_induction splitStyle? depth cs generalizing style
  all_goals simp_all
  all_goals grind

theorem splitField?_length {cs rest : List Char} {f : Slot} (h : splitField? cs = some (f, rest)) :
    rest.length < cs.length := by
  simp only [splitField?, Option.bind_eq_bind, Option.bind_eq_some_iff, Prod.exists] at h
  obtain ⟨path, ending, after, hp, h⟩ := h
  have hlt := splitPath?_length hp
  split at h
  · simp_all
  · split at h
    · simp only [Option.map_eq_some_iff, Prod.mk.injEq, Prod.exists] at h
      obtain ⟨style, r, hs, _, rfl⟩ := h
      have := splitStyle?_length hs
      omega
    · split at h
      · simp_all; omega
      · simp only [Option.map_eq_some_iff, Prod.mk.injEq, Prod.exists] at h
        obtain ⟨style, r, hs, _, rfl⟩ := h
        have := splitStyle?_length hs
        simp at hlt; omega
      · simp at h

/-- Whether a text is an index: decimal digits only. -/
def isIndex (cs : List Char) : Bool := !cs.isEmpty && cs.all Text.isDecimal

/-- What a field leads to: a value, or a thing that is no value of a document. -/
inductive Part (Ω : Type) where
  | value (v : Json)
  | thing (o : Ω)

/-- What values and things have besides what documents hold: parts under names, the items of things, how
    things look, and the room on the stack to show a value, in a conversion or as it is. -/
structure Members (Ω : Type) where
  named : Part Ω → String → Except Failure (Part Ω)
  item : Ω → List Char → Except Failure (Part Ω)
  inserted : Ω → String
  display : Ω → String
  styled : Ω → List Char → Except Failure (List Char)
  room : Option Char → Json.Room

section fields

variable {Ω : Type} (M : Members Ω)

/-- The item of a list, the character of a text or the field of an object under a key. -/
def item (p : Part Ω) (key : List Char) : Except Failure (Part Ω) :=
  let index := Text.decimalNumber key
  let found (r : Option Json) : Except Failure (Part Ω) := r.elim (.error .unusable) (.ok ∘ .value)
  if isIndex key && Nat.pow 2 63 ≤ index then .error .unusable
  else match p with
    | .value (.list vs) => if isIndex key then found vs[index]? else .error .listKey
    | .value (.text s) =>
      if isIndex key then found (s.toList[index]?.map fun c => .text (String.ofList [c]))
      else .error .textKey
    | .value (.object fields) =>
      if isIndex key then .error .unusable
      else found ((Json.object fields).field? (String.ofList key))
    | .value v => .error (.notIndexed v.kindName)
    | .thing o => M.item o key

/-- The part of a value that the rest of a path leads to: names after points, keys in brackets. -/
def follow (p : Part Ω) : (fuel : Nat) → List Char → Except Failure (Part Ω)
  | _, [] => .ok p
  | 0, _ => .error .unusable
  | fuel + 1, '.' :: cs =>
    let name := cs.takeWhile fun c => c != '.' && c != '['
    if name.isEmpty then .error .unusable
    else do follow (← M.named p (String.ofList name)) fuel (cs.drop name.length)
  | fuel + 1, '[' :: cs =>
    let key := cs.takeWhile (· != ']')
    if key.isEmpty || key.length == cs.length then .error .unusable
    else do follow (← item M p key) fuel (cs.drop (key.length + 1))
  | _ + 1, _ :: _ => .error .unusable

/-- The values to fill in, by name. -/
abbrev Values := List (String × Json)

/-- The part that a path leads to. Values have names, not numbers. -/
def valueAt (args : Values) (path : List Char) : Except Failure (Part Ω) :=
  let name := path.takeWhile fun c => c != '.' && c != '['
  if name.isEmpty || isIndex name then .error .unusable
  else match args.lookup (String.ofList name) with
    | none => .error .unusable
    | some v => follow M (.value v) path.length (path.drop name.length)

namespace Part

/-- What a field leads to as it is inserted, if it can be shown. -/
def inserted : Part Ω → Except Failure String
  | value v => v.inserted?.mapError fun _ => .unusable
  | thing o => .ok (M.inserted o)

/-- What a field leads to as it is displayed, if it can be shown. -/
def display : Part Ω → Except Failure String
  | value v => v.display?.mapError fun _ => .unusable
  | thing o => .ok (M.display o)

/-- Whether there is room to show what a field leads to. -/
def fits (conversion : Option Char) : Part Ω → Bool
  | value v => v.fits (M.room conversion)
  | thing _ => true

/-- What a field leads to in a style. -/
def styled (style : List Char) : Part Ω → Except Failure (List Char)
  | value v => if style.isEmpty && !v.fits (M.room none) then .error .tooDeep else shown style v
  | thing o => M.styled o style

/-- What a field leads to as a text, if there is room to show it. -/
def asText (conversion : Option Char) (p : Part Ω) (shown : Except Failure String) :
    Except Failure (Part Ω) :=
  if p.fits M conversion then shown.map (.value ∘ .text) else .error .tooDeep

end Part

/-- A part converted to a text: as it is inserted, as it is displayed, or displayed in ASCII. -/
def converted (conversion : Option Char) (p : Part Ω) : Except Failure (Part Ω) :=
  match conversion with
  | none => .ok p
  | some 's' => p.asText M conversion (p.inserted M)
  | some 'r' => p.asText M conversion (p.display M)
  | some 'a' =>
    p.asText M conversion ((p.display M).map fun s => String.ofList (Text.inAscii s.toList))
  | some _ => .error .unusable

/-- A message with its fields filled in, from left to right; the first failure counts. Styles hold
    fields down to the given depth. -/
def fill (args : Values) (depth : Nat) (cs : List Char) : Except Failure (List Char) :=
  match depth, cs with
  | 0, _ => .error .unusable
  | _, [] => .ok []
  | depth + 1, '\x7b' :: '\x7b' :: rest => do return '\x7b' :: (← fill args (depth + 1) rest)
  | depth + 1, '\x7d' :: '\x7d' :: rest => do return '\x7d' :: (← fill args (depth + 1) rest)
  | _, '\x7d' :: _ => .error .unusable
  | depth + 1, '\x7b' :: rest =>
    match h : splitField? rest with
    | none => .error .unusable
    | some (f, after) => do
      have := splitField?_length h
      let p ← valueAt M args f.path >>= converted M f.conversion
      let style ← if f.style.contains '\x7b' then fill args depth f.style else .ok f.style
      return (← p.styled M style) ++ (← fill args (depth + 1) after)
  | depth + 1, c :: rest => do return c :: (← fill args (depth + 1) rest)
termination_by (depth, cs.length)

/-- A message with its fields filled in. Without values to fill in, and when a field cannot be used, it
    stays as it is. -/
def interpolate (args : Values) (template : String) : Except Failure String :=
  if args.isEmpty then .ok template
  else match fill M args 2 template.toList with
    | .ok cs => .ok (String.ofList cs)
    | .error .unusable => .ok template
    | .error e => .error e

end fields

/-! ### Classes -/

/-- What the named part of a number is. Values of other kinds have none. -/
def numberPart? : Json → String → Option Json
  | .bool b, "real" | .bool b, "numerator" => some (.integer (if b then 1 else 0))
  | .integer n, "real" | .integer n, "numerator" => some (.integer n)
  | .bool _, "imag" | .integer _, "imag" => some (.integer 0)
  | .bool _, "denominator" | .integer _, "denominator" => some (.integer 1)
  | .number x, "real" => some (.number x)
  | .number _, "imag" => some (.number (.zero false))
  | _, _ => none

/-- The members that are the same in all surroundings: the parts of numbers, the class of a value, which is
    told by its name, and the name of a class. All other members are left out, and so is the end of the stack. -/
def Members.classes : Members String where
  named
    | .value v, "__class__" => .ok (.thing v.kindName)
    | .value v, name =>
      (numberPart? v name).elim (.error (.noAttribute v.kindName name)) (.ok ∘ .value)
    | .thing _, "__class__" => .ok (.thing "type")
    | .thing k, "__name__" | .thing k, "__qualname__" => .ok (.value (.text k))
    | .thing _, "__module__" => .ok (.value (.text "builtins"))
    | .thing k, name => .error (.kindNoAttribute k name)
  item k _ := .error (.kindNotIndexed k)
  inserted k := "<class '" ++ k ++ "'>"
  display k := "<class '" ++ k ++ "'>"
  styled k style :=
    if style.isEmpty then .ok ("<class '" ++ k ++ "'>").toList else .error (.noStyle "type")
  room _ := .endless

end Respace.Messages
