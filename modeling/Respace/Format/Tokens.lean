import Respace.Json.Value
import Respace.Logging.Record
import Respace.Text.Split
import Respace.Text.Quoted

/-! Counting the tokens of a text with an encoder that fits the model. Encoders are loaded by name and
    kept; where none answers, a quarter of the characters is the estimate. -/

namespace Respace.Format

open Logging

/-- Why a loader gives no encoder: it does not know the name, or loading failed. -/
inductive LoadError where
  | unknown (message : String)
  | failed (message : String)

/-- An encoder counts the tokens of a text, or says why it does not. -/
abbrev Encoder := String → Except String Nat

/-- A loader gives the encoder of a name. -/
abbrev Loader := String → Except LoadError Encoder

/-- Why tokens are not counted. -/
inductive TokenError where
  | notLoaded (cause : LoadError)
  | notEncoded (message : String)
  | notText (kind : String)

def TokenError.message : TokenError → String
  | notLoaded (.unknown m) => m
  | notLoaded (.failed m) => m
  | notEncoded m => m
  | notText kind => quote kind ++ " object has no attribute 'lower'"

def noEncoders : Loader := fun _ => .error (.failed "encoder unavailable")

def modernEncoding : String := "o200k_base"

/-- The encoding of older models, and of names that the loader does not know. -/
def legacyEncoding : String := "cl100k_base"

/-- What the names of older models hold. -/
def legacyMarkers : List String := ["gpt-4-", "gpt-3.5", "legacy"]

/-- Whether a text stands somewhere in another. -/
def occursIn (part : List Char) : List Char → Bool
  | [] => part.isEmpty
  | c :: cs => part.isPrefixOf (c :: cs) || occursIn part cs

/-- The name of the encoding of a model. -/
def encodingOf (model : String) : String :=
  let name := Text.lowered model.toList
  if legacyMarkers.any fun m => occursIn m.toList name then legacyEncoding else modernEncoding

/-- The name of the encoding of the model that a value names. A model that is not given is a recent
    one. -/
def encodingName (model : Json) : Except TokenError String :=
  match model with
  | .text s => .ok (encodingOf s)
  | v => if v.isGiven then .error (.notText v.kindName) else .ok modernEncoding

/-- The estimate of a text's tokens: a quarter of its characters, rounded up. -/
def estimate (text : String) : Nat := (text.length + 3) / 4

/-- The encoders loaded so far. -/
abbrev Encoders := List (String × Encoder)

/-- What a count leaves behind: the encoders loaded, and the names asked of the loader, in order. -/
structure Loaded where
  encoders : Encoders
  requested : List String

/-- The encoder of a name, loaded unless it is kept. A name that is not known stands for the encoding of
    older models. -/
def encoderOf (load : Loader) (kept : Encoders) (name : String) :
    Except TokenError Encoder × Loaded :=
  match kept.lookup name with
  | some e => (.ok e, ⟨kept, []⟩)
  | none =>
    match load name with
    | .ok e => (.ok e, ⟨(name, e) :: kept, [name]⟩)
    | .error (.failed m) => (.error (.notLoaded (.failed m)), ⟨kept, [name]⟩)
    | .error (.unknown _) =>
      match load legacyEncoding with
      | .ok e => (.ok e, ⟨(name, e) :: kept, [name, legacyEncoding]⟩)
      | .error e => (.error (.notLoaded e), ⟨kept, [name, legacyEncoding]⟩)

/-- The tokens of a text as the encoder of the model counts them. An empty text has none. -/
def encode (load : Loader) (kept : Encoders) (text : String) (model : Json) :
    Except TokenError Nat × Loaded :=
  if text.isEmpty then (.ok 0, ⟨kept, []⟩)
  else match encodingName model with
    | .error e => (.error e, ⟨kept, []⟩)
    | .ok name =>
      let (found, loaded) := encoderOf load kept name
      (found.bind fun e => (e text).mapError .notEncoded, loaded)

/-- The tokens of a text as its encoder counts them, or else their estimate and a warning. -/
def countTokens (load : Loader) (kept : Encoders) (text : String) (model : Json) :
    Nat × List Record × Loaded :=
  match encode load kept text model with
  | (.ok n, loaded) => (n, [], loaded)
  | (.error e, loaded) =>
    (estimate text,
      [⟨.warning, "Token encoder failed: " ++ e.message ++ ". Using heuristic fallback."⟩], loaded)

end Respace.Format
