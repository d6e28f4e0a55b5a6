import Respace.Format.Tokens

/-! Encoders that are kept from one count to the next. What is kept under a name is what a first look-up of
    that name gives, whatever was asked for before and whatever failed on the way: a name that is not known
    is kept with the encoder of older models, and a look-up that fails keeps nothing. So the requests to one
    service are answered as if each of them were the first. -/

namespace Respace.Format

open Logging

variable {load : Loader} {kept : Encoders} {name : String}

/-! ### One look-up -/

/-- What the first look-up of a name gives. -/
def Loader.encoder (load : Loader) (name : String) : Except TokenError Encoder :=
  (encoderOf load [] name).1

/-- Whether each encoder that is kept is the one that the first look-up of its name gives. -/
def Loader.Gave (load : Loader) (kept : Encoders) : Prop :=
  ∀ name e, kept.lookup name = some e → load.encoder name = .ok e

theorem Loader.gave_nil (load : Loader) : load.Gave [] := nofun

theorem Loader.Gave.cons {e : Encoder} (h : load.Gave kept) (he : load.encoder name = .ok e) :
    load.Gave ((name, e) :: kept) := by
  intro name' e' hfound
  rw [List.lookup_cons] at hfound
  split at hfound
  · next hname => rw [eq_of_beq hname, he, Option.some.inj hfound]
  · exact h name' e' hfound

/-- A name that is not kept is looked up as it is the first time, and kept if that gives an encoder. -/
theorem encoderOf_of_lookup_none (hn : kept.lookup name = none) :
    (encoderOf load kept name).1 = load.encoder name ∧
      ((encoderOf load kept name).2.encoders = kept ∨
        ∃ e, load.encoder name = .ok e ∧
          (encoderOf load kept name).2.encoders = (name, e) :: kept) := by
  simp only [Loader.encoder, encoderOf, hn, List.lookup_nil]
  cases load name with
  | ok e => exact ⟨rfl, .inr ⟨e, rfl, rfl⟩⟩
  | error cause =>
    cases cause with
    | failed m => exact ⟨rfl, .inl rfl⟩
    | unknown m =>
      -- the name is kept with the encoder of older models, if that can be loaded
      cases load legacyEncoding with
      | ok e => exact ⟨rfl, .inr ⟨e, rfl, rfl⟩⟩
      | error cause => exact ⟨rfl, .inl rfl⟩

/-- What a look-up gives does not depend on what is kept, and what it keeps is what it gives. -/
theorem encoderOf_of_gave (h : load.Gave kept) (name : String) :
    (encoderOf load kept name).1 = load.encoder name ∧
      load.Gave (encoderOf load kept name).2.encoders := by
  cases hk : kept.lookup name with
  | some e =>
    have hfound : encoderOf load kept name = (.ok e, ⟨kept, []⟩) := by rw [encoderOf, hk]
    rw [hfound]
    exact ⟨(h name e hk).symm, h⟩
  | none =>
    obtain ⟨hsame, hkept | ⟨e, he, hkept⟩⟩ := encoderOf_of_lookup_none hk
    · rw [hkept]
      exact ⟨hsame, h⟩
    · rw [hkept]
      exact ⟨hsame, h.cons he⟩

/-! ### One count -/

/-- The count of an encoder, or the error in its place, does not depend on what is kept. -/
theorem encode_of_gave (h : load.Gave kept) (text : String) (model : Json) :
    (encode load kept text model).1 = (encode load [] text model).1 ∧
      load.Gave (encode load kept text model).2.encoders := by
  rw [encode, encode]
  split
  · exact ⟨rfl, h⟩
  · cases encodingName model with
    | error e => exact ⟨rfl, h⟩
    | ok name =>
      obtain ⟨hsame, hkept⟩ := encoderOf_of_gave h name
      rw [Loader.encoder] at hsame
      dsimp only
      rw [hsame]
      exact ⟨rfl, hkept⟩

/-- A request to count the tokens of a text for a model. -/
structure TokenRequest where
  text : String
  model : Json

namespace TokenRequest

/-- What a service answers to a request: the number of tokens, and what is logged. -/
def answer (load : Loader) (kept : Encoders) (r : TokenRequest) : Nat × List Record :=
  let (count, records, _) := countTokens load kept r.text r.model
  (count, records)

/-- The encoders that a service keeps after a request. -/
def keptAfter (load : Loader) (kept : Encoders) (r : TokenRequest) : Encoders :=
  (countTokens load kept r.text r.model).2.2.encoders

/-- What is answered to a request does not depend on what is kept. -/
theorem answer_of_gave (h : load.Gave kept) (r : TokenRequest) :
    r.answer load kept = r.answer load [] ∧ load.Gave (r.keptAfter load kept) := by
  obtain ⟨hsame, hkept⟩ := encode_of_gave h r.text r.model
  rw [answer, answer, keptAfter, countTokens, countTokens]
  generalize encode load kept r.text r.model = now at hsame hkept
  generalize encode load [] r.text r.model = first at hsame
  obtain ⟨result, loaded⟩ := now
  obtain ⟨result', loaded'⟩ := first
  obtain rfl : result = result' := hsame
  cases result with
  | ok n => exact ⟨rfl, hkept⟩
  | error e => exact ⟨rfl, hkept⟩

end TokenRequest

/-! ### A run of requests -/

/-- What a service answers to requests, one after another. -/
def answers (load : Loader) (kept : Encoders) : List TokenRequest → List (Nat × List Record)
  | [] => []
  | r :: rest => r.answer load kept :: answers load (r.keptAfter load kept) rest

theorem answers_of_gave (h : load.Gave kept) (requests : List TokenRequest) :
    answers load kept requests = requests.map (·.answer load []) := by
  induction requests generalizing kept with
  | nil => rfl
  | cons r rest ih =>
    obtain ⟨hsame, hkept⟩ := r.answer_of_gave h
    rw [answers, List.map_cons, hsame, ih hkept]

/-- A service answers each of its requests as a new service does that is asked for nothing else. -/
theorem answers_eq_map (load : Loader) (requests : List TokenRequest) :
    answers load [] requests = requests.map (·.answer load []) :=
  answers_of_gave load.gave_nil requests

end Respace.Format
