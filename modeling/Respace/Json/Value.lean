import Respace.Number.Binary64

/-! Values of documents. A whole number is told apart from a number with a point or a power of ten, and
    the fields of an object keep the order in which they were first written. -/

namespace Respace

open Number

/-- A value of a document. -/
inductive Json where
  | null
  | bool (b : Bool)
  | integer (n : Int)
  | number (x : Binary64)
  | text (s : String)
  | list (items : List Json)
  | object (fields : List (String × Json))

namespace Json

/-- The kind of a value, as messages name it. -/
def kindName : Json → String
  | null => "NoneType"
  | bool _ => "bool"
  | integer _ => "int"
  | number _ => "float"
  | text _ => "str"
  | list _ => "list"
  | object _ => "dict"

/-- Whether a value counts as given: not missing, not zero and not empty. -/
def isGiven : Json → Bool
  | null => false
  | bool b => b
  | integer n => n != 0
  | number x => !x.isZero
  | text s => !s.isEmpty
  | list items => !items.isEmpty
  | object fields => !fields.isEmpty

/-- The fields after one of them is set: a field that exists keeps its place. -/
def setField (fields : List (String × Json)) (key : String) (value : Json) : List (String × Json) :=
  match fields with
  | [] => [(key, value)]
  | (k, v) :: rest => if k == key then (k, value) :: rest else (k, v) :: setField rest key value

/-- The object that a run of fields spells: of two fields of one name the later value counts, in the
    place of the earlier. -/
def ofFields (fields : List (String × Json)) : Json :=
  object (fields.foldl (fun fs f => setField fs f.1 f.2) [])

/-- A field of an object; other values have none. -/
def field? : Json → String → Option Json
  | object fields, key => fields.lookup key
  | _, _ => none

end Json

end Respace
