import Mathlib

/-!
# Values of the wire format

The bodies of node events travel as JSON. A body that reaches a function of the model was
parsed, so its object keys are distinct and its numbers are integers of 64 bits.
-/

namespace BlindPass.Fleet

inductive Value
  | null
  | bool (value : Bool)
  | integer (value : ℤ)
  | unsigned (value : ℕ)
  | string (value : String)
  | array (items : List Value)
  | object (fields : List (String × Value))
  deriving Repr

/-- The greatest integer the wire format carries exactly. -/
def maxSafeInteger : ℕ := 9007199254740991

/-- A text that may be missing. -/
def optionalValue (text : Option String) : Value := text.elim .null .string

namespace Value

/-- The fields of an object. -/
def asObject : Value → Option (List (String × Value))
  | object fields => some fields
  | _ => none

/-- A field of an object. -/
def get (v : Value) (name : String) : Option Value :=
  v.asObject.bind fun fields => (fields.find? fun f => f.1 == name).map Prod.snd

def asStr : Value → Option String
  | string value => some value
  | _ => none

def asU64 : Value → Option ℕ
  | unsigned value => some value
  | integer value => if 0 ≤ value then some value.toNat else none
  | _ => none

/-- A signed number of 64 bits. -/
def asI64 : Value → Option ℤ
  | unsigned value => if value < 2 ^ 63 then some value else none
  | integer value => some value
  | _ => none

/-- The items of an array. -/
def asArray : Value → Option (List Value)
  | array items => some items
  | _ => none

/-- A field that holds a text. -/
def str (v : Value) (name : String) : Option String := (v.get name).bind asStr

/-- A field that holds an unsigned number. -/
def u64 (v : Value) (name : String) : Option ℕ := (v.get name).bind asU64

/-- An object of this many fields, all of them among the names. -/
def hasFields (v : Value) (names : List String) : Bool :=
  v.asObject.any fun fields =>
    fields.length == names.length && fields.all fun f => names.contains f.1

end Value

end BlindPass.Fleet
