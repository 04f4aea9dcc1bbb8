import BlindPass.Canon.Fields
import BlindPass.Fleet.Base64
import BlindPass.Fleet.Documents

/-!
# Reading and writing bodies

Every body of the fleet channel is an object that is read field by field: unknown, repeated and
missing fields are refused, and a body is written only after its checks passed. This file has
the errors and the accessors that all bodies share.
-/

namespace BlindPass.Fleet

inductive DocumentError
  | canonical (error : Canon.CanonicalError)
  | crypto
  | invalid (reason : String)
  deriving DecidableEq

/-- Go on only if a check holds. -/
def ensure (check : Bool) (reason : String) : Except DocumentError Unit :=
  if check then .ok () else .error (.invalid reason)

theorem ensure_eq_ok {check : Bool} {reason : String} {u : Unit} :
    ensure check reason = .ok u ↔ check = true := by
  cases check <;> simp [ensure]

/-- Go on only with something. -/
def orInvalid {α : Type} (x : Option α) (reason : String) : Except DocumentError α :=
  x.elim (.error (.invalid reason)) .ok

/-- `canonicalize_value`, with the error of a document. -/
def canonicalized (v : Value) : Except DocumentError (List UInt8) :=
  (Canon.canonicalizeValue v).mapError .canonical

theorem canonicalized_eq_ok {v : Value} {bytes : List UInt8} :
    canonicalized v = .ok bytes ↔ Canon.canonicalizeValue v = .ok bytes := by
  unfold canonicalized
  cases Canon.canonicalizeValue v <;> simp [Except.mapError]

/-! ### Fields -/

namespace Value

@[simp] theorem get_cons (key : String) (v : Value) (fields : List (String × Value))
    (name : String) :
    (object ((key, v) :: fields)).get name =
      if key = name then some v else (object fields).get name := by
  rw [get_object, List.find?_cons]
  by_cases h : key = name
  · simp [h]
  · have hne : (key == name) = false := by simpa using h
    simp only [hne, if_neg h, get_object]

@[simp] theorem str_cons (key : String) (v : Value) (fields : List (String × Value))
    (name : String) :
    (object ((key, v) :: fields)).str name =
      if key = name then v.asStr else (object fields).str name := by
  rw [str, get_cons]
  split <;> rfl

@[simp] theorem u64_cons (key : String) (v : Value) (fields : List (String × Value))
    (name : String) :
    (object ((key, v) :: fields)).u64 name =
      if key = name then v.asU64 else (object fields).u64 name := by
  rw [u64, get_cons]
  split <;> rfl

@[simp] theorem asStr_string (text : String) : (string text).asStr = some text := rfl

@[simp] theorem asU64_unsigned (n : ℕ) : (unsigned n).asU64 = some n := rfl

end Value

/-- The body has fields under these names only, each once, and all that are required. -/
def checkNames (names required optional : List String) : Except DocumentError Unit := do
  ensure (decide names.Nodup && names.all fun name => required.contains name || optional.contains name)
    "unexpected body fields"
  ensure (required.all names.contains) "missing body field"

def expectFields (v : Value) (required optional : List String) : Except DocumentError Unit := do
  let fields ← orInvalid v.asObject "body must be an object"
  checkNames (fields.map Prod.fst) required optional

def requiredString (v : Value) (name : String) : Except DocumentError String :=
  orInvalid (v.str name) "body string field"

def requiredNumber (v : Value) (name : String) : Except DocumentError ℕ :=
  orInvalid (v.u64 name) "body integer field"

/-- A field that may be missing, but holds a text if it is there. -/
def optionalString (v : Value) (name label : String) : Except DocumentError (Option String) :=
  match v.get name with
  | none => .ok none
  | some x => (orInvalid x.asStr label).map some

/-- The field of a text that may be missing. -/
def optionalField (name : String) (text : Option String) : List (String × Value) :=
  text.toList.map fun value => (name, .string value)

def validateOpaqueId (value label : String) : Except DocumentError Unit :=
  ensure (isValidOpaqueId value) label

def validateToken (value label : String) : Except DocumentError Unit :=
  ensure (isValidToken value) label

def validateUnit (value : String) : Except DocumentError Unit :=
  ensure (isValidUnit value) "system unit"

def validateAccount (value : String) : Except DocumentError Unit :=
  ensure (isValidAccountIdentifier value) "account"

def validateCeiling (seconds : ℕ) : Except DocumentError Unit :=
  ensure (isValidCeiling seconds) "local ceiling"

def validBase64UrlText (value : String) : Bool :=
  value.toList.all fun c => c.isAlphanum || c == '_' || c == '-'

def validSha256Hex (value : String) : Bool :=
  value.utf8ByteSize == 64 && value.toList.all fun c => c.isDigit || ('a' ≤ c && c ≤ 'f')

/-! ### Bodies -/

/-- How the body of a document is read and written: the fields it may have, how they are read,
the checks it passes, and its fields. -/
structure Body (α : Type) where
  required : List String
  optional : List String
  read : Value → Except DocumentError α
  check : α → Except DocumentError Unit
  fields : α → List (String × Value)

namespace Body

variable {α : Type} (b : Body α)

def toValue (a : α) : Except DocumentError Value := do
  b.check a
  return .object (b.fields a)

/-- `from_value`: what was read must be fit to be written. -/
def ofValue (v : Value) : Except DocumentError α := do
  expectFields v b.required b.optional
  let a ← b.read v
  let _ ← b.toValue a
  return a

end Body

end BlindPass.Fleet
