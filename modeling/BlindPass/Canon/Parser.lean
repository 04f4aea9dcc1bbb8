import BlindPass.Library.Transaction
import BlindPass.Library.Utf8
import BlindPass.Canon.Grammar

/-!
# The parser of signed documents

The parser goes through the bytes of a text by recursive descent. It counts the values and keeps
track of the nesting, so that a hostile document costs a bounded amount of work.
-/

namespace BlindPass.Canon

open Fleet (Value maxSafeInteger)
open Utf8 (encode)

inductive CanonicalError
  | tooLarge
  | tooDeep
  | tooManyValues
  | invalidJson
  | invalidString
  | invalidNumber
  | duplicateProperty
  deriving DecidableEq

def maxCanonicalJsonBytes : ℕ := 1024 * 1024

def maxDepth : ℕ := 64

def maxValues : ℕ := 100000

namespace Parser

/-- The bytes that are left, and the number of values seen. -/
structure State where
  rest : List UInt8
  values : ℕ

variable (bytes : List UInt8)

/-- The next byte, as the character of that code. -/
def peek : Option Char := bytes.head?.map Char.ofUInt8

/-- Pass over the expected byte. -/
def consume (expected : Char) (bytes : List UInt8) : Option (List UInt8) :=
  if peek bytes = some expected then some bytes.tail else none

def whitespace : List UInt8 :=
  bytes.dropWhile fun b => decide (IsSpace (Char.ofUInt8 b))

def literal (text : List Char) (bytes : List UInt8) : Except CanonicalError (List UInt8) :=
  if encode text <+: bytes then .ok (bytes.drop (encode text).length) else .error .invalidJson

/-! ### Numbers -/

def isAsciiDigit (b : UInt8) : Bool := (Char.ofUInt8 b).isDigit

/-- The value of digits, if it fits: `str::parse`. -/
def parseDigits (bound : ℕ) (digits : List UInt8) : Option ℕ :=
  let n := Nat.ofDigitChars 10 (digits.map Char.ofUInt8) 0
  if n ≤ bound then some n else none

/-- The digits of a number, without leading zeros. -/
def digits : Except CanonicalError (List UInt8 × List UInt8) :=
  match peek bytes with
  | some '0' =>
    if (peek bytes.tail).any Char.isDigit then .error .invalidNumber
    else .ok (bytes.take 1, bytes.tail)
  | some c =>
    if c.isDigit then .ok (bytes.takeWhile isAsciiDigit, bytes.dropWhile isAsciiDigit)
    else .error .invalidNumber
  | none => .error .invalidNumber

/-- The value of a number within the safe range. -/
def safeNumber (negative : Bool) (digits : List UInt8) : Except CanonicalError Value :=
  if negative then
    match parseDigits (2 ^ 63) digits with
    | none => .error .invalidNumber
    | some n => if maxSafeInteger < n then .error .invalidNumber else .ok (.integer (-(n : ℤ)))
  else
    match parseDigits (2 ^ 64 - 1) digits with
    | none => .error .invalidNumber
    | some n => if maxSafeInteger < n then .error .invalidNumber else .ok (.unsigned n)

def number : Except CanonicalError (Value × List UInt8) := do
  let negative := (consume '-' bytes).isSome
  let (raw, rest) ← digits ((consume '-' bytes).getD bytes)
  if (peek rest).any fun c => c = '.' || c = 'e' || c = 'E' then .error .invalidNumber
  else
    let v ← safeNumber negative raw
    return (v, rest)

/-! ### Strings -/

/-- The value of a hexadecimal digit. -/
def hexDigit? (c : Char) : Option ℕ :=
  if '0' ≤ c ∧ c ≤ '9' then some (c.toNat - '0'.toNat)
  else if 'a' ≤ c ∧ c ≤ 'f' then some (c.toNat - 'a'.toNat + 10)
  else if 'A' ≤ c ∧ c ≤ 'F' then some (c.toNat - 'A'.toNat + 10)
  else none

/-- Read digits into a value. -/
def hexValue (value : ℕ) : List UInt8 → Option ℕ
  | [] => some value
  | b :: rest => (hexDigit? (Char.ofUInt8 b)).bind fun digit => hexValue (value * 16 + digit) rest

def hexQuad : Except CanonicalError (ℕ × List UInt8) :=
  if bytes.length < 4 then .error .invalidString
  else
    match hexValue 0 (bytes.take 4) with
    | none => .error .invalidString
    | some value => .ok (value, bytes.drop 4)

def fromU32 (n : ℕ) : Option Char := if n.isValidChar then some (Char.ofNat n) else none

/-- The second half of a pair of surrogates. -/
def lowSurrogate (high : ℕ) (bytes : List UInt8) : Except CanonicalError (Char × List UInt8) := do
  match (consume '\\' bytes).bind (consume 'u') with
  | none => .error .invalidString
  | some rest =>
    let (low, rest) ← hexQuad rest
    if 0xdc00 ≤ low ∧ low ≤ 0xdfff then
      match fromU32 (0x10000 + (high - 0xd800) * 0x400 + (low - 0xdc00)) with
      | none => .error .invalidString
      | some c => .ok (c, rest)
    else .error .invalidString

/-- What follows `\u`. -/
def unicodeEscape : Except CanonicalError (Char × List UInt8) := do
  let (first, rest) ← hexQuad bytes
  if 0xd800 ≤ first ∧ first ≤ 0xdbff then lowSurrogate first rest
  else if 0xdc00 ≤ first ∧ first ≤ 0xdfff then .error .invalidString
  else
    match fromU32 first with
    | none => .error .invalidString
    | some c => .ok (c, rest)

/-- What follows a backslash. -/
def escaped : Except CanonicalError (Char × List UInt8) :=
  match peek bytes with
  | none => .error .invalidString
  | some '"' => .ok ('"', bytes.tail)
  | some '\\' => .ok ('\\', bytes.tail)
  | some '/' => .ok ('/', bytes.tail)
  | some 'b' => .ok ('\x08', bytes.tail)
  | some 'f' => .ok ('\x0c', bytes.tail)
  | some 'n' => .ok ('\n', bytes.tail)
  | some 'r' => .ok ('\r', bytes.tail)
  | some 't' => .ok ('\t', bytes.tail)
  | some 'u' => unicodeEscape bytes.tail
  | some _ => .error .invalidString

/-- One character of a string that does not end here. -/
def character (byte : Char) (bytes : List UInt8) : Except CanonicalError (Char × List UInt8) :=
  if byte = '\\' then escaped bytes.tail
  else if byte ≤ '\x1f' then .error .invalidString
  else if byte ≤ '\x7f' then .ok (byte, bytes.tail)
  else
    match Utf8.firstChar? bytes with
    | none => .error .invalidString
    | some c => .ok (c, bytes.drop c.utf8Size)

/-- The rest of a string after its first quote. Every round takes a byte, so the number of bytes
bounds the rounds. -/
def characters : ℕ → String → List UInt8 → Except CanonicalError (String × List UInt8)
  | 0, _, _ => .error .invalidString
  | rounds + 1, result, bytes =>
    match peek bytes with
    | none => .error .invalidString
    | some byte =>
      if byte = '"' then .ok (result, bytes.tail)
      else do
        let (c, rest) ← character byte bytes
        characters rounds (result.push c) rest

def string : Except CanonicalError (String × List UInt8) :=
  match consume '"' bytes with
  | none => .error .invalidString
  | some rest => characters (rest.length + 1) "" rest

/-! ### Values -/

/-- The items of an array after the first bracket. `value` reads one, and takes a byte at least. -/
def items (value : State → Except CanonicalError (Value × State)) :
    ℕ → List Value → State → Except CanonicalError (Value × State)
  | 0, _, _ => .error .invalidJson
  | rounds + 1, values, s => do
    let (v, s) ← value s
    let rest := whitespace s.rest
    match consume ']' rest with
    | some rest => .ok (.array (values ++ [v]), { s with rest := rest })
    | none =>
      match consume ',' rest with
      | some rest => items value rounds (values ++ [v]) { s with rest := rest }
      | none => .error .invalidJson

def array (value : State → Except CanonicalError (Value × State)) (s : State) :
    Except CanonicalError (Value × State) :=
  let rest := whitespace s.rest.tail
  match consume ']' rest with
  | some rest => .ok (.array [], { s with rest := rest })
  | none => items value (rest.length + 1) [] { s with rest := rest }

/-- The fields of an object after the first brace. -/
def fields (value : State → Except CanonicalError (Value × State)) :
    ℕ → List (String × Value) → State → Except CanonicalError (Value × State)
  | 0, _, _ => .error .invalidJson
  | rounds + 1, seen, s =>
    let rest := whitespace s.rest
    if peek rest ≠ some '"' then .error .invalidJson
    else do
      let (key, rest) ← string rest
      if (seen.map Prod.fst).contains key then .error .duplicateProperty
      else
        match consume ':' (whitespace rest) with
        | none => .error .invalidJson
        | some rest => do
          let (v, s) ← value { s with rest := rest }
          let rest := whitespace s.rest
          match consume '}' rest with
          | some rest => .ok (.object (seen ++ [(key, v)]), { s with rest := rest })
          | none =>
            match consume ',' rest with
            | some rest => fields value rounds (seen ++ [(key, v)]) { s with rest := rest }
            | none => .error .invalidJson

def object (value : State → Except CanonicalError (Value × State)) (s : State) :
    Except CanonicalError (Value × State) :=
  let rest := whitespace s.rest.tail
  match consume '}' rest with
  | some rest => .ok (.object [], { s with rest := rest })
  | none => fields value (rest.length + 1) [] { s with rest := rest }

/-- A value that may be nested this many levels deep, its own included. At most `limit` values are
read in all. -/
def value (limit : ℕ) : ℕ → State → Except CanonicalError (Value × State)
  | 0, _ => .error .tooDeep
  | levels + 1, s =>
    if limit < s.values + 1 then .error .tooManyValues
    else
      let s : State := ⟨whitespace s.rest, s.values + 1⟩
      match peek s.rest with
      | some 'n' => (literal ['n', 'u', 'l', 'l'] s.rest).map fun rest =>
          (.null, { s with rest := rest })
      | some 't' => (literal ['t', 'r', 'u', 'e'] s.rest).map fun rest =>
          (.bool true, { s with rest := rest })
      | some 'f' => (literal ['f', 'a', 'l', 's', 'e'] s.rest).map fun rest =>
          (.bool false, { s with rest := rest })
      | some '"' => (string s.rest).map fun r => (.string r.1, { s with rest := r.2 })
      | some '[' => array (value limit levels) s
      | some '{' => object (value limit levels) s
      | some c =>
        if c = '-' ∨ c.isDigit then (number s.rest).map fun r => (r.1, { s with rest := r.2 })
        else .error .invalidJson
      | none => .error .invalidJson

end Parser

def parseJson (source : String) : Except CanonicalError Value :=
  let bytes := encode source.toList
  if maxCanonicalJsonBytes < bytes.length then .error .tooLarge
  else do
    let (v, s) ← Parser.value maxValues (maxDepth + 1) ⟨bytes, 0⟩
    if Parser.whitespace s.rest ≠ [] then .error .invalidJson else return v

end BlindPass.Canon
