import StakingHub.Json.Reader
import StakingHub.Service.Fault

/-!
# Requests and failure answers

A request is a JSON object; its fields are read by name. A request fails with a crypto fault,
a service fault, a record that does not decode, or a request that is malformed itself (a field
missing or of the wrong kind, hex of the request that does not read). Each failure becomes an
answer object naming its kind.

Required fields must be present (a `null` counts as present) and of their kind. Optional fields
are read only when they hold a value of their kind; any other value counts as absent.
-/

namespace StakingHub.Protocol

open Json

/-- Why a request has no ordinary answer. -/
inductive Failure where
  | crypto (fault : CryptoFault)
  | service (fault : ServiceFault)
  | record (error : Json.Error)
  | request (text : String)

/-- A request's outcome. -/
abbrev Outcome := Except Failure Value

/-- The answer object of a failure. -/
def Failure.toValue : Failure → Value
  | .crypto f =>
    .object [("error", .string ("CryptoError::" ++ f.kind)), ("message", .string f.message)]
  | .service f =>
    .object [("error", .string ("MockError::" ++ f.kind)), ("message", .string f.message),
      ("key", .string f.key), ("category", .string f.category.name),
      ("programmer_error", .bool f.isSetupFault)]
  | .record e => .object [("error", .string "SerdeError"), ("message", .string e.message)]
  | .request t => .object [("error", .string "DriverError"), ("message", .string t)]

/-- The answer of an outcome. -/
def Outcome.toValue : Outcome → Value
  | .ok v => v
  | .error f => f.toValue

/-- Lifts a crypto result. -/
def liftCrypto (r : Except CryptoFault α) : Except Failure α :=
  r.mapError .crypto

/-- Lifts a service result. -/
def liftService (r : Except ServiceFault α) : Except Failure α :=
  r.mapError .service

/-- A request failure. -/
def malformed (text : String) : Except Failure α :=
  .error (.request text)

/-- A field that must be present; a `null` value counts as present. -/
def need (req : Value) (name : String) : Except Failure Value :=
  match req.field? name with
  | some v => .ok v
  | none => malformed ("missing field " ++ name)

/-- Whether the request has a field of this name, whatever its value. -/
def has (req : Value) (name : String) : Bool :=
  (req.field? name).isSome

/-- The text of a field that holds a string. -/
def stringOf? : Option Value → Option String
  | some (.string s) => some s
  | _ => none

/-- The count of a field that holds a non-negative integer. -/
def natOf? : Option Value → Option Nat
  | some (.number (.unsigned n)) => some n
  | _ => none

/-- An optional string field: a field of another kind reads as absent. -/
def optString (req : Value) (name : String) : Option String :=
  stringOf? (req.field? name)

/-- An optional count field: a field of another kind reads as absent. -/
def optNat (req : Value) (name : String) : Option Nat :=
  natOf? (req.field? name)

/-- A string field. -/
def needString (req : Value) (name : String) : Except Failure String := do
  match stringOf? (some (← need req name)) with
  | some s => pure s
  | none => malformed ("field " ++ name ++ " must be a string")

/-- A count field: a non-negative integer below `2^64`. -/
def needNat (req : Value) (name : String) : Except Failure Nat := do
  match natOf? (some (← need req name)) with
  | some n => pure n
  | none => malformed ("field " ++ name ++ " must be a non-negative integer")

/-- An array field; a field that is missing or of another kind is refused alike. -/
def needArray (req : Value) (name : String) : Except Failure (List Value) :=
  match req.field? name with
  | some (.array items) => .ok items
  | _ => malformed (name ++ " must be an array")

/-- Hex carried by the request itself: an optional lowercase `0x`, then digits that must
read. -/
def requestHex (text : String) : Except Failure (List UInt8) :=
  let digits := match text.toUTF8.toList with
    | 0x30 :: 0x78 :: rest => rest
    | bytes => bytes
  match Hex.decodeDigits digits with
  | .ok bytes => .ok bytes
  | .error f => malformed ("bad hex in input: " ++ f.message)

/-- A hex field of the request. -/
def needHex (req : Value) (name : String) : Except Failure (List UInt8) := do
  requestHex (← needString req name)

/-- Hex of the request that must hold exactly 32 bytes. -/
def requestHex32 (text : String) : Except Failure (List UInt8) := do
  let bytes ← requestHex text
  if bytes.length = 32 then pure bytes
  else malformed ("expected 32 bytes, got " ++ toString bytes.length)

/-- A hex field of the request that must hold exactly 32 bytes. -/
def needHex32 (req : Value) (name : String) : Except Failure (List UInt8) := do
  requestHex32 (← needString req name)

/-- Bytes given as text (`name`) or as hex (`name_hex`): a `name_hex` field, of any value,
wins and must be a string. -/
def needData (req : Value) (name : String) : Except Failure (List UInt8) :=
  match req.field? (name ++ "_hex") with
  | some (.string t) => requestHex t
  | some _ => malformed (name ++ "_hex must be a string")
  | none => do pure (← needString req name).toUTF8.toList

end StakingHub.Protocol
