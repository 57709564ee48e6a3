import StakingHub.Json.Stream

/-!
# Signed voluntary exits

An exit message names an epoch and a validator index, both written as decimal strings, and
carries a 96-byte BLS signature written as bare hex. It is read from a JSON value or from JSON
text by the record shape below, and written back in the same form, fields in order.

Modelled on `ExitMessage` and `ExitMessageDetails` (`crates/ns-mock/src/domain/payloads.rs:50-66`).
-/

namespace StakingHub

/-- The length of a BLS signature. -/
def blsSignatureLength : Nat := 96

/-- The body of a voluntary exit. -/
structure ExitDetails where
  epoch : Nat
  validatorIndex : Nat
  deriving DecidableEq, Repr

/-- A signed voluntary exit. -/
structure ExitMessage where
  message : ExitDetails
  signature : List UInt8
  deriving DecidableEq, Repr

namespace ExitMessage

open Json

/-- The record shape of an exit message. -/
def shape : Shape :=
  .record "ExitMessage"
    [("message", .record "ExitMessageDetails"
        [("epoch", .decimalText), ("validator_index", .decimalText)]),
     ("signature", .hexBytes blsSignatureLength)]

/-- The exit message a datum of its shape holds. -/
def ofDatum : Datum → Except Error ExitMessage
  | .record [.record [.nat epoch, .nat index], .bytes signature] =>
    .ok ⟨⟨epoch, index⟩, signature⟩
  | _ => .error { fault := .custom "datum out of shape" }

/-- Reads an exit message from a JSON value. -/
def ofValue (v : Value) : Except Error ExitMessage := do
  ofDatum (← shape.decodeValue v)

/-- Reads an exit message from UTF-8 JSON text. -/
def ofText (bytes : List UInt8) : Except Error ExitMessage := do
  ofDatum (← shape.decodeText bytes)

/-- The JSON value of an exit message. -/
def toValue (m : ExitMessage) : Value :=
  .object [("message", .object [("epoch", .string (toString m.message.epoch)),
      ("validator_index", .string (toString m.message.validatorIndex))]),
    ("signature", .string (Hex.bare m.signature))]

/-- The compact JSON text of an exit message, as UTF-8. -/
def toText (m : ExitMessage) : List UInt8 :=
  m.toValue.render.toUTF8.toList

end ExitMessage

end StakingHub
