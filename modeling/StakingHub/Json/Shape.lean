import StakingHub.Json.Lexer
import StakingHub.Bytes.Hex

/-!
# Records of a fixed shape

A record's shape names its fields in order and gives each field's form: a 64-bit number
written as a decimal string, bytes of a fixed length written as bare hex digits, a 64-bit
number, a string, or a nested record. A record is read from a JSON value or, streaming, from
JSON text; both accept an object (unknown members skipped, every field required) or an array
of the fields in order. Reading gives a `Datum` in the shape's layout.

The two readers report the first fault in the order they meet it. From a value, members are
visited in ascending key order. From text, members are visited in the order written; a fault
found inside a field's string is placed after the string, one about the record as a whole
after the record's closing bracket.

The shapes are those the records of `crates/ns-mock/src/domain/payloads.rs:12-110` derive.
-/

namespace StakingHub.Json

/-- The form of a record field. -/
inductive Shape where
  /-- An unsigned 64-bit number written as a decimal string. -/
  | decimalText
  /-- Bytes of the given length written as bare hex digits. -/
  | hexBytes (length : Nat)
  /-- An unsigned 64-bit number. -/
  | natural
  /-- A string. -/
  | text
  /-- A record with named fields. -/
  | record (name : String) (fields : List (String × Shape))

/-- A record's content in the layout of its shape. -/
inductive Datum where
  | nat (n : Nat)
  | bytes (b : List UInt8)
  | text (s : String)
  | record (fields : List Datum)
  deriving Repr, Inhabited

/-- What a fault says a shape expected. -/
def Shape.expecting : Shape → String
  | .decimalText | .hexBytes _ | .text => "a string"
  | .natural => "u64"
  | .record name _ => "struct " ++ name

/-- How deep records may nest. -/
def nestingLimit : Nat := 16

/-! ### Leaves -/

/-- Reads an unsigned 64-bit number from decimal text, with an optional leading `+`. -/
def parseDecimal (s : String) : Except String Nat :=
  let digits := match s.toList with
    | '+' :: rest => if rest.isEmpty then none else some rest
    | [] => some []
    | cs => some cs
  match s.toList, digits with
  | [], _ => .error "cannot parse integer from empty string"
  | _, none => .error "invalid digit found in string"
  | _, some cs =>
    cs.foldlM (fun acc c =>
      if c.isDigit then
        let v := acc * 10 + (c.toNat - 48)
        if v ≥ Nat.pow 2 64 then .error "number too large to fit in target type" else .ok v
      else .error "invalid digit found in string") 0

/-- The bytes of bare hex text of a fixed length. -/
def parseHexBytes (length : Nat) (s : String) : Except String (List UInt8) :=
  match Hex.decodeDigits s.toUTF8.toList with
  | .error f => .error f.message
  | .ok bytes =>
    if bytes.length = length then .ok bytes
    else .error ("Can't convert a Byte Vector of length " ++ toString bytes.length ++
      " to the output type.")

/-- A leaf read from a string. -/
def leafOfString : Shape → String → Except String Datum
  | .decimalText, s => .nat <$> parseDecimal s
  | .hexBytes n, s => .bytes <$> parseHexBytes n s
  | _, s => .ok (.text s)

/-! ### From a value -/

/-- The `Option` slots of a record's fields after one member. -/
def fillSlot (slots : List (Option Datum)) (j : Nat) (d : Datum) : List (Option Datum) :=
  slots.set j (some d)

/-- The first field without a value, if any. -/
def firstMissing (fields : List (String × Shape)) (slots : List (Option Datum)) : Option String :=
  ((fields.zip slots).find? fun p => p.2.isNone).map fun p => p.1.1

/-- A shape fault with no place. -/
def unplaced (f : Fault) : Error := { fault := f }

/-- What an array too short for a record is reported as expecting. -/
def itemsExpected (name : String) (count : Nat) : String :=
  "struct " ++ name ++ " with " ++ toString count ++ " elements"

/-- Reads a datum of a shape from a value; `fuel` bounds the nesting of records. -/
def decodeValueAt : Nat → Shape → Value → Except Error Datum
  | 0, _, _ => .error (unplaced (.custom "recursion limit exceeded"))
  | fuel + 1, shape, v =>
    match shape, v with
    | .natural, .number (.unsigned n) => .ok (.nat n)
    | .natural, .number (.signed i) => .error (unplaced (.invalidValue (.signed i) "u64"))
    | .record _ fields, .object members => do
      let slots ← members.foldlM (fun (slots : List (Option Datum)) (member : String × Value) =>
        match fields.findIdx? (fun f => f.1 == member.1) with
        | some j =>
          match slots.getD j none with
          | some _ => .error (unplaced (.duplicateField member.1))
          | none => do
            let d ← decodeValueAt fuel (fields.getD j ("", .text)).2 member.2
            pure (fillSlot slots j d)
        | none => pure slots) (fields.map fun _ => none)
      match firstMissing fields slots with
      | some f => .error (unplaced (.missingField f))
      | none => pure (.record (slots.map fun o => o.getD default))
    | .record name fields, .array items => do
      let (rest, acc) ← fields.zipIdx.foldlM
        (fun (st : List Value × List Datum) (field : (String × Shape) × Nat) =>
          match st.1 with
          | [] => .error (unplaced (.invalidLength field.2 (itemsExpected name fields.length)))
          | item :: rest => do
            let d ← decodeValueAt fuel field.1.2 item
            pure (rest, d :: st.2)) (items, [])
      if rest.isEmpty then pure (.record acc.reverse)
      else .error (unplaced (.invalidLength items.length "fewer elements in array"))
    | .natural, w => .error (unplaced (.invalidType w.found "u64"))
    | .record _ _, w => .error (unplaced (.invalidType w.found shape.expecting))
    | leaf, .string s =>
      match leafOfString leaf s with
      | .ok d => .ok d
      | .error t => .error (unplaced (.custom t))
    | leaf, w => .error (unplaced (.invalidType w.found leaf.expecting))

/-- Reads a datum of a shape from a value. -/
def Shape.decodeValue (shape : Shape) (v : Value) : Except Error Datum :=
  decodeValueAt nestingLimit shape v

end StakingHub.Json
