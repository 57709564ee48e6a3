import StakingHub.Json.Shape

/-!
# Reading a record from JSON text

A record is read from text in one pass, member by member as written. A fault found in the
text itself is placed where it is found. A fault about a value (a wrong kind, a number too
large) is placed just after that value. A fault about hex digits or a byte count, and one about
the record as a whole (a missing or repeated field, too few items), is placed where the
enclosing record ends: after its closing bracket if that comes next, else after the blanks
that follow the point reached.

Every reader here takes one fuel argument, one more than the length of the text plus the
nesting limit: each step takes a byte or enters a record, so the fuel never runs out.

It reads the records of `crates/ns-mock/src/domain/payloads.rs:12-110` straight from text.
-/

namespace StakingHub.Json

/-- A fault met while reading, with the offset reached when it was found. -/
structure Halt where
  error : Error
  offset : Nat

/-- A reader's result: the datum and the offset after it, or where it halted. -/
abbrev Read := Except Halt (Datum × Nat)

/-- A lexer result as a reader result; its faults are placed already. -/
def ofLex (r : Except Error (α × Nat)) : Except Halt (α × Nat) :=
  r.mapError fun e => ⟨e, 0⟩

/-- A placed fault. -/
def haltAt (s : ByteArray) (i : Nat) (f : Fault) : Except Halt α :=
  .error ⟨{ fault := f, position := some (positionOf s i) }, i⟩

/-- A malformation about the byte at offset `i`. -/
def haltPeek (s : ByteArray) (i : Nat) (f : Malformation) : Except Halt α :=
  .error ⟨{ fault := .malformed f, position := some (positionOf s (min s.size (i + 1))) }, i⟩

/-- A value found where a shape expected something else: the value is read past (its own
faults win), and the fault placed after it; brackets are reported where they stand. -/
def wrongKindAt (s : ByteArray) (j : Nat) (expected : String) : Except Halt α :=
  let found : Except Error (Found × Nat) :=
    match byteAt? s j with
    | some 0x6e => (readIdent s (j + 1) [0x75, 0x6c, 0x6c]).map fun k => (.unit, k)
    | some 0x74 => (readIdent s (j + 1) [0x72, 0x75, 0x65]).map fun k => (.bool true, k)
    | some 0x66 => (readIdent s (j + 1) [0x61, 0x6c, 0x73, 0x65]).map fun k => (.bool false, k)
    | some 0x2d => (readNumber s false (j + 1)).map fun (n, k) => (n.found, k)
    | some 0x22 => (readString s (j + 1)).map fun (t, k) => (.str t, k)
    | some 0x5b => .ok (.seq, j)
    | some 0x7b => .ok (.map, j)
    | some c =>
      if isDigit c then (readNumber s true j).map fun (n, k) => (n.found, k)
      else failPeek s j .expectedSomeValue
    | none => failPeek s j .expectedSomeValue
  match found with
  | .ok (f, k) => haltAt s k (.invalidType f expected)
  | .error e => .error ⟨e, j⟩

/-- Places a halt that has no place yet at the offset given. -/
def Halt.settle (s : ByteArray) (h : Halt) (i : Nat) : Halt :=
  ⟨Json.placeAt s i h.error, i⟩

/-- Where an unplaced fault inside an object is placed: after the closing brace if it comes
next, else after the blanks. -/
def objectEndOffset (s : ByteArray) (i : Nat) : Nat :=
  let j := skipBlank s i
  if byteAt? s j = some 0x7d then j + 1 else j

/-- Where an unplaced fault inside an array is placed: after the closing bracket if it comes
next, after a comma and the blanks behind it, else after the blanks. -/
def arrayEndOffset (s : ByteArray) (i : Nat) : Nat :=
  let j := skipBlank s i
  match byteAt? s j with
  | some 0x5d => j + 1
  | some 0x2c => skipBlank s (j + 1)
  | _ => j

/-- The closing brace of an object whose members are all read. -/
def closeObject (s : ByteArray) (i : Nat) : Except Halt Nat :=
  let j := skipBlank s i
  match byteAt? s j with
  | some 0x7d => .ok (j + 1)
  | some 0x2c => haltPeek s j .trailingComma
  | some _ => haltPeek s j .trailingCharacters
  | none => haltPeek s j .eofWhileParsingObject

/-- The closing bracket of an array whose items are all read. -/
def closeArray (s : ByteArray) (i : Nat) : Except Halt Nat :=
  let j := skipBlank s i
  match byteAt? s j with
  | some 0x5d => .ok (j + 1)
  | some 0x2c =>
    let k := skipBlank s (j + 1)
    if byteAt? s k = some 0x5d then haltPeek s k .trailingComma
    else haltPeek s k .trailingCharacters
  | some _ => haltPeek s j .trailingCharacters
  | none => haltPeek s j .eofWhileParsingList

/-- A leaf read from a string: a decimal fault is placed after the string, a hex fault is
left for the enclosing record. -/
def leafAt (s : ByteArray) (leaf : Shape) (str : String) (k : Nat) : Read :=
  match leafOfString leaf str with
  | .ok d => .ok (d, k)
  | .error t =>
    match leaf with
    | .decimalText => haltAt s k (.custom t)
    | _ => .error ⟨{ fault := .custom t }, k⟩

/-- A 64-bit number, or the fault of the number found. -/
def naturalAt (s : ByteArray) (r : Except Error (Number × Nat)) : Read :=
  match r with
  | .error e => .error ⟨e, 0⟩
  | .ok (.unsigned n, k) => .ok (.nat n, k)
  | .ok (.signed i, k) => haltAt s k (.invalidValue (.signed i) "u64")
  | .ok (.float f, k) => haltAt s k (.invalidType (.float f) "u64")

/-- The start of the next member or item: after a comma unless it is the first. Gives `none`
at the closing bracket `close`. -/
def nextEntry (s : ByteArray) (i : Nat) (first : Bool) (close : UInt8)
    (eof commaOrEnd : Malformation) : Except Halt (Option Nat) :=
  let j := skipBlank s i
  match byteAt? s j with
  | none => haltPeek s j eof
  | some c =>
    if c = close then .ok none
    else if c = 0x2c && !first then .ok (some (skipBlank s (j + 1)))
    else if first then .ok (some j)
    else haltPeek s j commaOrEnd

mutual
/-- Reads a datum of a shape starting at or after `i`. -/
def readShape (s : ByteArray) : Nat → Shape → Nat → Read
  | 0, _, i => haltPeek s i .recursionLimitExceeded
  | fuel + 1, shape, i =>
    let j := skipBlank s i
    match shape with
    | .record name fields =>
      match byteAt? s j with
      | none => haltPeek s j .eofWhileParsingValue
      | some 0x7b =>
        match readRecordMembers s fuel name fields (j + 1) true (fields.map fun _ => none) with
        | .ok (d, k) => (closeObject s k).map fun m => (d, m)
        | .error h =>
          if h.error.position.isSome then .error h
          else .error (h.settle s (objectEndOffset s h.offset))
      | some 0x5b =>
        match readRecordItems s fuel name fields (j + 1) 0 [] with
        | .ok (d, k) => (closeArray s k).map fun m => (d, m)
        | .error h =>
          if h.error.position.isSome then .error h
          else .error (h.settle s (arrayEndOffset s h.offset))
      | some _ => wrongKindAt s j shape.expecting
    | .natural =>
      match byteAt? s j with
      | none => haltPeek s j .eofWhileParsingValue
      | some 0x2d => naturalAt s (readNumber s false (j + 1))
      | some c =>
        if isDigit c then naturalAt s (readNumber s true j) else wrongKindAt s j "u64"
    | leaf =>
      match byteAt? s j with
      | none => haltPeek s j .eofWhileParsingValue
      | some 0x22 =>
        match readString s (j + 1) with
        | .ok (str, k) => leafAt s leaf str k
        | .error e => .error ⟨e, j⟩
      | some _ => wrongKindAt s j leaf.expecting

/-- Reads object members into the field slots until the closing brace, which is left for
the caller; then requires every field. -/
def readRecordMembers (s : ByteArray) : Nat → String → List (String × Shape) → Nat → Bool →
    List (Option Datum) → Read
  | 0, _, _, i, _, _ => haltPeek s i .recursionLimitExceeded
  | fuel + 1, name, fields, i, first, slots =>
    match nextEntry s i first 0x7d .eofWhileParsingObject .expectedObjectCommaOrEnd with
    | .error h => .error h
    | .ok none =>
      match firstMissing fields slots with
      | some f => .error ⟨{ fault := .missingField f }, skipBlank s i⟩
      | none => .ok (.record (slots.map fun o => o.getD default), skipBlank s i)
    | .ok (some k) =>
      match byteAt? s k with
      | none => haltPeek s k .eofWhileParsingValue
      | some 0x7d => haltPeek s k .trailingComma
      | some 0x22 =>
        match readString s (k + 1) with
        | .error e => .error ⟨e, k⟩
        | .ok (key, m) =>
          let slot := fields.findIdx? (fun f => f.1 == key)
          match slot.bind fun j => slots.getD j none with
          | some _ => .error ⟨{ fault := .duplicateField key }, m⟩
          | none =>
            let n := skipBlank s m
            match byteAt? s n with
            | none => haltPeek s n .eofWhileParsingObject
            | some c =>
              if c ≠ 0x3a then haltPeek s n .expectedColon
              else
                match slot with
                | some j =>
                  match readShape s fuel (fields.getD j ("", .text)).2 (n + 1) with
                  | .ok (d, p) => readRecordMembers s fuel name fields p false (fillSlot slots j d)
                  | .error h => .error h
                | none =>
                  match skipValue s (n + 1) with
                  | .ok p => readRecordMembers s fuel name fields p false slots
                  | .error e => .error ⟨e, n⟩
      | some _ => haltPeek s k .keyMustBeAString

/-- Reads array items as the fields in order; the closing bracket is left for the caller. -/
def readRecordItems (s : ByteArray) : Nat → String → List (String × Shape) → Nat → Nat →
    List Datum → Read
  | 0, _, _, i, _, _ => haltPeek s i .recursionLimitExceeded
  | fuel + 1, name, fields, i, j, acc =>
    match fields.drop j with
    | [] => .ok (.record acc.reverse, i)
    | (_, shape) :: _ =>
      match nextEntry s i (j = 0) 0x5d .eofWhileParsingList .expectedListCommaOrEnd with
      | .error h => .error h
      | .ok none =>
        .error ⟨{ fault := .invalidLength j (itemsExpected name fields.length) }, skipBlank s i⟩
      | .ok (some k) =>
        match byteAt? s k with
        | some 0x5d => haltPeek s k .trailingComma
        | none => haltPeek s k .eofWhileParsingValue
        | some _ =>
          match readShape s fuel shape k with
          | .ok (d, p) => readRecordItems s fuel name fields p (j + 1) (d :: acc)
          | .error h => .error h
end

/-- Reads a record of a shape from UTF-8 bytes that hold it and nothing else but blanks. -/
def Shape.decodeText (shape : Shape) (bytes : List UInt8) : Except Error Datum :=
  let s := ByteArray.mk bytes.toArray
  match readShape s (s.size + nestingLimit + 2) shape 0 with
  | .error h => .error (placeAt s h.offset h.error)
  | .ok (d, k) =>
    let j := skipBlank s k
    if j < s.size then failPeek s j .trailingCharacters else .ok d

end StakingHub.Json
