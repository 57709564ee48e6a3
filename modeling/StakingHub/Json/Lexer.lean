import StakingHub.Json.Fault

/-!
# Reading the tokens of JSON text

JSON text is read as bytes from an offset; each reader returns what it read and the offset
after it. Faults are placed at the offset where they are found, or at the byte after the one
looked at when the fault is about a byte not yet taken ("peeked"). Loops take a fuel argument
of one more than the length of the text: every round takes at least one byte, so the fuel
never runs out on any text.

It is the first stage of reading the records of `crates/ns-mock/src/domain/payloads.rs:12-110`.
-/

namespace StakingHub.Json

/-- A reader's result: the value and the offset after it. -/
abbrev Step (α : Type) := Except Error (α × Nat)

/-- The line and column of an offset. -/
def positionOf (s : ByteArray) (i : Nat) : Position :=
  (s.extract 0 i).toList.foldl
    (fun p b => if b = 0x0a then ⟨p.line + 1, 0⟩ else ⟨p.line, p.column + 1⟩) ⟨1, 0⟩

/-- A malformation at an offset. -/
def failAt (s : ByteArray) (i : Nat) (f : Malformation) : Except Error α :=
  .error ⟨.malformed f, some (positionOf s i)⟩

/-- A malformation about the byte at offset `i`, not yet taken. -/
def failPeek (s : ByteArray) (i : Nat) (f : Malformation) : Except Error α :=
  failAt s (min s.size (i + 1)) f

/-- Places a fault that has no place yet at an offset. -/
def placeAt (s : ByteArray) (i : Nat) (e : Error) : Error :=
  match e.position with
  | some _ => e
  | none => { e with position := some (positionOf s i) }

/-- A shape fault with no place yet. -/
def shapeFault (f : Fault) : Except Error α :=
  .error { fault := f }

/-- The byte at an offset, if the text is that long. -/
def byteAt? (s : ByteArray) (i : Nat) : Option UInt8 :=
  if h : i < s.size then some s[i] else none

/-- Whether a byte is a decimal digit. -/
def isDigit (b : UInt8) : Bool := 0x30 ≤ b && b ≤ 0x39

/-- The offset of the first byte at or after `i` that is no space, tab, line feed or carriage
return. -/
def skipBlank (s : ByteArray) (i : Nat) : Nat :=
  if h : i < s.size then
    let b := s[i]
    if b = 0x20 || b = 0x0a || b = 0x09 || b = 0x0d then skipBlank s (i + 1) else i
  else i
termination_by s.size - i

/-- The offset after the digits starting at `i`. -/
def skipDigits (s : ByteArray) (i : Nat) : Nat :=
  if h : i < s.size then
    if isDigit s[i] then skipDigits s (i + 1) else i
  else i
termination_by s.size - i

/-- Reads the rest of a keyword, its first byte already taken. -/
def readIdent (s : ByteArray) : Nat → List UInt8 → Except Error Nat
  | i, [] => .ok i
  | i, b :: rest =>
    match byteAt? s i with
    | none => failAt s i .eofWhileParsingValue
    | some c => if c = b then readIdent s (i + 1) rest else failAt s (i + 1) .expectedSomeIdent

/-! ### Numbers -/

/-- The greatest unsigned 64-bit integer. -/
def u64Max : Nat := Nat.pow 2 64 - 1

/-- The greatest signed 32-bit integer. -/
def i32Max : Int := 2147483647

/-- Clamps to the signed 32-bit range. -/
def saturate32 (x : Int) : Int := max (-2147483648) (min i32Max x)

/-- Divides by `10^308` until the decimal exponent is within reach of one power of ten. -/
def scaleDown (f : Binary64) (exponent : Int) : Nat → Binary64
  | 0 => f
  | fuel + 1 =>
    if exponent.natAbs ≤ 308 then Binary64.div f (Binary64.pow10 exponent.natAbs)
    else if f.isZero then f
    else scaleDown (Binary64.div f (Binary64.pow10 308)) (exponent + 308) fuel

/-- `± significand · 10^exponent` by one rounding of the significand and one multiplication or
division by the nearest binary64 power of ten; `none` when the result overflows. -/
def fromParts (positive : Bool) (significand : Nat) (exponent : Int) : Option Binary64 :=
  let f := Binary64.ofNat significand
  let result :=
    if 0 ≤ exponent then
      if exponent ≤ 308 then
        let g := Binary64.mul f (Binary64.pow10 exponent.toNat)
        if g.isInfinite then none else some g
      else if f.isZero then some f
      else none
    else some (scaleDown f exponent (exponent.natAbs / 308 + 2))
  result.map fun g => if positive then g else g.neg

/-- `fromParts` at an offset, overflow being a fault there. -/
def fromPartsAt (s : ByteArray) (i : Nat) (positive : Bool) (significand : Nat)
    (exponent : Int) : Step Number :=
  match fromParts positive significand exponent with
  | some f => .ok (.float f, i)
  | none => failAt s i .numberOutOfRange

/-- The exponent digits after the first; `exp` so far. Overflow past the 32-bit range ends
the number as zero, or as a fault for a nonzero significand and a positive exponent. -/
def readExponentDigits (s : ByteArray) (positive : Bool) (significand : Nat) (start : Int)
    (positiveExp : Bool) : Nat → Nat → Nat → Step Number
  | 0, i, _ => failAt s i .eofWhileParsingValue
  | fuel + 1, i, exp =>
    match byteAt? s i with
    | some c =>
      if isDigit c then
        let d := (c - 0x30).toNat
        if (exp * 10 + d : Int) > i32Max then
          if significand ≠ 0 && positiveExp then failAt s (i + 1) .numberOutOfRange
          else
            let j := skipDigits s (i + 1)
            .ok (.float (.finite (!positive) 0 Binary64.minExponent), j)
        else readExponentDigits s positive significand start positiveExp fuel (i + 1) (exp * 10 + d)
      else
        fromPartsAt s i positive significand
          (if positiveExp then saturate32 (start + exp) else saturate32 (start - exp))
    | none =>
      fromPartsAt s i positive significand
        (if positiveExp then saturate32 (start + exp) else saturate32 (start - exp))

/-- The exponent part; `e` or `E` is at `i`. -/
def readExponent (s : ByteArray) (positive : Bool) (significand : Nat) (start : Int)
    (i : Nat) : Step Number :=
  let j := i + 1
  let (positiveExp, k) :=
    match byteAt? s j with
    | some 0x2b => (true, j + 1)
    | some 0x2d => (false, j + 1)
    | _ => (true, j)
  match byteAt? s k with
  | none => failAt s k .eofWhileParsingValue
  | some c =>
    if isDigit c then
      readExponentDigits s positive significand start positiveExp (s.size + 1) (k + 1)
        (c - 0x30).toNat
    else failAt s (k + 1) .invalidNumber

/-- After the fraction digits that no longer fit: skip the rest, then an exponent or the end. -/
def afterDecimalOverflow (s : ByteArray) (positive : Bool) (significand : Nat) (exponent : Int)
    (i : Nat) : Step Number :=
  let j := skipDigits s i
  match byteAt? s j with
  | some 0x65 | some 0x45 => readExponent s positive significand exponent j
  | _ => fromPartsAt s j positive significand exponent

/-- The fraction digits; `after` counts them, negated. -/
def readFraction (s : ByteArray) (positive : Bool) (before : Int) :
    Nat → Nat → Nat → Int → Step Number
  | 0, i, _, _ => failAt s i .eofWhileParsingValue
  | fuel + 1, i, significand, after =>
    match byteAt? s i with
    | some c =>
      if isDigit c then
        let d := (c - 0x30).toNat
        if significand * 10 + d > u64Max then
          afterDecimalOverflow s positive significand (before + after) i
        else readFraction s positive before fuel (i + 1) (significand * 10 + d) (after - 1)
      else if after = 0 then failPeek s i .invalidNumber
      else if c = 0x65 || c = 0x45 then readExponent s positive significand (before + after) i
      else fromPartsAt s i positive significand (before + after)
    | none =>
      if after = 0 then failPeek s i .eofWhileParsingValue
      else fromPartsAt s i positive significand (before + after)

/-- The digits of an integer part too long for 64 bits: each one more power of ten. -/
def readLongInteger (s : ByteArray) (positive : Bool) (significand : Nat) :
    Nat → Nat → Int → Step Number
  | 0, i, _ => failAt s i .eofWhileParsingValue
  | fuel + 1, i, exponent =>
    match byteAt? s i with
    | some c =>
      if isDigit c then readLongInteger s positive significand fuel (i + 1) (exponent + 1)
      else if c = 0x2e then readFraction s positive exponent (s.size + 1) (i + 1) significand 0
      else if c = 0x65 || c = 0x45 then readExponent s positive significand exponent i
      else fromPartsAt s i positive significand exponent
    | none => fromPartsAt s i positive significand exponent

/-- The number after its integer part, which has value `significand`. -/
def readNumberTail (s : ByteArray) (positive : Bool) (significand : Nat) (i : Nat) :
    Step Number :=
  match byteAt? s i with
  | some 0x2e => readFraction s positive 0 (s.size + 1) (i + 1) significand 0
  | some 0x65 | some 0x45 => readExponent s positive significand 0 i
  | _ =>
    if positive then .ok (.unsigned significand, i)
    else if significand = 0 || significand > Nat.pow 2 63 then
      .ok (.float (Binary64.ofNat significand).neg, i)
    else .ok (.signed (-(significand : Int)), i)

/-- The digits of the integer part after the first. -/
def readIntegerDigits (s : ByteArray) (positive : Bool) : Nat → Nat → Nat → Step Number
  | 0, i, _ => failAt s i .eofWhileParsingValue
  | fuel + 1, i, significand =>
    match byteAt? s i with
    | some c =>
      if isDigit c then
        let d := (c - 0x30).toNat
        if significand * 10 + d > u64Max then
          readLongInteger s positive significand (s.size + 1) i 0
        else readIntegerDigits s positive fuel (i + 1) (significand * 10 + d)
      else readNumberTail s positive significand i
    | none => readNumberTail s positive significand i

/-- A number whose sign, if any, is already taken; its first digit is at `i`. -/
def readNumber (s : ByteArray) (positive : Bool) (i : Nat) : Step Number :=
  match byteAt? s i with
  | none => failAt s i .eofWhileParsingValue
  | some 0x30 =>
    match byteAt? s (i + 1) with
    | some c => if isDigit c then failPeek s (i + 1) .invalidNumber
      else readNumberTail s positive 0 (i + 1)
    | none => readNumberTail s positive 0 (i + 1)
  | some c =>
    if isDigit c then readIntegerDigits s positive (s.size + 1) (i + 1) (c - 0x30).toNat
    else failAt s (i + 1) .invalidNumber

/-! ### Strings -/

/-- The value of four hex digits. -/
def hexQuad (a b c d : UInt8) : Option Nat := do
  let v (x : UInt8) : Option Nat :=
    if isDigit x then some (x - 0x30).toNat
    else if 0x61 ≤ x && x ≤ 0x66 then some (x - 0x61 + 10).toNat
    else if 0x41 ≤ x && x ≤ 0x46 then some (x - 0x41 + 10).toNat
    else none
  pure ((((← v a) * 16 + (← v b)) * 16 + (← v c)) * 16 + (← v d))

/-- Four hex digits of a `u` escape starting at `i`. -/
def readHexQuad (s : ByteArray) (i : Nat) : Step Nat :=
  match byteAt? s i, byteAt? s (i + 1), byteAt? s (i + 2), byteAt? s (i + 3) with
  | some a, some b, some c, some d =>
    match hexQuad a b c d with
    | some n => .ok (n, i + 4)
    | none => failAt s (i + 4) .invalidEscape
  | _, _, _, _ => failAt s s.size .eofWhileParsingString

/-- The UTF-8 bytes of a code point. -/
def utf8Bytes (n : Nat) : List UInt8 :=
  if n < 0x80 then [n.toUInt8]
  else if n < 0x800 then [(0xc0 + n / 64).toUInt8, (0x80 + n % 64).toUInt8]
  else if n < 0x10000 then
    [(0xe0 + n / 4096).toUInt8, (0x80 + n / 64 % 64).toUInt8, (0x80 + n % 64).toUInt8]
  else
    [(0xf0 + n / 262144).toUInt8, (0x80 + n / 4096 % 64).toUInt8, (0x80 + n / 64 % 64).toUInt8,
     (0x80 + n % 64).toUInt8]

/-- A `u` escape, its four digits starting at `i`; a leading surrogate must be followed by a
trailing one in a second escape. -/
def readUnicodeEscape (s : ByteArray) (i : Nat) : Except Error (List UInt8 × Nat) := do
  let (n, j) ← readHexQuad s i
  if 0xDC00 ≤ n && n ≤ 0xDFFF then failAt s j .loneLeadingSurrogateInHexEscape
  else if n < 0xD800 || n > 0xDBFF then pure (utf8Bytes n, j)
  else
    match byteAt? s j with
    | none => failAt s j .eofWhileParsingString
    | some 0x5c =>
      match byteAt? s (j + 1) with
      | none => failAt s (j + 1) .eofWhileParsingString
      | some 0x75 =>
        let (n2, k) ← readHexQuad s (j + 2)
        if n2 < 0xDC00 || n2 > 0xDFFF then failAt s k .loneLeadingSurrogateInHexEscape
        else pure (utf8Bytes ((((n - 0xD800) * 1024) ||| (n2 - 0xDC00)) + 0x10000), k)
      | some _ => failAt s (j + 2) .unexpectedEndOfHexEscape
    | some _ => failAt s (j + 1) .unexpectedEndOfHexEscape

/-- An escape; the byte after the backslash is at `i`. -/
def readEscape (s : ByteArray) (i : Nat) : Step (List UInt8) :=
  match byteAt? s i with
  | none => failAt s i .eofWhileParsingString
  | some 0x22 => .ok ([0x22], i + 1)
  | some 0x5c => .ok ([0x5c], i + 1)
  | some 0x2f => .ok ([0x2f], i + 1)
  | some 0x62 => .ok ([0x08], i + 1)
  | some 0x66 => .ok ([0x0c], i + 1)
  | some 0x6e => .ok ([0x0a], i + 1)
  | some 0x72 => .ok ([0x0d], i + 1)
  | some 0x74 => .ok ([0x09], i + 1)
  | some 0x75 => readUnicodeEscape s (i + 1)
  | some _ => failAt s (i + 1) .invalidEscape

/-- How many continuation bytes a leading byte asks for, and the range its first continuation
byte must lie in (narrower after `E0`, `ED`, `F0` and `F4`, which rules out overlong forms,
surrogates and code points past `10FFFF`); `none` for a byte that cannot start a sequence. -/
def leadShape (b : UInt8) : Option (Nat × UInt8 × UInt8) :=
  if 0xC2 ≤ b && b ≤ 0xDF then some (1, 0x80, 0xBF)
  else if b = 0xE0 then some (2, 0xA0, 0xBF)
  else if b = 0xED then some (2, 0x80, 0x9F)
  else if 0xE1 ≤ b && b ≤ 0xEF then some (2, 0x80, 0xBF)
  else if b = 0xF0 then some (3, 0x90, 0xBF)
  else if b = 0xF4 then some (3, 0x80, 0x8F)
  else if 0xF1 ≤ b && b ≤ 0xF3 then some (3, 0x80, 0xBF)
  else none

/-- Whether a byte continues a multi-byte sequence. -/
def isContinuation (c : UInt8) : Bool :=
  0x80 ≤ c && c ≤ 0xBF

/-- The offset of the first byte that does not start a well-formed UTF-8 sequence, counting
the first byte as offset `k`; `none` when all the bytes are well formed. -/
def utf8InvalidAt? : List UInt8 → Nat → Option Nat
  | [], _ => none
  | b :: rest, k =>
    if b < 0x80 then utf8InvalidAt? rest (k + 1)
    else
      match leadShape b, rest with
      | some (1, lo, hi), c1 :: rest1 =>
        if lo ≤ c1 && c1 ≤ hi then utf8InvalidAt? rest1 (k + 2) else some k
      | some (2, lo, hi), c1 :: c2 :: rest2 =>
        if lo ≤ c1 && c1 ≤ hi && isContinuation c2 then utf8InvalidAt? rest2 (k + 3)
        else some k
      | some (3, lo, hi), c1 :: c2 :: c3 :: rest3 =>
        if lo ≤ c1 && c1 ≤ hi && isContinuation c2 && isContinuation c3 then
          utf8InvalidAt? rest3 (k + 4)
        else some k
      | _, _ => some k

/-- The bytes of a string up to its closing quote, escapes decoded; `acc` holds those read so
far. -/
def readStringBytes (s : ByteArray) : Nat → Nat → Array UInt8 → Except Error (Array UInt8 × Nat)
  | 0, i, _ => failAt s i .eofWhileParsingString
  | fuel + 1, i, acc =>
    match byteAt? s i with
    | none => failAt s i .eofWhileParsingString
    | some 0x22 => .ok (acc, i + 1)
    | some 0x5c => do
      let (bytes, j) ← readEscape s (i + 1)
      readStringBytes s fuel j (acc ++ bytes.toArray)
    | some b =>
      if b < 0x20 then failAt s (i + 1) .controlCharacterWhileParsingString
      else readStringBytes s fuel (i + 1) (acc.push b)

/-- A string whose opening quote is just before `i`. Its decoded bytes must be UTF-8, which is
checked once the closing quote is read; a fault is placed as far before the offset after the
quote as the decoded bytes reach past the well-formed ones. Without escapes that is just after
the first byte that is not well formed; each escape, shorter decoded than written, moves the
place towards the end. -/
def readString (s : ByteArray) (i : Nat) : Except Error (String × Nat) := do
  let (bytes, j) ← readStringBytes s (s.size + 1) i #[]
  match utf8InvalidAt? bytes.toList 0 with
  | some k => failAt s (j - bytes.size + k) .invalidUnicodeCodePoint
  | none =>
    match String.fromUTF8? ⟨bytes⟩ with
    | some text => pure (text, j)
    | none => failAt s j .invalidUnicodeCodePoint

/-! ### Skipping a value -/

/-- Skips an escape; the byte after the backslash is at `i`. -/
def skipEscape (s : ByteArray) (i : Nat) : Except Error Nat :=
  match byteAt? s i with
  | none => failAt s i .eofWhileParsingString
  | some c =>
    if c = 0x22 || c = 0x5c || c = 0x2f || c = 0x62 || c = 0x66 || c = 0x6e || c = 0x72 ||
        c = 0x74 then .ok (i + 1)
    else if c = 0x75 then (readHexQuad s (i + 1)).map Prod.snd
    else failAt s (i + 1) .invalidEscape

/-- Skips a string whose opening quote is just before `i`, without checking its bytes. -/
def skipString (s : ByteArray) : Nat → Nat → Except Error Nat
  | 0, i => failAt s i .eofWhileParsingString
  | fuel + 1, i =>
    match byteAt? s i with
    | none => failAt s i .eofWhileParsingString
    | some 0x22 => .ok (i + 1)
    | some 0x5c => do skipString s fuel (← skipEscape s (i + 1))
    | some b => if b < 0x20 then failAt s i .controlCharacterWhileParsingString
      else skipString s fuel (i + 1)

/-- Skips an exponent; `e` or `E` is at `i`. -/
def skipExponent (s : ByteArray) (i : Nat) : Except Error Nat :=
  let j := match byteAt? s (i + 1) with
    | some 0x2b | some 0x2d => i + 2
    | _ => i + 1
  match byteAt? s j with
  | some c => if isDigit c then .ok (skipDigits s (j + 1)) else failAt s (j + 1) .invalidNumber
  | none => failAt s j .invalidNumber

/-- Skips a number whose sign, if any, is taken; no range is checked. -/
def skipNumber (s : ByteArray) (i : Nat) : Except Error Nat := do
  let j ← match byteAt? s i with
    | some 0x30 =>
      match byteAt? s (i + 1) with
      | some c => if isDigit c then failPeek s (i + 1) .invalidNumber else pure (i + 1)
      | none => pure (i + 1)
    | some c => if isDigit c then pure (skipDigits s (i + 1)) else failAt s (i + 1) .invalidNumber
    | none => failAt s i .invalidNumber
  match byteAt? s j with
  | some 0x2e =>
    let k := skipDigits s (j + 1)
    if k = j + 1 then failPeek s k .invalidNumber
    else match byteAt? s k with
      | some 0x65 | some 0x45 => skipExponent s k
      | _ => pure k
  | some 0x65 | some 0x45 => skipExponent s j
  | _ => pure j

/-- After a value inside the open brackets `stack` (innermost first): takes closing brackets
and then a comma. Gives `inl` and the offset after the last bracket when the outermost value
is complete, or `inr` with the offset and the open brackets where the next member starts.
`comma` says whether a comma may come (not so right after an opening bracket). -/
def afterValue (s : ByteArray) :
    Nat → Nat → List UInt8 → Bool → Except Error (Nat ⊕ (Nat × List UInt8))
  | 0, i, _, _ => failAt s i .eofWhileParsingValue
  | _ + 1, i, [], _ => .ok (.inl i)
  | fuel + 1, i, frame :: rest, comma =>
    let j := skipBlank s i
    match byteAt? s j with
    | none => failPeek s j (if frame = 0x5b then .eofWhileParsingList else .eofWhileParsingObject)
    | some c =>
      if c = 0x2c && comma then .ok (.inr (j + 1, frame :: rest))
      else if (c = 0x5d && frame = 0x5b) || (c = 0x7d && frame = 0x7b) then
        match rest with
        | [] => .ok (.inl (j + 1))
        | _ => afterValue s fuel (j + 1) rest true
      else if comma then
        failPeek s j (if frame = 0x5b then .expectedListCommaOrEnd else .expectedObjectCommaOrEnd)
      else .ok (.inr (j, frame :: rest))

/-- Inside an object, the key and colon before a member's value. -/
def skipKey (s : ByteArray) (i : Nat) : Except Error Nat := do
  let j := skipBlank s i
  match byteAt? s j with
  | some 0x22 => pure ()
  | some _ => failPeek s j .keyMustBeAString
  | none => failPeek s j .eofWhileParsingObject
  let k ← skipString s (s.size + 1) (j + 1)
  let m := skipBlank s k
  match byteAt? s m with
  | some 0x3a => pure (m + 1)
  | some _ => failPeek s m .expectedColon
  | none => failPeek s m .eofWhileParsingObject

/-- Skips values of any shape inside the open brackets `stack`, checking their syntax, until
the outermost is complete; with no bracket open, skips one value. -/
def skipValueIn (s : ByteArray) : Nat → Nat → List UInt8 → Except Error Nat
  | 0, i, _ => failAt s i .eofWhileParsingValue
  | fuel + 1, i, stack => do
    let j := skipBlank s i
    let (start, open_, fresh) ← match byteAt? s j with
      | none => failPeek s j .eofWhileParsingValue
      | some 0x6e => do pure ((← readIdent s (j + 1) [0x75, 0x6c, 0x6c]), stack, false)
      | some 0x74 => do pure ((← readIdent s (j + 1) [0x72, 0x75, 0x65]), stack, false)
      | some 0x66 => do pure ((← readIdent s (j + 1) [0x61, 0x6c, 0x73, 0x65]), stack, false)
      | some 0x2d => do pure ((← skipNumber s (j + 1)), stack, false)
      | some 0x22 => do pure ((← skipString s (s.size + 1) (j + 1)), stack, false)
      | some 0x5b => pure (j + 1, 0x5b :: stack, true)
      | some 0x7b => pure (j + 1, 0x7b :: stack, true)
      | some c =>
        if isDigit c then do pure ((← skipNumber s j), stack, false)
        else failPeek s j .expectedSomeValue
    match open_ with
    | [] => pure start
    | _ =>
      match ← afterValue s (s.size + 1) start open_ (!fresh) with
      | .inl e => pure e
      | .inr (next, []) => pure next
      | .inr (next, frame :: rest) =>
        if frame = 0x7b then skipValueIn s fuel (← skipKey s next) (frame :: rest)
        else skipValueIn s fuel next (frame :: rest)

/-- Skips one value of any shape starting at `i`, checking its syntax. -/
def skipValue (s : ByteArray) (i : Nat) : Except Error Nat :=
  skipValueIn s (s.size + 1) i []

end StakingHub.Json
