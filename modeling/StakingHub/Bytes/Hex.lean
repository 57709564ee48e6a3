import StakingHub.Text.Quote

/-!
# Byte strings: hex text, big-endian numbers, order

Bytes are written as `0x` followed by two lowercase digits per byte. Reading accepts either
case, strips one leading `0x` or `0X`, and then reads the rest two digits at a time. A text
of odd length is refused before any digit is looked at; otherwise the first byte that is no
digit is reported with its offset after the prefix. Offsets count bytes of the UTF-8 text,
and the reported character is that byte read as a Latin-1 character
(`crates/ns-crypto/src/address.rs:14-26`, `decode_hex` and `encode_hex`).

A byte string read as a number is read most significant byte first; a number written as a
fixed number of bytes is written most significant first, dropping what does not fit. Byte
strings are ordered lexicographically, byte by byte, a proper prefix first; keys of the store
(addresses, and validator keys by their derived `Ord`, `crates/ns-mock/src/domain/value_objects.rs:17`)
are kept in this order.
-/

namespace StakingHub

/-- Why a text does not read as hex bytes. -/
inductive HexFault where
  /-- The text after the prefix has an odd number of bytes. -/
  | oddLength
  /-- The byte at this offset after the prefix is no hex digit. -/
  | badDigit (byte : UInt8) (offset : Nat)
  deriving DecidableEq, Repr

/-- The text a hex fault is reported with. -/
def HexFault.message : HexFault → String
  | .oddLength => "Odd number of digits"
  | .badDigit byte offset =>
    "Invalid character " ++ Text.quoteChar (Char.ofNat byte.toNat) ++ " at position " ++
      toString offset

namespace Hex

/-- The value of one hex digit, in either case. -/
def digitValue? (b : UInt8) : Option UInt8 :=
  if 0x30 ≤ b && b ≤ 0x39 then some (b - 0x30)
  else if 0x61 ≤ b && b ≤ 0x66 then some (b - 0x61 + 10)
  else if 0x41 ≤ b && b ≤ 0x46 then some (b - 0x41 + 10)
  else none

/-- The lowercase digit of a value below sixteen. -/
def digitChar (v : UInt8) : Char :=
  if v < 10 then Char.ofNat (0x30 + v.toNat) else Char.ofNat (0x61 + v.toNat - 10)

/-- The two lowercase digits of one byte, high half first. -/
def byteDigits (b : UInt8) : List Char :=
  [digitChar (b >>> 4), digitChar (b &&& 0x0f)]

/-- Bare lowercase digits of a byte string. -/
def bare (bytes : List UInt8) : String :=
  String.ofList (bytes.flatMap byteDigits)

/-- Bytes as `0x` and lowercase digits. -/
def encode (bytes : List UInt8) : String :=
  "0x" ++ bare bytes

/-- Reads digit pairs; `offset` is the offset of the first digit of the list. -/
def decodePairs : List UInt8 → Nat → Except HexFault (List UInt8)
  | hi :: lo :: rest, offset =>
    match digitValue? hi, digitValue? lo with
    | none, _ => .error (.badDigit hi offset)
    | some _, none => .error (.badDigit lo (offset + 1))
    | some h, some l => (decodePairs rest (offset + 2)).map fun tail => (h <<< 4 ||| l) :: tail
  | [_], _ => .error .oddLength
  | [], _ => .ok []

/-- Reads bare digits given as bytes: odd length first, then the digits in order. -/
def decodeDigits (digits : List UInt8) : Except HexFault (List UInt8) :=
  if digits.length % 2 = 1 then .error .oddLength else decodePairs digits 0

/-- The bytes after one leading `0x` or `0X`. -/
def stripPrefix : List UInt8 → List UInt8
  | 0x30 :: 0x78 :: rest => rest
  | 0x30 :: 0x58 :: rest => rest
  | bytes => bytes

/-- Reads hex text with an optional `0x` or `0X` prefix. -/
def decode (text : String) : Except HexFault (List UInt8) :=
  decodeDigits (stripPrefix text.toUTF8.toList)

end Hex

namespace Bytes

/-- The number a byte string spells, most significant byte first. -/
def toNat (bytes : List UInt8) : Nat :=
  bytes.foldl (fun acc b => acc * 256 + b.toNat) 0

/-- The last `length` bytes of a number, most significant first. -/
def ofNat (n : Nat) (length : Nat) : List UInt8 :=
  (List.range length).reverse.map fun i => (n / Nat.pow 256 i % 256).toUInt8

theorem length_ofNat (n length : Nat) : (ofNat n length).length = length := by
  simp [ofNat]

/-- Lexicographic comparison of byte strings. -/
def compareLex : List UInt8 → List UInt8 → Ordering
  | [], [] => .eq
  | [], _ :: _ => .lt
  | _ :: _, [] => .gt
  | a :: as, b :: bs =>
    if a < b then .lt else if b < a then .gt else compareLex as bs

/-- Whether the first byte string comes strictly before the second. -/
def lexLt (a b : List UInt8) : Bool :=
  compareLex a b == .lt

theorem compareLex_self (a : List UInt8) : compareLex a a = .eq := by
  induction a with
  | nil => rfl
  | cons x xs ih => simp [compareLex, ih]

end Bytes

end StakingHub
