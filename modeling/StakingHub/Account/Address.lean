import StakingHub.Crypto.Fault
import StakingHub.Digest.Keccak
import StakingHub.Bytes.Hex

/-!
# Account addresses

An address is 20 bytes. It is read from hex text (prefix optional, either case) and written
in the mixed-case checksum form: the lowercase digits, with each letter raised to upper case
where the matching nibble of the Keccak-256 digest of the lowercase digits is 8 or more.

Modelled on `parse_address` and `to_checksum_address` (`crates/ns-crypto/src/address.rs:28-56`).
-/

namespace StakingHub

/-- A 20-byte account address. -/
structure Address where
  bytes : List UInt8
  length_eq : bytes.length = 20
  deriving DecidableEq

namespace Address

/-- The address of 20 bytes, if there are 20. -/
def ofBytes? (bytes : List UInt8) : Option Address :=
  if h : bytes.length = 20 then some ⟨bytes, h⟩ else none

/-- The address of twenty zero bytes. -/
def zero : Address :=
  ⟨List.replicate 20 0, List.length_replicate⟩

/-- Reads an address; any failure is reported with the whole input text. -/
def parse (text : String) : Except CryptoFault Address :=
  match Hex.decode text with
  | .error _ => .error (.invalidAddress text)
  | .ok bytes =>
    match ofBytes? bytes with
    | some address => .ok address
    | none => .error (.invalidAddress text)

/-- `0x` and the lowercase digits. -/
def toHex (a : Address) : String :=
  Hex.encode a.bytes

/-- The case of one digit under its digest nibble: letters go up where the nibble is 8 or
more. -/
def caseDigit (digit : Char) (nibble : UInt8) : Char :=
  if digit.isAlpha && nibble ≥ 8 then digit.toUpper else digit

/-- The mixed-case checksum text. -/
def checksum (a : Address) : String :=
  let digits := a.bytes.flatMap Hex.byteDigits
  let digest := Digest.keccak256 (String.ofList digits).toUTF8.toList
  let nibbles := digest.flatMap fun (b : UInt8) => [b >>> 4, b &&& 0x0f]
  "0x" ++ String.ofList (List.zipWith caseDigit digits nibbles)

/-- The address as a 32-byte word: twelve zero bytes, then the address. -/
def word (a : Address) : List UInt8 :=
  List.replicate 12 0 ++ a.bytes

/-- Addresses are ordered by their bytes. -/
def compare (a b : Address) : Ordering :=
  Bytes.compareLex a.bytes b.bytes

instance : Ord Address := ⟨compare⟩

end Address

end StakingHub
