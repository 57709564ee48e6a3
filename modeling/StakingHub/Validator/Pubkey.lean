import StakingHub.Crypto.Fault
import StakingHub.Bytes.Hex

/-!
# Validator public keys

A validator is named by its 48-byte BLS public key. It is read from hex text (prefix optional)
and shown as `0x` and 96 lowercase digits; inside records it is written without the prefix.

Modelled on `ValidatorPubkey` (`crates/ns-mock/src/domain/value_objects.rs:13-60`).
-/

namespace StakingHub

/-- The length of a validator public key in bytes. -/
def validatorPubkeyLength : Nat := 48

/-- A 48-byte validator public key. -/
structure ValidatorPubkey where
  bytes : List UInt8
  length_eq : bytes.length = validatorPubkeyLength
  deriving DecidableEq

namespace ValidatorPubkey

/-- The key of 48 bytes, if there are 48. -/
def ofBytes? (bytes : List UInt8) : Option ValidatorPubkey :=
  if h : bytes.length = validatorPubkeyLength then some ⟨bytes, h⟩ else none

/-- Reads a key: a hex fault first, then a length other than 48. -/
def parse (text : String) : Except CryptoFault ValidatorPubkey := do
  let bytes ← decodeHex text
  match ofBytes? bytes with
  | some key => pure key
  | none => throw (.invalidKeyLength validatorPubkeyLength bytes.length)

/-- `0x` and the lowercase digits. -/
def toHex (k : ValidatorPubkey) : String :=
  Hex.encode k.bytes

/-- The lowercase digits without prefix, as records write the key. -/
def toBare (k : ValidatorPubkey) : String :=
  Hex.bare k.bytes

/-- Keys are ordered by their bytes. -/
def compare (a b : ValidatorPubkey) : Ordering :=
  Bytes.compareLex a.bytes b.bytes

instance : Ord ValidatorPubkey := ⟨compare⟩

end ValidatorPubkey

end StakingHub
