import StakingHub.Protocol.Request
import StakingHub.Secp256k1.Ecdsa
import StakingHub.Approval.Digest

/-!
# Answers about keys, signatures and approval digests
-/

namespace StakingHub.Protocol

open Json Secp256k1

/-- `{"signature", "v"}` of a signature. -/
def signatureAnswer (sig : Signature) : Value :=
  .object [("signature", .string sig.toHex), ("v", .nat sig.v.toNat)]

/-- `{"address", "secret"}` of a secret key. -/
def answerKeyAddress (req : Value) : Outcome := do
  let key ← liftCrypto (SecretKey.parse (← needString req "secret"))
  pure (.object [("address", .string key.address.checksum),
    ("secret", .string (Hex.encode key.toBytes))])

/-- A personal message signed by a secret key. -/
def answerSignPersonal (req : Value) : Outcome := do
  let key ← liftCrypto (SecretKey.parse (← needString req "secret"))
  let message ← needData req "message"
  signatureAnswer <$> liftCrypto (signPersonal key message)

/-- A 32-byte digest signed by a secret key. -/
def answerSignPrehash (req : Value) : Outcome := do
  let key ← liftCrypto (SecretKey.parse (← needString req "secret"))
  let digest ← needHex32 req "digest"
  signatureAnswer <$> liftCrypto (sign key digest)

/-- The address that signed a digest. -/
def answerRecover (req : Value) : Outcome := do
  let digest ← needHex32 req "digest"
  let sig ← liftCrypto (Signature.parse (← needString req "signature"))
  let a ← liftCrypto (recoverAddress digest sig)
  pure (.object [("address", .string a.checksum)])

/-- The address that signed a personal message. -/
def answerRecoverPersonal (req : Value) : Outcome := do
  let message ← needData req "message"
  let sig ← liftCrypto (Signature.parse (← needString req "signature"))
  let a ← liftCrypto (recoverPersonal message sig)
  pure (.object [("address", .string a.checksum)])

/-- A recovery byte normalised. -/
def answerNormalizeRecoveryId (req : Value) : Outcome := do
  let v ← needNat req "v"
  if v ≥ 256 then malformed "v must fit in a byte"
  let w ← liftCrypto (normalizeRecoveryId v.toUInt8)
  pure (.object [("v", .nat w.toNat)])

/-- A signature read, with its recovery byte as received and normalised. -/
def answerSignatureParse (req : Value) : Outcome := do
  let sig ← liftCrypto (Signature.parse (← needString req "input"))
  let normalized ← liftCrypto sig.normalized
  pure (.object [("signature", .string sig.toHex), ("v", .nat sig.v.toNat),
    ("normalized", .string normalized.toHex)])

/-- An address field, read as the service reads addresses. -/
def needAddress (req : Value) (name : String) : Except Failure Address := do
  liftCrypto (Address.parse (← needString req name))

/-- Why salt text does not read as a 256-bit number. -/
inductive SaltFault where
  /-- A decimal text holds a byte that is no digit. -/
  | decimalCharacter
  /-- A decimal text stands for `2^256` or more. -/
  | decimalLength
  /-- A hex text has more than 64 digits. -/
  | hexLength
  /-- A hex text holds a byte that is no digit, at this offset of the text padded to even
  length. -/
  | hexCharacter (byte : UInt8) (offset : Nat)

/-- The text a salt fault is reported with. -/
def SaltFault.message : SaltFault → String
  | .decimalCharacter => "InvalidCharacter"
  | .decimalLength => "InvalidLength"
  | .hexLength =>
    "FromStrRadixErr \x7b kind: InvalidLength, source: Some(Hex(FromHexError \x7b inner: " ++
      "InvalidStringLength \x7d)) \x7d"
  | .hexCharacter byte offset =>
    "FromStrRadixErr \x7b kind: InvalidCharacter, source: Some(Hex(FromHexError \x7b inner: " ++
      "InvalidHexCharacter \x7b c: " ++ Text.quoteChar (Char.ofNat byte.toNat) ++ ", index: " ++
      toString offset ++ " \x7d \x7d)) \x7d"

/-- The bound that salts stay below. -/
def saltBound : Nat := Nat.pow 2 256

/-- Decimal digits read from the left; the first byte that is no digit, or the first digit
that takes the value to `2^256` or past it, is the fault. -/
def readDecimalSalt : List UInt8 → Nat → Except SaltFault Nat
  | [], acc => .ok acc
  | b :: rest, acc =>
    if b < 0x30 || 0x39 < b then .error .decimalCharacter
    else if saltBound ≤ acc * 10 + (b - 0x30).toNat then .error .decimalLength
    else readDecimalSalt rest (acc * 10 + (b - 0x30).toNat)

/-- Hex digits of a salt: one more `0x` may lead, at most 64 digits follow, and an odd count
is read with a `0` in front. -/
def readHexSalt (digits : List UInt8) : Except SaltFault Nat :=
  let digits := match digits with
    | 0x30 :: 0x78 :: rest => rest
    | d => d
  if 64 < digits.length then .error .hexLength
  else
    match Hex.decodeDigits (if digits.length % 2 = 1 then 0x30 :: digits else digits) with
    | .ok bytes => .ok (Bytes.toNat bytes)
    | .error (.badDigit b i) => .error (.hexCharacter b i)
    | .error .oddLength => .error .hexLength

/-- Salt text: `0x` and hex digits, or else decimal digits; the empty text is zero. -/
def readSalt (text : String) : Except SaltFault Nat :=
  match text.toUTF8.toList with
  | 0x30 :: 0x78 :: digits => readHexSalt digits
  | digits => readDecimalSalt digits 0

/-- A 256-bit salt: a non-negative integer below `2^64`, or salt text. -/
def needSalt (req : Value) : Except Failure Nat := do
  match ← need req "salt" with
  | .number (.unsigned n) => pure n
  | .number _ => malformed "salt must be non-negative"
  | .string s => (readSalt s).mapError fun f => .request ("bad salt: " ++ f.message)
  | _ => malformed "salt must be a number or string"

/-- The whitelist approval digest. -/
def answerWhitelistHash (req : Value) : Outcome := do
  let node ← needAddress req "node"
  let whitelist ← needAddress req "whitelist"
  let nonce ← needNat req "nonce"
  let chainId ← needNat req "chain_id"
  pure (.object [("hash", .string (Hex.encode (Approval.whitelistHash node whitelist nonce chainId)))])

/-- The salt commitment and the salt's word. -/
def answerSaltCommitment (req : Value) : Outcome := do
  let node ← needAddress req "node"
  let salt ← needSalt req
  pure (.object [("hash", .string (Hex.encode (Approval.saltCommitment salt node))),
    ("salt_word", .string (Hex.encode (Approval.uintWord salt)))])

/-- The deposit approval digest. -/
def answerDepositHash (req : Value) : Outcome := do
  let minipool ← needAddress req "minipool"
  let salt ← needSalt req
  let node ← needAddress req "node"
  let factory ← needAddress req "factory"
  let nonce ← needNat req "nonce"
  let chainId ← needNat req "chain_id"
  let subject : Approval.DepositSubject := ⟨minipool, salt, node, factory, nonce, chainId⟩
  pure (.object [("hash", .string (Hex.encode (Approval.depositHash subject)))])

end StakingHub.Protocol
