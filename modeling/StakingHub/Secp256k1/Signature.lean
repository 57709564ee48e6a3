import StakingHub.Crypto.Fault

/-!
# Recoverable signatures

A recoverable signature is 65 bytes: `r` and `s` of 32 bytes each and a recovery byte `v`.
The recovery byte is accepted as 0 or 1, or as 27 or 28, and normalised to the latter.

Modelled on `normalize_recovery_id` and `RecoverableSignature`
(`crates/ns-crypto/src/ecdsa.rs:24-85`).
-/

namespace StakingHub

/-- The length of a recoverable signature. -/
def signatureLength : Nat := 65

/-- A 65-byte recoverable signature. -/
structure Signature where
  bytes : List UInt8
  length_eq : bytes.length = signatureLength
  deriving DecidableEq

/-- Normalises a recovery byte to 27 or 28. -/
def normalizeRecoveryId (v : UInt8) : Except CryptoFault UInt8 :=
  if v = 0 || v = 1 then .ok (v + 27)
  else if v = 27 || v = 28 then .ok v
  else .error (.invalidRecoveryId v)

namespace Signature

/-- The signature of 65 bytes; another length is a fault. -/
def ofBytes (bytes : List UInt8) : Except CryptoFault Signature :=
  if h : bytes.length = signatureLength then .ok ⟨bytes, h⟩
  else .error (.invalidSignatureLength signatureLength bytes.length)

/-- Reads a signature from hex text. -/
def parse (text : String) : Except CryptoFault Signature := do
  ofBytes (← decodeHex text)

/-- The recovery byte. -/
def v (sig : Signature) : UInt8 :=
  sig.bytes.getD 64 0

/-- The signature with its recovery byte replaced. -/
def withV (sig : Signature) (v : UInt8) : Signature :=
  ⟨sig.bytes.set 64 v, List.length_set.trans sig.length_eq⟩

/-- The signature with its recovery byte normalised. -/
def normalized (sig : Signature) : Except CryptoFault Signature := do
  pure (sig.withV (← normalizeRecoveryId sig.v))

/-- `0x` and the lowercase digits. -/
def toHex (sig : Signature) : String :=
  Hex.encode sig.bytes

end Signature

end StakingHub
