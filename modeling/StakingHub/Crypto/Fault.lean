import StakingHub.Bytes.Hex

/-!
# Failures of the cryptographic layer

One inductive for every way decoding, signing, recovering, sealing and opening can fail, and
one function that gives each its text.

Modelled on `CryptoError` and its messages (`crates/ns-crypto/src/errors.rs:7-69`).
-/

namespace StakingHub

/-- Why a sealed payload cannot be opened before decryption is tried. -/
inductive SealedFault where
  /-- Shorter than an ephemeral key, a nonce and a tag together. -/
  | tooShort (length : Nat)
  /-- The ephemeral key gives the all-zero shared secret. -/
  | nonContributory
  deriving DecidableEq, Repr

/-- The smallest sealed payload: a 32-byte key, a 24-byte nonce and a 16-byte tag. -/
def minSealedLength : Nat := 72

/-- The text of a sealed-payload fault. -/
def SealedFault.message : SealedFault → String
  | .tooShort n =>
    "sealed payload is " ++ toString n ++ " bytes, need at least " ++ toString minSealedLength
  | .nonContributory => "non-contributory ephemeral key"

/-- A failure of hex decoding, key handling, signatures or sealing. -/
inductive CryptoFault where
  | decryptionFailed
  | invalidCiphertext (fault : SealedFault)
  | invalidKeyLength (expected actual : Nat)
  | invalidSignatureLength (expected actual : Nat)
  | invalidRecoveryId (v : UInt8)
  | recoveryFailed
  | signingFailed
  | invalidPublicKey
  | invalidPrivateKey
  | invalidSignature
  | invalidHex (fault : HexFault)
  | invalidAddress (text : String)
  deriving DecidableEq, Repr

namespace CryptoFault

/-- The name of the fault's kind. -/
def kind : CryptoFault → String
  | .decryptionFailed => "DecryptionFailed"
  | .invalidCiphertext _ => "InvalidCiphertext"
  | .invalidKeyLength .. => "InvalidKeyLength"
  | .invalidSignatureLength .. => "InvalidSignatureLength"
  | .invalidRecoveryId _ => "InvalidRecoveryId"
  | .recoveryFailed => "RecoveryFailed"
  | .signingFailed => "SigningFailed"
  | .invalidPublicKey => "InvalidPublicKey"
  | .invalidPrivateKey => "InvalidPrivateKey"
  | .invalidSignature => "InvalidSignature"
  | .invalidHex _ => "InvalidHex"
  | .invalidAddress _ => "InvalidAddress"

/-- The text a fault is reported with. -/
def message : CryptoFault → String
  | .decryptionFailed => "Decryption failed: aead::Error"
  | .invalidCiphertext fault => "Invalid ciphertext: " ++ fault.message
  | .invalidKeyLength e a =>
    "Invalid key length: expected " ++ toString e ++ ", got " ++ toString a
  | .invalidSignatureLength e a =>
    "Invalid signature length: expected " ++ toString e ++ ", got " ++ toString a
  | .invalidRecoveryId v => "Invalid recovery ID: " ++ toString v.toNat
  | .recoveryFailed => "Failed to recover public key"
  | .signingFailed => "Signing failed: signature error"
  | .invalidPublicKey => "Invalid public key"
  | .invalidPrivateKey => "Invalid private key"
  | .invalidSignature => "Invalid signature"
  | .invalidHex fault => "Invalid hex: " ++ fault.message
  | .invalidAddress text => "Invalid address: " ++ text

end CryptoFault

/-- Hex decoding whose failure is a crypto fault. -/
def decodeHex (text : String) : Except CryptoFault (List UInt8) :=
  (Hex.decode text).mapError .invalidHex

end StakingHub
