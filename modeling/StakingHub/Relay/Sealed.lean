import StakingHub.Cipher.Aead
import StakingHub.Curve25519.X25519
import StakingHub.Crypto.Fault
import StakingHub.Digest.Keccak
import StakingHub.Record.Exit
import StakingHub.Service.Fault

/-!
# Sealed payloads for the exit relay

A relay identity is a 32-byte X25519 secret; its recipient key is the matching public key.
Sealing to a recipient draws an ephemeral secret and a 24-byte nonce, derives the payload key
as the Keccak-256 digest of a domain tag, the shared secret, the ephemeral public key and the
recipient key, and encrypts with XChaCha20-Poly1305. The sealed payload is the ephemeral public
key, the nonce and the ciphertext with its tag, so at least 72 bytes; opening splits it at 32
and 56 bytes and reads the middle as a nonce. A shared secret of all zeros (a low-order key on
either side) is refused (`crates/ns-crypto/src/sealed.rs:20-180`).

Ephemeral secrets and nonces, and the session nonces and tokens, need bytes that differ from
draw to draw. They are drawn from a counter: the `k`-th draw is the Keccak-256 digest of a fixed
label and `k`. No answer shows these bytes; what matters is that two draws of one source never
agree.

An exit message travels as the bare hex of its JSON text sealed to the relay's recipient key
(`crates/ns-mock/src/relay.rs:10-40`). A recipient key that does not read, or that no message can
be sealed to, is a malformed recipient key. Opening needs the relay identity; hex that does not
read, a payload that does not open, and text that is no exit message are corrupt ciphertext,
with the fault's own text.
-/

namespace StakingHub

/-- A source of fresh bytes: how many draws were taken. -/
structure Entropy where
  draws : Nat := 0
  deriving DecidableEq, Repr

namespace Entropy

/-- The label every draw is digested with. -/
def label : List UInt8 := "fresh".toUTF8.toList

/-- 32 fresh bytes and the source after the draw. -/
def draw (e : Entropy) : List UInt8 × Entropy :=
  (Digest.keccak256 (label ++ Bytes.ofNat e.draws 8), ⟨e.draws + 1⟩)

theorem draws_draw (e : Entropy) : (e.draw).2.draws = e.draws + 1 := rfl

end Entropy

end StakingHub

namespace StakingHub.Relay

/-- The domain-separation tag of the payload key derivation. -/
def payloadKeyTag : List UInt8 := "ns-mock/exit-relay/v1".toUTF8.toList

/-- The payload key of a shared secret, an ephemeral public key and a recipient key. -/
def payloadKey (shared ephemeral recipient : List UInt8) : List UInt8 :=
  Digest.keccak256Many [payloadKeyTag, shared, ephemeral, recipient]

/-- A 32-byte recipient key. -/
structure Recipient where
  bytes : List UInt8
  length_eq : bytes.length = 32
  deriving DecidableEq

/-- A relay identity: a 32-byte secret, kept as given. -/
structure Identity where
  secret : List UInt8
  length_eq : secret.length = 32
  deriving DecidableEq

/-- Whether a shared secret is all zeros. -/
def isZeroSecret (shared : List UInt8) : Bool :=
  shared.all (· == 0)

theorem length_x25519 (scalar point : List UInt8) :
    (Curve25519.x25519 scalar point).length = 32 := by
  simp [Curve25519.x25519, Bytes.length_ofNat]

namespace Recipient

/-- Reads a recipient key: text that is no hex is an invalid key, hex of another length a
length fault. -/
def parse (text : String) : Except CryptoFault Recipient :=
  match Hex.decode text with
  | .error _ => .error .invalidPublicKey
  | .ok bytes =>
    if h : bytes.length = 32 then .ok ⟨bytes, h⟩ else .error (.invalidKeyLength 32 bytes.length)

/-- `0x` and the lowercase digits. -/
def toHex (r : Recipient) : String :=
  Hex.encode r.bytes

/-- Seals a message with the given ephemeral secret and nonce. -/
def sealWith (r : Recipient) (ephemeral nonce message : List UInt8) :
    Except CryptoFault (List UInt8) :=
  let ephemeralPublic := Curve25519.publicKey ephemeral
  let shared := Curve25519.x25519 ephemeral r.bytes
  if isZeroSecret shared then .error .invalidPublicKey
  else
    let key := payloadKey shared ephemeralPublic r.bytes
    .ok (ephemeralPublic ++ nonce ++ Cipher.encrypt key nonce message)

/-- Seals a message with an ephemeral secret and a nonce drawn from the source. -/
def sealFresh (r : Recipient) (message : List UInt8) (e : Entropy) :
    Except CryptoFault (List UInt8) × Entropy :=
  let (ephemeral, e) := e.draw
  let (nonceBytes, e) := e.draw
  (r.sealWith ephemeral (nonceBytes.take Cipher.nonceLength) message, e)

end Recipient

namespace Identity

/-- The identity of a 32-byte secret. -/
def ofBytes? (secret : List UInt8) : Option Identity :=
  if h : secret.length = 32 then some ⟨secret, h⟩ else none

/-- The recipient key of an identity. -/
def recipient (id : Identity) : Recipient :=
  ⟨Curve25519.publicKey id.secret, length_x25519 _ _⟩

/-- Opens a sealed payload. -/
def openSealed (id : Identity) (sealed : List UInt8) : Except CryptoFault (List UInt8) :=
  if sealed.length < minSealedLength then .error (.invalidCiphertext (.tooShort sealed.length))
  else
    let ephemeral := sealed.take 32
    let nonce := (sealed.drop 32).take Cipher.nonceLength
    let body := sealed.drop (32 + Cipher.nonceLength)
    let shared := Curve25519.x25519 id.secret ephemeral
    if isZeroSecret shared then .error (.invalidCiphertext .nonContributory)
    else
      let key := payloadKey shared ephemeral id.recipient.bytes
      match Cipher.nonceOfSlice nonce with
      | .error f => .error f
      | .ok nonce =>
        match Cipher.decrypt key nonce body with
        | some message => .ok message
        | none => .error .decryptionFailed

end Identity

/-- Seals an exit message to a recipient key given as text; the bare hex of the sealed
payload, and the source after the draws. -/
def encryptExit (m : ExitMessage) (recipientKey : String) (e : Entropy) :
    Except ServiceFault String × Entropy :=
  match Recipient.parse recipientKey with
  | .error f => (.error (.malformedRecipientKey f.message), e)
  | .ok r =>
    match r.sealFresh m.toText e with
    | (.ok sealed, e) => (.ok (Hex.bare sealed), e)
    | (.error f, e) => (.error (.malformedRecipientKey f.message), e)

/-- Opens an exit message sealed to the relay identity. -/
def decryptExit (identity : Option Identity) (ciphertext : String) :
    Except ServiceFault ExitMessage := do
  let some id := identity | throw .identityNotConfigured
  let sealed ← (decodeHex ciphertext).mapError fun f => .corruptCiphertext f.message
  let text ← (id.openSealed sealed).mapError fun f => .corruptCiphertext f.message
  (ExitMessage.ofText text).mapError fun e => .corruptCiphertext e.message

end StakingHub.Relay
