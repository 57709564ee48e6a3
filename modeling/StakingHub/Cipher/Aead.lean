import StakingHub.Cipher.ChaCha20
import StakingHub.Crypto.Fault
import StakingHub.Bytes.Hex

/-!
# XChaCha20-Poly1305

Authenticated encryption with a 32-byte key and a 24-byte nonce and no associated data. The
first 16 nonce bytes derive a subkey by HChaCha20; the last 8, after four zero bytes, are the
ChaCha20 nonce. Block 0 gives the Poly1305 key, the message is encrypted from block 1, and the
16-byte tag over the padded ciphertext and the two lengths follows the ciphertext
(`crates/ns-crypto/src/symmetric.rs:14-101`).

The tag is the one-time authenticator Poly1305 of RFC 8439: the first half of the 32-byte key,
clamped, is the point `r` at which the message's 16-byte blocks (each with a one bit appended)
are evaluated as a polynomial modulo `2^130 - 5`; the second half is added to give the tag.
-/

namespace StakingHub.Cipher

/-- The prime of the authenticator. -/
def polyPrime : Nat := Nat.pow 2 130 - 5

/-- A little-endian byte string as a number. -/
def natLE (bytes : List UInt8) : Nat :=
  bytes.foldr (fun b acc => acc * 256 + b.toNat) 0

/-- The tag of a message under a 32-byte one-time key. -/
def poly1305 (key message : List UInt8) : List UInt8 :=
  let r := natLE (key.take 16) &&& 0x0ffffffc0ffffffc0ffffffc0fffffff
  let s := natLE (key.drop 16)
  let chunks := (List.range ((message.length + 15) / 16)).map fun i => (message.drop (16 * i)).take 16
  let acc := chunks.foldl (fun acc chunk =>
    (acc + natLE chunk + Nat.pow 2 (8 * chunk.length)) * r % polyPrime) 0
  (Bytes.ofNat ((acc + s) % Nat.pow 2 128) 16).reverse

/-- The length of the tag. -/
def tagLength : Nat := 16

/-- The length of the nonce. -/
def nonceLength : Nat := 24

/-- A nonce read from a slice: exactly 24 bytes, another length being a key-length fault. -/
def nonceOfSlice (bytes : List UInt8) : Except CryptoFault (List UInt8) :=
  if bytes.length = nonceLength then .ok bytes
  else .error (.invalidKeyLength nonceLength bytes.length)

/-- A length as eight little-endian bytes. -/
def le64 (n : Nat) : List UInt8 :=
  (Bytes.ofNat n 8).reverse

/-- The subkey and the ChaCha20 nonce of a key and a 24-byte nonce. -/
def extendedKey (key nonce : List UInt8) : List UInt8 × List UInt8 :=
  (hchacha20 key (nonce.take 16), [0, 0, 0, 0] ++ nonce.drop 16)

/-- The tag of a ciphertext under a subkey and ChaCha20 nonce, with no associated data. -/
def aeadTag (subkey chachaNonce ciphertext : List UInt8) : List UInt8 :=
  let polyKey := (block subkey 0 chachaNonce).take 32
  let padding := List.replicate ((16 - ciphertext.length % 16) % 16) 0
  poly1305 polyKey (ciphertext ++ padding ++ le64 0 ++ le64 ciphertext.length)

/-- The ciphertext and tag of a message. -/
def encrypt (key nonce message : List UInt8) : List UInt8 :=
  let (subkey, chachaNonce) := extendedKey key nonce
  let ciphertext := xorStream subkey 1 chachaNonce message
  ciphertext ++ aeadTag subkey chachaNonce ciphertext

/-- The message of a ciphertext and tag, if the tag matches. -/
def decrypt (key nonce sealed : List UInt8) : Option (List UInt8) :=
  if sealed.length < tagLength then none
  else
    let ciphertext := sealed.take (sealed.length - tagLength)
    let tag := sealed.drop (sealed.length - tagLength)
    let (subkey, chachaNonce) := extendedKey key nonce
    if aeadTag subkey chachaNonce ciphertext = tag then some (xorStream subkey 1 chachaNonce ciphertext)
    else none

end StakingHub.Cipher
