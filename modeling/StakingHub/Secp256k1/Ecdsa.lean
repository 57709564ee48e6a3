import StakingHub.Secp256k1.Curve
import StakingHub.Secp256k1.Signature
import StakingHub.Account.Address
import StakingHub.Digest.Sha256
import StakingHub.Bytes.Hex

/-!
# Signing and recovering with secp256k1

A secret key is a scalar in `[1, n)`. Signing a 32-byte digest takes its nonce `k` from the
HMAC-SHA256 generator of RFC 6979 (fed the digest's own bytes), takes `r` from the abscissa of
`k G` modulo `n`, keeps `s` in the lower half of the group (flipping the parity of the recovery
id when it negates `s`), and returns the scalars with a recovery id: the ordinate's parity, and
whether the abscissa was reduced modulo `n`. The 65-byte signature writes `v = 27 + ` the
recovery id's byte, whatever that byte is.

Recovery reads the recovery id back from `v - 27` once `v` is normalised to 27 or 28, reads `r`
and `s` in `[1, n)`, lifts `r` (or `r + n` for a reduced abscissa) to the point of the parity the
id names, and computes `r⁻¹ (s R - z G)`; it fails for a point at infinity and for a signature
whose `s` lies in the upper half, which no key verifies. An account's address is the last 20
bytes of the Keccak-256 digest of the 64 coordinate bytes of its public point.

Modelled on `Secp256k1KeyPair`, `address_from_verifying_key`, `recover_address` and
`recover_personal_signer` (`crates/ns-crypto/src/ecdsa.rs:87-200`).
-/

namespace StakingHub.Secp256k1

/-- A secret signing key. -/
structure SecretKey where
  scalar : Nat
  pos : 0 < scalar
  lt_order : scalar < groupOrder
  deriving DecidableEq

namespace SecretKey

/-- The key of 32 big-endian bytes; another length, zero, or a value not below the group
order is refused. -/
def ofBytes (bytes : List UInt8) : Except CryptoFault SecretKey :=
  if bytes.length ≠ 32 then .error .invalidPrivateKey
  else
    let k := Bytes.toNat bytes
    if h : 0 < k ∧ k < groupOrder then .ok ⟨k, h.1, h.2⟩ else .error .invalidPrivateKey

/-- Reads a key from hex text: a hex fault first, then the checks of `ofBytes`. -/
def parse (text : String) : Except CryptoFault SecretKey := do
  ofBytes (← decodeHex text)

/-- The 32 big-endian bytes of the key. -/
def toBytes (key : SecretKey) : List UInt8 :=
  Bytes.ofNat key.scalar 32

end SecretKey

/-- The address of the public point `(x, y)`. -/
def addressOfPoint (x y : Nat) : Address :=
  let digest := Digest.keccak256 (Bytes.ofNat x 32 ++ Bytes.ofNat y 32)
  (Address.ofBytes? (digest.drop 12)).getD Address.zero

/-- The public point of a secret key, in affine coordinates. -/
def SecretKey.publicPoint? (key : SecretKey) : Option (Nat × Nat) :=
  (Point.smul key.scalar Point.generator).toAffine?

/-- The address of a secret key's account. -/
def SecretKey.address (key : SecretKey) : Address :=
  match key.publicPoint? with
  | some (x, y) => addressOfPoint x y
  | none => Address.zero

/-- The state of the RFC 6979 generator: the key `K` and the value `V`. -/
structure NonceState where
  key : List UInt8
  value : List UInt8

/-- Draws candidates until one lies in `[1, n)`. -/
def drawNonce : Nat → NonceState → Option Nat
  | 0, _ => none
  | fuel + 1, st =>
    let v := Digest.hmacSha256 st.key st.value
    let k := Bytes.toNat v
    if 0 < k && k < groupOrder then some k
    else
      let key := Digest.hmacSha256 st.key (v ++ [0x00])
      drawNonce fuel ⟨key, Digest.hmacSha256 key v⟩

/-- The RFC 6979 nonce for a secret scalar and a 32-byte digest, the digest's bytes entering
the generator as they are, without reduction modulo `n`. -/
def rfc6979Nonce (secret : Nat) (digest : List UInt8) : Option Nat :=
  let x := Bytes.ofNat secret 32
  let hb := digest
  let v0 := List.replicate 32 0x01
  let k0 := List.replicate 32 0x00
  let k1 := Digest.hmacSha256 k0 (v0 ++ [0x00] ++ x ++ hb)
  let v1 := Digest.hmacSha256 k1 v0
  let k2 := Digest.hmacSha256 k1 (v1 ++ [0x01] ++ x ++ hb)
  let v2 := Digest.hmacSha256 k2 v1
  drawNonce 64 ⟨k2, v2⟩

/-- Whether a scalar lies in the upper half of the group. -/
def isHigh (s : Nat) : Bool :=
  s > groupOrder / 2

theorem groupOrder_pos : 0 < groupOrder := by
  decide

/-- The scalars `r` and `s` of a signature, each in `[1, n)`. -/
structure SignatureScalars where
  r : Nat
  s : Nat
  r_pos : 0 < r
  r_lt : r < groupOrder
  s_pos : 0 < s
  s_lt : s < groupOrder
  deriving DecidableEq

namespace SignatureScalars

/-- The 64 bytes `r ‖ s`, each scalar big-endian. -/
def toBytes (σ : SignatureScalars) : List UInt8 :=
  Bytes.ofNat σ.r 32 ++ Bytes.ofNat σ.s 32

/-- Reads `r ‖ s`; a scalar that is zero or not below the group order is refused. -/
def ofBytes? (bytes : List UInt8) : Option SignatureScalars :=
  let r := Bytes.toNat (bytes.take 32)
  let s := Bytes.toNat ((bytes.drop 32).take 32)
  if h : 0 < r ∧ r < groupOrder ∧ 0 < s ∧ s < groupOrder then
    some ⟨r, s, h.1, h.2.1, h.2.2.1, h.2.2.2⟩
  else none

end SignatureScalars

/-- A recovery id: whether the nonce point's ordinate is odd, and whether its abscissa was
reduced modulo `n` to give `r`. -/
structure RecoveryId where
  yOdd : Bool
  xReduced : Bool
  deriving DecidableEq

namespace RecoveryId

/-- The byte of a recovery id, from 0 to 3: two for a reduced abscissa, one for an odd
ordinate. -/
def toByte (id : RecoveryId) : UInt8 :=
  (if id.xReduced then 2 else 0) + (if id.yOdd then 1 else 0)

/-- The recovery id of a byte from 0 to 3. -/
def ofByte? (b : UInt8) : Option RecoveryId :=
  if b ≤ 3 then some ⟨b % 2 = 1, b ≥ 2⟩ else none

end RecoveryId

/-- The lower-half representative of a nonzero scalar: `s` or `n - s`. -/
def lowS (s : Nat) : Nat :=
  if isHigh s then groupOrder - s else s

theorem lowS_pos {s : Nat} (pos : 0 < s) (lt : s < groupOrder) : 0 < lowS s := by
  unfold lowS
  split <;> omega

theorem lowS_lt {s : Nat} (pos : 0 < s) (lt : s < groupOrder) : lowS s < groupOrder := by
  unfold lowS
  split <;> omega

/-- Signs a 32-byte digest, returning the scalars and the recovery id of the nonce point. -/
def signRecoverable (key : SecretKey) (digest : List UInt8) :
    Except CryptoFault (SignatureScalars × RecoveryId) := do
  let z := Bytes.toNat digest % groupOrder
  let some k := rfc6979Nonce key.scalar digest | throw .signingFailed
  let some (rx, ry) := (Point.smul k Point.generator).toAffine? | throw .signingFailed
  let r := rx % groupOrder
  let s := invMod k groupOrder * ((z + r * key.scalar) % groupOrder) % groupOrder
  if h : r = 0 ∨ s = 0 then throw .signingFailed
  else
    have r_lt : r < groupOrder := Nat.mod_lt _ groupOrder_pos
    have s_lt : s < groupOrder := Nat.mod_lt _ groupOrder_pos
    pure (⟨r, lowS s, by omega, r_lt, lowS_pos (by omega) s_lt, lowS_lt (by omega) s_lt⟩,
      ⟨(ry % 2 = 1) != isHigh s, rx ≥ groupOrder⟩)

/-- Recovers the public point from a digest, the scalars and a recovery id. -/
def recoverPoint (digest : List UInt8) (σ : SignatureScalars) (id : RecoveryId) :
    Except CryptoFault (Nat × Nat) := do
  let x := if id.xReduced then σ.r + groupOrder else σ.r
  let some R := liftX? x id.yOdd | throw .recoveryFailed
  let z := Bytes.toNat digest % groupOrder
  let rInv := invMod σ.r groupOrder
  let u1 := (groupOrder - z * rInv % groupOrder) % groupOrder
  let u2 := σ.s * rInv % groupOrder
  let Q := Point.add (Point.smul u1 Point.generator) (Point.smul u2 R)
  let some (qx, qy) := Q.toAffine? | throw .recoveryFailed
  if isHigh σ.s then throw .recoveryFailed
  pure (qx, qy)

/-- Signs a 32-byte digest: the scalars, then `v = 27 + ` the recovery id's byte. -/
def sign (key : SecretKey) (digest : List UInt8) : Except CryptoFault Signature := do
  let (σ, id) ← signRecoverable key digest
  Signature.ofBytes (σ.toBytes ++ [id.toByte + 27])

/-- The address that signed a 32-byte digest. -/
def recoverAddress (digest : List UInt8) (sig : Signature) : Except CryptoFault Address := do
  let normalized ← sig.normalized
  let some id := RecoveryId.ofByte? (normalized.v - 27) | throw (.invalidRecoveryId sig.v)
  let some σ := SignatureScalars.ofBytes? (normalized.bytes.take 64) | throw .invalidSignature
  let (x, y) ← recoverPoint digest σ id
  pure (addressOfPoint x y)

/-- Signs a personal message. -/
def signPersonal (key : SecretKey) (message : List UInt8) : Except CryptoFault Signature :=
  sign key (Digest.personalMessageHash message)

/-- The address that signed a personal message. -/
def recoverPersonal (message : List UInt8) (sig : Signature) : Except CryptoFault Address :=
  recoverAddress (Digest.personalMessageHash message) sig

end StakingHub.Secp256k1
