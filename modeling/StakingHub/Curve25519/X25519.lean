import StakingHub.Cipher.Aead

/-!
# X25519

The Diffie-Hellman function of RFC 7748: a 32-byte scalar, clamped (low three bits cleared,
bit 255 cleared, bit 254 set), times the point of 32-byte little-endian u-coordinate (bit 255
ignored), by the Montgomery ladder over the field of `2^255 - 19`. The result is written as 32
little-endian bytes of the reduced coordinate.

This is the key agreement of sealing and opening (`crates/ns-crypto/src/sealed.rs:63-145`).
-/

namespace StakingHub.Curve25519

/-- The field prime. -/
def prime : Nat := Nat.pow 2 255 - 19

/-- `(A - 2) / 4` for the curve constant `A = 486662`. -/
def a24 : Nat := 121665

/-- `b ^ e mod prime` by repeated squaring, over the bits of `e` from the most significant. -/
def powModPrime (b e : Nat) : Nat :=
  (List.range (Nat.log2 e + 1)).reverse.foldl
    (fun acc i => let sq := acc * acc % prime; if e.testBit i then sq * b % prime else sq) 1

/-- The clamped scalar of 32 bytes. -/
def clamp (scalar : List UInt8) : Nat :=
  (Cipher.natLE scalar &&& (Nat.pow 2 255 - 8)) ||| Nat.pow 2 254

/-- The ladder state: `(x2, z2, x3, z3)`. -/
structure Ladder where
  x2 : Nat
  z2 : Nat
  x3 : Nat
  z3 : Nat

/-- Swaps the two points when `swap` is set. -/
def Ladder.cswap (st : Ladder) (swap : Bool) : Ladder :=
  if swap then ⟨st.x3, st.z3, st.x2, st.z2⟩ else st

/-- One ladder step for the u-coordinate `u`. -/
def Ladder.step (u : Nat) (st : Ladder) : Ladder :=
  let p := prime
  let a := (st.x2 + st.z2) % p
  let aa := a * a % p
  let b := (st.x2 + p - st.z2) % p
  let bb := b * b % p
  let e := (aa + p - bb) % p
  let c := (st.x3 + st.z3) % p
  let d := (st.x3 + p - st.z3) % p
  let da := d * a % p
  let cb := c * b % p
  let x3 := (da + cb) % p * ((da + cb) % p) % p
  let z3 := u * ((da + p - cb) % p * ((da + p - cb) % p) % p) % p
  let x2 := aa * bb % p
  let z2 := e * ((aa + a24 * e) % p) % p
  ⟨x2, z2, x3, z3⟩

/-- `k · u` for a clamped scalar `k`. -/
def ladder (k u : Nat) : Nat :=
  let init : Ladder := ⟨1, 0, u, 1⟩
  let (st, swap) := (List.range 255).reverse.foldl (fun (acc : Ladder × Bool) t =>
    let bit := k.testBit t
    let st := acc.1.cswap (acc.2 != bit)
    (st.step u, bit)) (init, false)
  let st := st.cswap swap
  st.x2 * powModPrime st.z2 (prime - 2) % prime

/-- X25519 of a 32-byte scalar and a 32-byte u-coordinate. -/
def x25519 (scalar point : List UInt8) : List UInt8 :=
  let u := (Cipher.natLE point &&& (Nat.pow 2 255 - 1)) % prime
  (Bytes.ofNat (ladder (clamp scalar) u) 32).reverse

/-- The u-coordinate of the base point. -/
def basePoint : List UInt8 := 9 :: List.replicate 31 0

/-- The public key of a 32-byte secret. -/
def publicKey (secret : List UInt8) : List UInt8 :=
  x25519 secret basePoint

end StakingHub.Curve25519
