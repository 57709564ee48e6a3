/-!
# SHA-256 and HMAC-SHA256

SHA-256 as FIPS 180-4 gives it: the message padded with `0x80`, zeros and its bit length as a
64-bit big-endian number to a multiple of 64 bytes, each block expanded to 64 words and mixed
into eight 32-bit words. HMAC (RFC 2104) over it, with 64-byte blocks.

Words are numbers below `2^32`, reduced after every sum, and the schedule is kept as a window
of the sixteen words the next rounds read; in this form a digest evaluates in time linear in
the message, also when a proof evaluates it.

They derive the deterministic nonces of `Secp256k1KeyPair::sign_prehash`
(`crates/ns-crypto/src/ecdsa.rs:120-131`).
-/

namespace StakingHub.Digest

/-- The round constants. -/
def sha256K : Array UInt32 := #[
  0x428a2f98, 0x71374491, 0xb5c0fbcf, 0xe9b5dba5, 0x3956c25b, 0x59f111f1, 0x923f82a4, 0xab1c5ed5,
  0xd807aa98, 0x12835b01, 0x243185be, 0x550c7dc3, 0x72be5d74, 0x80deb1fe, 0x9bdc06a7, 0xc19bf174,
  0xe49b69c1, 0xefbe4786, 0x0fc19dc6, 0x240ca1cc, 0x2de92c6f, 0x4a7484aa, 0x5cb0a9dc, 0x76f988da,
  0x983e5152, 0xa831c66d, 0xb00327c8, 0xbf597fc7, 0xc6e00bf3, 0xd5a79147, 0x06ca6351, 0x14292967,
  0x27b70a85, 0x2e1b2138, 0x4d2c6dfc, 0x53380d13, 0x650a7354, 0x766a0abb, 0x81c2c92e, 0x92722c85,
  0xa2bfe8a1, 0xa81a664b, 0xc24b8b70, 0xc76c51a3, 0xd192e819, 0xd6990624, 0xf40e3585, 0x106aa070,
  0x19a4c116, 0x1e376c08, 0x2748774c, 0x34b0bcb5, 0x391c0cb3, 0x4ed8aa4a, 0x5b9cca4f, 0x682e6ff3,
  0x748f82ee, 0x78a5636f, 0x84c87814, 0x8cc70208, 0x90befffa, 0xa4506ceb, 0xbef9a3f7, 0xc67178f2]

/-- The initial hash value. -/
def sha256Init : List UInt32 :=
  [0x6a09e667, 0xbb67ae85, 0x3c6ef372, 0xa54ff53a, 0x510e527f, 0x9b05688c, 0x1f83d9ab, 0x5be0cd19]

/-- The number of 32-bit words. -/
def wordModulus : Nat := 4294967296

/-- Right rotation of a word. -/
def rotr (w n : Nat) : Nat :=
  ((w >>> n) ||| (w <<< (32 - n))) % wordModulus

/-- The big-endian words of a block, four bytes each. -/
def wordsOfBlock : List UInt8 → List Nat
  | b0 :: b1 :: b2 :: b3 :: rest =>
    (((b0.toNat * 256 + b1.toNat) * 256 + b2.toNat) * 256 + b3.toNat) :: wordsOfBlock rest
  | _ => []

/-- The schedule word that follows a window of sixteen: `w₀ + σ₀ w₁ + w₉ + σ₁ w₁₄`. -/
def nextWord : List Nat → Nat
  | [w0, w1, _, _, _, _, _, _, _, w9, _, _, _, _, w14, _] =>
    let s0 := rotr w1 7 ^^^ rotr w1 18 ^^^ (w1 >>> 3)
    let s1 := rotr w14 17 ^^^ rotr w14 19 ^^^ (w14 >>> 10)
    (w0 + s0 + w9 + s1) % wordModulus
  | _ => 0

/-- The eight working words. -/
structure Working where
  a : Nat
  b : Nat
  c : Nat
  d : Nat
  e : Nat
  f : Nat
  g : Nat
  h : Nat

/-- The working words after one round with its constant and schedule word. -/
def sha256Round (v : Working) (k w : Nat) : Working :=
  let s1 := rotr v.e 6 ^^^ rotr v.e 11 ^^^ rotr v.e 25
  let ch := (v.e &&& v.f) ^^^ ((wordModulus - 1 - v.e) &&& v.g)
  let t1 := (v.h + s1 + ch + k + w) % wordModulus
  let s0 := rotr v.a 2 ^^^ rotr v.a 13 ^^^ rotr v.a 22
  let maj := (v.a &&& v.b) ^^^ (v.a &&& v.c) ^^^ (v.b &&& v.c)
  let t2 := (s0 + maj) % wordModulus
  ⟨(t1 + t2) % wordModulus, v.a, v.b, v.c, (v.d + t1) % wordModulus, v.e, v.f, v.g⟩

/-- The rounds, one per constant; the window holds the next sixteen schedule words, so the
schedule is extended one word per round. -/
def sha256Rounds : List UInt32 → List Nat → Working → Working
  | [], _, v => v
  | k :: ks, window, v =>
    match window with
    | w :: rest => sha256Rounds ks (rest ++ [nextWord window]) (sha256Round v k.toNat w)
    | [] => v

/-- The hash value after one block. -/
def sha256Block (h : List Nat) (block : List UInt8) : List Nat :=
  match h with
  | [a, b, c, d, e, f, g, hh] =>
    let v := sha256Rounds sha256K.toList (wordsOfBlock block) ⟨a, b, c, d, e, f, g, hh⟩
    [(a + v.a) % wordModulus, (b + v.b) % wordModulus, (c + v.c) % wordModulus,
      (d + v.d) % wordModulus, (e + v.e) % wordModulus, (f + v.f) % wordModulus,
      (g + v.g) % wordModulus, (hh + v.h) % wordModulus]
  | other => other

/-- The four bytes of a word, big-endian. -/
def bytesOfWord (w : Nat) : List UInt8 :=
  [(w / 16777216 % 256).toUInt8, (w / 65536 % 256).toUInt8, (w / 256 % 256).toUInt8,
    (w % 256).toUInt8]

/-- The message padded to a multiple of 64 bytes. -/
def sha256Pad (message : List UInt8) : List UInt8 :=
  let bits := 8 * message.length
  let zeros := (119 - message.length % 64) % 64
  message ++ [0x80] ++ List.replicate zeros 0 ++
    (List.range 8).reverse.map fun i => (bits / Nat.pow 2 (8 * i) % 256).toUInt8

/-- SHA-256 of a byte string. -/
def sha256 (message : List UInt8) : List UInt8 :=
  let padded := sha256Pad message
  let blocks := (List.range (padded.length / 64)).map fun k => (padded.drop (64 * k)).take 64
  (blocks.foldl sha256Block (sha256Init.map UInt32.toNat)).flatMap bytesOfWord

/-- HMAC-SHA256 of a message under a key. -/
def hmacSha256 (key message : List UInt8) : List UInt8 :=
  let k := if key.length > 64 then sha256 key else key
  let k := k ++ List.replicate (64 - k.length) 0
  let inner := sha256 (k.map (· ^^^ 0x36) ++ message)
  sha256 (k.map (· ^^^ 0x5c) ++ inner)

end StakingHub.Digest
