/-!
# ChaCha20 and HChaCha20

The ChaCha20 block function of RFC 8439 on sixteen 32-bit words: the constants, the key, a
32-bit block counter and a 96-bit nonce, twenty rounds, and the input added back. HChaCha20
runs the same rounds on the key and a 128-bit nonce and keeps words 0 to 3 and 12 to 15, without
the addition; it derives the subkey of the extended-nonce variant.

These are the block functions under the AEAD of `crates/ns-crypto/src/symmetric.rs:77-101`.
-/

namespace StakingHub.Cipher

/-- Left rotation of a word. -/
def rotl32 (w : UInt32) (n : UInt32) : UInt32 :=
  (w <<< n) ||| (w >>> (32 - n))

/-- Little-endian words of a byte string. -/
def wordsLE (bytes : List UInt8) : List UInt32 :=
  (List.range (bytes.length / 4)).map fun i =>
    ((bytes.drop (4 * i)).take 4).foldr (fun b acc => (acc <<< 8) ||| b.toUInt32) 0

/-- Little-endian bytes of words. -/
def bytesLE (words : List UInt32) : List UInt8 :=
  words.flatMap fun (w : UInt32) => [w.toUInt8, (w >>> 8).toUInt8, (w >>> 16).toUInt8, (w >>> 24).toUInt8]

/-- The quarter round on four positions of the state. -/
def quarterRound (s : Array UInt32) (a b c d : Nat) : Array UInt32 :=
  let va := s.getD a 0 + s.getD b 0
  let vd := rotl32 (s.getD d 0 ^^^ va) 16
  let vc := s.getD c 0 + vd
  let vb := rotl32 (s.getD b 0 ^^^ vc) 12
  let va := va + vb
  let vd := rotl32 (vd ^^^ va) 8
  let vc := vc + vd
  let vb := rotl32 (vb ^^^ vc) 7
  ((((s.set! a va).set! b vb).set! c vc).set! d vd)

/-- A column round and a diagonal round. -/
def doubleRound (s : Array UInt32) : Array UInt32 :=
  let s := quarterRound s 0 4 8 12
  let s := quarterRound s 1 5 9 13
  let s := quarterRound s 2 6 10 14
  let s := quarterRound s 3 7 11 15
  let s := quarterRound s 0 5 10 15
  let s := quarterRound s 1 6 11 12
  let s := quarterRound s 2 7 8 13
  quarterRound s 3 4 9 14

/-- Twenty rounds. -/
def rounds (s : Array UInt32) : Array UInt32 :=
  (List.range 10).foldl (fun s _ => doubleRound s) s

/-- The four constant words, "expand 32-byte k". -/
def constants : List UInt32 := [0x61707865, 0x3320646e, 0x79622d32, 0x6b206574]

/-- The 64-byte block for a 32-byte key, a block counter and a 12-byte nonce. -/
def block (key : List UInt8) (counter : Nat) (nonce : List UInt8) : List UInt8 :=
  let input := (constants ++ wordsLE key ++ [counter.toUInt32] ++ wordsLE nonce).toArray
  let out := rounds input
  bytesLE (List.zipWith (· + ·) out.toList input.toList)

/-- The 32-byte subkey for a 32-byte key and a 16-byte nonce. -/
def hchacha20 (key : List UInt8) (nonce : List UInt8) : List UInt8 :=
  let input := (constants ++ wordsLE key ++ wordsLE nonce).toArray
  let out := (rounds input).toList
  bytesLE (out.take 4 ++ out.drop 12)

/-- The message XORed with the key stream that starts at block `counter`. -/
def xorStream (key : List UInt8) (counter : Nat) (nonce : List UInt8) (message : List UInt8) :
    List UInt8 :=
  let blocks := (message.length + 63) / 64
  let stream := ((List.range blocks).map fun i => block key (counter + i) nonce).flatten
  List.zipWith (· ^^^ ·) message stream

end StakingHub.Cipher
