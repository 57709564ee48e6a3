/-!
# Keccak-256

The sponge over the Keccak-f[1600] permutation with a rate of 136 bytes, the pre-standard
`0x01 … 0x80` padding and a 32-byte output. The state is 25 lanes of 64 bits, lane `x + 5 y`
holding column `x` of row `y`; bytes enter and leave each lane little-endian.

Modelled on `crates/ns-crypto/src/hashing.rs:12-68` (`Keccak256Hasher`, `keccak256`,
`keccak256_many`, `personal_message_hash`).
-/

namespace StakingHub.Digest

/-- A 32-byte digest. -/
abbrev Hash := List UInt8

/-- Round constants of the iota step, one per round. -/
def roundConstants : List UInt64 :=
  [0x0000000000000001, 0x0000000000008082, 0x800000000000808A, 0x8000000080008000,
   0x000000000000808B, 0x0000000080000001, 0x8000000080008081, 0x8000000000008009,
   0x000000000000008A, 0x0000000000000088, 0x0000000080008009, 0x000000008000000A,
   0x000000008000808B, 0x800000000000008B, 0x8000000000008089, 0x8000000000008003,
   0x8000000000008002, 0x8000000000000080, 0x000000000000800A, 0x800000008000000A,
   0x8000000080008081, 0x8000000000008080, 0x0000000080000001, 0x8000000080008008]

/-- Rotation of each lane in the rho step, indexed by `x + 5 y`. -/
def rotations : Array UInt64 :=
  #[0, 1, 62, 28, 27, 36, 44, 6, 55, 20, 3, 10, 43, 25, 39, 41, 45, 15, 21, 8, 18, 2, 61, 56, 14]

/-- Left rotation of a lane. -/
def rotl (w : UInt64) (n : UInt64) : UInt64 :=
  if n = 0 then w else (w <<< n) ||| (w >>> (64 - n))

/-- The five lanes of a row after chi: each lane is flipped where the next lane of the row is
clear and the one after it is set. -/
def chiRow (b0 b1 b2 b3 b4 : UInt64) : List UInt64 :=
  [b0 ^^^ (~~~ b1 &&& b2), b1 ^^^ (~~~ b2 &&& b3), b2 ^^^ (~~~ b3 &&& b4),
   b3 ^^^ (~~~ b4 &&& b0), b4 ^^^ (~~~ b0 &&& b1)]

/-- One round: theta, rho and pi, chi, then iota with the given constant. The round is written
out lane by lane, each intermediate lane named once, so that it evaluates in time linear in
the state. -/
def round (s : Array UInt64) (rc : UInt64) : Array UInt64 :=
  let a := fun i => s.getD i 0
  let c0 := a 0 ^^^ a 5 ^^^ a 10 ^^^ a 15 ^^^ a 20
  let c1 := a 1 ^^^ a 6 ^^^ a 11 ^^^ a 16 ^^^ a 21
  let c2 := a 2 ^^^ a 7 ^^^ a 12 ^^^ a 17 ^^^ a 22
  let c3 := a 3 ^^^ a 8 ^^^ a 13 ^^^ a 18 ^^^ a 23
  let c4 := a 4 ^^^ a 9 ^^^ a 14 ^^^ a 19 ^^^ a 24
  let d0 := c4 ^^^ rotl c1 1
  let d1 := c0 ^^^ rotl c2 1
  let d2 := c1 ^^^ rotl c3 1
  let d3 := c2 ^^^ rotl c4 1
  let d4 := c3 ^^^ rotl c0 1
  let rho := fun i d => rotl (a i ^^^ d) (rotations.getD i 0)
  let b00 := rho 0 d0
  let b02 := rho 1 d1
  let b04 := rho 2 d2
  let b01 := rho 3 d3
  let b03 := rho 4 d4
  let b13 := rho 5 d0
  let b10 := rho 6 d1
  let b12 := rho 7 d2
  let b14 := rho 8 d3
  let b11 := rho 9 d4
  let b21 := rho 10 d0
  let b23 := rho 11 d1
  let b20 := rho 12 d2
  let b22 := rho 13 d3
  let b24 := rho 14 d4
  let b34 := rho 15 d0
  let b31 := rho 16 d1
  let b33 := rho 17 d2
  let b30 := rho 18 d3
  let b32 := rho 19 d4
  let b42 := rho 20 d0
  let b44 := rho 21 d1
  let b41 := rho 22 d2
  let b43 := rho 23 d3
  let b40 := rho 24 d4
  (((chiRow b00 b10 b20 b30 b40).modifyHead (· ^^^ rc)) ++ chiRow b01 b11 b21 b31 b41 ++
    chiRow b02 b12 b22 b32 b42 ++ chiRow b03 b13 b23 b33 b43 ++
    chiRow b04 b14 b24 b34 b44).toArray

/-- The permutation: 24 rounds. -/
def permute (s : Array UInt64) : Array UInt64 :=
  roundConstants.foldl round s

/-- The lane read from eight bytes, little-endian. -/
def laneOfBytes (bytes : List UInt8) : UInt64 :=
  bytes.foldr (fun b acc => (acc <<< 8) ||| b.toUInt64) 0

/-- The eight bytes of a lane, little-endian. -/
def bytesOfLane (w : UInt64) : List UInt8 :=
  (List.range 8).map fun i => (w >>> (8 * i).toUInt64).toUInt8

/-- The rate in bytes. -/
def rate : Nat := 136

/-- The message followed by the padding `0x01 0x00 … 0x80` up to a multiple of the rate. -/
def pad (message : List UInt8) : List UInt8 :=
  let fill := rate - message.length % rate
  if fill = 1 then message ++ [0x81]
  else message ++ [0x01] ++ List.replicate (fill - 2) 0x00 ++ [0x80]

/-- Absorbs one block of `rate` bytes into the state. -/
def absorbBlock (s : Array UInt64) (block : List UInt8) : Array UInt64 :=
  let mixed := Array.ofFn fun (i : Fin 25) =>
    if i.val < rate / 8 then
      s.getD i.val 0 ^^^ laneOfBytes ((block.drop (8 * i.val)).take 8)
    else s.getD i.val 0
  permute mixed

/-- The blocks of a padded message, in order. -/
def blocks (padded : List UInt8) : List (List UInt8) :=
  (List.range (padded.length / rate)).map fun k => (padded.drop (rate * k)).take rate

/-- Keccak-256 of a byte string. -/
def keccak256 (message : List UInt8) : Hash :=
  let s := (blocks (pad message)).foldl absorbBlock (Array.replicate 25 0)
  ((List.range 4).map fun i => bytesOfLane (s.getD i 0)).flatten

/-- Keccak-256 of the concatenation of the parts. -/
def keccak256Many (parts : List (List UInt8)) : Hash :=
  keccak256 parts.flatten

/-- The prefix of a signed personal message, before the decimal byte length. -/
def personalMessagePrefix : String := "\x19Ethereum Signed Message:\n"

/-- The digest a personal message is signed under: the prefix, the decimal length of the
message in bytes, and the message. -/
def personalMessageHash (message : List UInt8) : Hash :=
  keccak256 ((personalMessagePrefix ++ toString message.length).toUTF8.toList ++ message)

end StakingHub.Digest
