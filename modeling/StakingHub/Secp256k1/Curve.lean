/-!
# The curve secp256k1

Points of `y² = x³ + 7` over the prime field of `p = 2^256 - 2^32 - 977`, with the generator of
the group of prime order `n`. Sums and multiples are computed in Jacobian coordinates
`(X, Y, Z)`, standing for `(X / Z², Y / Z³)`, with `Z = 0` for the point at infinity; inverses
come from Fermat's little theorem.

It is the curve under `crates/ns-crypto/src/ecdsa.rs:87-200`.
-/

namespace StakingHub.Secp256k1

/-- The field prime. -/
def fieldPrime : Nat := Nat.pow 2 256 - Nat.pow 2 32 - 977

/-- The order of the generator. -/
def groupOrder : Nat := 0xFFFFFFFFFFFFFFFFFFFFFFFFFFFFFFFEBAAEDCE6AF48A03BBFD25E8CD0364141

/-- `b ^ e mod m` by repeated squaring, over the bits of `e` from the most significant. -/
def powMod (b e m : Nat) : Nat :=
  (List.range (Nat.log2 e + 1)).reverse.foldl
    (fun acc i => let sq := acc * acc % m; if e.testBit i then sq * b % m else sq) (1 % m)

/-- The inverse modulo a prime `m` of a value not divisible by it. -/
def invMod (a m : Nat) : Nat :=
  powMod a (m - 2) m

/-- A point in Jacobian coordinates. -/
structure Point where
  x : Nat
  y : Nat
  z : Nat
  deriving DecidableEq, Repr

namespace Point

/-- The point at infinity. -/
def infinity : Point := ⟨1, 1, 0⟩

/-- The point of affine coordinates `(x, y)`. -/
def ofAffine (x y : Nat) : Point := ⟨x, y, 1⟩

/-- The generator. -/
def generator : Point :=
  ofAffine 0x79BE667EF9DCBBAC55A06295CE870B07029BFCDB2DCE28D959F2815B16F81798
    0x483ADA7726A3C4655DA4FBFC0E1108A8FD17B448A68554199C47D08FFB10D4B8

/-- Field subtraction. -/
def fsub (a b : Nat) : Nat :=
  (a + fieldPrime - b % fieldPrime) % fieldPrime

/-- Field multiplication. -/
def fmul (a b : Nat) : Nat :=
  a * b % fieldPrime

/-- Twice a point. -/
def double (P : Point) : Point :=
  if P.z = 0 || P.y % fieldPrime = 0 then infinity
  else
    let a := fmul P.x P.x
    let b := fmul P.y P.y
    let c := fmul b b
    let d := fmul 2 (fsub (fsub (fmul (P.x + b) (P.x + b)) a) c)
    let e := fmul 3 a
    let f := fmul e e
    let x3 := fsub f (fmul 2 d)
    let y3 := fsub (fmul e (fsub d x3)) (fmul 8 c)
    let z3 := fmul 2 (fmul P.y P.z)
    ⟨x3, y3, z3⟩

/-- The sum of two points. -/
def add (P Q : Point) : Point :=
  if P.z = 0 then Q
  else if Q.z = 0 then P
  else
    let z1z1 := fmul P.z P.z
    let z2z2 := fmul Q.z Q.z
    let u1 := fmul P.x z2z2
    let u2 := fmul Q.x z1z1
    let s1 := fmul P.y (fmul Q.z z2z2)
    let s2 := fmul Q.y (fmul P.z z1z1)
    if u1 = u2 then
      if s1 = s2 then double P else infinity
    else
      let h := fsub u2 u1
      let r := fsub s2 s1
      let h2 := fmul h h
      let h3 := fmul h h2
      let u1h2 := fmul u1 h2
      let x3 := fsub (fsub (fmul r r) h3) (fmul 2 u1h2)
      let y3 := fsub (fmul r (fsub u1h2 x3)) (fmul s1 h3)
      let z3 := fmul h (fmul P.z Q.z)
      ⟨x3, y3, z3⟩

/-- `k · P`, doubling and adding from the most significant bit of `k`. -/
def smul (k : Nat) (P : Point) : Point :=
  (List.range (Nat.log2 k + 1)).reverse.foldl
    (fun acc i => if k.testBit i then add (double acc) P else double acc) infinity

/-- The affine coordinates of a point other than infinity. -/
def toAffine? (P : Point) : Option (Nat × Nat) :=
  if P.z % fieldPrime = 0 then none
  else
    let zi := invMod P.z fieldPrime
    let zi2 := fmul zi zi
    some (fmul P.x zi2, fmul P.y (fmul zi2 zi))

end Point

/-- The point with abscissa `x` and ordinate of the given parity, if `x³ + 7` is a square. -/
def liftX? (x : Nat) (odd : Bool) : Option Point :=
  if x ≥ fieldPrime then none
  else
    let rhs := (x * x % fieldPrime * x + 7) % fieldPrime
    let y := powMod rhs ((fieldPrime + 1) / 4) fieldPrime
    if y * y % fieldPrime ≠ rhs then none
    else
      let y := if (y % 2 = 1) = odd then y else (fieldPrime - y) % fieldPrime
      some (Point.ofAffine x y)

end StakingHub.Secp256k1
