/-!
# Binary64 values in exact arithmetic

A finite binary64 value is a sign and `m · 2^q` with `m < 2^53` and `q ≥ -1074`, normal when
`m ≥ 2^52`; beyond the largest finite value lies infinity. Every operation here is the exact
rational result rounded once to the nearest value, a tie going to the even mantissa, as the
IEEE 754 default rounding prescribes. Arithmetic is on `Nat` and `Int`, so the kernel can
evaluate every step.

JSON numbers in the records of `crates/ns-mock/src/domain/payloads.rs:12-110` are such values.
-/

namespace StakingHub

/-- A binary64 value other than NaN. -/
inductive Binary64 where
  /-- `±m · 2^q`. -/
  | finite (negative : Bool) (m : Nat) (q : Int)
  /-- `±∞`. -/
  | infinite (negative : Bool)
  deriving DecidableEq, Repr

namespace Binary64

/-- The least exponent: subnormals have it. -/
def minExponent : Int := -1074

/-- The greatest exponent of a finite value. -/
def maxExponent : Int := 971

/-- `2^k` as a rational pair factor: the numerator part for `k ≥ 0`. -/
def pow2 (k : Int) : Nat := Nat.pow 2 k.toNat

/-- Whether `num / den < 2^k`. -/
def ltPow2 (num den : Nat) (k : Int) : Bool :=
  if 0 ≤ k then num < den * pow2 k else num * pow2 (-k) < den

/-- `⌊log₂ (num / den)⌋` for positive `num` and `den`. -/
def floorLog2 (num den : Nat) : Int :=
  let k : Int := (Nat.log2 num : Int) - (Nat.log2 den : Int)
  if ltPow2 num den k then k - 1 else k

/-- `num / den` rounded to the nearest integer, a tie going to the even one. -/
def roundHalfEven (num den : Nat) : Nat :=
  let q := num / den
  let r := num % den
  if 2 * r > den || (2 * r = den && q % 2 = 1) then q + 1 else q

/-- The value nearest to `± num / den` (`den > 0`). -/
def ofRatio (negative : Bool) (num den : Nat) : Binary64 :=
  if num = 0 then .finite negative 0 minExponent
  else
    let q := max (floorLog2 num den - 52) minExponent
    let m := if 0 ≤ q then roundHalfEven num (den * pow2 q) else roundHalfEven (num * pow2 (-q)) den
    let (m, q) := if m = Nat.pow 2 53 then (Nat.pow 2 52, q + 1) else (m, q)
    if q > maxExponent then .infinite negative else .finite negative m q

/-- The value nearest to `± m · 2^q`. -/
def ofScaled (negative : Bool) (m : Nat) (q : Int) : Binary64 :=
  if 0 ≤ q then ofRatio negative (m * pow2 q) 1 else ofRatio negative m (pow2 (-q))

/-- The value nearest to a natural number. -/
def ofNat (n : Nat) : Binary64 :=
  ofRatio false n 1

/-- The value with the sign flipped. -/
def neg : Binary64 → Binary64
  | .finite s m q => .finite (!s) m q
  | .infinite s => .infinite (!s)

/-- Whether the value is zero, of either sign. -/
def isZero : Binary64 → Bool
  | .finite _ m _ => m == 0
  | .infinite _ => false

/-- Whether the value is an infinity. -/
def isInfinite : Binary64 → Bool
  | .finite .. => false
  | .infinite _ => true

/-- The rounded product; a finite factor times infinity is infinity, and zero times infinity
does not occur in this library. -/
def mul : Binary64 → Binary64 → Binary64
  | .finite s m q, .finite t n r => ofScaled (s != t) (m * n) (q + r)
  | .finite s _ _, .infinite t => .infinite (s != t)
  | .infinite s, .finite t _ _ => .infinite (s != t)
  | .infinite s, .infinite t => .infinite (s != t)

/-- The rounded quotient of a value by a finite nonzero value. -/
def div : Binary64 → Binary64 → Binary64
  | .finite s m q, .finite t n r =>
    if n = 0 then .infinite (s != t)
    else
      let k := q - r
      if 0 ≤ k then ofRatio (s != t) (m * pow2 k) n else ofRatio (s != t) m (n * pow2 (-k))
  | .finite s _ _, .infinite t => .finite (s != t) 0 minExponent
  | .infinite s, .finite t _ _ => .infinite (s != t)
  | .infinite s, .infinite t => .infinite (s != t)

/-- The value nearest to `10^k`. -/
def pow10 (k : Nat) : Binary64 :=
  ofNat (Nat.pow 10 k)

end Binary64

end StakingHub
