import StakingHub.Number.Binary64

/-!
# Shortest decimal text of binary64 values

Among the decimals that read back as a given value (lie in the interval of reals that round to
it, ends included when the mantissa is even), the one with the fewest significant digits; of
two such with equally many digits, the one nearer the value, and of two equally near, the one
whose last digit is even. The layout writes it positionally when the decimal point falls within sixteen digits
of the first digit and at most four zeros behind the point, and in exponent form otherwise,
with an explicit sign on the exponent.

JSON numbers in the records of `crates/ns-mock/src/domain/payloads.rs:12-110` are written so.
-/

namespace StakingHub

/-- `digits · 10^exp`. -/
structure Decimal where
  digits : Nat
  exp : Int
  deriving DecidableEq, Repr

namespace Decimal

/-- `10^k` as a factor for `k ≥ 0`. -/
def pow10 (k : Int) : Nat := Nat.pow 10 k.toNat

/-- Compares `a · 10^i` with `n · 2^j` exactly. -/
def cmpScaled (a : Nat) (i : Int) (n : Nat) (j : Int) : Ordering :=
  compare (a * pow10 i * Binary64.pow2 (-j)) (n * Binary64.pow2 j * pow10 (-i))

/-- Whether `d` lies among the reals that round to `m · 2^q`. -/
def readsBack (m : Nat) (q : Int) (d : Decimal) : Bool :=
  let narrow := m = Nat.pow 2 52 && q > Binary64.minExponent
  let lo := if narrow then 4 * m - 1 else 4 * m - 2
  let hi := 4 * m + 2
  let incl := m % 2 == 0
  let cl := cmpScaled d.digits d.exp lo (q - 2)
  let ch := cmpScaled d.digits d.exp hi (q - 2)
  (cl == .gt || (incl && cl == .eq)) && (ch == .lt || (incl && ch == .eq))

/-- `⌊m · 2^q / 10^e⌋` and whether the remainder is at least, or exactly, a half: the two
neighbours of the value on the grid of step `10^e`. -/
def gridFloor (m : Nat) (q e : Int) : Nat × Nat × Nat :=
  let num := m * Binary64.pow2 q * pow10 (-e)
  let den := Binary64.pow2 (-q) * pow10 e
  (num / den, 2 * (num % den), den)

/-- The number of decimal digits of a positive number. -/
def digitCount (n : Nat) : Nat :=
  (Nat.toDigits 10 n).length

/-- `⌊log₁₀ (m · 2^q)⌋` for `m > 0`. -/
def floorLog10 (m : Nat) (q : Int) : Int :=
  if 0 ≤ q then (digitCount (m * Binary64.pow2 q) : Int) - 1
  else
    (digitCount (m * Nat.pow 5 (-q).toNat) : Int) - 1 + q

/-- The candidate with `n` significant digits, if one of the two grid neighbours reads back. -/
def candidate (m : Nat) (q : Int) (k0 : Int) (n : Nat) : Option Decimal :=
  let e := k0 - n + 1
  let (c, twiceRem, den) := gridFloor m q e
  let low : Decimal := ⟨c, e⟩
  let high : Decimal := ⟨c + 1, e⟩
  match readsBack m q low, readsBack m q high with
  | true, true =>
    if twiceRem < den || (twiceRem == den && c % 2 == 0) then some low else some high
  | true, false => some low
  | false, true => some high
  | false, false => none

/-- Drops trailing zero digits into the exponent. -/
def trim (d : Decimal) : Decimal :=
  let rec go (digits : Nat) (exp : Int) : Nat → Decimal
    | 0 => ⟨digits, exp⟩
    | fuel + 1 =>
      if digits ≠ 0 && digits % 10 = 0 then go (digits / 10) (exp + 1) fuel else ⟨digits, exp⟩
  go d.digits d.exp (digitCount d.digits)

/-- The shortest decimal that reads back as `m · 2^q`, for `m > 0`. -/
def shortest (m : Nat) (q : Int) : Decimal :=
  let k0 := floorLog10 m q
  let found := (List.range 17).findSome? fun i => candidate m q k0 (i + 1)
  match found with
  | some d => trim d
  | none =>
    let (c, _, _) := gridFloor m q (k0 - 16)
    trim ⟨c, k0 - 16⟩

/-- Text of a natural number. -/
def natText (n : Nat) : String := toString n

/-- The layout: digits `ds` with the decimal point after `point` digits. -/
def layout (ds : String) (point : Int) : String :=
  let len : Int := ds.length
  if 0 < point && point ≤ 16 then
    if len ≤ point then ds ++ String.ofList (List.replicate (point - len).toNat '0') ++ ".0"
    else
      String.ofList (ds.toList.take point.toNat) ++ "." ++ String.ofList (ds.toList.drop point.toNat)
  else if -5 < point && point ≤ 0 then
    "0." ++ String.ofList (List.replicate (-point).toNat '0') ++ ds
  else
    let exponent := point - 1
    let expText := if exponent < 0 then "-" ++ natText exponent.natAbs else "+" ++ natText exponent.natAbs
    let mantissa :=
      if len = 1 then ds else String.ofList (ds.toList.take 1) ++ "." ++ String.ofList (ds.toList.drop 1)
    mantissa ++ "e" ++ expText

end Decimal

namespace Binary64

/-- The text of a value: shortest digits, laid out as described above. -/
def toText : Binary64 → String
  | .infinite s => if s then "-inf" else "inf"
  | .finite s m q =>
    let sign := if s then "-" else ""
    if m = 0 then sign ++ "0.0"
    else
      let d := Decimal.shortest m q
      let ds := Decimal.natText d.digits
      sign ++ Decimal.layout ds (d.exp + ds.length)

end Binary64

end StakingHub
