/-!
# The shortest decimal of a double

A double stands for all reals that round to it. Of the decimals among them, the
shortest has the fewest digits, and of those with equally few it is the nearest.
All of this is exact arithmetic on natural numbers: a positive double is
`m · 2 ^ q`, the reals that round to it lie between the midpoints to its two
neighbours, and the midpoints themselves belong to it iff `m` is even.

Below the double just above a power of two, neighbours are half as far apart, so
its interval is shorter on that side.
-/

namespace AnnotationQuery.Number

/-- A decimal: `digits · 10 ^ exponent`. -/
structure Decimal where
  digits : Nat
  exponent : Int
deriving DecidableEq, Repr

/-- The value `num / den` and the ends of an interval around it, `low / den` and `high / den`. -/
structure Interval where
  num : Nat
  den : Nat
  low : Nat
  high : Nat
  /-- Whether the ends belong to the interval. -/
  closed : Bool
deriving DecidableEq, Repr

namespace Interval

/-- The interval of the reals that round to the double with these fields, the sign aside. -/
def ofFields (exponent fraction : Nat) : Interval :=
  let m := if exponent = 0 then fraction else fraction + Nat.pow 2 52
  -- A quarter of the last place of `m` is `2 ^ (e - 1077)`.
  let e := max exponent 1
  let scale := Nat.pow 2 (e - 1077)
  let low := if fraction = 0 ∧ 1 < exponent then 4 * m - 1 else 4 * m - 2
  { num := 4 * m * scale
    den := Nat.pow 2 (1077 - e)
    low := low * scale
    high := (4 * m + 2) * scale
    closed := m % 2 == 0 }

/-- Whether `n / d` lies in the interval. -/
def contains (i : Interval) (n d : Nat) : Bool :=
  if i.closed then i.low * d ≤ n * i.den && n * i.den ≤ i.high * d
  else i.low * d < n * i.den && n * i.den < i.high * d

/-- Whether `a · 10 ^ k` lies in the interval. -/
def containsDecimal (i : Interval) (a : Nat) (k : Int) : Bool :=
  i.contains (a * Nat.pow 10 k.toNat) (Nat.pow 10 (-k).toNat)

/-- The nearest multiple of `10 ^ k` in the interval, of two equally near ones the even one. -/
def nearest? (i : Interval) (k : Int) : Option Decimal :=
  let num := i.num * Nat.pow 10 (-k).toNat
  let den := i.den * Nat.pow 10 k.toNat
  let a := num / den
  let rest := num % den
  match i.containsDecimal a k, i.containsDecimal (a + 1) k with
  | true, true =>
    if 2 * rest < den ∨ (2 * rest = den ∧ a % 2 = 0) then some ⟨a, k⟩ else some ⟨a + 1, k⟩
  | true, false => some ⟨a, k⟩
  | false, true => some ⟨a + 1, k⟩
  | false, false => none

/-- The first hit when the grid `10 ^ k` gets finer, for at most `bound` grids. -/
def search (i : Interval) : (bound : Nat) → (k : Int) → Decimal
  | 0, k => ⟨i.num * Nat.pow 10 (-k).toNat / (i.den * Nat.pow 10 k.toNat), k⟩
  | bound + 1, k =>
    match i.nearest? k with
    | some d => d
    | none => search i bound (k - 1)

end Interval

/-- The decimal without zeros at the end of its digits. -/
def Decimal.trimUpTo : (bound : Nat) → Decimal → Decimal
  | 0, d => d
  | bound + 1, d =>
    if d.digits ≠ 0 ∧ d.digits % 10 = 0 then trimUpTo bound ⟨d.digits / 10, d.exponent + 1⟩ else d

/-- The largest power of ten that a double can reach. -/
def topExponent : Int := 309

/-- The number of grids down to the finest one that a double can need. -/
def gridCount : Nat := 309 + 345

/-- The shortest decimal of the positive double with these fields. -/
def shortest (exponent fraction : Nat) : Decimal :=
  Decimal.trimUpTo 20 ((Interval.ofFields exponent fraction).search gridCount topExponent)

end AnnotationQuery.Number
