/-! # Shortest decimal form of a binary64 value

A finite float is split into an integer significand and a power of two, and the decimal with
the fewest significant digits inside its rounding interval is chosen:

* `Binary.ofFloat?` — sign, significand and binary exponent of a finite float;
* `Binary.interval` — the reals that round back to the value, in quarter units of its last place;
* `Binary.shortest` — the coarsest decimal grid with a point in that interval, and on it the
  point nearest to the value (an exact tie goes to the even digit string).

All arithmetic is exact, on `Nat` and `Int`; nothing here depends on float operations.
-/

namespace Lowering.Decimal

/-- A finite binary64 value: `(-1)^negative * mant * 2^exp`. Zero has `mant = 0`. -/
structure Binary where
  negative : Bool
  mant : Nat
  exp : Int
  /-- The value sits at the lower end of a binade, where the next value below is
  half as far away as the next value above. -/
  lowerGapHalved : Bool
  deriving Repr

/-- A decimal in scientific form, `digits * 10^exp`. -/
structure Scientific where
  digits : Nat
  exp : Int
  deriving Repr, DecidableEq

/-- Splits the bits of a float; `none` for an infinity or a NaN. -/
def Binary.ofFloat? (f : Float) : Option Binary :=
  let bits := f.toBits.toNat
  let negative := bits / Nat.pow 2 63 == 1
  let biased : Nat := bits / Nat.pow 2 52 % 2048
  let frac := bits % Nat.pow 2 52
  if biased == 2047 then none
  else if biased == 0 then some ⟨negative, frac, -1074, false⟩
  else some ⟨negative, frac + Nat.pow 2 52, (biased : Int) - 1075, frac == 0 && biased > 1⟩

/-- The reals that round to the value, as numerators over `2^(2 - exp)` (or times `2^(exp - 2)`):
the value itself is `4 * mant`, half a unit above is `4 * mant + 2`, and half a gap below is
`4 * mant - 2`, or `4 * mant - 1` where the gap below is halved. Both ends belong to the
interval exactly when the significand is even, since a tie rounds to even. -/
structure Interval where
  low : Nat
  mid : Nat
  high : Nat
  closed : Bool

/-- The rounding interval of a nonzero value, in units of `2^(exp - 2)`. -/
def Binary.interval (b : Binary) : Interval :=
  { low := 4 * b.mant - (if b.lowerGapHalved then 1 else 2)
    mid := 4 * b.mant
    high := 4 * b.mant + 2
    closed := b.mant % 2 == 0 }

/-- Numerator and denominator that put a quantity `n * 2^(exp - 2)` on the decimal grid of
spacing `10^p`: the quantity is `num / den` grid steps. -/
def gridScale (n : Nat) (e2 p : Int) : Nat × Nat :=
  let num := n * Nat.pow 2 e2.toNat * Nat.pow 10 (-p).toNat
  let den := Nat.pow 2 (-e2).toNat * Nat.pow 10 p.toNat
  (num, den)

/-- The grid steps of spacing `10^p` that lie in the interval, as a range `lo ≤ c ≤ hi` of
step counts; empty when `hi < lo`. -/
def gridRange (iv : Interval) (e2 p : Int) : Nat × Nat :=
  let (lnum, den) := gridScale iv.low e2 p
  let (hnum, _) := gridScale iv.high e2 p
  let lo := if iv.closed then (lnum + den - 1) / den else lnum / den + 1
  let hi := if iv.closed then hnum / den else (hnum + den - 1) / den - 1
  (lo, hi)

/-- Of the grid steps `c` in `lo..hi`, the one nearest to `num / den`; of two at the same
distance, the even one. -/
def nearestStep (lo hi num den : Nat) : Nat :=
  let clamp (c : Nat) := max lo (min hi c)
  let below := clamp (num / den)
  let above := clamp (num / den + 1)
  -- distances to the value, scaled by den
  let dBelow := if below * den ≤ num then num - below * den else below * den - num
  let dAbove := if above * den ≤ num then num - above * den else above * den - num
  if dBelow < dAbove then below
  else if dAbove < dBelow then above
  else if below % 2 == 0 then below else above

/-- A grid exponent at or above every grid with a point in the interval: the interval's top is
below `2^(bits - k)` for `bits` the bit length of its numerator, and `log10 2 < 0.30103`. -/
def startExponent (iv : Interval) (e2 : Int) : Int :=
  let bits : Int := (Nat.log2 iv.high + 1 : Nat)
  Int.fdiv ((bits + e2) * 30103) 100000 + 2

/-- Walks the grids from spacing `10^p` downward and stops at the first with a point in the
interval, taking there the point nearest to the value. -/
def searchGrid (iv : Interval) (e2 : Int) : Nat → Int → Scientific
  | 0, p =>
    let (lo, hi) := gridRange iv e2 p
    let (num, den) := gridScale iv.mid e2 p
    ⟨nearestStep lo hi num den, p⟩
  | fuel + 1, p =>
    let (lo, hi) := gridRange iv e2 p
    if lo ≤ hi then
      let (num, den) := gridScale iv.mid e2 p
      ⟨nearestStep lo hi num den, p⟩
    else searchGrid iv e2 fuel (p - 1)

/-- The shortest decimal that reads back as the value; zero is `0 * 10^0`.

The intuition: a coarser grid means fewer digits, so the first grid (from the top) that has a
point in the rounding interval gives the fewest digits. Seventeen significant digits always
suffice, so the walk stops within twenty grids of its start. -/
def Binary.shortest (b : Binary) : Scientific :=
  if b.mant = 0 then ⟨0, 0⟩
  else
    let iv := b.interval
    let e2 := b.exp - 2
    searchGrid iv e2 40 (startExponent iv e2)

/-- Number of decimal digits of a positive number; `1` for zero. -/
def digitCount (n : Nat) : Nat :=
  (toString n).length

end Lowering.Decimal
