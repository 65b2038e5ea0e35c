import Remedy.Decimal.Power
/-!
# The shortest decimal of a binary fraction

`Shortest.digits m e` finds, among the decimals that round to the double
`m · 2 ^ e`, one with the fewest digits, and of those the nearest. The
reals that round to a double form an interval whose ends belong to it when
`m` is even. On each decimal grid only the two neighbours of the value can
be the nearest, so the grids are tried from the coarsest on. All arithmetic
is on natural numbers.
-/

namespace Remedy

namespace Shortest

/-- A decimal `digits · 10 ^ exponent`. -/
structure Decimal where
  digits : Nat
  exponent : Int
deriving DecidableEq, Repr

/-- The interval of reals that round to a double, over one denominator:
the value is `value / den`, the ends are `low / den` and `high / den`. -/
structure Interval where
  low : Nat
  value : Nat
  high : Nat
  den : Nat
  closed : Bool
deriving DecidableEq, Repr

/-- The interval of `m · 2 ^ e`. Below a power of two the doubles lie
closer together, so there the lower gap is half as wide. -/
def Interval.ofBinary (m : Nat) (e : Int) : Interval :=
  let low := if m = Power.two 52 then 4 * m - 1 else 4 * m - 2
  let scale := Power.two e.toNat
  { low := low * scale
    value := 4 * m * scale
    high := (4 * m + 2) * scale
    den := 4 * Power.two (-e).toNat
    closed := m % 2 = 0 }

/-- Whether the decimal `n · 10 ^ p` lies in the interval. -/
def Interval.holds (i : Interval) (n : Nat) (p : Int) : Bool :=
  let x := n * Power.ten p.toNat * i.den
  let scale := Power.ten (-p).toNat
  if i.closed then i.low * scale ≤ x && x ≤ i.high * scale
  else i.low * scale < x && x < i.high * scale

/-- The multiple of `10 ^ p` at or below the value. -/
def Interval.below (i : Interval) (p : Int) : Nat :=
  i.value * Power.ten (-p).toNat / (i.den * Power.ten p.toNat)

/-- The neighbour of the value on the grid of `10 ^ p` that lies in the
interval; of two, the nearer, and of two equally near, the even one. -/
def Interval.onGrid? (i : Interval) (p : Int) : Option Nat :=
  let n := i.below p
  match i.holds n p, i.holds (n + 1) p with
  | false, false => none
  | true, false => some n
  | false, true => some (n + 1)
  | true, true =>
    let twice := 2 * i.value * Power.ten (-p).toNat
    let middle := (2 * n + 1) * (i.den * Power.ten p.toNat)
    if twice < middle then some n
    else if middle < twice then some (n + 1)
    else some (if n % 2 = 0 then n else n + 1)

/-- Tries grids from `10 ^ p` downwards. -/
def Interval.coarsest (i : Interval) (p : Int) : Nat → Decimal
  | 0 => ⟨i.below p, p⟩
  | steps + 1 =>
    match i.onGrid? p with
    | some n => ⟨n, p⟩
    | none => i.coarsest (p - 1) steps

/-- Takes zeros off the end of the digits. -/
def Decimal.strip (d : Decimal) : Nat → Decimal
  | 0 => d
  | steps + 1 =>
    if d.digits ≠ 0 ∧ d.digits % 10 = 0 then
      (Decimal.mk (d.digits / 10) (d.exponent + 1)).strip steps
    else d

/-- **The shortest decimal that rounds to `m · 2 ^ e`**, for `m ≠ 0`. -/
def digits (m : Nat) (e : Int) : Decimal :=
  let i := Interval.ofBinary m e
  (i.coarsest 309 700).strip 400

end Shortest

/-- A double taken apart. -/
inductive FloatParts where
  | notANumber
  | infinite (negative : Bool)
  | finite (negative : Bool) (mantissa : Nat) (exponent : Int)
deriving DecidableEq, Repr

/-- The parts of a double, read off its bits. -/
def FloatParts.ofFloat (x : Float) : FloatParts :=
  let bits := x.toBits.toNat
  let negative := Power.two 63 ≤ bits
  let exponent : Nat := bits / Power.two 52 % Power.two 11
  let fraction := bits % Power.two 52
  if exponent = 2047 then
    if fraction = 0 then .infinite negative else .notANumber
  else if exponent = 0 then .finite negative fraction (-1074)
  else .finite negative (Power.two 52 + fraction) ((exponent : Int) - 1075)

end Remedy
