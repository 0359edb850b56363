/-!
# The shortest decimal of a binary fraction

Every positive double is a whole number of units `2 ^ exponent`, and the reals that round to it
form an interval around it whose ends belong to it exactly when its significand is even. Its
shortest decimal is a point of the coarsest power-of-ten grid that meets this interval: the nearer
of the two grid points beside the value, and of two equally near ones the even one. All of the
arithmetic is on natural numbers.
-/

namespace DeclaredSource.Decimal

/-- `significand * 2 ^ exponent`; the gap below is half the gap above at a power of two. -/
structure Binary where
  significand : Nat
  exponent : Int
  narrowBelow : Bool
  deriving DecidableEq, Repr

/-- How many significands share an exponent. -/
def fractionCount : Nat := 0x10000000000000

def scaleCount : Nat := 0x800

/-- The magnitude that a bit pattern stands for. -/
def Binary.ofBits (bits : UInt64) : Binary :=
  let fraction : Nat := bits.toNat % fractionCount
  let scale : Nat := bits.toNat / fractionCount % scaleCount
  if scale = 0 then ⟨fraction, -1074, false⟩
  else ⟨fraction + fractionCount, (scale : Int) - 1075, fraction = 0 && scale ≠ 1⟩

/-- `digits * 10 ^ exponent`. -/
structure Scaled where
  digits : Nat
  exponent : Int
  deriving DecidableEq, Repr

/-- A binary value and the ends of its rounding interval, all over one denominator, on the grid of
multiples of a power of ten. -/
structure Grid where
  value : Nat
  low : Nat
  high : Nat
  /-- The distance between neighbouring grid points. -/
  step : Nat
  closed : Bool

/-- Quarters of a unit keep both ends of the interval whole. -/
def Binary.grid (b : Binary) (tens : Int) : Grid :=
  let quarter := b.exponent - 2
  let factor := Nat.pow 2 quarter.toNat * Nat.pow 10 (-tens).toNat
  { value := 4 * b.significand * factor
    low := (4 * b.significand - if b.narrowBelow then 1 else 2) * factor
    high := (4 * b.significand + 2) * factor
    step := Nat.pow 2 (-quarter).toNat * Nat.pow 10 tens.toNat
    closed := b.significand % 2 = 0 }

def Grid.meets (g : Grid) (point : Nat) : Bool :=
  let place := point * g.step
  if g.closed then g.low ≤ place && place ≤ g.high else g.low < place && place < g.high

/-- The neighbour of the value that stands for it, if one of the two does. -/
def Grid.nearest? (g : Grid) : Option Nat :=
  let below := g.value / g.step
  let above := below + 1
  match g.meets below, g.meets above with
  | false, false => none
  | true, false => some below
  | false, true => some above
  | true, true =>
    let down := g.value - below * g.step
    let up := above * g.step - g.value
    if down < up || (down = up && below % 2 = 0) then some below else some above

/-- Tries the grids `10 ^ (count - 324)` from coarse to fine; the finest always has a hit. -/
def Binary.search (b : Binary) : Nat → Scaled
  | 0 => ⟨((b.grid (-324)).nearest?).getD 0, -324⟩
  | count + 1 =>
    let tens : Int := (count : Int) + 1 - 324
    match (b.grid tens).nearest? with
    | some digits => ⟨digits, tens⟩
    | none => b.search count

def Binary.shortest (b : Binary) : Scaled :=
  b.search 633

end DeclaredSource.Decimal
