import LayeredScope.Binary64

/-!
# The fewest digits that read back

The decimals that round to a given binary number fill an interval around it. Of the grids of the
multiples of powers of ten, the coarsest one with a positive point in that interval gives the
fewest digits; of the points next to the number on that grid, the nearer one that lies in the
interval is chosen, and an exact tie goes up.

* `Reading.ofFinite` — the number and its interval, as whole multiples of one unit that is a
  common divisor of every power of ten down to `10 ^ -324` and of every bound.
* `Reading.onGrid` — the chosen multiple of one power of ten, if one lies in the interval.
* `shortest` — the search from the coarsest grid down.
-/

namespace LayeredScope

namespace Binary64

/-- A positive magnitude with the interval of magnitudes that round to it, all three counted in
units of `2 ^ -1076 * 10 ^ -324`. -/
structure Reading where
  value : Nat
  lower : Nat
  upper : Nat
  /-- The ends belong to the interval. -/
  closed : Bool
  deriving Repr

/-- The bounds lie half way to the neighbours: the lower neighbour is half as far where the
significand is a power of two with a smaller exponent below it. The ends round to the even
significand. -/
def Reading.ofFinite (significand : Nat) (exponent : Int) : Reading :=
  let scale := Nat.pow 2 (exponent + 1074).toNat * Nat.pow 10 324
  let below := if significand = Nat.pow 2 52 ∧ exponent > -1074 then 1 else 2
  { value := 4 * significand * scale
    lower := (4 * significand - below) * scale
    upper := (4 * significand + 2) * scale
    closed := significand % 2 = 0 }

/-- Does a magnitude round to the number? -/
def Reading.inside (r : Reading) (x : Nat) : Bool :=
  if r.closed then r.lower ≤ x && x ≤ r.upper else r.lower < x && x < r.upper

/-- The unit of the grid of multiples of `10 ^ (power - 324)`. -/
def gridUnit (power : Nat) : Nat := Nat.pow 2 1076 * Nat.pow 10 power

/-- The multiple of the grid's unit that is chosen for the number, if one of the two next to it
rounds to it. -/
def Reading.onGrid (r : Reading) (power : Nat) : Option Nat :=
  let unit := gridUnit power
  let down := r.value / unit
  let up := down + 1
  let downInside := 0 < down && r.inside (down * unit)
  let upInside := r.inside (up * unit)
  if downInside && (!upInside || 2 * (r.value - down * unit) < unit) then some down
  else if upInside then some up
  else none

/-- A decimal `digits * 10 ^ exponent`. -/
structure Decimal where
  digits : Nat
  exponent : Int
  deriving DecidableEq, Repr

/-- The coarsest grid of at most the given power that has a choice. -/
def Reading.coarsest (r : Reading) : Nat → Decimal
  | 0 => ⟨(r.onGrid 0).getD 0, -324⟩
  | power + 1 =>
    match r.onGrid (power + 1) with
    | some digits => ⟨digits, (power + 1 : Int) - 324⟩
    | none => r.coarsest power

/-- The decimal with the fewest digits that rounds to a finite magnitude. -/
def shortest (significand : Nat) (exponent : Int) : Decimal :=
  if significand = 0 then ⟨0, 0⟩ else (Reading.ofFinite significand exponent).coarsest 633

end Binary64

end LayeredScope
