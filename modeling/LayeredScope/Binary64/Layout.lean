import LayeredScope.Binary64.Shortest

/-!
# How a number is written

* `Layout` — the decisions of one written form: where positional notation ends and whether a whole
  number keeps a fractional digit.
* `Layout.reading` — the form inserted into rendered text: always positional, no fractional part
  on whole numbers.
* `Layout.diagnostic` — the form for diagnostics: at least one fractional digit, and an exponent
  from `10 ^ 16` up and below `10 ^ -4`.
-/

namespace LayeredScope

namespace Binary64

/-- A form in which numbers are written. -/
structure Layout where
  /-- A positive number is written positionally if its decimal point stands after `low` or more
  and `high` or fewer digits; `none` means always. -/
  positional : Option (Int × Int)
  /-- The fractional digits that a whole number keeps. -/
  wholeFraction : String
  deriving Repr

/-- Text of rendered output. -/
def Layout.reading : Layout := ⟨none, ""⟩

/-- Text of diagnostics. -/
def Layout.diagnostic : Layout := ⟨some (-3, 16), ".0"⟩

/-- Digits with the decimal point after the first `point` of them. -/
def Layout.positionalText (layout : Layout) (digits : List Char) (point : Int) : String :=
  if point ≤ 0 then "0." ++ String.ofList (List.replicate (-point).toNat '0' ++ digits)
  else
    let n := point.toNat
    if digits.length ≤ n then
      String.ofList (digits ++ List.replicate (n - digits.length) '0') ++ layout.wholeFraction
    else String.ofList (digits.take n) ++ "." ++ String.ofList (digits.drop n)

/-- Digits with one of them before the decimal point, and the exponent that this takes. -/
def exponentText (digits : List Char) (point : Int) : String :=
  let fraction := digits.drop 1
  let mark := if fraction.isEmpty then "" else "." ++ String.ofList fraction
  String.ofList (digits.take 1) ++ mark ++ "e" ++ toString (point - 1)

/-- A decimal magnitude. -/
def Layout.magnitude (layout : Layout) (d : Decimal) : String :=
  if d.digits = 0 then "0" ++ layout.wholeFraction
  else
    let digits := Nat.toDigits 10 d.digits
    let point := d.exponent + digits.length
    match layout.positional with
    | none => layout.positionalText digits point
    | some (low, high) =>
      if low ≤ point ∧ point ≤ high then layout.positionalText digits point
      else exponentText digits point

/-- A number. -/
def Layout.write (layout : Layout) (x : Binary64) : String :=
  let sign := if x.negative then "-" else ""
  match x.classOf with
  | .notANumber => "NaN"
  | .infinite => sign ++ "inf"
  | .finite significand exponent => sign ++ layout.magnitude (shortest significand exponent)

end Binary64

end LayeredScope
