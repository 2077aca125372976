import ChartGrammar.Number.Shortest

/-! Decimals of a chosen precision. A datum is rounded on the grid of a power of ten, from its exact value and
half to even, so that no digit depends on an earlier rounding. -/

namespace ChartGrammar.Decimal

/-- A finite datum on the grid `10^e`. -/
def onGrid (x : Binary64) (e : Int) : Decimal :=
  let (num, den) := x.ratio
  ofScaled (roundHalfEven (num * Nat.pow 10 (-e).toNat) (den * Nat.pow 10 e.toNat)) e

/-- A finite datum with so many digits after the point. Beyond 1074 places all digits are zeros. -/
def toPlaces (x : Binary64) (places : Nat) : Decimal :=
  onGrid x (-(min places 1074 : Nat))

/-- A finite datum with so many digits from its first one on. Beyond 767 of them all digits are zeros. -/
def toDigits (x : Binary64) (digits : Nat) : Decimal :=
  if x.isZero then zero
  else onGrid x ((Interval.ofBinary64 x).magnitude - (min digits 767 : Nat))

end ChartGrammar.Decimal
