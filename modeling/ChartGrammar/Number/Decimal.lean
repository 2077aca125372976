/-! Decimals and the ways of writing them. A decimal is held by its digits and by the place of its point. In
positional form zeros fill the way from the digits to the point; in the form with an exponent the point stands
after the first digit. -/

namespace ChartGrammar

/-- The decimal `0.d₁d₂… · 10^point`, with digits from the first non-zero one to the last non-zero one. Zero has
no digits, and its point is 1. -/
structure Decimal where
  digits : List Char
  point : Int
  deriving DecidableEq

namespace Decimal

def zero : Decimal := ⟨[], 1⟩

/-- The decimal `d · 10^e`, without the zeros at the end of `d`. -/
def ofScaled (d : Nat) (e : Int) : Decimal :=
  if d = 0 then zero
  else
    let digits := Nat.toDigits 10 d
    { digits := (digits.reverse.dropWhile (· == '0')).reverse
      point := digits.length + e }

/-- How many digits stand after the point. -/
def places (d : Decimal) : Nat :=
  (d.digits.length - d.point).toNat

/-- The digits before the point, at least one. -/
def whole (d : Decimal) : List Char :=
  if d.point ≤ 0 then ['0'] else (d.digits.take d.point.toNat).rightpad d.point.toNat '0'

/-- So many digits after the point. -/
def fraction (d : Decimal) (places : Nat) : List Char :=
  let digits := List.replicate (-d.point).toNat '0' ++ d.digits.drop d.point.toNat
  (digits.take places).rightpad places '0'

/-- The power of ten at the first digit, after a letter: a sign and at least two digits. -/
def exponent (d : Decimal) : List Char :=
  let power := d.point - 1
  ['e', if power < 0 then '-' else '+'] ++ (Nat.toDigits 10 power.natAbs).leftpad 2 '0'

/-- A form in which decimals are written. -/
structure Form where
  /-- Whether the power of ten is written as an exponent. -/
  scientific : Bool
  /-- How many digits follow the point. -/
  places : Nat
  /-- Whether the point stands even where no digit follows it. -/
  pointed : Bool := false
  deriving DecidableEq, Repr

/-- A decimal in a form: the digits before the point, and the rest. -/
def write (d : Decimal) (f : Form) : List Char × List Char :=
  let shifted := if f.scientific then { d with point := 1 } else d
  let point := if f.pointed || 0 < f.places then ['.'] else []
  (shifted.whole, point ++ shifted.fraction f.places ++ (if f.scientific then d.exponent else []))

/-- The form without zeros at the end. It is positional where the first digit stands at most four places after
the point and at most `limit` digits stand before it, and has at least `least` digits after the point then. -/
def form (limit : Int) (least : Nat) (d : Decimal) : Form :=
  if d.point ≤ -4 ∨ limit < d.point then { scientific := true, places := d.digits.length - 1 }
  else { scientific := false, places := max least d.places }

/-- The decimal in positional form for exponents of the first digit from -4 to 15, with an exponent otherwise;
in positional form there is at least one digit on each side of the point. -/
def text (d : Decimal) : List Char :=
  let (whole, rest) := d.write (d.form 16 1)
  whole ++ rest

end Decimal

end ChartGrammar
