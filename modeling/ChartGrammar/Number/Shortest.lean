import ChartGrammar.Number.Binary64
import ChartGrammar.Number.Decimal

/-! The shortest decimal that reads back to a given datum. The reals that round to `m · 2^q` form an
interval, whose ends belong to it exactly when `m` is even. For one digit, two digits and so on, the two
neighbours of the value on that decimal grid are tried: the coarsest grid with a hit wins, of two hits the
nearer, of two equally near the even one. All comparisons are on natural numbers. -/

namespace ChartGrammar

/-- A positive fraction `centre / den` with the ends `low / den` and `high / den` of an interval around it. -/
structure Decimal.Interval where
  low : Nat
  centre : Nat
  high : Nat
  den : Nat
  closed : Bool

namespace Decimal

/-- The reals that round to a positive finite datum. Just above a power of two the gap below is half as wide
as the gap above, save at the bottom of the range. -/
def Interval.ofBinary64 (x : Binary64) : Interval :=
  let m := x.significand
  let up := Nat.pow 2 x.scale.toNat
  let narrow := x.fraction = 0 ∧ 1 < x.exponentField
  { low := (if narrow then 4 * m - 1 else 4 * m - 2) * up
    centre := 4 * m * up
    high := (4 * m + 2) * up
    den := 4 * Nat.pow 2 (-x.scale).toNat
    closed := m % 2 = 0 }

/-- The order of `d · 10^e` and `num / den`. -/
def compareScaled (d : Nat) (e : Int) (num den : Nat) : Ordering :=
  compare (d * Nat.pow 10 e.toNat * den) (num * Nat.pow 10 (-e).toNat)

/-- Whether `d · 10^e` lies in the interval. -/
def Interval.contains (i : Interval) (d : Nat) (e : Int) : Bool :=
  let below := compareScaled d e i.low i.den
  let above := compareScaled d e i.high i.den
  (below == .gt || (i.closed && below == .eq)) && (above == .lt || (i.closed && above == .eq))

/-- The least `k` with `centre / den < 10^k`, sought upward from an estimate by binary logarithms. -/
def Interval.magnitude (i : Interval) : Int :=
  let estimate := ((i.centre.log2 : Int) - i.den.log2 - 1) * 30103 / 100000 - 1
  let candidates := (List.range 5).map fun (j : Nat) => estimate + j
  (candidates.find? fun k => compareScaled 1 k i.centre i.den == .gt).getD (estimate + 5)

/-- The point of the grid `10^e` nearest to the centre among those in the interval; an exact tie goes to the
even one. -/
def Interval.nearest? (i : Interval) (e : Int) : Option Nat :=
  let d := i.centre * Nat.pow 10 (-e).toNat / (i.den * Nat.pow 10 e.toNat)
  match i.contains d e, i.contains (d + 1) e with
  | false, false => none
  | true, false => some d
  | false, true => some (d + 1)
  | true, true =>
    match compareScaled (2 * d + 1) e (2 * i.centre) i.den with
    | .gt => some d
    | .lt => some (d + 1)
    | .eq => some (if d % 2 = 0 then d else d + 1)

/-- All digits of a finite datum. -/
def exact (x : Binary64) : Decimal :=
  ofScaled (x.ratio.1 * Nat.pow 5 (-x.scale).toNat) (min x.scale 0)

/-- The shortest decimal that reads back to a finite datum. Seventeen digits always suffice; the exact value
stands behind the search so that it cannot come back empty. -/
def shortest (x : Binary64) : Decimal :=
  if x.isZero then zero
  else
    let i := Interval.ofBinary64 x
    let k := i.magnitude
    let hit := (List.range 17).findSome? fun (n : Nat) =>
      let e := k - (n + 1)
      (i.nearest? e).map fun d => ofScaled d e
    hit.getD (exact x)

end Decimal

namespace Binary64

/-- The text of a datum: the fewest digits that read back, with a decimal point or an exponent. -/
def text (x : Binary64) : String :=
  if x.isNaN then "nan"
  else
    let size := if x.isInfinite then "inf" else String.ofList (Decimal.shortest x).text
    if x.negative then "-" ++ size else size

end Binary64

namespace Number

def text : Number → String
  | whole n => toString n
  | real x => x.text

end Number

end ChartGrammar
