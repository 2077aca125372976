import ChartGrammar.Layout.Basic
import ChartGrammar.Number.Rounded

/-! Numbers in layouts. A numeral is a number in the parts that a layout tells apart: it groups the digits
before the point, fills the space before them with zeros or puts other characters there, and leaves what follows
them as it is. -/

namespace ChartGrammar

/-- A written number in its parts. -/
structure Numeral where
  negative : Bool
  /-- The mark of the base. -/
  base : List Char
  /-- The digits that can be grouped. -/
  whole : List Char
  /-- What follows them. -/
  rest : List Char
  deriving DecidableEq, Repr

namespace Numeral

/-- The numeral in capitals. -/
def capital (n : Numeral) : Numeral :=
  { n with base := n.base.map Char.toUpper, whole := n.whole.map Char.toUpper, rest := n.rest.map Char.toUpper }

/-- An integer in a base, after the mark of the base. -/
def ofInt (base : Nat) (mark : List Char) (n : Int) : Numeral :=
  ⟨n < 0, mark, Nat.toDigits base n.natAbs, []⟩

/-- Digits with a mark between groups of one size, of which the first has room for so many more. -/
def group (mark : Char) (size : Nat) : Nat → List Char → List Char
  | _, [] => []
  | 0, c :: rest => mark :: c :: group mark size (size - 1) rest
  | room + 1, c :: rest => c :: group mark size room rest

/-- Without the marks between their groups, digits are what they were. -/
theorem filter_group {mark : Char} {size room : Nat} {digits : List Char} (unmarked : mark ∉ digits) :
    (group mark size room digits).filter (· != mark) = digits := by
  induction digits generalizing room with
  | nil => cases room <;> rfl
  | cons c rest ih =>
    obtain ⟨other, unmarked⟩ := List.ne_and_not_mem_of_not_mem_cons unmarked
    cases room <;> simp [group, ih unmarked, Ne.symm other]

/-- Digits with a mark between groups, which are counted from the last digit. -/
def grouped (mark : Char) (size : Nat) (digits : List Char) : List Char :=
  (group mark size size digits.reverse).reverse

/-- Without the marks between their groups, digits are what they were. -/
theorem filter_grouped {mark : Char} {size : Nat} {digits : List Char} (unmarked : mark ∉ digits) :
    (grouped mark size digits).filter (· != mark) = digits := by
  rw [grouped, List.filter_reverse, filter_group (by simpa using unmarked), List.reverse_reverse]

end Numeral

namespace Layout

/-- How many digits a group has: four in the bases that are powers of two, and three otherwise. -/
def groupSize (l : Layout) : Nat :=
  if "boxX".toList.contains l.presentation then 4 else 3

/-- The side on which a number stands. Zeros that fill the space stand after the sign. -/
def numberSide (l : Layout) : Char :=
  l.side.getD (if l.fill == '0' then '=' else '>')

/-- The digits before the point, in groups where a mark is named. Zeros that fill the space after the sign are
digits too: as few of them as bring the groups to a width. -/
def layOutDigits (l : Layout) (width : Nat) (digits : List Char) : List Char :=
  let width := if l.fill == '0' && l.numberSide == '=' && !digits.isEmpty then width else 0
  match l.grouping with
  | some mark =>
    let count := width - (width - 1) / (l.groupSize + 1)
    Numeral.grouped mark l.groupSize (digits.leftpad count '0')
  | none => digits.leftpad width '0'

/-- A numeral in a layout. -/
def layOutNumeral (l : Layout) (n : Numeral) : String :=
  let sign := if n.negative then ['-'] else (l.sign.filter (· != '-')).toList
  let front := sign ++ n.base
  let body := l.layOutDigits (l.width - (front.length + n.rest.length)) n.whole ++ n.rest
  if l.numberSide = '=' then
    String.ofList (front ++ List.replicate (l.width - (front.length + body.length)) l.fill ++ body)
  else String.ofList (l.fillUp l.numberSide (front ++ body))

/-- A finite datum in so many digits, of which at least `least` follow the point in positional form. The zeros at
their end are written in the alternate form only. -/
def general (l : Layout) (digits least : Nat) (x : Binary64) : Decimal × Decimal.Form :=
  let d := Decimal.toDigits x digits
  let f := d.form (digits - least) least
  if l.alternate then
    (d, { f with places := if f.scientific then digits - 1 else (digits - d.point).toNat, pointed := true })
  else (d, f)

/-- A finite datum as a decimal and the form to write it in: with an exponent, with a number of places, in a
number of digits, or by default in the shortest decimal that reads back. -/
def decimal (l : Layout) (x : Binary64) : Decimal × Decimal.Form :=
  let precision := l.precision.getD 6
  match l.presentation.toLower with
  | 'e' => (Decimal.toDigits x (precision + 1), ⟨true, precision, l.alternate⟩)
  | 'f' | '%' => (Decimal.toPlaces x precision, ⟨false, precision, l.alternate⟩)
  | 'g' | 'n' => l.general (max precision 1) 0 x
  | _ =>
    match l.precision with
    | some n => l.general (max n 1) 1 x
    | none =>
      let d := Decimal.shortest x
      (d, { d.form 16 1 with pointed := l.alternate })

/-- A datum as a numeral. A percentage is a hundred times the datum. What is no number has no sign, and a
number that is rounded to zero loses it where the layout says so. -/
def numeral (l : Layout) (x : Binary64) : Numeral :=
  let isPercentage := l.presentation == '%'
  let x := if isPercentage then x.hundredfold else x
  let after := if isPercentage then ['%'] else []
  let n : Numeral :=
    if x.isNaN then ⟨false, [], [], "nan".toList ++ after⟩
    else if x.isInfinite then ⟨x.negative, [], [], "inf".toList ++ after⟩
    else
      let (d, f) := l.decimal x
      let (whole, rest) := d.write f
      ⟨x.negative && !(l.unsignedZero && d.digits.isEmpty), [], whole, rest ++ after⟩
  if "EFG".toList.contains l.presentation then n.capital else n

/-- The largest precision of a number. -/
def maxPrecision : Nat := 0x7fffffff

/-- A datum in a layout, in one of some presentations. -/
def layOutReal (presentations : String) (l : Layout) (x : Binary64) : Except Misuse String :=
  if presentations.toList.contains l.presentation && l.precision.all (· ≤ maxPrecision) then do
    let l ← l.bounded
    return l.layOutNumeral (l.numeral x)
  else .error .badPattern

/-- The character of a code point. Half of a surrogate pair is none, and the replacement character stands for
it. -/
def character (n : Int) : Except Misuse Char :=
  if n < 0 ∨ 0x10ffff < n then .error .outOfRange
  else .ok (if n.toNat.isValidChar then .ofNat n.toNat else '\ufffd')

/-- An integer in a layout: in digits of some base, as the character of a code point, or as the datum nearest
to it. Only in decimal digits is there a limit to how many. -/
def layOutInt (l : Layout) (n : Int) : Except Misuse String :=
  let shown (n : Numeral) : Except Misuse String := do return (← l.bounded).layOutNumeral n
  let inBase (base : Nat) (mark : String) : Numeral := .ofInt base (if l.alternate then mark.toList else []) n
  if "dnboxXc".toList.contains l.presentation && (l.precision.isSome || l.unsignedZero) then .error .badPattern
  else
    match l.presentation with
    | 'd' | 'n' => if Text.isWritable n then shown (inBase 10 "") else .error .tooLong
    | 'b' => shown (inBase 2 "0b")
    | 'o' => shown (inBase 8 "0o")
    | 'x' => shown (inBase 16 "0x")
    | 'X' => shown (inBase 16 "0x").capital
    | 'c' =>
      if l.sign.isSome || l.alternate then .error .badPattern
      else do shown ⟨false, [], [], [← character n]⟩
    | _ =>
      let x := Binary64.ofInt n
      if "eEfFgG%".toList.contains l.presentation && x.isInfinite then .error .outOfRange
      else l.layOutReal "eEfFgG%" x

end Layout

end ChartGrammar
