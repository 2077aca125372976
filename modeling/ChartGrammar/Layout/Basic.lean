import ChartGrammar.Misuse
import ChartGrammar.Value.Access

/-! Layouts of values in patterns. A layout says, in this order and each part at will, what fills the space and
on which side of it the value stands, how signs are shown, whether a zero has one, whether the marks of the
presentation are shown, how wide the whole is, how digits are grouped and how many there are, and in which
presentation the value appears. -/

namespace ChartGrammar

/-- A layout as it is written. -/
structure Layout where
  fill : Char
  /-- The side on which a value stands, where one is named. -/
  side : Option Char
  /-- What stands before a number that is not negative, where it is named. -/
  sign : Option Char
  /-- Whether a zero loses its sign. -/
  unsignedZero : Bool
  alternate : Bool
  width : Nat
  /-- The mark between groups of digits. -/
  grouping : Option Char
  precision : Option Nat
  presentation : Char
  deriving DecidableEq, Repr

namespace Layout

/-- The marks for a value on the left, on the right, in the middle, and on the right with its sign on the
left. -/
def isSide (c : Char) : Bool :=
  c == '<' || c == '>' || c == '^' || c == '='

/-- The character that fills the space and the side, as far as they are named, with the rest. -/
def readSide : List Char → Option Char × Option Char × List Char
  | fill :: side :: rest =>
    if isSide side then (some fill, some side, rest)
    else if isSide fill then (none, some fill, side :: rest)
    else (none, none, fill :: side :: rest)
  | [side] => if isSide side then (none, some side, []) else (none, none, [side])
  | [] => (none, none, [])

/-- The one of some marks that stands in front, with the rest. -/
def readMark (marks : List Char) : List Char → Option Char × List Char
  | c :: rest => if marks.contains c then (some c, rest) else (none, c :: rest)
  | [] => (none, [])

/-- The number that is written in front, if there is one, with the rest; `none` if it is too large. -/
def readNumber? (cs : List Char) : Option (Option Nat × List Char) :=
  let digits := cs.takeWhile fun c => (Text.decimalDigit? c).isSome
  match Access.position? digits with
  | .ok n => some (n, cs.drop digits.length)
  | .error _ => none

/-- The precision after a point, with the rest; a point without one makes no layout. -/
def readPrecision? : List Char → Option (Option Nat × List Char)
  | '.' :: rest =>
    match readNumber? rest with
    | some (some n, rest) => some (some n, rest)
    | _ => none
  | cs => some (none, cs)

/-- Whether digits can be grouped by a mark in a presentation. -/
def canGroup (presentation mark : Char) : Bool :=
  "deEfFgG%\x00".toList.contains presentation || (mark == '_' && "boxX".toList.contains presentation)

/-- Reads a layout. `presentation` is the one where none is named. A zero before the width fills the space. -/
def parse? (presentation : Char) (cs : List Char) : Option Layout := do
  let (fill, side, cs) := readSide cs
  let (sign, cs) := readMark ['+', '-', ' '] cs
  let (zero, cs) := readMark ['z'] cs
  let (alternate, cs) := readMark ['#'] cs
  let (filler, cs) := if fill.isNone then readMark ['0'] cs else (fill, cs)
  let (width, cs) ← readNumber? cs
  let (grouping, cs) := readMark [',', '_'] cs
  let (precision, cs) ← readPrecision? cs
  let presentation ← match cs with
    | [] => some presentation
    | [c] => some c
    | _ => none
  if !grouping.all (canGroup presentation) then none
  else
    return {
      fill := filler.getD ' '
      side, sign, grouping, precision, presentation
      unsignedZero := zero.isSome
      alternate := alternate.isSome
      width := width.getD 0 }

/-- The largest width that there is room for. -/
def maxWidth : Nat := 0x3ffffffff

/-- The most space that is filled up, and the most digits that are written. -/
def maxSpace : Nat := 0xffffff

/-- The layout within the bounds of what is filled up, where there is room for it. -/
def bounded (l : Layout) : Except Misuse Layout :=
  if maxWidth < l.width then .error .exhausted
  else .ok { l with width := min l.width maxSpace, precision := l.precision.map (min maxSpace) }

/-- Characters on a side of the space that they leave of the width. In the middle, an odd place goes to the
right of them. -/
def fillUp (l : Layout) (side : Char) (shown : List Char) : List Char :=
  let space := l.width - shown.length
  let before := match side with
    | '<' => 0
    | '^' => space / 2
    | _ => space
  List.replicate before l.fill ++ shown ++ List.replicate (space - before) l.fill

/-- The space that is filled up brings the characters to the width, and none of them is lost. -/
theorem length_fillUp (l : Layout) (side : Char) (shown : List Char) :
    (l.fillUp side shown).length = max l.width shown.length := by
  have fits : (match side with
      | '<' => 0
      | '^' => (l.width - shown.length) / 2
      | _ => l.width - shown.length) ≤ l.width - shown.length := by
    split <;> omega
  simp only [fillUp, List.length_append, List.length_replicate]
  omega

/-- Whether a layout suits texts: they have no signs, and one presentation. -/
def suitsText (l : Layout) : Bool :=
  l.sign.isNone && !l.unsignedZero && !l.alternate && l.side != some '=' && l.presentation == 's'

/-- A text in a layout: cut to the precision and put on the left where no side is named. -/
def layOutText (l : Layout) (s : String) : Except Misuse String :=
  if l.suitsText then do
    let l ← l.bounded
    let shown := l.precision.elim s.toList s.toList.take
    return String.ofList (l.fillUp (l.side.getD '<') shown)
  else .error .badPattern

end Layout

end ChartGrammar
