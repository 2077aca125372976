import ChartGrammar.Text.Blank

/-! Integers read from text: blanks at the ends, one sign, and decimal digits of any script, between which
single underscores may stand. -/

namespace ChartGrammar.Text

/-- The zeros of the decimal digit runs of Unicode 14; the ten digits of a run follow one another. -/
def digitZeros : List Nat :=
  [0x30, 0x660, 0x6f0, 0x7c0, 0x966, 0x9e6, 0xa66, 0xae6, 0xb66, 0xbe6, 0xc66, 0xce6, 0xd66, 0xde6, 0xe50,
   0xed0, 0xf20, 0x1040, 0x1090, 0x17e0, 0x1810, 0x1946, 0x19d0, 0x1a80, 0x1a90, 0x1b50, 0x1bb0, 0x1c40,
   0x1c50, 0xa620, 0xa8d0, 0xa900, 0xa9d0, 0xa9f0, 0xaa50, 0xabf0, 0xff10, 0x104a0, 0x10d30, 0x11066,
   0x110f0, 0x11136, 0x111d0, 0x112f0, 0x11450, 0x114d0, 0x11650, 0x116c0, 0x11730, 0x118e0, 0x11950,
   0x11c50, 0x11d50, 0x11da0, 0x16a60, 0x16ac0, 0x16b50, 0x1d7ce, 0x1d7d8, 0x1d7e2, 0x1d7ec, 0x1d7f6,
   0x1e140, 0x1e2f0, 0x1e950, 0x1fbf0]

/-- The value of a decimal digit of any script. -/
def decimalDigit? (c : Char) : Option Nat :=
  (digitZeros.find? fun z => z ≤ c.toNat && c.toNat < z + 10).map fun z => c.toNat - z

/-- The blanks that may surround an integer: all but the four information separators. -/
def isIntegerBlank (c : Char) : Bool :=
  isBlank c && !(28 ≤ c.toNat && c.toNat ≤ 31)

/-- The digits of a run in which single underscores separate digits; `none` for anything else. -/
def digitRun? : List Char → Option (List Nat)
  | [] => none
  | [c] => (decimalDigit? c).map ([·])
  | c :: '_' :: rest => do
    let d ← decimalDigit? c
    let ds ← digitRun? rest
    return d :: ds
  | c :: rest => do
    let d ← decimalDigit? c
    let ds ← digitRun? rest
    return d :: ds

/-- The largest number of digits that is read or written. -/
def maxDigits : Nat := 4300

/-- The least number of too many digits. -/
def leastTooLong : Nat := Nat.pow 10 maxDigits

theorem leastTooLong_pos : 0 < leastTooLong := Nat.pow_pos (by decide)

/-- Whether an integer has no more digits than are written. -/
def isWritable (n : Int) : Bool :=
  (Nat.toDigits 10 n.natAbs).length ≤ maxDigits

/-- The number written by at most `maxDigits` digits. -/
def natural? (s : List Char) : Option Nat := do
  let digits ← digitRun? s
  guard (digits.length ≤ maxDigits)
  return digits.foldl (fun n d => 10 * n + d) 0

/-- The integer written by a text. -/
def integer? (s : String) : Option Int :=
  match dropEnds isIntegerBlank s.toList with
  | '+' :: digits => (natural? digits).map Int.ofNat
  | '-' :: digits => (natural? digits).map fun n => -Int.ofNat n
  | digits => (natural? digits).map Int.ofNat

end ChartGrammar.Text
