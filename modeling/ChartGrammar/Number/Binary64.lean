import ChartGrammar.Number.Nearest

/-! Double-precision floating-point data, held by their 64 bits. A finite datum is `±m · 2^q` with a natural
`m` below `2^53`; comparisons are made on exact rationals, never on rounded values. -/

namespace ChartGrammar

/-- A double-precision datum: sign bit, eleven exponent bits, fifty-two fraction bits. -/
structure Binary64 where
  bits : UInt64
  deriving DecidableEq

namespace Binary64

def negative (x : Binary64) : Bool :=
  0x8000000000000000 ≤ x.bits.toNat

def exponentField (x : Binary64) : Nat :=
  x.bits.toNat / 0x10000000000000 % 0x800

def fraction (x : Binary64) : Nat :=
  x.bits.toNat % 0x10000000000000

def isNaN (x : Binary64) : Bool :=
  x.exponentField == 2047 && x.fraction != 0

def isInfinite (x : Binary64) : Bool :=
  x.exponentField == 2047 && x.fraction == 0

def isFinite (x : Binary64) : Bool :=
  x.exponentField != 2047

/-- The natural `m` of `±m · 2^q`; the leading bit is implicit except in subnormal data. -/
def significand (x : Binary64) : Nat :=
  if x.exponentField = 0 then x.fraction else 0x10000000000000 + x.fraction

/-- The exponent `q` of `±m · 2^q`. -/
def scale (x : Binary64) : Int :=
  max x.exponentField 1 - 1075

/-- Both zeros have significand zero. -/
def isZero (x : Binary64) : Bool :=
  x.isFinite && x.significand == 0

/-- The exact value of a finite datum. -/
def toRat (x : Binary64) : Rat :=
  let m : Int := if x.negative then -x.significand else x.significand
  if 0 ≤ x.scale then Rat.ofInt (m * Nat.pow 2 x.scale.toNat) else mkRat m (Nat.pow 2 (-x.scale).toNat)

/-- The same datum with the other sign. -/
def neg (x : Binary64) : Binary64 :=
  ⟨x.bits ^^^ 0x8000000000000000⟩

/-- The datum without a sign that has the given bits; infinity above the finite range. -/
def ofMagnitude (bits : Nat) : Binary64 :=
  ⟨.ofNat (min bits 0x7ff0000000000000)⟩

/-- The greatest `k` with `2^k ≤ num / den`. -/
def log2Ratio (num den : Nat) : Int :=
  let estimate : Int := (num.log2 : Int) - den.log2
  if num * Nat.pow 2 (-estimate).toNat < den * Nat.pow 2 estimate.toNat then estimate - 1 else estimate

/-- The datum nearest to `num / den`, ties to even; infinity above the finite range. The fifty-three bits from
the leading one are kept, or those down to `2^-1074`. A significand that is rounded up to `2^53` carries over
into the exponent. -/
def ofRatio (num den : Nat) : Binary64 :=
  if num = 0 then ofMagnitude 0
  else
    let scale := max (log2Ratio num den - 52) (-1074)
    let significand := roundHalfEven (num * Nat.pow 2 (-scale).toNat) (den * Nat.pow 2 scale.toNat)
    ofMagnitude ((scale + 1074).toNat * 0x10000000000000 + significand)

/-- The datum nearest to `digits · 10^exponent`, ties to even; infinity above the finite range. Powers of ten
that lie far above or below that range are not multiplied out. -/
def ofDecimal (digits : Nat) (exponent : Int) : Binary64 :=
  if digits = 0 ∨ digits.log2 / 3 + 1 + exponent < -330 then ofMagnitude 0
  else if 310 < digits.log2 / 4 + exponent then ofMagnitude 0x7ff0000000000000
  else ofRatio (digits * Nat.pow 10 exponent.toNat) (Nat.pow 10 (-exponent).toNat)

/-- The datum nearest to an integer. -/
def ofInt (n : Int) : Binary64 :=
  if n < 0 then (ofRatio n.natAbs 1).neg else ofRatio n.natAbs 1

/-- The magnitude of a finite datum as a fraction. -/
def ratio (x : Binary64) : Nat × Nat :=
  (x.significand * Nat.pow 2 x.scale.toNat, Nat.pow 2 (-x.scale).toNat)

/-- A hundred times a datum, to the nearest datum. -/
def hundredfold (x : Binary64) : Binary64 :=
  if x.isFinite then
    let size := ofRatio (100 * x.ratio.1) x.ratio.2
    if x.negative then size.neg else size
  else x

def infinity : Binary64 := ⟨0x7ff0000000000000⟩

def nan : Binary64 := ⟨0x7ff8000000000000⟩

def one : Binary64 := ⟨0x3ff0000000000000⟩

def zero : Binary64 := ⟨0⟩

end Binary64

/-- A number: an integer of any size, or a double-precision datum. -/
inductive Number where
  | whole (n : Int)
  | real (x : Binary64)
  deriving DecidableEq

namespace Number

/-- A place on the number line closed by its two ends. -/
inductive Place where
  | bottom
  | finite (q : Rat)
  | top
  deriving DecidableEq

def Place.lt : Place → Place → Bool
  | .bottom, .bottom => false
  | .bottom, _ => true
  | .finite a, .finite b => a < b
  | .finite _, .top => true
  | _, _ => false

/-- The place of a number; a datum that is no number has none. -/
def place? : Number → Option Place
  | whole n => some (.finite n)
  | real x =>
    if x.isNaN then none
    else if x.isInfinite then some (if x.negative then .bottom else .top)
    else some (.finite x.toRat)

/-- Exact order; nothing is below or above a number without a place. -/
def lt (a b : Number) : Bool :=
  match a.place?, b.place? with
  | some p, some q => p.lt q
  | _, _ => false

/-- Exact equality of value: an integer can equal a datum, the two zeros are equal, and a number without a
place equals nothing. -/
def same (a b : Number) : Bool :=
  match a.place?, b.place? with
  | some p, some q => p == q
  | _, _ => false

def le (a b : Number) : Bool :=
  a.lt b || a.same b

/-- Integers and finite data. -/
def isFinite : Number → Bool
  | whole _ => true
  | real x => x.isFinite

def isZero : Number → Bool
  | whole n => n == 0
  | real x => x.isZero

end Number

end ChartGrammar
