import ChartGrammar.Chart.Role
import ChartGrammar.Style.Key
import ChartGrammar.Text.Blank
import ChartGrammar.Text.Quoted

/-! The shapes of style values and of literals. A shape accepts some values and brings each into a normal
form: colours lose the blanks around them, opacities become data of double precision, and pairs become
tuples. -/

namespace ChartGrammar

/-- What a value has to look like. -/
inductive Shape where
  | text
  | colour
  | unitInterval
  | positive
  | positiveWhole
  | flag
  | range
  /-- One of some words, listed in ascending order. -/
  | word (choices : List String)
  deriving DecidableEq

namespace Shape

def points : List String :=
  ["circle", "cross", "diamond", "filled_circle", "filled_square", "plus", "square", "triangle"]

def lineStyles : List String :=
  ["dashed", "dotdash", "dotted", "longdash", "solid", "twodash"]

def groupLayouts : List String :=
  ["dodge", "fill", "stack"]

def themeTones : List String :=
  ["bw", "classic", "dark", "grey", "light", "minimal", "void"]

def isHexDigit (c : Char) : Bool :=
  c.isDigit || ('a' ≤ c && c ≤ 'f') || ('A' ≤ c && c ≤ 'F')

/-- A colour is `#` with three, six or eight hexadecimal digits, or a letter followed by letters, digits and
spaces; all are ASCII. -/
def isColourWord : List Char → Bool
  | '#' :: digits => (digits.length == 3 || digits.length == 6 || digits.length == 8) && digits.all isHexDigit
  | c :: rest => c.isAlpha && rest.all fun d => d.isAlphanum || d == ' '
  | [] => false

/-- Whether a text is a colour. A line break after the colour would go unnoticed. -/
def isColour (s : List Char) : Bool :=
  isColourWord s || (s.getLast? == some '\n' && isColourWord s.dropLast)

/-- A finite number; truth values, infinities and data that are no numbers are left out. -/
def finite? (v : Value) : Option Number :=
  v.number?.filter Number.isFinite

/-- The normal form of a pair of bounds: finite numbers, the first not above the second. -/
def orderedPair? : List Value → Option Value
  | [lower, upper] => do
    let l ← finite? lower
    let u ← finite? upper
    if u.lt l then none else some (.tuple [lower, upper])
  | _ => none

/-- The normal form of a value of this shape, or `none` for any other value. -/
def normalize? : Shape → Value → Option Value
  | text, .text s => some (.text s)
  | colour, .text s =>
    let candidate := Text.strip s
    if isColour candidate.toList then some (.text candidate) else none
  | unitInterval, .int n => if n = 0 then some (.float .zero) else if n = 1 then some (.float .one) else none
  | unitInterval, .float x =>
    if (Number.whole 0).le (.real x) && (Number.real x).le (.whole 1) then some (.float x) else none
  | positive, v => (finite? v).bind fun n => if (Number.whole 0).lt n then some v else none
  | positiveWhole, .int n => if 0 < n then some (.int n) else none
  | flag, .bool b => some (.bool b)
  | range, .list xs => orderedPair? xs
  | range, .tuple xs => orderedPair? xs
  | word choices, .text s => if choices.contains s then some (.text s) else none
  | _, _ => none

/-- The shape in words. -/
def describe : Shape → String
  | text => "a string"
  | colour => "a colour name or hex code"
  | unitInterval => "a number in [0, 1]"
  | positive => "a positive number"
  | positiveWhole => "a positive integer"
  | flag => "a boolean"
  | range => "an ordered pair of numbers (lower <= upper)"
  | word choices => "one of " ++ Text.quotedList choices

end Shape

/-- The shape of the values of a style key. -/
def StyleKey.shape : StyleKey → Shape
  | .title => .text
  | .xLabel => .text
  | .yLabel => .text
  | .fillColor => .colour
  | .outlineColor => .colour
  | .opacity => .unitInterval
  | .pointShape => .word Shape.points
  | .lineWidth => .positive
  | .lineStyle => .word Shape.lineStyles
  | .binWidth => .positive
  | .binCount => .positiveWhole
  | .groupLayout => .word Shape.groupLayouts
  | .themeTone => .word Shape.themeTones
  | .legendVisible => .flag
  | .axisLimitX => .range
  | .axisLimitY => .range
  | .flipAxes => .flag

/-- The shape of the literals that a role takes; `none` for a role that takes columns only. -/
def Role.literalShape? : Role → Option Shape
  | .fill => some .colour
  | .outline => some .colour
  | .size => some .positive
  | .shape => some (.word Shape.points)
  | _ => none

end ChartGrammar
