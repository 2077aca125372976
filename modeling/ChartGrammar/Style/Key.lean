import ChartGrammar.Vocabulary

/-! Style keys: what a chart's author may ask for in the look of a chart, whatever a grammar calls it. -/

namespace ChartGrammar

/-- The style keys, in the order in which they are processed. -/
inductive StyleKey where
  | title
  | xLabel
  | yLabel
  | fillColor
  | outlineColor
  | opacity
  | pointShape
  | lineWidth
  | lineStyle
  | binWidth
  | binCount
  | groupLayout
  | themeTone
  | legendVisible
  | axisLimitX
  | axisLimitY
  | flipAxes
  deriving DecidableEq, Repr

namespace StyleKey

def name : StyleKey → String
  | title => "title"
  | xLabel => "xLabel"
  | yLabel => "yLabel"
  | fillColor => "fillColor"
  | outlineColor => "outlineColor"
  | opacity => "opacity"
  | pointShape => "pointShape"
  | lineWidth => "lineWidth"
  | lineStyle => "lineStyle"
  | binWidth => "binWidth"
  | binCount => "binCount"
  | groupLayout => "groupLayout"
  | themeTone => "themeTone"
  | legendVisible => "legendVisible"
  | axisLimitX => "axisLimitX"
  | axisLimitY => "axisLimitY"
  | flipAxes => "flipAxes"

instance : Vocabulary StyleKey where
  all := [title, xLabel, yLabel, fillColor, outlineColor, opacity, pointShape, lineWidth, lineStyle, binWidth,
    binCount, groupLayout, themeTone, legendVisible, axisLimitX, axisLimitY, flipAxes]
  name := name
  title := "StyleKey"

instance : LawfulVocabulary StyleKey where
  ofName?_name k := by cases k <;> rfl

/-- The keys that every kind of every grammar table has a row for. -/
def mandatory : List StyleKey := [title, xLabel, yLabel]

/-- The key that gives way when this one is set. -/
def exclusive? : StyleKey → Option StyleKey
  | binWidth => some binCount
  | binCount => some binWidth
  | _ => none

end StyleKey

end ChartGrammar
