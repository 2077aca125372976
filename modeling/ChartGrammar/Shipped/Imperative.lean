import ChartGrammar.Shipped.Rows

/-! The imperative grammar: one call for a chart, with every option a flat argument of the call. The
argument `col` is the interior of bars, slices and boxes, but the stroke of points and lines, whose interior
is `bg`. -/

namespace ChartGrammar.Shipped.Imperative

/-- The rows that hold for every kind unless a kind has its own. -/
def common : List (StyleKey × StyleRow) := [
  (.title, scalar "main"),
  (.xLabel, scalar "xlab"),
  (.yLabel, scalar "ylab"),
  (.fillColor, scalar "col"),
  (.outlineColor, scalar "border"),
  (.opacity, unsupported
    "Base graphics take no alpha argument; fold transparency into the colour values (adjustcolor) instead."),
  (.themeTone, unsupported "Base graphics have no theme system; set tone through par() before drawing."),
  (.axisLimitX, limits "xlim" .visual),
  (.axisLimitY, limits "ylim" .visual)]

/-- The roles that split bars, in order of preference. -/
def groupRoles : Value := .list [.text "group", .text "fill"]

/-- A call for the whole chart. -/
def call (name : String) : Entries := [(.text "call", .text name)]

/-- A grid of panels, one call for each. -/
def panels (function : String) : FacetRow where
  writer := .panelGrid (.text "panels") (.text "mfrow")
  structural := true
  note := .text ("One " ++ function ++ "() call per level of \x7bcolumn!r\x7d, "
    ++ "arranged in a par(mfrow) panel grid.")

/-- The row of the fill role of kinds whose interior is `col`. -/
def fillRow : RoleRow := role (some (.palette (.text "col"))) (some (.scalar (.text "col")))

/-- The row of a role whose columns are passed as vectors. -/
def vector (param : String) : RoleRow := column (.vector (.text param))

/-- The numbers of the point shapes. -/
def pointCodes : Entries := [
  (.text "circle", .int 1), (.text "square", .int 0), (.text "triangle", .int 2), (.text "diamond", .int 5),
  (.text "cross", .int 4), (.text "plus", .int 3), (.text "filled_circle", .int 21),
  (.text "filled_square", .int 22)]

/-- The numbers of the line styles. -/
def lineCodes : Entries := [
  (.text "solid", .int 1), (.text "dashed", .int 2), (.text "dotted", .int 3), (.text "dotdash", .int 4),
  (.text "longdash", .int 5), (.text "twodash", .int 6)]

def bar : KindRows where
  kind := .bar
  selector := .fixed (call "barplot")
  structural := false
  note := .null
  required := [.x]
  conditional := []
  roles := [
    (.x, column (.countedOrLabels (.text "height") (.text "names.arg") groupRoles)),
    (.y, column (.groupedVector (.text "height") groupRoles)),
    (.group, consumed "height"),
    (.fill, fillRow)]
  styles := common ++ [
    (.groupLayout, {
      realization := .arranged (.groupedBars (.text "beside") (.text "height.scale")
        (.tuple [.text "group", .text "fill"]))
      cropping := none
      note := .null }),
    (.legendVisible, scalar "legend.text"),
    (.flipAxes, scalar "horiz")]
  facet? := some (panels "barplot")

def pie : KindRows where
  kind := .pie
  selector := .fixed (call "pie")
  structural := false
  note := .null
  required := [.x]
  conditional := []
  roles := [
    (.x, column (.countedOrLabels (.text "x") (.text "labels") (.tuple []))),
    (.y, vector "x"),
    (.fill, fillRow)]
  styles := without [.axisLimitX, .axisLimitY] common
  facet? := none

def histogram : KindRows where
  kind := .histogram
  selector := .fixed (call "hist")
  structural := false
  note := .null
  required := [.x]
  conditional := []
  roles := [
    (.x, vector "x"),
    (.fill, {
      column? := some (.overlay (.text "layers") (.text "hist") (.text "col"))
      literal? := some (.scalar (.text "col"))
      structural := true
      note := .text ("hist() draws a single distribution; filling by \x7bcolumn!r\x7d becomes one overlaid "
        ++ "hist(add = TRUE) call per level.")
      consumedInto := .null })]
  styles := common ++ [
    (.binWidth, writes (.nested (.text "breaks") (.text "width"))),
    (.binCount, scalar "breaks")]
  facet? := some (panels "hist")

def boxplot : KindRows where
  kind := .boxplot
  selector := .fixed (call "boxplot")
  structural := false
  note := .null
  required := [.y]
  conditional := [(.group, .y)]
  roles := [
    (.y, column (.formula (.text "formula") (.text "group"))),
    (.group, consumed "formula"),
    (.fill, fillRow)]
  styles := common ++ [(.flipAxes, scalar "horizontal")]
  facet? := some (panels "boxplot")

def line : KindRows where
  kind := .line
  selector := .fixed (call "plot" ++ [(.text "type", .text "l")])
  structural := false
  note := .null
  required := [.x, .y]
  conditional := []
  roles := [
    (.x, vector "x"),
    (.y, vector "y"),
    (.group, {
      column? := some (.overlay (.text "layers") (.text "lines") (.text "col"))
      literal? := none
      structural := true
      note := .text ("plot() draws a single series; grouping by \x7bcolumn!r\x7d adds one lines() overlay "
        ++ "per level on top of the base plot.")
      consumedInto := .null }),
    (.outline, role none (some (.scalar (.text "col"))))]
  styles := replacing .outlineColor (scalar "col") (without [.fillColor] common) ++ [
    (.lineWidth, scalar "lwd"),
    (.lineStyle, writes (mapped "lty" lineCodes))]
  facet? := some (panels "plot")

def scatter : KindRows where
  kind := .scatter
  selector := .fixed (call "plot")
  structural := false
  note := .null
  required := [.x, .y]
  conditional := []
  roles := [
    (.x, vector "x"),
    (.y, vector "y"),
    (.group, column (.palette (.text "col"))),
    (.size, role (some (.vector (.text "cex"))) (some (.scalar (.text "cex")))),
    (.shape, role (some (.factorCodes (.text "pch"))) (some (mapped "pch" pointCodes)))]
  styles := replacing .outlineColor (scalar "col") (replacing .fillColor (scalar "bg") common) ++ [
    (.pointShape, writes (mapped "pch" pointCodes))]
  facet? := none

/-- The table of the imperative grammar. -/
def table : Table where
  grammar := "imperative"
  description := "One call per chart type; options are flat keyword arguments."
  kinds := [bar, pie, histogram, boxplot, line, scatter]

end ChartGrammar.Shipped.Imperative
