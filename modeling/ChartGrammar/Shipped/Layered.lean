import ChartGrammar.Shipped.Rows

/-! The layered grammar: a base object and layers on it. Parameters are named by layer: `aes.*` maps
columns, `geom.*` sets constants of the geometry, and `labs.*`, `scale_*`, `coord_*` and `theme.*` address
the other layers. For every geometry `fill` is the interior and `colour` the stroke. -/

namespace ChartGrammar.Shipped.Layered

/-- The rows that hold for every kind unless a kind has its own. -/
def common : List (StyleKey × StyleRow) := [
  (.title, scalar "labs.title"),
  (.xLabel, scalar "labs.x"),
  (.yLabel, scalar "labs.y"),
  (.fillColor, scalar "geom.fill"),
  (.outlineColor, scalar "geom.colour"),
  (.opacity, scalar "geom.alpha"),
  (.themeTone, writes (.template (.text "theme") (.text "theme_\x7bvalue\x7d"))),
  (.legendVisible, writes (.legendPosition (.text "theme.legend.position") (.text "none") (.text "right"))),
  (.axisLimitX, limits "scale_x.limits" .destructive),
  (.axisLimitY, limits "scale_y.limits" .destructive),
  (.flipAxes, scalar "coord_flip")]

/-- The choice of a geometry. -/
def geometry (name : String) : SelectorWriter :=
  .fixed [(.text "geom", .text name)]

/-- The row of a role whose columns are mapped to an aesthetic. -/
def aesthetic (param : String) : RoleRow := column (.column (.text param))

/-- The row of a role whose columns are mapped to an aesthetic and whose literals are constants of the
geometry. -/
def aestheticOr (param constant : String) : RoleRow :=
  role (some (.column (.text param))) (some (.scalar (.text constant)))

/-- The row of the fill role. -/
def fillRow : RoleRow := aestheticOr "aes.fill" "geom.fill"

/-- The facet as a one-sided formula. -/
def wrap : FacetRow where
  writer := .wrap (.text "facet_wrap")
  structural := false
  note := .null

/-- The names of the point shapes. -/
def pointNames : Entries := [
  (.text "circle", .text "circle"), (.text "square", .text "square"), (.text "triangle", .text "triangle"),
  (.text "diamond", .text "diamond"), (.text "cross", .text "cross"), (.text "plus", .text "plus"),
  (.text "filled_circle", .text "circle filled"), (.text "filled_square", .text "square filled")]

def bar : KindRows where
  kind := .bar
  selector := .barGeometry (.text "geom") (.text "geom_bar") (.text "geom_col")
  structural := false
  note := .null
  required := [.x]
  conditional := []
  roles := [
    (.x, aesthetic "aes.x"),
    (.y, aesthetic "aes.y"),
    (.group, aesthetic "aes.fill"),
    (.fill, fillRow)]
  styles := common ++ [(.groupLayout, scalar "geom.position")]
  facet? := some wrap

def pie : KindRows where
  kind := .pie
  selector := .fixed [
    (.text "geom", .text "geom_bar"), (.text "geom.width", .int 1), (.text "aes.x", .text ""),
    (.text "coord_polar.theta", .text "y")]
  structural := true
  note := .text ("The layered grammar has no pie geometry; drawn as one stacked bar (geom_bar, width 1) in "
    ++ "polar coordinates (coord_polar(theta = 'y')).")
  required := [.x]
  conditional := []
  roles := [(.x, aesthetic "aes.fill"), (.y, aesthetic "aes.y"), (.fill, fillRow)]
  styles := without [.axisLimitX, .axisLimitY, .flipAxes] common
  facet? := none

def histogram : KindRows where
  kind := .histogram
  selector := geometry "geom_histogram"
  structural := false
  note := .null
  required := [.x]
  conditional := []
  roles := [(.x, aesthetic "aes.x"), (.fill, fillRow)]
  styles := common ++ [
    (.binWidth, scalar "geom.binwidth"),
    (.binCount, scalar "geom.bins"),
    (.groupLayout, scalar "geom.position")]
  facet? := some wrap

def boxplot : KindRows where
  kind := .boxplot
  selector := geometry "geom_boxplot"
  structural := false
  note := .null
  required := [.y]
  conditional := []
  roles := [(.y, aesthetic "aes.y"), (.group, aesthetic "aes.x"), (.fill, fillRow)]
  styles := common
  facet? := some wrap

def line : KindRows where
  kind := .line
  selector := geometry "geom_line"
  structural := false
  note := .null
  required := [.x, .y]
  conditional := []
  roles := [
    (.x, aesthetic "aes.x"),
    (.y, aesthetic "aes.y"),
    (.group, aesthetic "aes.colour"),
    (.outline, aestheticOr "aes.colour" "geom.colour")]
  styles := without [.fillColor] common ++ [
    (.lineWidth, scalar "geom.linewidth"),
    (.lineStyle, scalar "geom.linetype")]
  facet? := some wrap

def scatter : KindRows where
  kind := .scatter
  selector := geometry "geom_point"
  structural := false
  note := .null
  required := [.x, .y]
  conditional := []
  roles := [
    (.x, aesthetic "aes.x"),
    (.y, aesthetic "aes.y"),
    (.group, aesthetic "aes.colour"),
    (.size, aestheticOr "aes.size" "geom.size"),
    (.shape, role (some (.column (.text "aes.shape"))) (some (mapped "geom.shape" pointNames)))]
  styles := common ++ [(.pointShape, writes (mapped "geom.shape" pointNames))]
  facet? := some wrap

/-- The table of the layered grammar. -/
def table : Table where
  grammar := "layered"
  description := "Base object plus composable mapping, geometry, scale, coordinate, facet and theme layers."
  kinds := [bar, pie, histogram, boxplot, line, scatter]

end ChartGrammar.Shipped.Layered
