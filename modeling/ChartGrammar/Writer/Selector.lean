import ChartGrammar.Chart.Basic

/-! Writers of the choice of a chart's kind, and of the column to facet by. -/

namespace ChartGrammar

/-- A writer of the choice of a chart's kind. -/
inductive SelectorWriter where
  /-- The same parameters for every chart. -/
  | fixed (params : Entries)
  /-- One of two geometries, by whether heights are bound. -/
  | barGeometry (param counted valued : Value)

namespace SelectorWriter

/-- Whether a writer looks at the chart. -/
def looksAtChart : SelectorWriter → Bool
  | barGeometry .. => true
  | fixed _ => false

/-- The parameters written for the choice of a chart's kind. -/
def run : SelectorWriter → Chart → Entries
  | fixed params, _ => params
  | barGeometry param counted valued, c => [(param, if c.hasRole .y then valued else counted)]

end SelectorWriter

/-- A writer of the column to facet by. -/
inductive FacetWriter where
  /-- A one-sided formula. -/
  | wrap (param : Value)
  /-- A grid of panels, one for each level. -/
  | panelGrid (param layout : Value)

/-- The parameters written for the column to facet by. -/
def FacetWriter.run : FacetWriter → Value → Entries
  | wrap param, name => [(param, .text ("~" ++ name.display))]
  | panelGrid param layout, name => [(param, .dict [(.text "split_by", name), (.text "layout", layout)])]

end ChartGrammar
