import ChartGrammar.Chart.Basic

/-! Writers tried out on their own, without a chart. -/

namespace ChartGrammar

/-- A chart of which nothing is known. -/
def Chart.blank : Chart := { kind := .bar, facetLimit := Settings.defaultFacetLimit }

/-- What a writer does with the chart at hand, if there is one. Without one, a writer that looks at the
chart is misused, and any other does what it does for every chart. -/
def onChart {α : Type} (looks : Bool) (run : Chart → Except Misuse α) : Option Chart → Except Misuse α
  | some c => run c
  | none => if looks then .error .missingAttribute else run .blank

end ChartGrammar
