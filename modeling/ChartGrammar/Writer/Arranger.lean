import ChartGrammar.Chart.Grouping

/-! Arrangers realize a style value by the structure of the chart and not by a parameter of its own, and
explain what they did. -/

namespace ChartGrammar

/-- What an arranger makes of a style value: parameters, and an explanation of them. -/
structure Arrangement where
  fragments : Entries
  explanation : String

/-- A writer that realizes a style value by the structure of the chart. -/
inductive Arranger where
  /-- Bars drawn side by side, stacked, or stacked as proportions of the levels of a group. -/
  | groupedBars (param scale roles : Value)

namespace Arranger

/-- The layout of bars for a value. Every value other than the two named ones means proportions. -/
def layout (param scale value : Value) (group : String) : Except Misuse Arrangement := do
  let level := Text.quoted group
  if value.same (.text "dodge") then
    return {
      fragments := [(param, .bool true)]
      explanation := "groupLayout 'dodge' drawn as side-by-side bars per level of " ++ level ++ " ("
        ++ (← param.present) ++ "=TRUE)." }
  else if value.same (.text "stack") then
    return {
      fragments := [(param, .bool false)]
      explanation := "groupLayout 'stack' drawn as stacked segments per level of " ++ level ++ " ("
        ++ (← param.present) ++ "=FALSE)." }
  else
    return {
      fragments := [(param, .bool false), (scale, .text "proportion")]
      explanation := "groupLayout 'fill' drawn as stacked segments of per-category proportions of " ++ level
        ++ "; counts are converted to proportions before drawing." }

/-- What the layout of bars writes: whether they stand side by side, and for proportions the scale. -/
theorem fragments_layout {param scale value : Value} {group : String} {arrangement : Arrangement}
    (h : layout param scale value group = .ok arrangement) :
    (∃ beside, arrangement.fragments = [(param, .bool beside)]) ∨
      arrangement.fragments = [(param, .bool false), (scale, .text "proportion")] := by
  unfold layout at h
  split at h
  · obtain ⟨name, -, h⟩ := bind_eq_ok_iff.mp h
    cases h
    exact .inl ⟨true, rfl⟩
  split at h
  · obtain ⟨name, -, h⟩ := bind_eq_ok_iff.mp h
    cases h
    exact .inl ⟨false, rfl⟩
  · cases h
    exact .inr rfl

/-- The arrangement for a style value. -/
def run : Arranger → Value → Chart → Except Misuse Arrangement
  | groupedBars param scale roles, value, c => do
    match ← c.grouping roles (c.columnFor .x) with
    | some group => layout param scale value group
    | none =>
      return {
        fragments := []
        explanation := "groupLayout " ++ (← value.write) ++ " has no effect without a grouping column bound." }

end Arranger

end ChartGrammar
