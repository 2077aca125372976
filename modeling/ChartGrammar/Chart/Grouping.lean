import ChartGrammar.Chart.Basic

/-! The column that splits a chart into groups: the first that is bound to one of some roles and is not left
out. -/

namespace ChartGrammar.Chart

/-- The first column bound to one of some roles that is not the excluded one. Roles are looked at one by
one, so what stands after a hit does not matter. -/
def groupingAmong (c : Chart) (exclude : Option String) : List Value → Except Misuse (Option String)
  | [] => .ok none
  | role :: rest => do
    match c.columnFor (← anyRole role) with
    | some name => if some name = exclude then groupingAmong c exclude rest else return some name
    | none => groupingAmong c exclude rest

/-- The first column bound to one of the roles in a value that is not the excluded one. -/
def grouping (c : Chart) (roles : Value) (exclude : Option String) : Except Misuse (Option String) :=
  match roles.elements? with
  | some items => c.groupingAmong exclude items
  | none => .error .notIterable

end ChartGrammar.Chart
