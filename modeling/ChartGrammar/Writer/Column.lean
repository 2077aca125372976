import ChartGrammar.Chart.Grouping

/-! Writers of columns that are bound to a role. Some of them look at what else is bound on the chart. -/

namespace ChartGrammar

/-- A writer of a column bound to a role. -/
inductive ColumnWriter where
  /-- The column's name. -/
  | column (param : Value)
  /-- The column's values. -/
  | vector (param : Value)
  /-- The column's values as labels when heights are bound, and otherwise their counts, split by a group. -/
  | countedOrLabels (param labels roles : Value)
  /-- The column's values, split by a group. -/
  | groupedVector (param roles : Value)
  /-- The column against that of another role. -/
  | formula (param other : Value)
  /-- Nothing: another role's parameter is to carry the column. -/
  | consumed (into : Value)
  /-- A palette with a colour for each level. -/
  | palette (param : Value)
  /-- The codes of the column's levels. -/
  | factorCodes (param : Value)
  /-- A further draw call for each level. -/
  | overlay (param call colour : Value)

namespace ColumnWriter

/-- The values of a column, with the group that splits them. -/
def split (fields : Entries) : Option String → Value
  | some group => .dict (fields ++ [(.text "by", .text group)])
  | none => .dict fields

/-- The layer that an overlay adds. A colour parameter of the same name as another field replaces it. -/
def layer (call colour name : Value) : Except Misuse Value :=
  let fields : Entries := [(.text "call", call), (.text "split_by", name), (.text "add", .bool true)]
  match colour with
  | .null => .ok (.dict fields)
  | param =>
    if param.isKey then .ok (.dict (fields.insert param (.dict [(.text "palette_by", name)])))
    else .error .unhashable

/-- Whether a writer looks at the chart. -/
def looksAtChart : ColumnWriter → Bool
  | countedOrLabels .. | groupedVector .. | formula .. => true
  | _ => false

/-- The parameters written for a column. Its name is written as it is; only a formula needs a text of it. -/
def run (w : ColumnWriter) (name : Value) (c : Chart) : Except Misuse Entries :=
  let values : Entries := [(.text "column", name)]
  match w with
  | column param => .ok [(param, name)]
  | vector param => .ok [(param, .dict values)]
  | countedOrLabels param labels roles =>
    if c.hasRole .y then .ok [(labels, .dict values)]
    else do
      let counts := values ++ [(.text "stat", .text "count")]
      return [(param, split counts (← c.grouping roles name.text?))]
  | groupedVector param roles => do return [(param, split values (← c.grouping roles (c.columnFor .x)))]
  | formula param other => do
    match c.columnFor (← Chart.anyRole other) with
    | some group => return [(param, .text (name.display ++ " ~ " ++ group))]
    | none => return [(param, .dict values)]
  | consumed _ => .ok []
  | palette param => .ok [(param, .dict [(.text "palette_by", name)])]
  | factorCodes param => .ok [(param, .dict (values ++ [(.text "codes", .text "factor")]))]
  | overlay param call colour => do return [(param, .tuple [← layer call colour name])]

end ColumnWriter

end ChartGrammar
