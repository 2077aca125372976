import ChartGrammar.Table.Basic

/-! Short forms for the rows of tables that the library holds. -/

namespace ChartGrammar.Shipped

/-- A row that writes a style value, with nothing to note. -/
def writes (w : StyleWriter) : StyleRow where
  realization := .written w
  cropping := none
  note := .null

/-- A row that writes a style value as it is. -/
def scalar (param : String) : StyleRow :=
  writes (.scalar (.text param))

/-- A row of an axis limit. -/
def limits (param : String) (cropping : Cropping) : StyleRow where
  realization := .written (.pair (.text param))
  cropping := some cropping
  note := .null

/-- A row of a style key that cannot be expressed, and why. -/
def unsupported (note : String) : StyleRow where
  realization := .written .nothing
  cropping := none
  note := .text note

/-- A row that looks a word up among pairs. -/
def mapped (param : String) (words : Entries) : StyleWriter :=
  .mapped (.text param) words

/-- A row of a role that writes columns and literals as given. -/
def role (column? : Option ColumnWriter) (literal? : Option StyleWriter) : RoleRow where
  column?
  literal?
  structural := false
  note := .null
  consumedInto := .null

/-- A row of a role that takes columns only. -/
def column (w : ColumnWriter) : RoleRow :=
  role (some w) none

/-- A row of a role whose columns another role's parameter carries. -/
def consumed (into : String) : RoleRow :=
  { column (.consumed (.text into)) with consumedInto := .text into }

/-- Rows with one row in another's place. -/
def replacing (key : StyleKey) (row : StyleRow) (rows : List (StyleKey × StyleRow)) :
    List (StyleKey × StyleRow) :=
  rows.map fun e => if e.1 = key then (key, row) else e

/-- Rows without those of some keys. -/
def without (keys : List StyleKey) (rows : List (StyleKey × StyleRow)) : List (StyleKey × StyleRow) :=
  rows.filter fun e => !keys.contains e.1

end ChartGrammar.Shipped
