import ChartGrammar.Value.Template

/-! Writers of style values and of literals: each turns one value into parameters of a grammar. No
parameters at all means that the grammar cannot express the value. -/

namespace ChartGrammar

/-- A writer of a value. The names and words in it are whatever a table's row holds. -/
inductive StyleWriter where
  /-- The value itself. -/
  | scalar (param : Value)
  /-- The two elements of the value, as a tuple. -/
  | pair (param : Value)
  /-- A dictionary with the value under one field. -/
  | nested (param field : Value)
  /-- What a table of words holds for the value. -/
  | mapped (param : Value) (words : Entries)
  /-- A pattern with the value filled in. -/
  | template (param pattern : Value)
  /-- One of two places for the legend. -/
  | legendPosition (param hidden shown : Value)
  | nothing

namespace StyleWriter

/-- The two elements of a value as a tuple. -/
def bounds (v : Value) : Except Misuse Value :=
  match v.elements? with
  | some [lower, upper] => .ok (.tuple [lower, upper])
  | some _ => .error .wrongCount
  | none => .error .notIterable

/-- The parameters written for a value. -/
def run (w : StyleWriter) (v : Value) : Except Misuse Entries :=
  match w with
  | scalar param => .ok [(param, v)]
  | pair param => do return [(param, ← bounds v)]
  | nested param field => if field.isKey then .ok [(param, .dict [(field, v)])] else .error .unhashable
  | mapped param words => do
    match ← words.lookup v with
    | some word => return [(param, word)]
    | none => return []
  | template param pattern => do return [(param, ← Template.apply pattern "value" v)]
  | legendPosition param hidden shown => .ok [(param, if v.truthy then shown else hidden)]
  | nothing => .ok []

end StyleWriter

end ChartGrammar
