import ChartGrammar.Number.Binary64

/-! The values that payloads, table rows and parameters are made of: plain data, the mark of an unset style
key, and the two sources of a binding, which can stand wherever a value stands. -/

namespace ChartGrammar

/-- A value. The entries of a dictionary stand in the order in which their keys were first put in. -/
inductive Value where
  | null
  | bool (b : Bool)
  | int (n : Int)
  | float (x : Binary64)
  | text (s : String)
  | list (items : List Value)
  | tuple (items : List Value)
  | dict (entries : List (Value × Value))
  /-- The mark that clears a style key. -/
  | unset
  /-- A column, referred to by its name. -/
  | column (name : Value)
  /-- A constant that stands for itself. -/
  | literal (value : Value)

/-- The entries of a dictionary. -/
abbrev Entries := List (Value × Value)

namespace Value

instance : Inhabited Value := ⟨null⟩

/-- The name of a value's type in messages. -/
def typeName : Value → String
  | null => "NoneType"
  | bool _ => "bool"
  | int _ => "int"
  | float _ => "float"
  | text _ => "str"
  | list _ => "list"
  | tuple _ => "tuple"
  | dict _ => "dict"
  | unset => "_Unset"
  | column _ => "ColumnRef"
  | literal _ => "LiteralValue"

/-- Integers and data of double precision; a truth value is no number here. -/
def number? : Value → Option Number
  | int n => some (.whole n)
  | float x => some (.real x)
  | _ => none

/-- The text that a value is. -/
def text? : Value → Option String
  | text s => some s
  | _ => none

/-- The number that a value counts as in comparisons: there, the truth values are one and zero. -/
def quantity? : Value → Option Number
  | bool b => some (.whole (if b then 1 else 0))
  | v => v.number?

def ofNumber : Number → Value
  | .whole n => int n
  | .real x => float x

/-- The values that count as false: nothing, zeros, empty texts and empty containers, and the unset mark. -/
def truthy : Value → Bool
  | null => false
  | bool b => b
  | int n => n != 0
  | float x => !x.isZero
  | text s => !s.isEmpty
  | list xs => !xs.isEmpty
  | tuple xs => !xs.isEmpty
  | dict es => !es.isEmpty
  | unset => false
  | column _ => true
  | literal _ => true

/-- The elements of a value: items, keys, or single characters. -/
def elements? : Value → Option (List Value)
  | list xs => some xs
  | tuple xs => some xs
  | dict es => some (es.map (·.1))
  | text s => some (s.toList.map fun c => text (String.singleton c))
  | _ => none

def ofOption : Option Value → Value
  | some v => v
  | none => null

/-- A list of texts. -/
def texts (names : List String) : Value :=
  list (names.map text)

end Value

end ChartGrammar
