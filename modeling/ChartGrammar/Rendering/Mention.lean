import ChartGrammar.Text.Blank
import ChartGrammar.Value.Basic

/-! Whether a parameter's value refers to a column: by the column's name, or by a formula with the name on
one of its sides, at any depth. -/

namespace ChartGrammar

/-- The sides of a text that is taken for a formula: what stands between its tildes, without the blanks around
it. -/
def formulaSides (s : String) : List String :=
  (s.toList.splitOn '~').map fun side => Text.strip (String.ofList side)

/-- Whether a text is a name, or a formula with the name on one side. -/
def textMentions (s name : String) : Bool :=
  s == name || (formulaSides s).contains name

namespace Value

mutual

/-- Whether a value refers to a column. The keys of a dictionary refer to nothing. -/
def mentions (name : String) : Value → Bool
  | text s => textMentions s name
  | list xs => itemsMention name xs
  | tuple xs => itemsMention name xs
  | dict es => entriesMention name es
  | _ => false

/-- Whether one of the items refers to a column. -/
def itemsMention (name : String) : List Value → Bool
  | [] => false
  | v :: vs => mentions name v || itemsMention name vs

/-- Whether the value of one of the entries refers to a column. -/
def entriesMention (name : String) : Entries → Bool
  | [] => false
  | (_, v) :: es => mentions name v || entriesMention name es

end

end Value

end ChartGrammar
