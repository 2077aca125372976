import ChartGrammar.Vocabulary

/-! The declared types of data columns. -/

namespace ChartGrammar

/-- The declared type of a column. -/
inductive ColumnType where
  | categorical
  | numeric
  | temporal
  | logical
  deriving DecidableEq, Repr

namespace ColumnType

def name : ColumnType → String
  | categorical => "categorical"
  | numeric => "numeric"
  | temporal => "temporal"
  | logical => "logical"

instance : Vocabulary ColumnType where
  all := [categorical, numeric, temporal, logical]
  name := name
  title := "ColumnType"

instance : LawfulVocabulary ColumnType where
  ofName?_name t := by cases t <;> rfl

end ColumnType

end ChartGrammar
