import ChartGrammar.Schema.ColumnType

/-! Chart kinds, the roles that data play in a chart, and the column types that each kind takes in each
role. -/

namespace ChartGrammar

/-- The kinds of chart. -/
inductive Kind where
  | bar
  | pie
  | histogram
  | boxplot
  | line
  | scatter
  deriving DecidableEq, Repr

/-- The roles that a source can be bound to, in the order in which bindings are processed. -/
inductive Role where
  | x
  | y
  | group
  | fill
  | outline
  | size
  | shape
  | facet
  deriving DecidableEq, Repr

namespace Kind

def name : Kind → String
  | bar => "bar"
  | pie => "pie"
  | histogram => "histogram"
  | boxplot => "boxplot"
  | line => "line"
  | scatter => "scatter"

instance : Vocabulary Kind where
  all := [bar, pie, histogram, boxplot, line, scatter]
  name := name
  title := "ChartKind"

instance : LawfulVocabulary Kind where
  ofName?_name k := by cases k <;> rfl

end Kind

namespace Role

def name : Role → String
  | x => "x"
  | y => "y"
  | group => "group"
  | fill => "fill"
  | outline => "outline"
  | size => "size"
  | shape => "shape"
  | facet => "facet"

instance : Vocabulary Role where
  all := [x, y, group, fill, outline, size, shape, facet]
  name := name
  title := "BindingRole"

instance : LawfulVocabulary Role where
  ofName?_name r := by cases r <;> rfl

end Role

/-- Types with separate levels. -/
def discreteTypes : List ColumnType := [.categorical, .logical]

/-- Types that lie along an axis. -/
def continuousTypes : List ColumnType := [.numeric, .temporal]

/-- The column types that a kind takes in a role, in their canonical order; `none` where the kind has no such
role. -/
def Kind.columnTypes? : Kind → Role → Option (List ColumnType)
  | _, .facet => some Vocabulary.all
  | .bar, .x => some discreteTypes
  | .bar, .y => some [.numeric]
  | .bar, .group => some discreteTypes
  | .bar, .fill => some discreteTypes
  | .pie, .x => some discreteTypes
  | .pie, .y => some [.numeric]
  | .pie, .fill => some discreteTypes
  | .histogram, .x => some continuousTypes
  | .histogram, .fill => some discreteTypes
  | .boxplot, .y => some [.numeric]
  | .boxplot, .group => some discreteTypes
  | .boxplot, .fill => some discreteTypes
  | .line, .x => some continuousTypes
  | .line, .y => some continuousTypes
  | .line, .group => some discreteTypes
  | .line, .outline => some discreteTypes
  | .scatter, .x => some continuousTypes
  | .scatter, .y => some continuousTypes
  | .scatter, .group => some discreteTypes
  | .scatter, .size => some [.numeric]
  | .scatter, .shape => some discreteTypes
  | _, _ => none

/-- The roles of a kind, in canonical order. -/
def Kind.roles (k : Kind) : List Role :=
  (Vocabulary.all : List Role).filter fun r => (k.columnTypes? r).isSome

/-- What a role can be bound to: a column of the data, or a constant. -/
inductive Source where
  | column (name : String)
  | literal (value : Value)

namespace Source

/-- The word for the sort of a source. -/
def sort : Source → String
  | column _ => "column"
  | literal _ => "literal"

/-- The name of the column, when the source is one. -/
def column? : Source → Option String
  | column name => some name
  | literal _ => none

def toValue : Source → Value
  | column name => .column (.text name)
  | literal value => .literal value

end Source

end ChartGrammar
