import ChartGrammar.Outcome
import ChartGrammar.Work

/-! Schemas: the named and typed columns that a chart can bind. Data values are never seen; a column may
carry a hint of how many distinct values it has. -/

namespace ChartGrammar

/-- A column of the data. -/
structure Column where
  name : String
  type : ColumnType
  /-- The number of distinct values, when it is known. -/
  cardinality : Option Number := none
  deriving DecidableEq

/-- Columns with distinct names, in the order of their definition. -/
structure Schema where
  columns : List Column := []
  deriving DecidableEq

namespace Schema

/-- The schema without columns. -/
def empty : Schema := {}

def names (s : Schema) : List String :=
  s.columns.map Column.name

/-- The column with a name. -/
def find? (s : Schema) (name : String) : Option Column :=
  s.columns.find? fun c => c.name == name

/-- The cardinality that a value gives: nothing, or a number not below zero. -/
def readCardinality (column : String) : Value → Except Fault (Option Number)
  | .null => .ok none
  | v =>
    match v.number? with
    | some n =>
      if n.lt (.whole 0) then .error (.about v (.construction (.cardinalityNegative column v))) else .ok (some n)
    | none =>
      match v with
      | .bool _ => .error (.construction (.cardinalityNegative column v))
      | _ => .error (.misuse .incomparable)

/-- Adds a column after the others. The name is checked first, then the type, then the cardinality. -/
def define (s : Schema) (name type cardinality : Value) : Except Fault (Schema × Column) :=
  match name with
  | .text column =>
    if Text.blank column then .error (.construction (.columnNameBlank name))
    else if (s.find? column).isSome then .error (.construction (.duplicateColumn column))
    else
      match Vocabulary.ofValue? type with
      | none => .error (.about type (.construction (.columnTypeUnknown column type)))
      | some columnType => do
        let added : Column := ⟨column, columnType, ← readCardinality column cardinality⟩
        return (⟨s.columns ++ [added]⟩, added)
  | _ => .error (.about name (.construction (.columnNameBlank name)))

/-- Adds a column after the others, in place. -/
def addColumn (name type cardinality : Value) : Work Schema Column := do
  let (grown, column) ← Work.check ((← get).define name type cardinality)
  set grown
  return column

/-- A definition that succeeds adds its column after the others, under a name that is not blank and was free. -/
theorem define_eq_ok {s t : Schema} {name type cardinality : Value} {c : Column}
    (h : s.define name type cardinality = .ok (t, c)) :
    t.columns = s.columns ++ [c] ∧ name = .text c.name ∧ Text.blank c.name = false ∧ s.find? c.name = none := by
  unfold define at h
  split at h
  next column =>
    split at h
    · cases h
    next visible =>
      split at h
      · cases h
      next unused =>
        split at h
        · cases h
        next columnType _ =>
          obtain ⟨hint, -, rest⟩ := bind_eq_ok_iff.mp h
          cases rest
          exact ⟨rfl, rfl, by simpa using visible, by simpa using unused⟩
  · cases h

/-- The schema of some pairs of name and type, defined in order. A value that is no sequence of pairs is a
misuse. -/
def ofPairs (pairs : Value) : Except Fault Schema :=
  match pairs.elements? with
  | none => .error (.misuse .notIterable)
  | some items => items.foldlM (fun s item =>
      match item.elements? with
      | none => .error (.misuse .notIterable)
      | some [name, type] => (·.1) <$> s.define name type .null
      | some _ => .error (.misuse .wrongCount)) empty

/-- The name that a reference gives: that of a column source, or the value itself. -/
def referredName : Value → Value
  | .column name => name
  | v => v

/-- The column that a reference points at. -/
def resolve (s : Schema) (reference : Value) : Except Fault Column :=
  let name := referredName reference
  if name.isKey then
    match name with
    | .text column =>
      match s.find? column with
      | some c => .ok c
      | none => .error (.construction (.unknownColumn name))
    | _ => .error (.about name (.construction (.unknownColumn name)))
  else .error (.misuse .unhashable)

/-- A column that is found is one of the schema's and has the name. -/
theorem mem_of_find? {s : Schema} {name : String} {c : Column} (h : s.find? name = some c) :
    c ∈ s.columns ∧ c.name = name :=
  ⟨List.mem_of_find?_eq_some h, by simpa using List.find?_some h⟩

/-- A reference points at a column exactly if the column is found under the name that the reference gives. -/
theorem resolve_eq_ok_iff {s : Schema} {reference : Value} {c : Column} :
    s.resolve reference = .ok c ↔ referredName reference = .text c.name ∧ s.find? c.name = some c := by
  unfold resolve
  cases referredName reference with
  | text column =>
    cases found : s.find? column with
    | none =>
      simp only [Value.isKey, ↓reduceIte, found, reduceCtorEq, Value.text.injEq, false_iff, not_and]
      rintro rfl
      simp [found]
    | some d =>
      have named := (mem_of_find? found).2
      subst named
      simp only [Value.isKey, ↓reduceIte, found, Except.ok.injEq, Value.text.injEq]
      constructor
      · rintro rfl
        exact ⟨rfl, found⟩
      · rintro ⟨names, other⟩
        simpa [names, other] using found.symm
  | _ => simp; split <;> simp

/-- Whether a reference points at a column. -/
def contains (s : Schema) (reference : Value) : Except Fault Bool :=
  let name := referredName reference
  if name.isKey then
    match name with
    | .text column => .ok (s.find? column).isSome
    | _ => .ok false
  else .error (.misuse .unhashable)

/-- The written form of a schema: each column's name and type. -/
def written (s : Schema) : String :=
  "SchemaModel(\x7b" ++ ", ".intercalate (s.columns.map fun c => c.name ++ ": " ++ c.type.name) ++ "\x7d)"

end Schema

end ChartGrammar
