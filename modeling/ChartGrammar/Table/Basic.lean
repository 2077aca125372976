import ChartGrammar.Writer.Arranger
import ChartGrammar.Writer.Column
import ChartGrammar.Writer.Selector
import ChartGrammar.Writer.Style

/-! Grammar tables: for each chart kind, how a grammar selects it, which roles it needs, and how it writes
each role, each style key and the facet. Notes are whatever a table holds; a note that counts as false is
none. -/

namespace ChartGrammar

/-- What becomes of data outside the limits of an axis. -/
inductive Cropping where
  /-- Only the view is cropped. -/
  | visual
  /-- The data are dropped before anything is computed from them. -/
  | destructive
  deriving DecidableEq, Repr

def Cropping.name : Cropping → String
  | visual => "visual"
  | destructive => "destructive"

/-- How a style key is realized: by writing its value, or by the structure of the chart. -/
inductive Realization where
  | written (writer : StyleWriter)
  | arranged (arranger : Arranger)

namespace Realization

def isStructural : Realization → Bool
  | written _ => false
  | arranged _ => true

/-- The writer of values; what is realized by structure writes none. -/
def writer : Realization → StyleWriter
  | written w => w
  | arranged _ => .nothing

end Realization

/-- The row of a style key. -/
structure StyleRow where
  realization : Realization
  cropping : Option Cropping
  note : Value

/-- The row of a role: its writers for columns and for literals, one at least. -/
structure RoleRow where
  column? : Option ColumnWriter
  literal? : Option StyleWriter
  /-- Whether binding a column restructures the output. -/
  structural : Bool
  note : Value
  /-- The parameter that is to carry a column for which nothing is written; null for none. -/
  consumedInto : Value

/-- The row of the facet. -/
structure FacetRow where
  writer : FacetWriter
  structural : Bool
  note : Value

/-- The rows of one chart kind. -/
structure KindRows where
  kind : Kind
  selector : SelectorWriter
  /-- Whether selecting the kind restructures the chart. -/
  structural : Bool
  note : Value
  required : List Role
  /-- Pairs of a role that is required and the role whose binding requires it. -/
  conditional : List (Role × Role)
  roles : List (Role × RoleRow)
  styles : List (StyleKey × StyleRow)
  facet? : Option FacetRow

/-- What is found under a key is an entry with the key. -/
theorem mem_of_lookup {α β : Type} [BEq α] [LawfulBEq α] {entries : List (α × β)} {key : α} {row : β}
    (h : entries.lookup key = some row) : (key, row) ∈ entries := by
  obtain ⟨before, after, hentries, -⟩ := List.lookup_eq_some_iff.mp h
  rw [hentries]
  exact List.mem_append_right before List.mem_cons_self

namespace KindRows

def role? (rows : KindRows) (r : Role) : Option RoleRow :=
  rows.roles.lookup r

def style? (rows : KindRows) (k : StyleKey) : Option StyleRow :=
  rows.styles.lookup k

end KindRows

/-- The table of one grammar. -/
structure Table where
  grammar : String
  description : String
  kinds : List KindRows

namespace Table

def kind? (t : Table) (k : Kind) : Option KindRows :=
  t.kinds.find? fun rows => rows.kind == k

def style? (t : Table) (k : Kind) (key : StyleKey) : Option StyleRow :=
  (t.kind? k).bind fun rows => rows.style? key

def role? (t : Table) (k : Kind) (r : Role) : Option RoleRow :=
  (t.kind? k).bind fun rows => rows.role? r

/-- The mandatory keys that a kind has no row for. -/
def missingKeys (t : Table) (k : Kind) : List StyleKey :=
  StyleKey.mandatory.filter fun key => (t.style? k key).isNone

/-- What keeps the table from being complete for a kind. -/
def incompleteness? (t : Table) (k : Kind) : Option TableFault :=
  if (t.kind? k).isNone then some (.kindMissing t.grammar k)
  else if (t.missingKeys k).isEmpty then none
  else some (.incomplete t.grammar k (t.missingKeys k))

/-- A table is complete for a kind exactly if it has rows for the kind and for each mandatory key. -/
theorem incompleteness?_eq_none_iff {t : Table} {k : Kind} :
    t.incompleteness? k = none ↔
      (t.kind? k).isSome ∧ ∀ key ∈ StyleKey.mandatory, (t.style? k key).isSome := by
  unfold incompleteness?
  cases t.kind? k <;> simp [missingKeys, List.filter_eq_nil_iff, Option.isSome_iff_ne_none]

end Table

end ChartGrammar
