import ChartGrammar.Table.Basic

/-! Registries: complete tables of distinct grammars, one at least. -/

namespace ChartGrammar

/-- The tables that charts can be rendered with, in the order in which they were registered. -/
structure Registry where
  tables : List Table

namespace Registry

/-- The first fault of a table: a grammar that is registered already, or rows that are missing for a kind. -/
def tableFault? (registered : List Table) (t : Table) : Option TableFault :=
  if registered.any fun other => other.grammar == t.grammar then some (.duplicateGrammar t.grammar)
  else (Vocabulary.all : List Kind).findSome? t.incompleteness?

/-- Registers one more table. -/
def register (registered : List Table) (t : Table) : Except Fault (List Table) :=
  match tableFault? registered t with
  | some fault => .error (.table fault)
  | none => .ok (registered ++ [t])

/-- A table has no fault exactly if its grammar is new and it is complete for every kind. -/
theorem tableFault?_eq_none_iff {registered : List Table} {t : Table} :
    tableFault? registered t = none ↔
      (∀ other ∈ registered, other.grammar ≠ t.grammar) ∧ ∀ k : Kind, t.incompleteness? k = none := by
  unfold tableFault?
  split
  next taken =>
    obtain ⟨other, member, same⟩ := List.any_eq_true.mp taken
    simp only [reduceCtorEq, false_iff, not_and]
    intro free
    exact absurd (beq_iff_eq.mp same) (free other member)
  next free =>
    rw [List.findSome?_eq_none_iff]
    simp_all [Vocabulary.mem_all]

/-- A table that is registered comes after the others; nothing else can happen to a table without a fault. -/
theorem register_eq_ok_iff {registered result : List Table} {t : Table} :
    register registered t = .ok result ↔ tableFault? registered t = none ∧ result = registered ++ [t] := by
  unfold register
  cases tableFault? registered t <;> simp [eq_comm]

/-- The registry of the registered tables. -/
def ofRegistered (registered : List Table) : Except Fault Registry :=
  if registered.isEmpty then .error (.table .noTables) else .ok ⟨registered⟩

/-- The registry of some tables. -/
def ofTables (tables : List Table) : Except Fault Registry := do
  ofRegistered (← tables.foldlM register [])

/-- The tables, ordered by their grammars' names. -/
def sorted (r : Registry) : List Table :=
  r.tables.mergeSort fun a b => a.grammar ≤ b.grammar

/-- The names of the grammars in ascending order. -/
def grammars (r : Registry) : List String :=
  r.sorted.map Table.grammar

def table? (r : Registry) (grammar : String) : Option Table :=
  r.tables.find? fun t => t.grammar == grammar

/-- The table of a grammar. -/
def table (r : Registry) (grammar : String) : Except Fault Table :=
  match r.table? grammar with
  | some t => .ok t
  | none => .error (.rendering (.unknownGrammar grammar r.grammars))

/-- The cropping of a style key in each grammar that has one, by the grammars' names. -/
def croppings (r : Registry) (k : Kind) (key : StyleKey) : List (String × Cropping) :=
  r.sorted.filterMap fun t => do
    let row ← t.style? k key
    return (t.grammar, ← row.cropping)

end Registry

end ChartGrammar
