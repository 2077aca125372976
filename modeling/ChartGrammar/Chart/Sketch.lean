import ChartGrammar.Chart.Basic
import ChartGrammar.Work

/-! Sketches: charts on the way, changed in place. Bindings and style keys stand in the order in which they came, and
a change is made of single steps, each of which is seen even if a later one fails. What a sketch amounts to is a chart,
where the order is lost. -/

namespace ChartGrammar

/-- The entries of a table in the order in which their keys came. -/
abbrev Ordered (κ α : Type) := List (κ × α)

namespace Ordered

variable {κ α : Type} [BEq κ]

/-- Puts a value under a key: in place of the one that is there, or else after the others. -/
def put (key : κ) (a : α) : Ordered κ α → Ordered κ α
  | [] => [(key, a)]
  | e :: entries => if key == e.1 then (key, a) :: entries else e :: put key a entries

/-- Drops a key with its value, if it is there. -/
def drop (key : κ) (entries : Ordered κ α) : Ordered κ α :=
  entries.filter fun e => key != e.1

variable [LawfulBEq κ] [DecidableEq κ]

theorem lookup_cons (key other : κ) (a : α) (entries : Ordered κ α) :
    List.lookup other ((key, a) :: entries) = if other = key then some a else entries.lookup other := by
  rw [List.lookup_cons]
  by_cases same : other = key
  · simp [same]
  · simp [same, beq_false_of_ne same]

theorem lookup_put (key other : κ) (a : α) (entries : Ordered κ α) :
    (Ordered.put key a entries).lookup other = if other = key then some a else entries.lookup other := by
  induction entries with
  | nil => exact lookup_cons key other a []
  | cons e entries ih =>
    obtain ⟨first, b⟩ := e
    unfold put
    split
    next here =>
      obtain rfl := eq_of_beq here
      simp only [lookup_cons]
      split <;> rfl
    next apart =>
      have : first ≠ key := fun same => apart (beq_iff_eq.mpr same.symm)
      simp only [lookup_cons, ih]
      split <;> split <;> simp_all

theorem lookup_drop (key other : κ) (entries : Ordered κ α) :
    (Ordered.drop key entries).lookup other = if other = key then none else entries.lookup other := by
  induction entries with
  | nil => exact (ite_self none).symm
  | cons e entries ih =>
    obtain ⟨first, b⟩ := e
    simp only [drop, List.filter_cons] at ih ⊢
    by_cases here : key = first
    · subst here
      simp only [bne_self_eq_false, Bool.false_eq_true, ↓reduceIte, ih, lookup_cons]
      split <;> rfl
    · have stays : (key != first) = true := bne_iff_ne.mpr here
      simp only [stays, ↓reduceIte, lookup_cons, ih]
      split <;> split <;> simp_all

end Ordered

/-- A chart that is changed in place. -/
structure Sketch where
  kind : Kind
  facetLimit : Int
  /-- What the roles are bound to, the facet left out. -/
  bound : Ordered Role Source := []
  /-- The style keys that are set. -/
  styled : Ordered StyleKey Value := []
  /-- The name of the column to facet by. -/
  facet? : Option String := none
  /-- The findings made so far. -/
  findings : List Diagnostic := []

namespace Sketch

/-- The chart that a sketch amounts to. -/
def chart (k : Sketch) : Chart where
  kind := k.kind
  facetLimit := k.facetLimit
  source? := fun role => k.bound.lookup role
  style? := fun key => k.styled.lookup key
  facet? := k.facet?
  diagnostics := k.findings

/-- A sketch of a kind with nothing bound and nothing set. -/
def create (env : Environment) (kind limit : Value) : Except Fault Sketch := do
  let chart ← Chart.create env kind limit
  return { kind := chart.kind, facetLimit := chart.facetLimit }

/-- Adds a finding after the others. -/
def report (finding : Diagnostic) : Work Sketch Unit :=
  modify fun k => { k with findings := k.findings ++ [finding] }

/-- Facets the sketch by the column that a reference points at. What is to be said about the column is said before the
facet is there. -/
def setFacet (s : Schema) (reference : Value) : Work Sketch Column := do
  let chart := (← get).chart
  let _ ← Work.check (chart.readRole (.text Role.facet.name))
  let column ← Work.check (chart.readFacet s reference)
  if let some finding := chart.facetFinding? column then report finding
  modify fun k => { k with facet? := some column.name }
  return column

/-- Binds the facet role, which facets the sketch. -/
def bindFacet (s : Schema) (source : Value) : Work Sketch Binding :=
  match source with
  | .text _ | .column _ => do
    let column ← setFacet s source
    return ⟨.facet, .column column.name⟩
  | _ => throw (.construction (.typeMismatch .facet .literalOffered))

/-- Binds a role that is free. -/
def bindFree (s : Schema) (role : Role) (source : Value) : Work Sketch Binding := do
  let chart := (← get).chart
  if (chart.source? role).isSome then throw (.construction (.duplicateRole role))
  let bound ← Work.check (chart.readSource s role source)
  modify fun k => { k with bound := Ordered.put role bound k.bound }
  return ⟨role, bound⟩

/-- Binds a role to a literal or to the column that a reference points at. -/
def bind (s : Schema) (role source : Value) : Work Sketch Binding := do
  let r ← Work.check ((← get).chart.readRole role)
  if r = .facet then bindFacet s source else bindFree s r source

/-- Puts a value in normal form under a style key. The key that excludes it goes first. -/
def putStyle (key : StyleKey) (normal : Value) : Work Sketch Unit := do
  if let some other := key.exclusive? then
    modify fun k => { k with styled := Ordered.drop other k.styled }
  modify fun k => { k with styled := Ordered.put key normal k.styled }

/-- Sets a style key, or clears it when the value is the unset mark. Nothing is dropped before the value is known to
be valid. -/
def setStyle (key value : Value) : Work Sketch Unit := do
  let q ← Work.check (Chart.readStyleKey key)
  match value with
  | .unset => modify fun k => { k with styled := Ordered.drop q k.styled }
  | v => putStyle q (← Work.check (Chart.normalizeStyle q v))

def clearStyle (key : Value) : Work Sketch Unit :=
  setStyle key .unset

end Sketch

end ChartGrammar
