import ChartGrammar.Chart.Sketch
import ChartGrammar.Snapshot

/-! Workspaces: the schemas and the charts that someone is at work on. Each chart keeps the schema that it
was made over, and sees the columns that are added to that schema later; charts are held in named slots, one
of them at hand. Schemas and charts are changed in place. -/

namespace ChartGrammar

/-- A sketch with the number of the schema that it was made over. -/
structure Draft where
  schema : Nat
  sketch : Sketch

/-- Schemas by number, the number of the current one, charts by slot, and the slot of the chart at hand. -/
structure Workspace where
  schemas : List Schema := [.empty]
  current : Nat := 0
  drafts : List (String × Draft) := []
  slot : Option String := none

namespace Workspace

def schemaAt (w : Workspace) (number : Nat) : Schema :=
  (w.schemas[number]?).getD .empty

/-- The current schema. -/
def schema (w : Workspace) : Schema :=
  w.schemaAt w.current

/-- The draft at hand. -/
def draft? (w : Workspace) : Option Draft := do
  w.drafts.lookup (← w.slot)

/-- Puts a draft into a slot. -/
def put (w : Workspace) (slot : String) (d : Draft) : Workspace :=
  { w with drafts := (slot, d) :: w.drafts.filter fun e => e.1 != slot }

/-- Puts a draft in place of the one at hand. -/
def update (w : Workspace) (d : Draft) : Workspace :=
  match w.slot with
  | some slot => w.put slot d
  | none => w

/-- Works on the current schema. -/
def onSchema {α : Type} (work : Work Schema α) : Work Workspace α :=
  Work.on schema (fun s w => { w with schemas := w.schemas.set w.current s }) work

/-- Works on a draft, which is then in the slot at hand. -/
def onDraft {α : Type} (d : Draft) (work : Work Sketch α) : Work Workspace α :=
  Work.on (fun _ => d.sketch) (fun sketch w => w.update { d with sketch }) work

/-- Makes another schema the current one; charts keep theirs. -/
def startSchema (w : Workspace) (s : Schema) : Workspace :=
  { w with schemas := w.schemas ++ [s], current := w.schemas.length }

/-- Makes a chart over the current schema, in a slot, and takes it to hand. -/
def create (w : Workspace) (env : Environment) (kind limit : Value) (slot : String) :
    Except Fault Workspace := do
  let sketch ← Sketch.create env kind limit
  return { w.put slot ⟨w.current, sketch⟩ with slot := some slot }

/-- Takes the chart of a slot to hand, or none if the slot is empty. -/
def use (w : Workspace) (slot : String) : Workspace :=
  { w with slot := some slot }

/-- Encodes the chart at hand and its schema, and reads both back. -/
def roundTrip (w : Workspace) (env : Environment) (d : Draft) : Except Fault Chart := do
  let schema ← Schema.decode (w.schemaAt d.schema).encode
  Chart.decode env schema d.sketch.chart.encode .null

end Workspace

end ChartGrammar
