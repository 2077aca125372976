import ChartGrammar.Chart.Basic
import ChartGrammar.Value.Json

/-! Schemas and charts as payloads, and back. Reading a payload replays it through the operations that build a
schema or a chart, so that a payload edited by hand is refused just as the operations would refuse it. -/

namespace ChartGrammar

/-- The entries of a value that has to be a dictionary. -/
def Value.entriesOf : Value → Except Fault Entries
  | .dict es => .ok es
  | _ => .error (.misuse .missingAttribute)

/-- The elements of a value that has to have some. -/
def Value.elementsOf (v : Value) : Except Fault (List Value) :=
  match v.elements? with
  | some items => .ok items
  | none => .error (.misuse .notIterable)

/-- The elements of an optional part of a payload: a value that counts as false has none. -/
def Value.optionalElements (v : Value) : Except Fault (List Value) :=
  if v.truthy then v.elementsOf else .ok []

/-- The entries of an optional part of a payload. -/
def Value.optionalEntries (v : Value) : Except Fault Entries :=
  if v.truthy then v.entriesOf else .ok []

@[simp] theorem Value.optionalElements_list (items : List Value) :
    (Value.list items).optionalElements = .ok items := by
  cases items <;> rfl

@[simp] theorem Value.optionalEntries_dict (es : Entries) : (Value.dict es).optionalEntries = .ok es := by
  cases es <;> rfl

namespace Column

def encode (c : Column) : Value :=
  .dict [(.text "name", .text c.name), (.text "type", .text c.type.name),
    (.text "cardinality", Value.ofOption (c.cardinality.map Value.ofNumber))]

end Column

namespace Schema

def encode (s : Schema) : Value :=
  .dict [(.text "columns", .list (s.columns.map Column.encode))]

/-- The cardinality in a payload: null and the empty text are none, and any other value is read from its
display. -/
def decodeCardinality : Value → Except Fault Value
  | .null => .ok .null
  | v =>
    if v.same (.text "") then .ok .null
    else
      match Text.integer? v.display with
      | some n => .ok (.int n)
      | none => .error (.about v (.construction (.cardinalityNotInteger v)))

/-- Adds the column of one entry of a payload. -/
def decodeColumn (s : Schema) : Value → Except Fault Schema
  | .dict entry => do
    let cardinality ← decodeCardinality (Entries.field entry "cardinality")
    return (← s.define (Entries.field entry "name") (Entries.field entry "type") cardinality).1
  | v => .error (.about v (.construction (.columnEntryNotMapping v)))

def decode (payload : Value) : Except Fault Schema := do
  match (← payload.entriesOf).field "columns" with
  | .list items => items.foldlM decodeColumn empty
  | _ => throw (.construction .columnListMissing)

end Schema

namespace Chart

def encodeBinding (b : Binding) : Value :=
  match b.source with
  | .column name => .dict [(.text "role", .text b.role.name), (.text "column", .text name)]
  | .literal value => .dict [(.text "role", .text b.role.name), (.text "literal", value.plain)]

/-- The payload of a chart, with bindings and style in canonical order. -/
def encode (c : Chart) : Value :=
  .dict [
    (.text "kind", .text c.kind.name),
    (.text "bindings", .list (c.bindings.map encodeBinding)),
    (.text "style", .dict (c.styles.map fun e => (.text e.1.name, e.2.plain))),
    (.text "facet", Value.ofOption (c.facet?.map Value.text))]

/-- Replays one binding of a payload: a literal if the entry has one, or else a column. -/
def decodeBinding (s : Schema) (c : Chart) (raw : Value) : Except Fault Chart := do
  let entry ← raw.entriesOf
  let source := match Entries.field? entry "literal" with
    | some value => .literal value
    | none => .column (Entries.field entry "column")
  return (← c.bind s (Entries.field entry "role") source).1

/-- Chooses the facet of a payload, unless the payload has none. -/
def decodeFacet (s : Schema) (c : Chart) (facet : Value) : Except Fault Chart :=
  if facet.truthy then do c.setFacet s (.text (← Fault.ofMisuse facet.present)) else .ok c

/-- Rebuilds a chart: the bindings first, then the facet, then the style keys in the payload's order. -/
def decode (env : Environment) (s : Schema) (payload limit : Value) : Except Fault Chart := do
  let entries ← payload.entriesOf
  let blank ← create env (entries.field "kind") limit
  let bindings ← (entries.field "bindings").optionalElements
  let bound ← bindings.foldlM (decodeBinding s) blank
  let faceted ← decodeFacet s bound (entries.field "facet")
  let styles ← (entries.field "style").optionalEntries
  styles.foldlM (fun c e => c.setStyle e.1 e.2) faceted

end Chart

end ChartGrammar
