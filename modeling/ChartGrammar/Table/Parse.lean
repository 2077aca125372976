import ChartGrammar.Table.Basic
import ChartGrammar.Writer.Options

/-! Grammar tables read from payloads. A payload names its grammar, may give rows for style keys that hold
for every kind, and gives the rows of each kind, which take the place of the common ones; a null row removes
one. Each fault is reported with the place in the payload where it stands. -/

namespace ChartGrammar

/-- The entries at a location; null stands for none. -/
def mappingAt (location : String) : Value → Except Fault Entries
  | .null => .ok []
  | .dict es => .ok es
  | v => .error (.inTable location (.notMapping v))

/-- The member of a vocabulary that a value at a location names. -/
def wordAt (α : Type) [Vocabulary α] (location : String) (v : Value) : Except Fault α :=
  match Vocabulary.ofValue? v with
  | some a => .ok a
  | none => .error (.about v (.inTable location (.unknownWord (Vocabulary.title α) v (Vocabulary.names α))))

/-- The fields of a row that are no options of its writer. -/
def reservedFields : List String :=
  ["write", "rewrite", "structural", "note", "cropping"]

/-- The options of a row's writer. -/
def writerOptions (row : Entries) : Entries :=
  row.filter fun e => match e.1 with
    | .text name => !reservedFields.contains name
    | _ => true

/-- The writer that a row names under one of its fields. -/
def writerAt (W : Type) [WriterFamily W] (location field : String) (row : Entries) : Except Fault W :=
  match row.field field with
  | .text name => makeWriter W location (.text name) (.dict (writerOptions row))
  | _ => .error (.inTable location (.writerUnnamed field))

namespace RoleRow

/-- The parameter into which a row's writer for columns folds them; null if it writes them itself. -/
def consumption : Value → Value
  | .dict row =>
    if (Entries.field row "write").same (.text "consumed") then Entries.field row "into" else .null
  | _ => .null

/-- One of the two writers of a role's row, unless the row leaves it out. -/
def parseWriter (W : Type) [WriterFamily W] (location : String) : Value → Except Fault (Option W)
  | .null => .ok none
  | v => do
    let row ← mappingAt location v
    return some (← writerAt W location "write" row)

def parse (location : String) (raw : Value) : Except Fault RoleRow := do
  let row ← mappingAt location raw
  match row.field "column", row.field "literal" with
  | .null, .null => throw (.inTable location .roleWithoutWriter)
  | column, literal =>
    return {
      column? := ← parseWriter ColumnWriter (location ++ ".column") column
      literal? := ← parseWriter StyleWriter (location ++ ".literal") literal
      structural := (row.field "structural").truthy
      note := row.field "note"
      consumedInto := consumption column }

end RoleRow

namespace StyleRow

/-- The cropping that a row names. -/
def parseCropping (location : String) : Value → Except Fault (Option Cropping)
  | .null => .ok none
  | .text "visual" => .ok (some .visual)
  | .text "destructive" => .ok (some .destructive)
  | v =>
    if v.isKey then .error (.about v (.inTable location (.croppingUnknown v ["destructive", "visual"])))
    else .error (.misuse .unhashable)

def parse (location : String) (raw : Value) : Except Fault StyleRow := do
  let row ← mappingAt location raw
  let cropping ← parseCropping location (row.field "cropping")
  let realization ←
    if (row.field? "rewrite").isSome then
      Realization.arranged <$> writerAt Arranger location "rewrite" row
    else
      Realization.written <$> writerAt StyleWriter location "write" row
  return { realization, cropping, note := row.field "note" }

end StyleRow

namespace FacetRow

/-- The row of the facet; null means that the kind cannot be faceted. -/
def parse (location : String) : Value → Except Fault (Option FacetRow)
  | .null => .ok none
  | v => do
    let row ← mappingAt location v
    return some {
      writer := ← writerAt FacetWriter location "write" row
      structural := (row.field "structural").truthy
      note := row.field "note" }

end FacetRow

namespace KindRows

/-- The rows of the roles, in the payload's order. -/
def parseRoles (location : String) (raw : Value) : Except Fault (List (Role × RoleRow)) := do
  (← mappingAt location raw).mapM fun e => do
    let r ← wordAt Role location e.1
    return (r, ← RoleRow.parse (location ++ "." ++ r.name) e.2)

/-- The common rows of the style keys, with those of one kind in their place or after them. -/
def mergedStyles (common own : Entries) : Entries :=
  own.foldl (fun rows e => rows.insert e.1 e.2) common

/-- The rows of the style keys. A null row is left out, but its key must be one. -/
def parseStyles (location : String) (rows : Entries) : Except Fault (List (StyleKey × StyleRow)) := do
  let parsed ← rows.mapM fun e => do
    let k ← wordAt StyleKey location e.1
    match e.2 with
    | .null => return none
    | row => return some (k, ← StyleRow.parse (location ++ "." ++ k.name) row)
  return parsed.filterMap id

/-- The roles that a kind always needs; a value that counts as false is none. -/
def parseRequired (location : String) (raw : Value) : Except Fault (List Role) :=
  if raw.truthy then
    match raw.elements? with
    | some items => items.mapM (wordAt Role location)
    | none => .error (.misuse .notIterable)
  else .ok []

/-- The roles that a kind needs when another role is bound. -/
def parseConditional (location : String) (raw : Value) : Except Fault (List (Role × Role)) := do
  (← mappingAt location raw).mapM fun e => do
    return (← wordAt Role location e.1, ← wordAt Role location e.2)

/-- The rows of a kind: first those of its roles, then those of its style keys, then all else. -/
def parse (source : String) (common : Entries) (name raw : Value) : Except Fault KindRows := do
  let kind ← wordAt Kind (source ++ ": kinds") name
  let location := source ++ ": kinds." ++ kind.name
  let rows ← mappingAt location raw
  let roles ← parseRoles (location ++ ".roles") (rows.field "roles")
  let own ← mappingAt (location ++ ".styles") (rows.field "styles")
  let styles ← parseStyles (location ++ ".styles") (mergedStyles common own)
  let select ← mappingAt (location ++ ".select") (rows.field "select")
  if select.isEmpty then throw (.inTable location .selectorMissing)
  return {
    kind, roles, styles
    selector := ← writerAt SelectorWriter (location ++ ".select") "write" select
    structural := (select.field "structural").truthy
    note := select.field "note"
    required := ← parseRequired (location ++ ".requires") (rows.field "requires")
    conditional := ← parseConditional (location ++ ".requires_when") (rows.field "requires_when")
    facet? := ← FacetRow.parse (location ++ ".facet") (rows.field "facet") }

end KindRows

namespace Table

/-- The name of a grammar: a text that is not blank. -/
def parseGrammar (source : String) : Value → Except Fault String
  | .text name => if Text.blank name then .error (.inTable source .grammarMissing) else .ok name
  | _ => .error (.inTable source .grammarMissing)

/-- The description of a table; a value that counts as false is none. -/
def parseDescription (v : Value) : Except Fault String :=
  if v.truthy then Fault.ofMisuse v.present else .ok ""

/-- The table that the entries of a payload hold. -/
def parseEntries (source : String) (payload : Entries) : Except Fault Table := do
  let grammar ← parseGrammar source (payload.field "grammar")
  match payload.field "kinds" with
  | .dict kinds =>
    let defaults ← mappingAt (source ++ ": defaults") (payload.field "defaults")
    let common ← mappingAt (source ++ ": defaults.styles") (defaults.field "styles")
    let rows ← kinds.mapM fun e => KindRows.parse source common e.1 e.2
    return { grammar, kinds := rows, description := ← parseDescription (payload.field "description") }
  | _ => throw (.inTable source .kindsNotMapping)

/-- The table that a payload holds. Only a dictionary is a payload. -/
def parse (source : String) : Value → Except Fault Table
  | .dict payload => parseEntries source payload
  | _ => .error (.misuse .missingAttribute)

end Table

end ChartGrammar
