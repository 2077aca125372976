import ChartGrammar.Registry
import ChartGrammar.Rendering.Document
import ChartGrammar.Value.Json

/-! The rendering of a chart in a grammar's parameters. What the grammar's table holds for the chart is laid
out as a list of steps, in the canonical order of kind, roles, style keys and facet; the steps then build
the document. -/

namespace ChartGrammar

/-- A chart in terms of one grammar, with the findings made on the way. -/
structure Rendering where
  grammar : String
  kind : Kind
  parameters : Entries
  diagnostics : List Diagnostic

namespace Rendering

open Text (quoted)

/-- A finding about a style key, a role or another name. -/
def finding (severity : Severity) (code : Code) (message : Value) (key : String) : Diagnostic :=
  ⟨severity, code, message, .text key⟩

/-- A table's note, or a text where the note counts as none. -/
def noteOr (note : Value) (text : String) : Value :=
  if note.truthy then note else .text text

/-- The steps after something that may be misused. -/
def attempt {α : Type} (outcome : Except Misuse α) (steps : α → List Step) : List Step :=
  match outcome with
  | .ok a => steps a
  | .error m => [.fail (.misuse m)]

/-- The step that explains how a column restructures the output. -/
def explainColumn (note : Value) (text column key : String) : List Step :=
  attempt (Template.apply (noteOr note text) "column" (.text column)) fun message =>
    [.report (finding .info .explained message key)]

/-- The steps that select the chart's kind. -/
def kindSteps (c : Chart) (grammar : String) (rows : KindRows) : List Step :=
  Step.writes (rows.selector.run c) .kind ++
    if rows.structural then
      let text := quoted c.kind.name ++ " charts are restructured in grammar " ++ quoted grammar ++ "."
      [.report (finding .info .explained (noteOr rows.note text) Origin.kind.name)]
    else []

/-- The steps for a column bound to a role. -/
def columnSteps (c : Chart) (row : RoleRow) (w : ColumnWriter) (role : Role) (name : String) : List Step :=
  attempt (w.run (.text name) c) fun params =>
    Step.writes params (.role role) ++
      if row.structural then
        explainColumn row.note "Binding \x7bcolumn!r\x7d restructures the output." name role.name
      else []

/-- The steps for a literal bound to a role. -/
def literalSteps (grammar : String) (w : StyleWriter) (role : Role) (value : Value) : List Step :=
  attempt (w.run value) fun params =>
    if params.isEmpty then
      attempt value.write fun shown =>
        let text := "Literal " ++ shown ++ " for role " ++ quoted role.name
          ++ " has no equivalent in grammar " ++ quoted grammar ++ "."
        [.report (finding .warning .unsupported (.text text) role.name)]
    else Step.writes params (.role role)

/-- The steps for one binding. A grammar without a writer for it cannot express the chart. -/
def bindingSteps (c : Chart) (grammar : String) (rows : KindRows) (b : Binding) : List Step :=
  let refused := [Step.fail (.rendering (.unsupportedBinding grammar c.kind b.role b.source))]
  match rows.role? b.role with
  | none => refused
  | some row =>
    match b.source with
    | .column name =>
      match row.column? with
      | some w => columnSteps c row w b.role name
      | none => refused
    | .literal value =>
      match row.literal? with
      | some w => literalSteps grammar w b.role value
      | none => refused

/-- The step that checks on a column for which nothing was written because another role's parameter is to
carry it. -/
def carriedSteps (c : Chart) (rows : KindRows) (b : Binding) : List Step :=
  match rows.role? b.role, b.source with
  | some row, .column name =>
    match row.column?, row.consumedInto with
    | _, .null => []
    | some w, into =>
      match w.run (.text name) c with
      | .ok [] => [.carried b.role name into]
      | _ => []
    | none, _ => []
  | _, _ => []

/-- The steps for a style key that the grammar has a row for. -/
def styleRowSteps (c : Chart) (grammar : String) (row : StyleRow) (key : StyleKey) (value : Value) :
    List Step :=
  match row.realization with
  | .arranged arranger =>
    attempt (arranger.run value c) fun arrangement =>
      Step.writes arrangement.fragments (.style key)
        ++ [.report (finding .info .explained (.text arrangement.explanation) key.name)]
  | .written w =>
    attempt (w.run value) fun params =>
      if params.isEmpty then
        let text := "Style key " ++ quoted key.name ++ " has no effect in grammar " ++ quoted grammar ++ "."
        [.report (finding .warning .unsupported (noteOr row.note text) key.name)]
      else Step.writes params (.style key)

/-- What a way of cropping does. -/
def behaviour : Cropping → String
  | .destructive => "data outside the range is dropped before any aggregation"
  | .visual => "statistics use the full data and only the view is cropped"

/-- The step that warns of grammars that crop differently. -/
def croppingSteps (r : Registry) (kind : Kind) (grammar : String) (key : StyleKey) (cropping : Cropping) :
    List Step :=
  let modes := r.croppings kind key
  if modes.all fun m => m.2 == cropping then []
  else
    let others := (modes.filter fun m => m.1 != grammar).map fun m => m.1 ++ ": " ++ m.2.name
    let text := key.name ++ " is " ++ cropping.name ++ " in grammar " ++ quoted grammar ++ " ("
      ++ behaviour cropping ++ "); other grammars differ (" ++ ", ".intercalate others ++ ")."
    [.report (finding .warning .croppingSemantics (.text text) key.name)]

/-- The steps for a style key and its value. -/
def styleSteps (r : Registry) (c : Chart) (grammar : String) (rows : KindRows) (e : StyleKey × Value) :
    List Step :=
  match rows.style? e.1 with
  | none =>
    let text := "Style key " ++ quoted e.1.name ++ " has no equivalent for " ++ quoted c.kind.name
      ++ " charts in grammar " ++ quoted grammar ++ "; skipped."
    [.report (finding .warning .unknownToGrammar (.text text) e.1.name)]
  | some row =>
    styleRowSteps c grammar row e.1 e.2 ++
      match row.cropping with
      | some cropping => croppingSteps r c.kind grammar e.1 cropping
      | none => []

/-- The steps for the facet, if the chart has one. -/
def facetSteps (c : Chart) (grammar : String) (rows : KindRows) : List Step :=
  match c.facet? with
  | none => []
  | some name =>
    match rows.facet? with
    | none => [.fail (.rendering (.facetNotSupported grammar c.kind))]
    | some row =>
      Step.writes (row.writer.run (.text name)) .facet ++
        if row.structural then
          let text := "Faceting by \x7bcolumn!r\x7d restructures the output."
          explainColumn row.note text name Origin.facet.name
        else []

/-- All steps of a rendering. -/
def steps (r : Registry) (c : Chart) (grammar : String) (rows : KindRows) : List Step :=
  kindSteps c grammar rows
    ++ c.bindings.flatMap (bindingSteps c grammar rows)
    ++ c.bindings.flatMap (carriedSteps c rows)
    ++ c.styles.flatMap (styleSteps r c grammar rows)
    ++ facetSteps c grammar rows
    ++ c.diagnostics.map .report

/-- The first role that a grammar needs and the chart does not bind. -/
def missingRole? (c : Chart) (rows : KindRows) : Option (Role × Option Role) :=
  match rows.required.find? fun role => !c.hasRole role with
  | some role => some (role, none)
  | none =>
    (rows.conditional.find? fun e => c.hasRole e.2 && !c.hasRole e.1).map fun e => (e.1, some e.2)

/-- The rows of a grammar for a chart's kind, once the roles that they need are known to be bound. -/
def rowsFor (r : Registry) (c : Chart) (grammar : String) : Except Fault KindRows := do
  let table ← r.table grammar
  match table.kind? c.kind with
  | none => throw (.misuse .missingEntry)
  | some rows =>
    match missingRole? c rows with
    | some (role, because) => throw (.rendering (.missingBinding grammar c.kind role because))
    | none => return rows

/-- Renders a chart in the parameters of a grammar. -/
def ofChart (r : Registry) (c : Chart) (grammar : String) (strict : Bool) : Except Fault Rendering := do
  let rows ← rowsFor r c grammar
  let d ← Document.empty.run grammar strict (steps r c grammar rows)
  return { grammar, kind := c.kind, parameters := d.entries, diagnostics := d.findings }

/-- The findings that are warnings. -/
def warnings (r : Rendering) : List Diagnostic :=
  r.diagnostics.filter fun d => d.severity == .warning

/-- The codes of all findings, in order. -/
def codes (r : Rendering) : List Code :=
  r.diagnostics.map Diagnostic.code

/-- Fails if there is a warning. -/
def refuseWarnings (r : Rendering) : Except Fault Unit :=
  if r.warnings.isEmpty then .ok ()
  else .error (.rendering (.warningsPresent (r.warnings.map Diagnostic.code)))

/-- The rendering as a payload of plain data. -/
def encode (r : Rendering) : Except Misuse Value := do
  let parameters ← (Value.dict r.parameters).jsonable
  return .dict [
    (.text "grammar", .text r.grammar),
    (.text "kind", .text r.kind.name),
    (.text "parameters", parameters),
    (.text "diagnostics", .list (r.diagnostics.map Diagnostic.toValue))]

/-- The rendering as the text of a document. -/
def json (r : Rendering) : Except Misuse String := do
  (← r.encode).json

end Rendering

end ChartGrammar
