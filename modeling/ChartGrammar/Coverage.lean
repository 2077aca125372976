import ChartGrammar.Registry

/-! Coverage: what each grammar of a registry has rows for, kind by kind. A style key counts as unsupported
when its row writes nothing for a sample value of the key. -/

namespace ChartGrammar

/-- A value that every writer of a key is tried on. -/
def StyleKey.sample : StyleKey → Value
  | .title => .text "title"
  | .xLabel => .text "x"
  | .yLabel => .text "y"
  | .fillColor => .text "grey"
  | .outlineColor => .text "black"
  | .opacity => .float ⟨0x3fe0000000000000⟩
  | .pointShape => .text "circle"
  | .lineWidth => .int 1
  | .lineStyle => .text "dashed"
  | .binWidth => .int 1
  | .binCount => .int 10
  | .groupLayout => .text "dodge"
  | .themeTone => .text "minimal"
  | .legendVisible => .bool false
  | .axisLimitX => .tuple [.int 0, .int 1]
  | .axisLimitY => .tuple [.int 0, .int 1]
  | .flipAxes => .bool true

/-- What a grammar has rows for in one kind. -/
structure KindCoverage where
  kind : Kind
  required : List Role
  roles : List Role
  styles : List StyleKey
  unsupported : List StyleKey
  /-- The names of the style keys and roles whose rows restructure the chart, in ascending order. -/
  structural : List String
  facet : Bool

namespace KindCoverage

/-- Whether a row writes nothing for the sample of its key. -/
def isUnsupported (k : StyleKey) (row : StyleRow) : Except Misuse Bool :=
  match row.realization with
  | .arranged _ => .ok false
  | .written w => List.isEmpty <$> w.run k.sample

/-- The keys whose rows write nothing. -/
def unsupportedKeys (rows : List (StyleKey × StyleRow)) : Except Misuse (List StyleKey) := do
  return (← rows.filterM fun e => isUnsupported e.1 e.2).map (·.1)

/-- The coverage of one kind, with roles and keys in canonical order. -/
def ofRows (rows : KindRows) : Except Misuse KindCoverage := do
  let styles := (Vocabulary.all : List StyleKey).filterMap fun k => (rows.style? k).map fun row => (k, row)
  let roles := (Vocabulary.all : List Role).filterMap fun r => (rows.role? r).map fun row => (r, row)
  let names := (styles.filter fun e => e.2.realization.isStructural).map (fun e => e.1.name)
    ++ (roles.filter fun e => e.2.structural).map (fun e => e.1.name)
  return {
    kind := rows.kind
    required := rows.required
    roles := roles.map (·.1)
    styles := styles.map (·.1)
    unsupported := ← unsupportedKeys styles
    structural := names.mergeSort fun a b => a ≤ b
    facet := rows.facet?.isSome }

def toValue (c : KindCoverage) : Value :=
  .dict [
    (.text "required_roles", .texts (c.required.map Role.name)),
    (.text "roles", .texts (c.roles.map Role.name)),
    (.text "style_keys", .texts (c.styles.map StyleKey.name)),
    (.text "unsupported_style_keys", .texts (c.unsupported.map StyleKey.name)),
    (.text "structural", .texts c.structural),
    (.text "facet", .bool c.facet)]

end KindCoverage

/-- What a grammar has rows for. -/
structure TableCoverage where
  grammar : String
  description : String
  kinds : List KindCoverage

namespace TableCoverage

/-- The coverage of a table, with the kinds in canonical order. -/
def ofTable (t : Table) : Except Misuse TableCoverage := do
  let kinds ← (Vocabulary.all : List Kind).mapM fun k =>
    match t.kind? k with
    | some rows => KindCoverage.ofRows rows
    | none => .error .missingEntry
  return { grammar := t.grammar, description := t.description, kinds }

def toValue (c : TableCoverage) : Value :=
  .dict [
    (.text "description", .text c.description),
    (.text "kinds", .dict (c.kinds.map fun k => (.text k.kind.name, k.toValue)))]

end TableCoverage

namespace Registry

/-- The coverage of every grammar, by name. -/
def coverage (r : Registry) : Except Misuse (List TableCoverage) :=
  r.sorted.mapM TableCoverage.ofTable

/-- The coverage as a document. -/
def coverageValue (r : Registry) : Except Misuse Value := do
  return .dict ((← r.coverage).map fun c => (.text c.grammar, c.toValue))

end Registry

end ChartGrammar
