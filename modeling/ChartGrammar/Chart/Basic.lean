import ChartGrammar.Schema.Basic
import ChartGrammar.Settings

/-! Charts as they are built, before any grammar is chosen. A chart has a kind that never changes; roles are
bound, styles set and a facet chosen one at a time, and each step is checked against the schema of the data
or refused. An operation that is refused gives back no chart, so the one at hand stays as it was. -/

namespace ChartGrammar

/-- A chart in the making. -/
structure Chart where
  kind : Kind
  /-- The number of distinct values above which a numeric facet is worth a warning. -/
  facetLimit : Int
  /-- What each role is bound to. The facet is kept apart. -/
  source? : Role → Option Source := fun _ => none
  /-- The values of the style keys that are set. -/
  style? : StyleKey → Option Value := fun _ => none
  /-- The name of the column to facet by. -/
  facet? : Option String := none
  /-- The findings made while the chart was built. -/
  diagnostics : List Diagnostic := []

/-- A role and what it is bound to. -/
structure Binding where
  role : Role
  source : Source

namespace Chart

/-- The facet limit that is given, or else that of the settings. -/
def readFacetLimit (env : Environment) : Value → Except Fault Int
  | .null =>
    match Settings.read env with
    | .ok settings => .ok settings.facetLimit
    | .error (.settings fault) => .error (.construction (.settings fault))
    | .error fault => .error fault
  | .int n => if n < 1 then .error (.about (.int n) (.construction (.facetLimitNotPositive (.int n)))) else .ok n
  | v => .error (.about v (.construction (.facetLimitNotPositive v)))

/-- A chart of a kind with nothing bound and nothing set. -/
def create (env : Environment) (kind limit : Value) : Except Fault Chart :=
  match Vocabulary.ofValue? kind with
  | none => .error (.about kind (.construction (.unknownKind kind)))
  | some k => do return { kind := k, facetLimit := ← readFacetLimit env limit }

/-- The role that a value names, if the chart's kind has it. -/
def readRole (c : Chart) (role : Value) : Except Fault Role :=
  match Vocabulary.ofValue? role with
  | none => .error (.about role (.construction (.unsupportedRole c.kind role.display)))
  | some r =>
    if (c.kind.columnTypes? r).isSome then .ok r
    else .error (.construction (.unsupportedRole c.kind r.name))

/-- The finding about a numeric facet whose number of distinct values is unknown or above the limit. -/
def facetFinding? (c : Chart) (column : Column) : Option Diagnostic :=
  let excessive := match column.cardinality with
    | none => true
    | some n => (Number.whole c.facetLimit).lt n
  if column.type == .numeric && excessive then
    let known := match column.cardinality with
      | none => "unknown"
      | some n => n.text
    some {
      severity := .warning
      code := .facetCardinality
      message := .text ("Faceting by numeric column " ++ Text.quoted column.name ++ " (cardinality " ++ known
        ++ ", limit " ++ (Number.whole c.facetLimit).text ++ ") may produce one panel per distinct value; "
        ++ "prefer a categorical or binned column.")
      key := .text Role.facet.name }
  else none

/-- Whether what is to be said about a column that the chart is faceted by can be written: its number of distinct
values, and the limit. -/
def canReport (c : Chart) (column : Column) : Bool :=
  (c.facetFinding? column).isNone
    || (Value.tuple [Value.ofOption (column.cardinality.map Value.ofNumber), .int c.facetLimit]).legible

/-- The column to facet by, unless the chart has a facet already. -/
def readFacet (c : Chart) (s : Schema) (reference : Value) : Except Fault Column :=
  if c.facet?.isSome then .error (.construction (.duplicateRole .facet))
  else do
    let column ← s.resolve reference
    if c.canReport column then return column else throw (.misuse .tooLong)

/-- The chart faceted by a column, with what is to be said about it. -/
def withFacet (c : Chart) (column : Column) : Chart :=
  { c with
    facet? := some column.name
    diagnostics := c.diagnostics ++ (c.facetFinding? column).toList }

/-- Facets the chart by the column that a reference points at. -/
def setFacet (c : Chart) (s : Schema) (reference : Value) : Except Fault Chart :=
  c.withFacet <$> c.readFacet s reference

/-- Checks a literal against the shape that a role takes, and brings it into normal form. -/
def readLiteral (role : Role) (value : Value) : Except Fault Source :=
  match role.literalShape? with
  | none => .error (.construction (.typeMismatch role .literalOffered))
  | some shape =>
    match shape.normalize? value with
    | none => .error (.about value (.construction (.typeMismatch role (.literalShape value shape))))
    | some v => .ok (.literal v)

/-- Resolves a reference to a column whose type suits a role of the chart's kind. -/
def readColumn (c : Chart) (s : Schema) (role : Role) (reference : Value) : Except Fault Source := do
  let column ← s.resolve reference
  let accepted := (c.kind.columnTypes? role).getD []
  if accepted.contains column.type then return .column column.name
  else throw (.construction (.typeMismatch role (.columnType column.name column.type accepted)))

/-- The chart with a role bound to a source. -/
def withSource (c : Chart) (role : Role) (source : Source) : Chart :=
  { c with source? := fun r => if r = role then some source else c.source? r }

theorem source?_withSource (c : Chart) (role other : Role) (source : Source) :
    (c.withSource role source).source? other = if other = role then some source else c.source? other := rfl

/-- What a value binds a role to: a literal, or the column that a reference points at. -/
def readSource (c : Chart) (s : Schema) (role : Role) : Value → Except Fault Source
  | .literal value => readLiteral role value
  | reference => c.readColumn s role reference

/-- Binds the facet role, which facets the chart. Only a name or a column can be meant. -/
def bindFacet (c : Chart) (s : Schema) (source : Value) : Except Fault (Chart × Binding) :=
  match source with
  | .text _ | .column _ => do
    let column ← c.readFacet s source
    return (c.withFacet column, ⟨.facet, .column column.name⟩)
  | _ => .error (.construction (.typeMismatch .facet .literalOffered))

/-- Binds a role that is free. -/
def bindFree (c : Chart) (s : Schema) (role : Role) (source : Value) : Except Fault (Chart × Binding) :=
  if (c.source? role).isSome then .error (.construction (.duplicateRole role))
  else do
    let bound ← c.readSource s role source
    return (c.withSource role bound, ⟨role, bound⟩)

/-- Binds a role to a literal or to the column that a reference points at. -/
def bind (c : Chart) (s : Schema) (role source : Value) : Except Fault (Chart × Binding) := do
  let r ← c.readRole role
  if r = .facet then c.bindFacet s source else c.bindFree s r source

/-- The style key that a value names. -/
def readStyleKey (key : Value) : Except Fault StyleKey :=
  match Vocabulary.ofValue? key with
  | some k => .ok k
  | none => .error (.about key (.construction (.unknownStyleKey key.display)))

/-- The normal form of a style key's value. -/
def normalizeStyle (key : StyleKey) (value : Value) : Except Fault Value :=
  match key.shape.normalize? value with
  | some v => .ok v
  | none => .error (.about value (.construction (.invalidStyleValue key value)))

/-- The chart with a style key cleared. -/
def withoutStyle (c : Chart) (key : StyleKey) : Chart :=
  { c with style? := fun k => if k = key then none else c.style? k }

/-- The chart with a style key set; the key that excludes it is cleared. -/
def withStyle (c : Chart) (key : StyleKey) (value : Value) : Chart :=
  { c with style? := fun k =>
      if k = key then some value else if key.exclusive? = some k then none else c.style? k }

theorem style?_withoutStyle (c : Chart) (key other : StyleKey) :
    (c.withoutStyle key).style? other = if other = key then none else c.style? other := rfl

theorem style?_withStyle (c : Chart) (key other : StyleKey) (value : Value) :
    (c.withStyle key value).style? other =
      if other = key then some value else if key.exclusive? = some other then none else c.style? other := rfl

/-- Sets a style key, or clears it when the value is the unset mark. -/
def setStyle (c : Chart) (key value : Value) : Except Fault Chart := do
  let k ← readStyleKey key
  match value with
  | .unset => return c.withoutStyle k
  | v => return c.withStyle k (← normalizeStyle k v)

def clearStyle (c : Chart) (key : Value) : Except Fault Chart :=
  c.setStyle key .unset

/-- The bindings in the order of the roles, the facet left out. -/
def bindings (c : Chart) : List Binding :=
  (Vocabulary.all : List Role).filterMap fun r => (c.source? r).map fun s => ⟨r, s⟩

/-- The style keys that are set, with their values, in the order of the keys. -/
def styles (c : Chart) : List (StyleKey × Value) :=
  (Vocabulary.all : List StyleKey).filterMap fun k => (c.style? k).map fun v => (k, v)

/-- A binding is listed exactly if it is in force. -/
@[simp] theorem mem_bindings {c : Chart} {b : Binding} :
    b ∈ c.bindings ↔ c.source? b.role = some b.source := by
  simp only [bindings, List.mem_filterMap, Option.map_eq_some_iff]
  constructor
  · rintro ⟨r, -, s, bound, rfl⟩
    exact bound
  · intro bound
    exact ⟨b.role, Vocabulary.mem_all b.role, b.source, bound, rfl⟩

/-- A style key is listed with a value exactly if it is set to the value. -/
@[simp] theorem mem_styles {c : Chart} {k : StyleKey} {v : Value} :
    (k, v) ∈ c.styles ↔ c.style? k = some v := by
  simp only [styles, List.mem_filterMap, Option.map_eq_some_iff, Prod.mk.injEq]
  constructor
  · rintro ⟨other, -, value, set, rfl, rfl⟩
    exact set
  · intro set
    exact ⟨k, Vocabulary.mem_all k, v, set, rfl, rfl⟩

/-- The column that a role is bound to; none for a literal, an unbound role, and the facet. -/
def columnFor (c : Chart) (role : Role) : Option String :=
  (c.source? role).bind Source.column?

/-- Whether a role is bound, or for the facet, whether one is chosen. -/
def hasRole (c : Chart) : Role → Bool
  | .facet => c.facet?.isSome
  | r => (c.source? r).isSome

/-- The role that a value names, of whatever kind; any other value is a misuse. -/
def anyRole (role : Value) : Except Misuse Role :=
  match Vocabulary.ofValue? role with
  | some r => .ok r
  | none => .error .notMember

/-- The value of a style key, or the unset mark. -/
def styleValue (c : Chart) (key : Value) : Except Fault Value := do
  return (c.style? (← readStyleKey key)).getD .unset

/-- The facet as a value: a column source or null. -/
def facetValue (c : Chart) : Value :=
  match c.facet? with
  | some name => .column (.text name)
  | none => .null

/-- The written form of a chart: its kind, its bindings and its facet. -/
def written (c : Chart) : Except Misuse String := do
  let roles ← c.bindings.mapM fun b => do return b.role.name ++ "=" ++ (← b.source.toValue.write)
  return "ChartSpec(kind=" ++ Text.quoted c.kind.name ++ ", bindings=[" ++ ", ".intercalate roles ++ "], facet="
    ++ c.facetValue.written ++ ")"

end Chart

end ChartGrammar
