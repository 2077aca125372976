import ChartGrammar.Diagnostic
import ChartGrammar.Style.Shape

/-! Everything that can go wrong, by cause, and the wording of the causes. Construction faults arise while a
schema or a chart is built, rendering faults while a chart is turned into a grammar's parameters, table
faults while grammar tables are read, and settings faults while the environment is. Misuses have no wording.
-/

namespace ChartGrammar

open Text (quoted quotedList)

/-- What set a parameter: the choice of the chart's kind, a binding, a style key, or the facet. -/
inductive Origin where
  | kind
  | role (r : Role)
  | style (k : StyleKey)
  | facet
  deriving DecidableEq, Repr

def Origin.name : Origin → String
  | kind => "kind"
  | role r => r.name
  | style k => k.name
  | facet => "facet"

/-- A setting that cannot be read. -/
inductive SettingsFault where
  | notInteger (setting text : String)
  | belowOne (setting : String) (n : Int)

namespace SettingsFault

def message : SettingsFault → String
  | notInteger setting text => setting ++ " must be an integer, got " ++ quoted text ++ "."
  | belowOne setting n => setting ++ " must be >= 1, got " ++ (Number.whole n).text ++ "."

end SettingsFault

/-- How a source fails to suit a role. -/
inductive Mismatch where
  /-- The role takes columns only, and a literal is offered. -/
  | literalOffered
  /-- The literal does not have the shape that the role takes. -/
  | literalShape (value : Value) (shape : Shape)
  /-- The column's type is not among those that the role takes. -/
  | columnType (column : String) (actual : ColumnType) (accepted : List ColumnType)

namespace Mismatch

/-- The column at fault, if it is a column that does not suit. -/
def column? : Mismatch → Option String
  | columnType column _ _ => some column
  | _ => none

/-- What was offered. -/
def actual : Mismatch → String
  | literalOffered => "literal"
  | literalShape value _ => "literal " ++ value.written
  | columnType _ actual _ => actual.name

/-- What would have been taken. -/
def expected : Mismatch → List String
  | literalOffered => ["column"]
  | literalShape _ shape => [shape.describe]
  | columnType _ _ accepted => accepted.map ColumnType.name

end Mismatch

/-- A fault in building a schema or a chart. -/
inductive ConstructionFault where
  | columnListMissing
  | columnEntryNotMapping (got : Value)
  | cardinalityNotInteger (got : Value)
  | columnNameBlank (got : Value)
  | columnTypeUnknown (column : String) (got : Value)
  | cardinalityNegative (column : String) (got : Value)
  | duplicateColumn (name : String)
  | unknownColumn (name : Value)
  | unknownKind (got : Value)
  | facetLimitNotPositive (got : Value)
  | settings (fault : SettingsFault)
  | unsupportedRole (kind : Kind) (role : String)
  | typeMismatch (role : Role) (mismatch : Mismatch)
  | duplicateRole (role : Role)
  | unknownStyleKey (key : String)
  | invalidStyleValue (key : StyleKey) (value : Value)

namespace ConstructionFault

def message : ConstructionFault → String
  | columnListMissing => "Schema payload must contain a 'columns' list."
  | columnEntryNotMapping got => "Column entry must be a mapping, got " ++ got.written ++ "."
  | cardinalityNotInteger got => "Column cardinality must be an integer, got " ++ got.written ++ "."
  | columnNameBlank got => "Column name must be a non-empty string, got " ++ got.written ++ "."
  | columnTypeUnknown column got =>
    "Column " ++ quoted column ++ " has unsupported type " ++ got.written ++ "."
  | cardinalityNegative column got =>
    "Column " ++ quoted column ++ " cardinality must be a non-negative int, got " ++ got.written ++ "."
  | duplicateColumn name => "Column " ++ quoted name ++ " is already defined in the schema."
  | unknownColumn name => "Column " ++ name.written ++ " is not defined in the schema."
  | unknownKind got => "Unknown chart kind: " ++ got.written ++ "."
  | facetLimitNotPositive got =>
    "facet_cardinality_limit must be a positive integer, got " ++ got.written ++ "."
  | settings fault => "Invalid translator settings: " ++ fault.message
  | unsupportedRole kind role =>
    "Chart kind " ++ quoted kind.name ++ " does not accept the " ++ quoted role ++ " role."
  | typeMismatch role mismatch =>
    let target := match mismatch.column? with
      | some column => "column " ++ quoted column
      | none => "source"
    "Role " ++ quoted role.name ++ " cannot bind " ++ target ++ " of type " ++ quoted mismatch.actual
      ++ "; expected one of " ++ quotedList mismatch.expected ++ "."
  | duplicateRole role => "Role " ++ quoted role.name ++ " is already bound on this chart spec."
  | unknownStyleKey key => "Unknown style key: " ++ quoted key ++ "."
  | invalidStyleValue key value =>
    "Invalid value for style key " ++ quoted key.name ++ ": " ++ value.written
      ++ " (expected " ++ key.shape.describe ++ ")."

end ConstructionFault

/-- A fault in turning a chart into a grammar's parameters. -/
inductive RenderingFault where
  | unknownGrammar (grammar : String) (known : List String)
  | missingBinding (grammar : String) (kind : Kind) (role : Role) (because : Option Role)
  | unsupportedBinding (grammar : String) (kind : Kind) (role : Role) (source : Source)
  | facetNotSupported (grammar : String) (kind : Kind)
  | conflict (param : Value) (firstOrigin secondOrigin : Origin) (first second : Value)
  | warningsPresent (codes : List Code)

namespace RenderingFault

def message : RenderingFault → String
  | unknownGrammar grammar known =>
    "Unknown grammar " ++ quoted grammar ++ "; registered grammars: " ++ quotedList known ++ "."
  | missingBinding grammar kind role because =>
    let reason := match because with
      | some other => " when " ++ quoted other.name ++ " is bound"
      | none => ""
    "Grammar " ++ quoted grammar ++ " requires the " ++ quoted role.name ++ " role for " ++ quoted kind.name
      ++ " charts" ++ reason ++ "."
  | unsupportedBinding grammar kind role source =>
    "Grammar " ++ quoted grammar ++ " cannot express a " ++ source.sort ++ " " ++ quoted role.name
      ++ " binding on " ++ quoted kind.name ++ " charts."
  | facetNotSupported grammar kind =>
    "Grammar " ++ quoted grammar ++ " does not support faceting " ++ quoted kind.name ++ " charts."
  | conflict param firstOrigin secondOrigin first second =>
    "Parameter " ++ param.written ++ " written as " ++ first.written ++ " by " ++ quoted firstOrigin.name
      ++ " and as " ++ second.written ++ " by " ++ quoted secondOrigin.name ++ "."
  | warningsPresent codes =>
    "Translation produced warning diagnostics: " ++ quotedList (codes.map Code.name) ++ "."

end RenderingFault

/-- What is wrong at one place of a grammar table. -/
inductive Flaw where
  | topNotMapping
  | grammarMissing
  | kindsNotMapping
  | notMapping (got : Value)
  | unknownWord (vocabulary : String) (got : Value) (known : List String)
  | selectorMissing
  | roleWithoutWriter
  | croppingUnknown (got : Value) (known : List String)
  | writerUnnamed (field : String)
  | unknownWriter (family : String) (got : Value) (known : List String)
  | unfitOptions (writer : String)

namespace Flaw

def message : Flaw → String
  | topNotMapping => "expected a mapping at the top level."
  | grammarMissing => "'grammar' must be a non-empty string."
  | kindsNotMapping => "'kinds' must be a mapping."
  | notMapping got => "expected a mapping, got " ++ got.typeName ++ "."
  | unknownWord vocabulary got known =>
    "unknown " ++ vocabulary ++ " " ++ got.written ++ "; expected one of " ++ quotedList known ++ "."
  | selectorMissing => "'select' is required."
  | roleWithoutWriter => "a role row needs a 'column' or 'literal' writer."
  | croppingUnknown got known =>
    "cropping must be one of " ++ quotedList known ++ ", got " ++ got.written ++ "."
  | writerUnnamed field => quoted field ++ " must name a writer."
  | unknownWriter family got known =>
    "unknown " ++ family ++ " writer " ++ got.written ++ "; known: " ++ quotedList known ++ "."
  | unfitOptions writer => "invalid options for writer " ++ quoted writer

end Flaw

/-- A fault in a grammar table or in a collection of them. -/
inductive TableFault where
  | malformed (location : String) (flaw : Flaw)
  | duplicateGrammar (grammar : String)
  | kindMissing (grammar : String) (kind : Kind)
  | incomplete (grammar : String) (kind : Kind) (missing : List StyleKey)
  | noTables
  | noTableFiles (directory : String)

namespace TableFault

def message : TableFault → String
  | malformed location flaw => location ++ ": " ++ flaw.message
  | duplicateGrammar grammar => "Duplicate capability table for grammar " ++ quoted grammar ++ "."
  | kindMissing grammar kind =>
    "Capability table " ++ quoted grammar ++ " does not define chart kind " ++ quoted kind.name ++ "."
  | incomplete grammar kind missing =>
    "Capability table for grammar " ++ quoted grammar ++ ", kind " ++ quoted kind.name
      ++ " is missing mandatory keys: " ++ quotedList (missing.map StyleKey.name) ++ "."
  | noTables => "A capability registry needs at least one grammar table."
  | noTableFiles directory => "No capability tables found in " ++ directory ++ "."

end TableFault

/-- Any cause of failure. -/
inductive Fault where
  | construction (fault : ConstructionFault)
  | rendering (fault : RenderingFault)
  | table (fault : TableFault)
  | settings (fault : SettingsFault)
  | misuse (misuse : Misuse)

namespace Fault

/-- The wording of a fault; a misuse has none. -/
def message? : Fault → Option String
  | construction fault => some fault.message
  | rendering fault => some fault.message
  | table fault => some fault.message
  | settings fault => some fault.message
  | misuse _ => none

/-- The fault at one place of a table. -/
def inTable (location : String) (flaw : Flaw) : Fault :=
  table (.malformed location flaw)

/-- The fault whose message shows a value. A value that cannot be written leaves no message to report, only the
misuse. -/
def about (v : Value) (fault : Fault) : Fault :=
  if v.legible then fault else misuse .tooLong

theorem about_of_legible {v : Value} {fault : Fault} (h : v.legible = true) : about v fault = fault :=
  if_pos h

theorem about_of_not_legible {v : Value} {fault : Fault} (h : v.legible = false) :
    about v fault = misuse .tooLong := by
  rw [about, h, if_neg Bool.false_ne_true]

/-- The outcome of an operation on values, with a misuse as its fault. -/
def ofMisuse {α : Type} : Except Misuse α → Except Fault α
  | .ok a => .ok a
  | .error m => .error (misuse m)

end Fault

end ChartGrammar
