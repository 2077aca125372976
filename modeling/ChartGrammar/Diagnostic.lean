import ChartGrammar.Value.Equality
import ChartGrammar.Value.Written
import ChartGrammar.Vocabulary

/-! Diagnostics: findings that are reported beside a result and never change it. -/

namespace ChartGrammar

/-- How serious a finding is. -/
inductive Severity where
  | info
  | warning
  deriving DecidableEq, Repr

/-- What a finding is about. -/
inductive Code where
  | unknownToGrammar
  | unsupported
  | explained
  | conflict
  | facetCardinality
  | croppingSemantics
  deriving DecidableEq, Repr

namespace Severity

def name : Severity → String
  | info => "info"
  | warning => "warning"

instance : Vocabulary Severity where
  all := [info, warning]
  name := name
  title := "Severity"

instance : LawfulVocabulary Severity where
  ofName?_name s := by cases s <;> rfl

/-- The level at which a finding is logged, one below its severity. -/
def logLevel : Severity → String
  | info => "DEBUG"
  | warning => "INFO"

end Severity

namespace Code

def name : Code → String
  | unknownToGrammar => "UnknownToGrammar"
  | unsupported => "Unsupported"
  | explained => "Explained"
  | conflict => "Conflict"
  | facetCardinality => "FacetCardinality"
  | croppingSemantics => "CroppingSemantics"

instance : Vocabulary Code where
  all := [unknownToGrammar, unsupported, explained, conflict, facetCardinality, croppingSemantics]
  name := name
  title := "DiagnosticCode"

instance : LawfulVocabulary Code where
  ofName?_name c := by cases c <;> rfl

end Code

/-- A finding. The message is a text unless a table's note is something else; the key is the style key, role
or parameter that the finding is about, or null. -/
structure Diagnostic where
  severity : Severity
  code : Code
  message : Value
  key : Value

namespace Diagnostic

/-- A finding with its severity and code given by name; other names are a misuse. -/
def ofNames (severity code message key : Value) : Except Misuse Diagnostic :=
  match Vocabulary.ofValue? severity, Vocabulary.ofValue? code with
  | some s, some c => .ok ⟨s, c, message, key⟩
  | _, _ => .error .notMember

/-- The finding's line in the log; a dash stands where there is no key. -/
def logLine (d : Diagnostic) : String :=
  d.code.name ++ " [" ++ (if d.key.truthy then d.key.display else "-") ++ "] " ++ d.message.display

def toValue (d : Diagnostic) : Value :=
  .dict [(.text "severity", .text d.severity.name), (.text "code", .text d.code.name),
    (.text "message", d.message), (.text "key", d.key)]

end Diagnostic

end ChartGrammar
