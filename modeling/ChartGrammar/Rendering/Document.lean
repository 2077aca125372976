import ChartGrammar.Fault
import ChartGrammar.Outcome
import ChartGrammar.Rendering.Mention

/-! Documents of parameters, and the steps that build them. A step writes a parameter, reports a finding,
asks whether a column is carried, or fails. A parameter that is written again with another value is in
conflict: the later value stands, with a warning, or where conflicts are refused the document fails. -/

namespace ChartGrammar

/-- A parameter with its value and what wrote it. -/
structure Parameter where
  name : Value
  value : Value
  origin : Origin

/-- A document: parameters in the order in which they were first written, and findings in the order in which
they were made. -/
structure Document where
  parameters : List Parameter := []
  findings : List Diagnostic := []

/-- A step in the building of a document. -/
inductive Step where
  | write (param value : Value) (origin : Origin)
  | report (finding : Diagnostic)
  /-- Warns unless a parameter carries the column that was bound to a role and folded into it. -/
  | carried (role : Role) (column : String) (into : Value)
  | fail (fault : Fault)

/-- The steps that write some parameters. -/
def Step.writes (params : Entries) (origin : Origin) : List Step :=
  params.map fun e => .write e.1 e.2 origin

namespace Document

def empty : Document := {}

/-- The parameter of a name. -/
def find? (d : Document) (param : Value) : Option Parameter :=
  d.parameters.find? fun p => p.name.same param

/-- The parameters as entries. -/
def entries (d : Document) : Entries :=
  d.parameters.map fun p => (p.name, p.value)

def report (d : Document) (finding : Diagnostic) : Document :=
  { d with findings := d.findings ++ [finding] }

/-- Adds a parameter after the others. -/
def append (d : Document) (param value : Value) (origin : Origin) : Document :=
  { d with parameters := d.parameters ++ [⟨param, value, origin⟩] }

/-- Gives a parameter another value and origin; its name and place stay. -/
def override (d : Document) (param value : Value) (origin : Origin) : Document :=
  { d with parameters := d.parameters.map fun p =>
      if p.name.same param then { p with value, origin } else p }

@[simp] theorem entries_report (d : Document) (finding : Diagnostic) :
    (d.report finding).entries = d.entries := rfl

@[simp] theorem entries_append (d : Document) (param value : Value) (origin : Origin) :
    (d.append param value origin).entries = d.entries ++ [(param, value)] := by
  simp [append, entries]

/-- An override keeps the parameters' names and their order. -/
@[simp] theorem names_override (d : Document) (param value : Value) (origin : Origin) :
    (d.override param value origin).parameters.map Parameter.name = d.parameters.map Parameter.name := by
  simp only [override, List.map_map]
  congr 1
  funext p
  simp only [Function.comp_apply]
  split <;> rfl

/-- The warning that a value was overridden. -/
def conflictWarning (param value : Value) (origin : Origin) (previous : Parameter) : Diagnostic where
  severity := .warning
  code := .conflict
  message := .text ("Parameter " ++ param.written ++ " set to " ++ previous.value.written ++ " by "
    ++ Text.quoted previous.origin.name ++ " is overridden with " ++ value.written ++ " by "
    ++ Text.quoted origin.name ++ ".")
  key := param

/-- Whether a conflict can be told of: its message shows the parameter and both values. -/
def isTellable (param value : Value) (previous : Parameter) : Bool :=
  param.legible && previous.value.legible && value.legible

/-- Writes a parameter. A value that counts as the same as the one that stands changes nothing. -/
def write (strict : Bool) (d : Document) (param value : Value) (origin : Origin) : Except Fault Document :=
  if !param.isKey then .error (.misuse .unhashable)
  else
    match d.find? param with
    | none => .ok (d.append param value origin)
    | some previous =>
      if previous.value.same value then .ok d
      else if !isTellable param value previous then .error (.misuse .tooLong)
      else if strict then
        .error (.rendering (.conflict param previous.origin origin previous.value value))
      else .ok ((d.report (conflictWarning param value origin previous)).override param value origin)

/-- Whether a parameter is there and refers to a column. -/
def carries (d : Document) (param : Value) (column : String) : Bool :=
  match d.find? param with
  | some p => p.value.mentions column
  | none => false

/-- The warning that a column is nowhere written. -/
def droppedWarning (grammar : String) (role : Role) (column : String) (into : Value) : Diagnostic where
  severity := .warning
  code := .unsupported
  message := .text ("Column " ++ Text.quoted column ++ " bound to role " ++ Text.quoted role.name
    ++ " is not written by grammar " ++ Text.quoted grammar ++ ": the " ++ into.written
    ++ " parameter does not carry it.")
  key := .text role.name

/-- Takes one step. -/
def step (grammar : String) (strict : Bool) (d : Document) : Step → Except Fault Document
  | .write param value origin => d.write strict param value origin
  | .report finding => .ok (d.report finding)
  | .carried role column into =>
    if !into.isKey then .error (.misuse .unhashable)
    else if d.carries into column then .ok d
    else if !into.legible then .error (.misuse .tooLong)
    else .ok (d.report (droppedWarning grammar role column into))
  | .fail fault => .error fault

/-- Takes the steps one after another, up to the first that fails. -/
def run (grammar : String) (strict : Bool) (d : Document) (steps : List Step) : Except Fault Document :=
  steps.foldlM (step grammar strict) d

/-! ### What a step does -/

/-- The ways in which a write can go. -/
inductive WriteCase (strict : Bool) (d : Document) (param value : Value) (origin : Origin) :
    Except Fault Document → Prop
  | unhashable (keyless : param.isKey = false) : WriteCase strict d param value origin (.error (.misuse .unhashable))
  | new (keyed : param.isKey = true) (found : d.find? param = none) :
      WriteCase strict d param value origin (.ok (d.append param value origin))
  | repeated {previous : Parameter} (keyed : param.isKey = true) (found : d.find? param = some previous)
      (equal : previous.value.same value = true) : WriteCase strict d param value origin (.ok d)
  | untold {previous : Parameter} (keyed : param.isKey = true) (found : d.find? param = some previous)
      (unequal : previous.value.same value = false) (long : isTellable param value previous = false) :
      WriteCase strict d param value origin (.error (.misuse .tooLong))
  | refused {previous : Parameter} (keyed : param.isKey = true) (found : d.find? param = some previous)
      (unequal : previous.value.same value = false) (short : isTellable param value previous = true)
      (isStrict : strict = true) : WriteCase strict d param value origin
        (.error (.rendering (.conflict param previous.origin origin previous.value value)))
  | override {previous : Parameter} (keyed : param.isKey = true) (found : d.find? param = some previous)
      (unequal : previous.value.same value = false) (short : isTellable param value previous = true)
      (isLenient : strict = false) : WriteCase strict d param value origin
        (.ok ((d.report (conflictWarning param value origin previous)).override param value origin))

theorem writeCase {strict : Bool} {d : Document} {param value : Value} {origin : Origin}
    {outcome : Except Fault Document} (h : d.write strict param value origin = outcome) :
    WriteCase strict d param value origin outcome := by
  subst h
  unfold write
  cases keyed : param.isKey with
  | false => exact .unhashable keyed
  | true =>
    cases found : d.find? param with
    | none => exact .new keyed found
    | some previous =>
      cases equal : previous.value.same value with
      | true =>
        simp only [equal]
        exact .repeated keyed found equal
      | false =>
        cases short : isTellable param value previous with
        | false =>
          simp only [equal, short]
          exact .untold keyed found equal short
        | true =>
          cases strict with
          | true =>
            simp only [equal, short]
            exact .refused keyed found equal short rfl
          | false =>
            simp only [equal, short]
            exact .override keyed found equal short rfl

/-- The ways in which the search for a column can go. -/
inductive CarriedCase (grammar : String) (d : Document) (role : Role) (column : String) (into : Value) :
    Except Fault Document → Prop
  | unhashable (keyless : into.isKey = false) : CarriedCase grammar d role column into (.error (.misuse .unhashable))
  | found (keyed : into.isKey = true) (carried : d.carries into column = true) :
      CarriedCase grammar d role column into (.ok d)
  | untold (keyed : into.isKey = true) (dropped : d.carries into column = false) (long : into.legible = false) :
      CarriedCase grammar d role column into (.error (.misuse .tooLong))
  | dropped (keyed : into.isKey = true) (dropped : d.carries into column = false) (short : into.legible = true) :
      CarriedCase grammar d role column into (.ok (d.report (droppedWarning grammar role column into)))

theorem carriedCase {grammar : String} {strict : Bool} {d : Document} {role : Role} {column : String} {into : Value}
    {outcome : Except Fault Document} (h : d.step grammar strict (.carried role column into) = outcome) :
    CarriedCase grammar d role column into outcome := by
  subst h
  cases keyed : into.isKey with
  | false =>
    simp only [step, keyed, Bool.not_false, ↓reduceIte]
    exact .unhashable keyed
  | true =>
    cases carried : d.carries into column with
    | true =>
      simp only [step, keyed, carried, Bool.not_true, Bool.false_eq_true, ↓reduceIte]
      exact .found keyed carried
    | false =>
      cases short : into.legible with
      | false =>
        simp only [step, keyed, carried, short, Bool.not_true, Bool.not_false, Bool.false_eq_true, ↓reduceIte]
        exact .untold keyed carried short
      | true =>
        simp only [step, keyed, carried, short, Bool.not_true, Bool.false_eq_true, ↓reduceIte]
        exact .dropped keyed carried short

/-- A step adds findings after those that are there, or none. -/
theorem findings_step {grammar : String} {strict : Bool} {d e : Document} {s : Step}
    (taken : d.step grammar strict s = .ok e) : d.findings <+: e.findings := by
  cases s with
  | write param value origin =>
    cases writeCase taken with
    | new | repeated => exact List.prefix_rfl
    | override => exact List.prefix_append _ _
  | report finding =>
    cases taken
    exact List.prefix_append _ _
  | carried role column into =>
    cases carriedCase taken with
    | found => exact List.prefix_rfl
    | dropped => exact List.prefix_append _ _
  | fail fault => cases taken

/-- Steps that are taken lose none of the findings made before them. -/
theorem findings_run {grammar : String} {strict : Bool} {d e : Document} {steps : List Step}
    (taken : d.run grammar strict steps = .ok e) : d.findings <+: e.findings :=
  foldlM_keeps (fun f => d.findings <+: f.findings) (fun _ _ _ kept one => kept.trans (findings_step one))
    List.prefix_rfl taken

@[simp] theorem run_nil (grammar : String) (strict : Bool) (d : Document) :
    d.run grammar strict [] = .ok d := rfl

@[simp] theorem run_cons (grammar : String) (strict : Bool) (d : Document) (s : Step) (steps : List Step) :
    d.run grammar strict (s :: steps) = (d.step grammar strict s >>= fun e => e.run grammar strict steps) :=
  List.foldlM_cons

/-- Steps that are laid end to end are taken one part after the other. -/
theorem run_append (grammar : String) (strict : Bool) (d : Document) (first second : List Step) :
    d.run grammar strict (first ++ second) =
      (d.run grammar strict first >>= fun e => e.run grammar strict second) :=
  List.foldlM_append

end Document

end ChartGrammar
