import ChartGrammar.Writer.Arranger
import ChartGrammar.Writer.Column
import ChartGrammar.Writer.Selector
import ChartGrammar.Writer.Style

/-! Writers made from the name and the options of a table's row. Each writer has required and optional
options; options that are missing, unknown or not of the right make are refused, as are names that no writer
has. -/

namespace ChartGrammar

/-- Why options do not make a writer. -/
inductive OptionFault where
  /-- Options that the writer does not have, or that it needs and are not there. -/
  | unfit
  | misuse (m : Misuse)

/-- A family of writers: those that can stand at one place of a table. -/
class WriterFamily (W : Type) where
  family : String
  /-- The names of the writers, in ascending order. -/
  names : List String
  /-- The writer of a name, made from options; `none` for a name that no writer has. -/
  make? : String → Value → Option (Except OptionFault W)

namespace Options

/-- The options as entries, when they are those that a writer has and none that it needs is missing. -/
def check (required optional : List String) (options : Value) : Except OptionFault Entries :=
  match options with
  | .dict es =>
    let known (e : Value × Value) := match e.1 with
      | .text name => required.contains name || optional.contains name
      | _ => false
    if es.all known && required.all fun name => (Entries.field? es name).isSome then .ok es else .error .unfit
  | _ => .error .unfit

/-- An option's value, or what stands for it when it is not there. -/
def getD (es : Entries) (name : String) (value : Value) : Value :=
  (es.field? name).getD value

/-- One entry of a dictionary that is given as a sequence of pairs. -/
def readEntry (es : Entries) (pair : Value) : Except OptionFault Entries :=
  match pair.elements? with
  | none => .error .unfit
  | some [key, value] => if key.isKey then .ok (es.insert key value) else .error .unfit
  | some _ => .error (.misuse .wrongCount)

/-- A table of words: a dictionary, or a sequence of pairs. -/
def readWords (v : Value) : Except OptionFault Entries :=
  match v with
  | .dict es => .ok es
  | v =>
    match v.elements? with
    | none => .error .unfit
    | some items => items.foldlM readEntry []

/-- Parameters that are given as a dictionary. -/
def readParams : Value → Except OptionFault Entries
  | .dict es => .ok es
  | _ => .error (.misuse .missingAttribute)

end Options

open Options

instance : WriterFamily StyleWriter where
  family := "style"
  names := ["legend_position", "mapped", "nested", "none", "pair", "scalar", "template"]
  make?
    | "scalar", o => some do
      let es ← check ["param"] [] o
      return .scalar (es.field "param")
    | "pair", o => some do
      let es ← check ["param"] [] o
      return .pair (es.field "param")
    | "nested", o => some do
      let es ← check ["param", "field"] [] o
      return .nested (es.field "param") (es.field "field")
    | "mapped", o => some do
      let es ← check ["param", "values"] [] o
      return .mapped (es.field "param") (← readWords (es.field "values"))
    | "template", o => some do
      let es ← check ["param", "pattern"] [] o
      return .template (es.field "param") (es.field "pattern")
    | "legend_position", o => some do
      let es ← check ["param"] ["hidden", "shown"] o
      let hidden := getD es "hidden" (.text "none")
      return .legendPosition (es.field "param") hidden (getD es "shown" (.text "right"))
    | "none", o => some do
      let _ ← check [] [] o
      return .nothing
    | _, _ => none

instance : WriterFamily ColumnWriter where
  family := "column"
  names := ["column", "consumed", "counted_or_labels", "factor_codes", "formula", "grouped_vector", "overlay",
    "palette", "vector"]
  make?
    | "column", o => some do
      let es ← check ["param"] [] o
      return .column (es.field "param")
    | "vector", o => some do
      let es ← check ["param"] [] o
      return .vector (es.field "param")
    | "counted_or_labels", o => some do
      let es ← check ["param", "labels_param"] ["by"] o
      return .countedOrLabels (es.field "param") (es.field "labels_param") (getD es "by" (.tuple []))
    | "grouped_vector", o => some do
      let es ← check ["param"] ["by"] o
      return .groupedVector (es.field "param") (getD es "by" (.tuple []))
    | "formula", o => some do
      let es ← check ["param", "rhs"] [] o
      return .formula (es.field "param") (es.field "rhs")
    | "consumed", o => some do
      let es ← check ["into"] [] o
      return .consumed (es.field "into")
    | "palette", o => some do
      let es ← check ["param"] [] o
      return .palette (es.field "param")
    | "factor_codes", o => some do
      let es ← check ["param"] [] o
      return .factorCodes (es.field "param")
    | "overlay", o => some do
      let es ← check ["call"] ["param", "color_param"] o
      return .overlay (getD es "param" (.text "layers")) (es.field "call") (es.field "color_param")
    | _, _ => none

instance : WriterFamily FacetWriter where
  family := "facet"
  names := ["facet_wrap", "panel_grid"]
  make?
    | "facet_wrap", o => some do
      let es ← check ["param"] [] o
      return .wrap (es.field "param")
    | "panel_grid", o => some do
      let es ← check [] ["param", "layout"] o
      return .panelGrid (getD es "param" (.text "panels")) (getD es "layout" (.text "mfrow"))
    | _, _ => none

instance : WriterFamily SelectorWriter where
  family := "selector"
  names := ["bar_geom", "fixed"]
  make?
    | "fixed", o => some do
      let es ← check ["params"] [] o
      return .fixed (← readParams (es.field "params"))
    | "bar_geom", o => some do
      let es ← check ["param", "counted", "valued"] [] o
      return .barGeometry (es.field "param") (es.field "counted") (es.field "valued")
    | _, _ => none

instance : WriterFamily Arranger where
  family := "rewrite"
  names := ["grouped_bars"]
  make?
    | "grouped_bars", o => some do
      let es ← check [] ["param", "scale_param", "by"] o
      return .groupedBars (getD es "param" (.text "beside")) (getD es "scale_param" (.text "height.scale"))
        (getD es "by" (.tuple [.text Role.group.name, .text Role.fill.name]))
    | _, _ => none

/-- Makes the writer that a row names, at some location of a table. -/
def makeWriter (W : Type) [WriterFamily W] (location : String) (name options : Value) : Except Fault W :=
  let unknown := Fault.inTable location (.unknownWriter (WriterFamily.family W) name (WriterFamily.names W))
  match name with
  | .text s =>
    match (WriterFamily.make? s options : Option (Except OptionFault W)) with
    | none => .error unknown
    | some (.ok w) => .ok w
    | some (.error .unfit) => .error (.inTable location (.unfitOptions s))
    | some (.error (.misuse m)) => .error (.misuse m)
  | v => .error (if v.isKey then .about v unknown else .misuse .unhashable)

end ChartGrammar
