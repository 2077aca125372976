import ChartGrammar.Registry
import ChartGrammar.Settings
import ChartGrammar.Table.Parse

/-! Registries read from a directory of table files. Of the files, those whose names end in `.yml` count;
they are taken in ascending order of their names, and each is read, registered and checked before the next.
-/

namespace ChartGrammar

/-- A file of a directory, with the value that its text stands for. -/
structure TableFile where
  name : String
  content : Value

namespace TableFile

/-- Whether a file holds a table. -/
def isTable (f : TableFile) : Bool :=
  f.name.endsWith ".yml"

/-- The table in a file. A value that counts as false stands for no entries at all. -/
def read (directory : String) (f : TableFile) : Except Fault Table :=
  let source := joinPath directory f.name
  if f.content.truthy then
    match f.content with
    | .dict payload => Table.parseEntries source payload
    | _ => .error (.inTable source .topNotMapping)
  else Table.parseEntries source []

end TableFile

namespace Registry

/-- The table files among some files, by ascending names. -/
def tableFiles (files : List TableFile) : List TableFile :=
  (files.filter TableFile.isTable).mergeSort fun a b => a.name ≤ b.name

/-- Reads the table in a file and registers it. -/
def registerFile (directory : String) (registered : List Table) (f : TableFile) :
    Except Fault (List Table) := do
  register registered (← f.read directory)

/-- The registry of the tables in a directory. -/
def ofDirectory (directory : String) (files : List TableFile) : Except Fault Registry :=
  match tableFiles files with
  | [] => .error (.table (.noTableFiles directory))
  | tables => do ofRegistered (← tables.foldlM (registerFile directory) [])

end Registry

end ChartGrammar
