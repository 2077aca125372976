import ChartGrammar.Fault
import ChartGrammar.Text.Integer

/-! Settings read from environment variables: where grammar tables lie, and from how many distinct values on a
numeric facet is worth a warning. -/

namespace ChartGrammar

/-- Environment variables and their values, and the users of the system; of two entries for one name the first
counts. -/
structure Environment where
  bindings : List (String × String) := []
  /-- The home directory that the system knows of a user, or of the one at work where none is named. -/
  homeOf : Option String → Option String := fun _ => none

namespace Environment

def get? (env : Environment) (name : String) : Option String :=
  (env.bindings.find? fun v => v.1 == name).map (·.2)

def unset (env : Environment) (name : String) : Environment :=
  { env with bindings := env.bindings.filter fun v => v.1 != name }

def set (env : Environment) (name value : String) : Environment :=
  { env with bindings := (name, value) :: (env.unset name).bindings }

/-- The variable that names the home directory of the user at work. -/
def homeVariable : String := "HOME"

/-- The home directory of a user; for the one at work the variable counts before the system. -/
def home? (env : Environment) : Option String → Option String
  | none => (env.get? homeVariable).or (env.homeOf none)
  | some user => env.homeOf (some user)

@[simp] theorem get?_set_self (env : Environment) (name value : String) :
    (env.set name value).get? name = some value := by
  simp [get?, set]

@[simp] theorem get?_unset_self (env : Environment) (name : String) : (env.unset name).get? name = none := by
  simp [get?, unset]

/-- Unsetting a variable leaves the others as they are. -/
theorem get?_unset_of_ne (env : Environment) {name other : String} (h : other ≠ name) :
    (env.unset name).get? other = env.get? other := by
  simp only [get?, unset, List.find?_filter]
  congr 2
  funext v
  by_cases hv : v.1 = other <;> simp_all

/-- Setting a variable leaves the others as they are. -/
theorem get?_set_of_ne (env : Environment) {name other : String} (value : String) (h : other ≠ name) :
    (env.set name value).get? other = env.get? other := by
  rw [← get?_unset_of_ne env h]
  simp [get?, set, Ne.symm h]

end Environment

/-- The parts of a path, between its separators. -/
def pathParts (path : String) : List String :=
  (path.toList.splitOn '/').map String.ofList

/-- A path in normal form: repeated separators and `.` parts are dropped, `..` parts stay, and of the leading
separators one is kept, or both when there are exactly two. -/
def normalizePath (path : String) : String :=
  let parts := (pathParts path).filter fun part => part != "" && part != "."
  let leading := (path.toList.takeWhile (· == '/')).length
  let root := if leading = 0 then "" else if leading = 2 then "//" else "/"
  if leading = 0 && parts.isEmpty then "." else root ++ "/".intercalate parts

/-- The path of an entry of a directory. -/
def joinPath (directory name : String) : String :=
  if directory = "." then name
  else if directory.endsWith "/" then directory ++ name
  else directory ++ "/" ++ name

/-- The path of a home directory, the separators at its end left out. What still starts with a tilde is none. -/
def homePath (home : String) : Except Misuse String :=
  let path := String.ofList (home.toList.reverse.dropWhile (· == '/')).reverse
  if path.toList.head? = some '~' then .error .homeless else .ok (if path.isEmpty then "/" else normalizePath path)

/-- A path in normal form with a home directory in place of a tilde at its start: that of the user who is named after
it, or else of the one at work. -/
def expandHome (env : Environment) (path : String) : Except Misuse String :=
  match pathParts path with
  | first :: rest =>
    match first.toList with
    | '~' :: user =>
      match env.home? (if user.isEmpty then none else some (String.ofList user)) with
      | some home => rest.foldl joinPath <$> homePath home
      | none => .error .homeless
    | _ => .ok path
  | [] => .ok path

/-- Where grammar tables are read from. -/
inductive TablesLocation where
  /-- The tables that the library holds. -/
  | shipped
  | directory (path : String)
  deriving DecidableEq

/-- The settings in force. -/
structure Settings where
  tables : TablesLocation
  facetLimit : Int

namespace Settings

/-- The variable that limits the distinct values of a facet. -/
def limitVariable : String := "CHART_TRANSLATOR_FACET_CARDINALITY_LIMIT"

/-- The variable that names the directory of the tables. -/
def tablesVariable : String := "CHART_TRANSLATOR_TABLES_DIR"

def defaultFacetLimit : Int := 12

/-- The limit that the environment sets: at least one. -/
def readFacetLimit (env : Environment) : Except SettingsFault Int :=
  match env.get? limitVariable with
  | none => .ok defaultFacetLimit
  | some text =>
    match Text.integer? (Text.strip text) with
    | none => .error (.notInteger limitVariable text)
    | some n => if n < 1 then .error (.belowOne limitVariable n) else .ok n

/-- The place of the tables that the environment sets; a blank setting is none. -/
def readTables (env : Environment) : Except Misuse TablesLocation :=
  match env.get? tablesVariable with
  | none => .ok .shipped
  | some text =>
    if Text.blank text then .ok .shipped
    else .directory <$> expandHome env (normalizePath (Text.strip text))

/-- Reads the settings; the limit is checked first. -/
def read (env : Environment) : Except Fault Settings :=
  match readFacetLimit env with
  | .ok facetLimit => do return { facetLimit, tables := ← Fault.ofMisuse (readTables env) }
  | .error fault => .error (.settings fault)

end Settings

end ChartGrammar
