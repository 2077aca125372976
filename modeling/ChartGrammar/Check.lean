import ChartGrammar.Coverage
import ChartGrammar.Shipped.Registry
import ChartGrammar.Table.Directory
import ChartGrammar.Value.Json

/-! The check of grammar tables from the command line. It reads the tables of a directory, the one that is
given or else the one that the settings name, and prints what they cover, or the first fault in them. -/

namespace ChartGrammar.Check

/-- What the command line asks for. -/
inductive Request where
  | help
  | check (directory : Option String) (logLevel : String)
  deriving DecidableEq, Repr

/-- The options that take a value. -/
inductive Setting where
  | directory
  | logLevel
  deriving DecidableEq, Repr

/-- A word of the command line. -/
inductive Word where
  | value (s : String)
  | help
  | setting (which : Setting)
  /-- An option and its value in one word. -/
  | assigned (which : Setting) (s : String)
  /-- A word that makes the command line unfit at once. -/
  | unfit
  /-- A word that makes the command line unfit, unless help is asked for after it. -/
  | stray
  deriving DecidableEq, Repr

/-- Whether a text is a number below zero, with or without a decimal point, and at most one line end. -/
def isNegativeNumber (s : List Char) : Bool :=
  let isDigit (c : Char) := (Text.decimalDigit? c).isSome
  match if s.getLast? = some '\n' then s.dropLast else s with
  | '-' :: number =>
    match number.dropWhile isDigit with
    | [] => !number.isEmpty
    | '.' :: fraction => !fraction.isEmpty && fraction.all isDigit
    | _ => false
  | _ => false

/-- A word that is no option: a value if it holds a space or is a number, and astray otherwise. -/
def plainWord (s : String) : Word :=
  if isNegativeNumber s.toList || s.toList.contains ' ' then .value s else .stray

/-- A word after two dashes: the name of an option, or the start of one, with a value after an equals sign. -/
def longWord (s : String) (name : List Char) (value : Option String) : Word :=
  if name.isEmpty then .unfit
  else if name.isPrefixOf "help".toList then (if value.isNone then .help else .unfit)
  else
    let setting? : Option Setting :=
      if name.isPrefixOf "tables-dir".toList then some .directory
      else if name.isPrefixOf "log-level".toList then some .logLevel
      else none
    match setting?, value with
    | some which, none => .setting which
    | some which, some v => .assigned which v
    | none, _ => plainWord s

/-- What follows the letter that asks for help in one word: nothing, or the letter again, also after an equals
sign. No other letter can stand there. -/
def shortHelp : List Char → Word
  | [] => .help
  | ['='] => .unfit
  | '=' :: rest => if rest.all (· = 'h') then .help else .unfit
  | rest => if rest.all (· = 'h') then .help else .unfit

/-- Reads one word. -/
def readWord (s : String) : Word :=
  match s.toList with
  | '-' :: '-' :: [] => .unfit
  | '-' :: '-' :: rest =>
    let name := rest.takeWhile (· != '=')
    longWord s name (match rest.drop name.length with
      | [] => none
      | _ :: value => some (String.ofList value))
  | '-' :: 'h' :: rest => shortHelp rest
  | '-' :: _ :: _ => plainWord s
  | _ => .value s

/-- The request with one of its settings. -/
def assign (directory : Option String) (logLevel : String) (which : Setting) (s : String) :
    Option String × String :=
  match which with
  | .directory => (some s, logLevel)
  | .logLevel => (directory, s)

/-- Reads words up to the first that decides. `strayed` tells whether some word before was astray. -/
def readWords (strayed : Bool) (directory : Option String) (logLevel : String) : List Word → Option Request
  | [] => if strayed then none else some (.check directory logLevel)
  | .help :: _ => some .help
  | .unfit :: _ => none
  | .assigned which s :: rest =>
    let assigned := assign directory logLevel which s
    readWords strayed assigned.1 assigned.2 rest
  | .setting which :: .value s :: rest =>
    let assigned := assign directory logLevel which s
    readWords strayed assigned.1 assigned.2 rest
  | .setting _ :: _ => none
  | _ :: rest => readWords true directory logLevel rest

/-- The level of the log when none is given. -/
def defaultLevel : String := "WARNING"

/-- Whether a word is unfit wherever it stands: an equals sign with no name before it. -/
def isNameless (s : String) : Bool :=
  s.startsWith "--="

/-- What the words of a command line ask for; `none` if they make no sense. -/
def parse (words : List String) : Option Request :=
  if (words.takeWhile (· != "--")).any isNameless then none
  else readWords false none defaultLevel (words.map readWord)

/-- A letter in upper case, as far as levels are concerned: two letters beyond ASCII have capitals in it. -/
def capital (c : Char) : Char :=
  if c.toNat = 0x131 then 'I' else if c.toNat = 0x17f then 'S' else c.toUpper

/-- The levels of the log. -/
def levels : List String :=
  ["CRITICAL", "FATAL", "ERROR", "WARN", "WARNING", "INFO", "DEBUG", "NOTSET"]

/-- Whether a word names a level of the log, in whatever case. -/
def isLevel (s : String) : Bool :=
  levels.contains (String.ofList (s.toList.map capital))

/-- How the check ends: its exit status and what it prints. -/
structure Outcome where
  status : Nat
  output : String
  deriving DecidableEq

/-- What is printed when help is asked for. -/
def usage : String :=
  "usage: chart-grammar-check [-h] [--tables-dir TABLES_DIR]\n"
    ++ "                           [--log-level LOG_LEVEL]\n\n"
    ++ "Validate chart translator capability tables.\n\n"
    ++ "options:\n"
    ++ "  -h, --help            show this help message and exit\n"
    ++ "  --tables-dir TABLES_DIR\n"
    ++ "                        Directory of <grammar>.yml tables.\n"
    ++ "  --log-level LOG_LEVEL\n"
    ++ "                        Logging level (DEBUG, INFO, WARNING, ...).\n"

/-- What stands for the value of a setting and is not one: the setting is given, and has no value. -/
def noValue : String := "--"

/-- Where the tables to be checked lie. -/
def location (env : Environment) : Option String → Except Fault TablesLocation
  | some path =>
    if path = noValue then .error (.misuse .missingAttribute) else .ok (.directory (normalizePath path))
  | none => Settings.tables <$> Settings.read env

/-- Reads the tables to be checked. `contents` gives the files of a directory. -/
def load (env : Environment) (contents : String → List TableFile) (directory : Option String) :
    Except Fault Registry := do
  match ← location env directory with
  | .shipped => return .shipped
  | .directory path => Registry.ofDirectory path (contents path)

/-- A document on a line of its own. -/
def printed (entries : Entries) : Except Fault String := do
  return (← Fault.ofMisuse (Value.dict entries).json) ++ "\n"

/-- The outcome for the tables that were read: their coverage, or the fault in them. Other faults are not of
the check's making and are passed on. -/
def report : Except Fault Registry → Except Fault Outcome
  | .ok r => do
    let grammars ← Fault.ofMisuse r.coverageValue
    return ⟨0, ← printed [(.text "ok", .bool true), (.text "grammars", grammars)]⟩
  | .error (.table fault) => do
    return ⟨1, ← printed [(.text "ok", .bool false), (.text "error", .text fault.message)]⟩
  | .error fault => .error fault

/-- The level of the log that a setting names. -/
def readLevel (level : String) : Except Misuse Unit :=
  if level = noValue then .error .missingAttribute else if isLevel level then .ok () else .error .unknownLevel

/-- Runs the check. The level of the log is looked at before any table is. -/
def run (env : Environment) (contents : String → List TableFile) (words : List String) :
    Except Fault Outcome :=
  match parse words with
  | none => .ok ⟨2, ""⟩
  | some .help => .ok ⟨0, usage⟩
  | some (.check directory logLevel) => do
    Fault.ofMisuse (readLevel logLevel)
    report (load env contents directory)

/-- Runs the check as a program. The tables that the settings name are loaded with the library, before anything is
checked; a fault in them ends the program there, without a report. -/
def script (env : Environment) (contents : String → List TableFile) (words : List String) :
    Except Fault Outcome := do
  let _ ← load env contents none
  run env contents words

end ChartGrammar.Check
