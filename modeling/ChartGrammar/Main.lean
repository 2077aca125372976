import ChartGrammar.Check
import ChartGrammar.Value.JsonReader

/-! The command line. It takes the settings from the environment and runs the check of grammar tables. The
files of directories of tables are handed in on standard input, as one document that holds the content of each
under its directory and its name, so that nothing is read where only the shipped tables are checked. -/

namespace ChartGrammar.Check

/-- The directory at a location, if it is one. -/
def directoryAt? : Except Fault TablesLocation → Option String
  | .ok (.directory path) => some path
  | _ => none

/-- The directories whose files the program may ask for: the one that the settings name, and the one that the
command line does. -/
def wanted (env : Environment) (words : List String) : List String :=
  let given := match parse words with
    | some (.check directory _) => directoryAt? (location env directory)
    | _ => none
  (directoryAt? (location env none)).toList ++ given.toList

/-- The files that a document holds by name. -/
def filesOf : Value → List TableFile
  | .dict es => es.filterMap fun e => match e.1 with
    | .text name => some ⟨name, e.2⟩
    | _ => none
  | _ => []

/-- The files of a directory that a document holds. -/
def filesIn (document : Value) (directory : String) : List TableFile :=
  match document with
  | .dict es => filesOf (Entries.field es directory)
  | _ => []

end ChartGrammar.Check

namespace ChartGrammar

/-- The variables of the environment that are looked at. -/
def readEnvironment : IO Environment := do
  let mut env : Environment := {}
  for name in [Settings.limitVariable, Settings.tablesVariable, Environment.homeVariable] do
    if let some value ← IO.getEnv name then
      env := env.set name value
  return env

/-- All that is left of a stream. -/
partial def readAll (input : IO.FS.Stream) (before : String) : IO String := do
  let line ← input.getLine
  if line.isEmpty then return before
  readAll input (before ++ line)

/-- The files handed in on standard input, by directory. -/
def readFiles : IO Value := do
  let text ← readAll (← IO.getStdin) ""
  match Value.ofJson? text with
  | some v => return v
  | none => throw (IO.userError "The files on standard input are no document.")

end ChartGrammar

open ChartGrammar in
def main (words : List String) : IO UInt32 := do
  let env ← readEnvironment
  let files ← if (Check.wanted env words).isEmpty then pure Value.null else readFiles
  match Check.script env (Check.filesIn files) words with
  | .ok outcome =>
    IO.print outcome.output
    return outcome.status.toUInt32
  | .error fault =>
    IO.eprintln (fault.message?.getD "A value in the tables is misused.")
    return 1
