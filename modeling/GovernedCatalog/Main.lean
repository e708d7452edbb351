import GovernedCatalog.CommandLine

/-!
# The program

Reads the files that the arguments name and prints what the command shows.
Settings are optional; a dump is not.
-/

namespace GovernedCatalog.CommandLine

def usage : String :=
  "usage: [-c FILE] [-l LEVEL] [--json-logs] [-r ROLES] " ++
    "(model | report | compile) DUMP [SCHEMA TABLE [COLUMN]]"

/-- The settings file, unless an option names another. -/
def standardSettingsFile : String := "catalog.toml"

/-- The variable of the environment that gives roles with commas between
them. -/
def rolesVariable : String := "CATALOG_ROLES"

/-- The text of a file, if there is one. -/
def textOfFile? (file : String) : IO (Option String) := do
  try return some (← IO.FS.readFile file)
  catch
    | .noFileOrDirectory _ _ _ => return none
    | e => throw e

def runFiles (invocation : Invocation) : IO UInt32 := do
  let file := invocation.options.settingsFile.getD standardSettingsFile
  let settings? ← textOfFile? file
  let dump? ← textOfFile? invocation.dumpFile
  let environment ← IO.getEnv rolesVariable
  let settings := (settingsDocument settings?).mapError Guard.Fault.failed
  match settings.bind fun j => run invocation environment j dump? with
  | .ok text =>
      IO.print text
      return 0
  | .error fault =>
      IO.eprintln fault.message
      return 1

end GovernedCatalog.CommandLine

open GovernedCatalog in
def main (arguments : List String) : IO UInt32 :=
  match CommandLine.parse arguments with
  | some invocation => CommandLine.runFiles invocation
  | none => do
      IO.eprintln CommandLine.usage
      return 2
