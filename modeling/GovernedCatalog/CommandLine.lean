import GovernedCatalog.Catalog
import GovernedCatalog.Dump.Document
import GovernedCatalog.Settings.Document
import GovernedCatalog.Toml.Document

/-!
# The command line

Options come first, then a command with the file of a dump and the names it is
about.  An option that takes one value is given once; roles accumulate.
-/

namespace GovernedCatalog.CommandLine

inductive Command where
  /-- Shows the model that the requester may see. -/
  | model
  /-- Shows what the introspection left out. -/
  | report
  /-- Shows the query for a table, or the guards of one of its columns. -/
  | compile (table : TablePath) (column : Option String)
  deriving DecidableEq, Repr

structure Options where
  settingsFile : Option String
  logLevel : Option String
  jsonLogs : Bool
  /-- The requester's roles, if any option gives some. -/
  roles : Option (List String)
  deriving DecidableEq, Repr

def Options.none : Options := ⟨.none, .none, false, .none⟩

structure Invocation where
  options : Options
  dumpFile : String
  command : Command
  deriving DecidableEq, Repr

/-- Roles with commas between them. -/
def splitRoles (text : String) : List String :=
  (Text.splitOn ',' text.toList).map String.ofList

inductive OptionName where
  | settings
  | logLevel
  | roles
  deriving DecidableEq, Repr

/-- The options that take a value, with their letters and words. -/
def optionNames : List (Char × String × OptionName) :=
  [('c', "config", .settings), ('l', "log-level", .logLevel),
    ('r', "roles", .roles)]

def Options.give (o : Options) (name : OptionName) (value : String) :
    Option Options :=
  match name with
  | .settings =>
      if o.settingsFile.isSome then .none
      else some { o with settingsFile := value }
  | .logLevel =>
      if o.logLevel.isSome then .none else some { o with logLevel := value }
  | .roles => some { o with roles := some (o.roles.getD [] ++ splitRoles value) }

/-- What an argument is. -/
inductive Argument where
  | word (text : String)
  /-- An option with its value, or with the value still to come. -/
  | option (name : OptionName) (value : Option String)
  | jsonLogs
  /-- All arguments after this one are words. -/
  | noMoreOptions
  | unknown
  deriving DecidableEq, Repr

/-- A word of an option, with a value after an equals sign. -/
def readLong (cs : List Char) : Argument :=
  let name := String.ofList (cs.takeWhile (· != '='))
  let value? :=
    match cs.dropWhile (· != '=') with
    | _ :: value => some (String.ofList value)
    | [] => none
  match optionNames.find? fun o => o.2.1 == name with
  | some o => .option o.2.2 value?
  | none =>
      if name = "json-logs" ∧ value?.isNone then .jsonLogs else .unknown

/-- A letter of an option, with a value directly after it. -/
def readShort (letter : Char) (cs : List Char) : Argument :=
  let value? :=
    match cs with
    | [] => none
    | '=' :: value => some (String.ofList value)
    | value => some (String.ofList value)
  match optionNames.find? fun o => o.1 == letter with
  | some o => .option o.2.2 value?
  | none => .unknown

def Argument.ofText (text : String) : Argument :=
  match text.toList with
  | ['-', '-'] => .noMoreOptions
  | '-' :: '-' :: cs => readLong cs
  | ['-'] => .word text
  | '-' :: letter :: cs => readShort letter cs
  | _ => .word text

/-- The words of a command, none of which may be an option. -/
def words? : List String → Option (List String)
  | [] => some []
  | text :: rest =>
      match Argument.ofText text with
      | .word text => (words? rest).map (text :: ·)
      | .noMoreOptions => some rest
      | _ => none

def command? (name : String) (names : List String) :
    Option (String × Command) :=
  match name, names with
  | "model", [dump] => some (dump, .model)
  | "report", [dump] => some (dump, .report)
  | "compile", [dump, schema, table] =>
      some (dump, .compile ⟨schema, table⟩ none)
  | "compile", [dump, schema, table, column] =>
      some (dump, .compile ⟨schema, table⟩ (some column))
  | _, _ => none

/-- Reads the arguments after the options in `o`. -/
def parseFrom (o : Options) : List String → Option Invocation
  | [] => none
  | text :: rest =>
      match Argument.ofText text with
      | .word name => do
          let (dump, command) ← command? name (← words? rest)
          return ⟨o, dump, command⟩
      | .option name (some value) => do parseFrom (← o.give name value) rest
      | .option name none =>
          match rest with
          | value :: rest =>
              match Argument.ofText value with
              | .word value => do parseFrom (← o.give name value) rest
              | _ => none
          | [] => none
      | .jsonLogs =>
          if o.jsonLogs then none
          else parseFrom { o with jsonLogs := true } rest
      | .noMoreOptions => none
      | .unknown => none

def parse (arguments : List String) : Option Invocation :=
  parseFrom .none arguments

/-- The requester's roles: those of the options, or those of the
environment. -/
def requestingRoles (o : Options) (environment : Option String) : Roles :=
  .ofList (o.roles.getD ((environment.map splitRoles).getD []))

/-- The lines that a command prints about a catalog. -/
def print (c : Catalog) (ctx : Context) :
    Command → Except Guard.Fault (List String)
  | .model => .ok [(c.render ctx).1.writeIndented 0]
  | .report =>
      .ok [(Json.ofOption (c.lastReport.map fun r => .obj r.fields)).writeIndented
        0]
  | .compile path none => (c.select ctx path).1.map fun sql => [sql]
  | .compile path (some name) =>
      (c.column ctx path name).1.map fun (projection, predicate) =>
        ["projection: " ++ projection, "predicate:  " ++ predicate]

/-- The document in a settings file; a missing file stands for null. -/
def settingsDocument : Option String → Except Error Json
  | none => .ok .null
  | some text =>
      match Toml.ofText? text with
      | some j => .ok j
      | none => .error .malformedToml

/-- What an invocation prints, given the documents of the settings and of the
dump, of which the latter must exist. -/
def run (invocation : Invocation) (environment : Option String)
    (settings : Json) (dump? : Option String) : Except Guard.Fault String := do
  let settings ← (Settings.read settings).mapError Guard.Fault.failed
  let some dump := dump? | throw (.failed .unreadableDump)
  let dump ← (Dump.read dump).mapError Guard.Fault.failed
  let catalog ←
    (Catalog.ofReader settings dump.reader).mapError Guard.Fault.failed
  let ctx := Context.fresh (requestingRoles invocation.options environment)
  let lines ← print catalog ctx invocation.command
  return String.join (lines.map fun line => line ++ "\n")

end GovernedCatalog.CommandLine
