import Casework.Command.EnvFile
import Casework.Command.Execute

/-!
# The program

What the program answers to its arguments, given its environment and a file system. Variables of the
environment may stand in a file in the working folder, or in one of the folders around it.
-/

namespace Casework

structure ProgramAnswer where
  code : Nat
  output : String
  errors : String
deriving DecidableEq, Repr

namespace Program

variable {m : Type → Type} [Monad m]

/-- The text of the first file of variables in one of the folders. -/
def variablesText? (fs : FileSystem m) : List String → m (Option String)
  | [] => return none
  | folder :: folders => do
    let path := FilePath.join folder ".env"
    if (← fs.kind? path) = some .file then fs.text? path else variablesText? fs folders

/-- A folder that has a catalog in it, among those from the path on upwards. -/
def catalogAround? (fs : FileSystem m) : Nat → String → m (Option String)
  | 0, _ => return none
  | left + 1, path => do
    let folder := FilePath.join path "config"
    if (← fs.kind? (FilePath.join folder "templates")).isSome then return some folder
    else match FilePath.parent? path with
      | some around => catalogAround? fs left around
      | none => return none

/-- The folder of the catalog if none is given. -/
def catalogFolder (fs : FileSystem m) (environment : EnvFile.Lookup) : m String := do
  if (← fs.kind? "config/templates").isSome then return "config"
  else match environment "CARGO_MANIFEST_DIR" with
    | some path => return (← catalogAround? fs 5 path).getD "config"
    | none => return "config"

/-- What is left to say where the arguments name no command. -/
def stopped : Stop → ProgramAnswer
  | .misuse => ⟨2, "", "error: these arguments make no command\n"⟩
  | .help => ⟨0, Command.line ("Commands: " ++
      ", ".intercalate (Arguments.forms.map (·.name))), ""⟩
  | .version => ⟨0, "caseflow 0.1.0\n", ""⟩

def finished (r : CommandResult) : ProgramAnswer :=
  match r.error with
  | none => ⟨0, r.output, ""⟩
  | some e => ⟨1, r.output, "error: " ++ e.message ++ "\n"⟩

def answer (fs : FileSystem m) (environment : EnvFile.Lookup) (arguments : List String)
    (w : World Unit) : m ProgramAnswer := do
  match Arguments.parse environment arguments with
  | .error s => return stopped s
  | .ok (settings, command) =>
    let folder ← match settings.configFolder with
      | some folder => pure folder
      | none => catalogFolder fs environment
    let loaded ← (CatalogDirectory.load fs folder).run
    return finished (command.onCatalog folder loaded settings.maxVisits w)

end Program

end Casework
