import Casework.Command.Program
import Std.Time.DateTime.Timestamp

/-!
# The command line

The program on a disk, with the clock and the environment of the process. Everything that is decided
is decided elsewhere.
-/

open Casework

namespace Casework.Host

/-- The disk, where relative paths begin in the working folder. -/
def fileSystem : FileSystem IO where
  kind? path := do
    match ← ((← IO.currentDir) / path).metadata.toBaseIO with
    | .ok about => return some (if about.type == .dir then .folder else .file)
    | .error _ => return none
  names? path := do
    match ← ((← IO.currentDir) / path).readDir.toBaseIO with
    | .ok entries => return some (entries.toList.map (·.fileName))
    | .error _ => return none
  text? path := do
    match ← (IO.FS.readFile ((← IO.currentDir) / path)).toBaseIO with
    | .ok text => return some text
    | .error _ => return none

/-- The working folder and the folders around it. -/
def folders : IO (List String) := do
  let parts := (← IO.currentDir).toString.splitOn "/"
  return (List.range parts.length).map fun n =>
    "/".intercalate (parts.take (parts.length - n)) ++ "/"

/-- What the environment says of variables that the program or the file can ask for. -/
def environment (text : String) : IO EnvFile.Lookup := do
  let words := (String.map (fun c => if EnvFile.isNameChar c then c else ' ') text).splitOn " "
  let asked := "CARGO_MANIFEST_DIR" :: Arguments.settingOptions.map (Arguments.variableOf ·.name)
  let values ← (asked ++ words.filter (!·.isEmpty)).filterMapM fun name => do
    return (← IO.getEnv name).map (name, ·)
  return (values.lookup ·)

/-- All random bits of an id but the last 62, which count on from a random number. -/
def ids : IO (Nat → Id) := do
  let random := (← IO.getRandomBytes 16).toList.foldl (fun n b => n * 256 + b.toNat) 0
  let high := random / twoTo 80 * twoTo 80 + 4 * twoTo 76 +
    random / twoTo 64 % twoTo 12 * twoTo 64 + twoTo 63
  return fun n => ⟨high + (random + n) % twoTo 62⟩

def world : IO (World Unit) := do
  let now ← Std.Time.Timestamp.now
  let start := now.toNanosecondsSinceUnixEpoch.toInt
  return ⟨.empty, fun n => ⟨start + n⟩, 0, ← ids, 0, none, ()⟩

end Casework.Host

def main (arguments : List String) : IO UInt32 := do
  let text := (← Program.variablesText? Host.fileSystem (← Host.folders)).getD ""
  let environment := EnvFile.extend (← Host.environment text) text
  let answer ← Program.answer Host.fileSystem environment arguments (← Host.world)
  (← IO.getStdout).putStr answer.output
  (← IO.getStderr).putStr answer.errors
  return answer.code.toUInt32
