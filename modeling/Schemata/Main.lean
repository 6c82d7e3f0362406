import Schemata.CommandLine.Run
import Schemata.Metaschema.Check
import Schemata.Pattern.Reader
import Schemata.Yaml.Value

/-!
# `Schemata.Main` — the program

Reads the files that the command line names, runs with the engines of this library, and writes what comes out.
-/

namespace Schemata

/-- The entry of a path on which the system refuses something: it is out of reach if it cannot be resolved. -/
def refusedEntry (path : String) (code : UInt32) (details : String) : IO FileEntry := do
  try
    let _ ← IO.FS.realPath path
    return .unreadable s!"[Errno {code}] {details}: {Text.quoteText path}"
  catch _ => return .unreachable

/-- What stands under a path on disk. -/
def readEntry (path : String) : IO (Option FileEntry) := do
  try
    return some (.file (← IO.FS.readBinFile path).toList)
  catch
    | .noFileOrDirectory _ _ _ => return none
    -- a part of the path in front of the last one is no directory
    | .inappropriateType _ 20 _ => return none
    | .inappropriateType _ _ _ => return some .directory
    | .permissionDenied _ code details => refusedEntry path code details
    | .hardwareFault code details => refusedEntry path code details
    | .resourceExhausted _ code details => refusedEntry path code details
    | _ => return some .unreachable

/-- The files that a command line names. -/
def readFiles (arguments : List String) : IO Files := do
  match CommandLine.Reading.ofArguments arguments with
  | .request request =>
    let paths := (request.schema :: request.documents).map Path.resolve
    let found ← paths.eraseDups.mapM fun path => do return (path, ← readEntry path)
    return found.filterMap fun (path, entry) => entry.map fun entry => (path, entry)
  | _ => return []

/-- The settings of the environment. -/
def readSettings : IO Settings := do
  let names := ["SCHEMA_COMPILER_LOG_LEVEL", "SCHEMA_COMPILER_PRINT_LEVEL", "SCHEMA_COMPILER_CACHE_ENABLED",
    "SCHEMA_COMPILER_CHECK_SCHEMA"]
  let found ← names.mapM fun name => do return (name, ← IO.getEnv name)
  return Settings.ofEnvironment fun name => (found.lookup name).join

end Schemata

open Schemata in
attribute [local instance] Pattern.engine Yaml.engine Metaschema.engine in
def main (arguments : List String) : IO UInt32 := do
  let result := CommandLine.run arguments (← readFiles arguments) (← readSettings)
  (← IO.getStdout).putStr result.out
  (← IO.getStderr).putStr result.err
  match result.ending with
  | .code n => return n.toUInt32
  | .unforeseen _ =>
    (← IO.getStderr).putStrLn "Error: the schema or a document cannot be used"
    return 1
