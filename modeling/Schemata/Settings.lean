import Schemata.Log.Split
import Schemata.Text.Blank

/-!
# `Schemata.Settings` — settings of the program

## Contents
- `Settings`, `Settings.ofEnvironment`, and `Settings.split`, the channels for records that they ask for.
-/

namespace Schemata

/-- The settings of the program. -/
structure Settings where
  /-- The name of the level from which records are taken. -/
  logLevel : String := "INFO"
  /-- The name of the level from which records count as errors. -/
  printLevel : String := "WARNING"
  /-- Whether files that have been read are kept. -/
  cacheEnabled : Bool := true
  /-- Whether schemas are checked before they are compiled. -/
  checkSchema : Bool := false
deriving DecidableEq, Repr

namespace Settings

/-- Whether a text switches something on. -/
def isOn (text : String) : Bool :=
  ["1", "true", "yes", "on"].contains (Unicode.lower (Text.strip text))

/-- The settings of an environment of named texts. -/
def ofEnvironment (get? : String → Option String) : Settings where
  logLevel := (get? "SCHEMA_COMPILER_LOG_LEVEL").getD "INFO"
  printLevel := (get? "SCHEMA_COMPILER_PRINT_LEVEL").getD "WARNING"
  cacheEnabled := isOn ((get? "SCHEMA_COMPILER_CACHE_ENABLED").getD "true")
  checkSchema := isOn ((get? "SCHEMA_COMPILER_CHECK_SCHEMA").getD "false")

/-- The root of the names of all sources of records. -/
def logRoot : String := "schema_compiler"

/-- The channels for records. Levels without a name are those of information and of warnings. -/
def split (settings : Settings) : Log.Split :=
  .make (Log.levelNamed settings.logLevel 20) (Log.levelNamed settings.printLevel 30) .usual

end Settings

end Schemata
