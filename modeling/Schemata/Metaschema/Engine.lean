import Schemata.Fault
import Schemata.Value.Basic

/-!
# `Schemata.Metaschema.Engine` — what loading asks of the language of schemas

Whether a mapping has the form of a schema is for an engine of its own to say, which knows the drafts of the
language and the one that a schema declares.

## Contents
- `Engine`.
-/

namespace Schemata.Metaschema

/-- An engine that examines schemas. -/
class Engine where
  /-- The place where a mapping departs from the form of schemas, if it does; what declares the draft may be such
  that there is no answer. -/
  departure? : Entries → Except Fault (Option (List String))

end Schemata.Metaschema
