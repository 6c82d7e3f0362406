import Schemata.Pattern.CharSet
import Schemata.Report.Form

/-!
# `Schemata.CommandLine.Arguments` — reading the command line

The command line names a schema and at least one document. Options may stand anywhere and may be shortened as
long as they stay distinct; behind two dashes nothing is an option. Documents stand together: those behind an
option that itself follows documents belong to nothing.

## Contents
- **Words.** `Word`, what each argument is taken for, and `Word.ofArguments?`.
- **Requests.** `Request`, what the command line asks for, and `Request.read`.
-/

namespace Schemata.CommandLine

/-! ## Words -/

/-- The options. -/
inductive Flag
  | help
  | form
  | checkSchema
deriving DecidableEq, Repr

/-- The options in full. -/
def flags : List (String × Flag) := [("-h", .help), ("--help", .help), ("--format", .form),
  ("--check-schema", .checkSchema)]

/-- What an argument is taken for. -/
inductive Word
  | plain (text : String)
  /-- Two dashes, behind which nothing is an option. -/
  | dashes
  /-- An option with the value that is written behind it with an equals sign. -/
  | option (flag : Flag) (value : Option String)
  /-- The short option with further letters behind it. -/
  | letters (rest : List Char)
  /-- An option that is not known. -/
  | unknown
deriving DecidableEq, Repr

/-- Splits an argument at its first equals sign. -/
def splitValue (argument : String) : String × Option String :=
  let cs := argument.toList
  match cs.dropWhile (· != '=') with
  | _ :: value => (String.ofList (cs.takeWhile (· != '=')), some (String.ofList value))
  | [] => (argument, none)

/-- Whether a text is a negative number, with digits of any script. -/
def isNegativeNumber : List Char → Bool
  | '-' :: cs =>
    match cs.dropWhile CharSet.digit.contains with
    | [] => !cs.isEmpty
    | '.' :: fraction => !fraction.isEmpty && fraction.all CharSet.digit.contains
    | _ => false
  | _ => false

/-- The options that start with a text. -/
def shortened (start : String) : List Flag :=
  (flags.filter fun entry => entry.1.startsWith start).map Prod.snd

/-- What an argument that starts with a dash is taken for. A shortened option that stands for several is
none. -/
def Word.ofDashed? (argument : String) : Option Word :=
  let (name, value) := splitValue argument
  if let some flag := flags.lookup argument then some (.option flag none)
  else if argument.length = 1 then some (.plain argument)
  else if value.isSome && (flags.lookup name).isSome && name.startsWith "--" then
    (flags.lookup name).map fun flag => .option flag value
  else
    let isLong := argument.startsWith "--"
    match isLong, argument.toList with
    | false, '-' :: 'h' :: rest => some (.letters rest)
    | _, cs =>
      match shortened (if isLong then name else argument) with
      | [flag] => some (.option flag (if isLong then value else none))
      | [] => some (if isNegativeNumber cs || cs.contains ' ' then .plain argument else .unknown)
      | _ => none

/-- What an argument is taken for. -/
def Word.of? (argument : String) : Option Word :=
  if argument.startsWith "-" then Word.ofDashed? argument else some (.plain argument)

/-- What the arguments are taken for. -/
def Word.ofArguments? : List String → Option (List Word)
  | [] => some []
  | "--" :: rest => some (.dashes :: rest.map .plain)
  | argument :: rest => do return (← Word.of? argument) :: (← Word.ofArguments? rest)

/-! ## Requests -/

/-- What is asked for. -/
structure Request where
  schema : String
  documents : List String
  form : Form
  checkSchema : Option Bool
deriving DecidableEq, Repr

/-- What the command line amounts to. -/
inductive Reading
  | request (r : Request)
  | help
  | misuse
deriving DecidableEq, Repr

/-- The parts of a request that have been read. -/
structure Pending where
  schema : Option String := none
  documents : Option (List String) := none
  form : Form := .human
  checkSchema : Option Bool := none
  /-- Whether an argument belongs to nothing. -/
  surplus : Bool := false

namespace Pending

/-- The text of a word; two dashes are written as such. -/
def operandText : Word → String
  | .plain text => text
  | _ => "--"

/-- Takes the first two dashes away from what belongs together. -/
def withoutDashes (words : List Word) : List String := (words.map operandText).erase "--"

/-- The words that name the schema: the first text, with two dashes around it. -/
def schemaWords (words : List Word) : List Word × List Word :=
  let isDashes (w : Word) : Bool := w == .dashes
  let before := words.takeWhile isDashes
  match words.dropWhile isDashes with
  | [] => ([], words)
  | w :: rest => (before ++ w :: rest.takeWhile isDashes, rest.dropWhile isDashes)

/-- Takes a run of words that are no options: the schema first, then the documents, once each. -/
def takeRun (pending : Pending) (words : List Word) : Pending :=
  if words.isEmpty then pending
  else
    let (front, rest) := if pending.schema.isNone then schemaWords words else ([], words)
    let pending :=
      if front.isEmpty then pending else { pending with schema := (withoutDashes front).head? }
    if rest.isEmpty then pending
    else if pending.schema.isSome && pending.documents.isNone && rest.any (· != .dashes) then
      { pending with documents := some (withoutDashes rest) }
    else { pending with surplus := true }

/-- The request, if it is complete. -/
def finish (pending : Pending) : Reading :=
  match pending.schema, pending.documents, pending.surplus with
  | some schema, some documents, false => .request ⟨schema, documents, pending.form, pending.checkSchema⟩
  | _, _, _ => .misuse

end Pending

/-- Whether letters behind the short option, and those of its repetitions, are a value, which it does not
take. Other letters do not matter, since the option ends the reading. -/
def isValued (letters : List Char) : Bool :=
  match letters.dropWhile (· == 'h') with
  | c :: _ => c == '=' || c == '-'
  | [] => false

/-- Reads words, collecting those that are no options until the next option. -/
def readWords : List Word → List Word → Pending → Reading
  | [], run, pending => (pending.takeRun run.reverse).finish
  | .plain text :: rest, run, pending => readWords rest (.plain text :: run) pending
  | .dashes :: rest, run, pending => readWords rest (.dashes :: run) pending
  | .unknown :: rest, run, pending => readWords rest [] { pending.takeRun run.reverse with surplus := true }
  | .letters letters :: _, _, _ => if isValued letters then .misuse else .help
  | .option .help value :: _, _, _ => if value.isSome then .misuse else .help
  | .option .checkSchema value :: rest, run, pending =>
    if value.isSome then .misuse
    else readWords rest [] { pending.takeRun run.reverse with checkSchema := some true }
  | .option .form (some value) :: rest, run, pending =>
    match Form.ofName? value with
    | some form => readWords rest [] { pending.takeRun run.reverse with form := form }
    | none => .misuse
  | .option .form none :: .plain value :: rest, run, pending =>
    match Form.ofName? value with
    | some form => readWords rest [] { pending.takeRun run.reverse with form := form }
    | none => .misuse
  | .option .form none :: _, _, _ => .misuse

/-- Reads the command line. -/
def Reading.ofArguments (arguments : List String) : Reading :=
  match Word.ofArguments? arguments with
  | some words => readWords words [] {}
  | none => .misuse

end Schemata.CommandLine
