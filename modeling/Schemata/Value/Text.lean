import Schemata.Fault
import Schemata.Text.Quoted
import Schemata.Value.Basic

/-!
# `Schemata.Value.Text` — how values are written in messages

## Contents
- `Value.quoted` writes a value so that its sort can be seen, with texts between quotes.
- `Value.plain` writes texts, dates and times as they are and other values as `quoted` does.
- `Value.quoted?` and `Value.plain?` refuse integers of more digits than are ever written.
-/

namespace Schemata.Value

-- the core powers, also beside the powers of other libraries
attribute [local instance (high)] instPowNat

/-- The number of digits from which an integer is no longer written or read in decimal notation. -/
def digitLimit : Nat := 4300

/-- Whether an integer has few enough digits to be written. -/
def isWritableInt (n : Int) : Bool := n.natAbs < 10 ^ digitLimit

mutual

/-- Whether all integers inside a value have few enough digits to be written. -/
def isWritable : Value → Bool
  | .int n => isWritableInt n
  | .list items => areWritable items
  | .tuple items => areWritable items
  | .set items => areWritable items
  | .dict entries => areWritableEntries entries
  | _ => true

/-- Whether all items can be written. -/
def areWritable : List Value → Bool
  | [] => true
  | v :: vs => v.isWritable && areWritable vs

/-- Whether all keys and values can be written. -/
def areWritableEntries : Entries → Bool
  | [] => true
  | (k, v) :: es => k.isWritable && v.isWritable && areWritableEntries es

end

/-- How a file is written. -/
def quotedFile : File → String
  | .bytes .fixed content => Text.quoteBytes content
  | .bytes .growable content => "bytearray(" ++ Text.quoteBytes content ++ ")"
  | .bytes .view _ => "<memory>"
  | .stream _ _ _ => "<stream>"
  | .upload _ _ _ => "<upload>"

mutual

/-- How a value is written where its sort is to be seen. -/
def quoted : Value → String
  | .absent => "MISSING"
  | .null => "None"
  | .bool b => if b then "True" else "False"
  | .int n => toString n
  | .float x => x.text
  | .string s => Text.quoteText s
  | .list items => "[" ++ ", ".intercalate (quotedItems items) ++ "]"
  | .tuple [item] => "(" ++ item.quoted ++ ",)"
  | .tuple items => "(" ++ ", ".intercalate (quotedItems items) ++ ")"
  | .set [] => "set()"
  | .set items => "\x7b" ++ ", ".intercalate (quotedItems items) ++ "\x7d"
  | .dict entries => "\x7b" ++ ", ".intercalate (quotedEntries entries) ++ "\x7d"
  | .file f => quotedFile f
  | .date d => d.quoted
  | .timestamp t => t.quoted

/-- The items of a value, each as it is written. -/
def quotedItems : List Value → List String
  | [] => []
  | v :: vs => v.quoted :: quotedItems vs

/-- The entries of a mapping, each as it is written. -/
def quotedEntries : Entries → List String
  | [] => []
  | (k, v) :: es => (k.quoted ++ ": " ++ v.quoted) :: quotedEntries es

end

/-- How a value is written in running text. -/
def plain : Value → String
  | .string s => s
  | .date d => d.text
  | .timestamp t => t.text
  | v => v.quoted

/-- The quoted form of a value that can be written. -/
def quoted? (v : Value) : Except Fault String :=
  if v.isWritable then .ok v.quoted else .error .noValue

/-- The plain form of a value that can be written. -/
def plain? (v : Value) : Except Fault String :=
  if v.isWritable then .ok v.plain else .error .noValue

end Schemata.Value
