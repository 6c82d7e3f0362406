import Schemata.Number.Quantity
import Schemata.Value.File
import Schemata.Value.Moment

/-!
# `Schemata.Value.Basic` — the values that are checked

Values are those of JSON, with integers and binary floating point numbers apart, together with what may
turn up beside them: mappings with keys of other kinds, tuples, sets, dates, binary contents, and the
absent value.

## Contents
- **Values.** `Value`, its size measure `Value.depth`.
- **Kinds.** `Kind`, `Value.kind`, `Value.typeName`, `Value.truthy`.
- **Mappings.** Looking up and inserting entries by text.
-/

namespace Schemata

/-! ## Values -/

/-- A value to be checked, or part of a schema. -/
inductive Value
  | absent
  | null
  | bool (b : Bool)
  | int (n : Int)
  | float (x : Double)
  | string (s : String)
  | list (items : List Value)
  | dict (entries : List (Value × Value))
  | tuple (items : List Value)
  | set (items : List Value)
  | file (f : File)
  | date (d : Date)
  | timestamp (t : Timestamp)
deriving Inhabited

/-- The entries of a mapping, in order. -/
abbrev Entries := List (Value × Value)

namespace Value

mutual

/-- How deep a value is nested; scalars have depth zero. -/
def depth : Value → Nat
  | .list items => depthItems items + 1
  | .tuple items => depthItems items + 1
  | .set items => depthItems items + 1
  | .dict entries => depthEntries entries + 1
  | _ => 0

/-- The greatest depth among items. -/
def depthItems : List Value → Nat
  | [] => 0
  | v :: vs => max v.depth (depthItems vs)

/-- The greatest depth among keys and values. -/
def depthEntries : Entries → Nat
  | [] => 0
  | (k, v) :: es => max (max k.depth v.depth) (depthEntries es)

end

end Value

/-! ## Kinds -/

/-- The kinds of values that a schema tells apart. Tuples are lists with positions of their own, and
only validators have that kind. -/
inductive Kind
  | string
  | number
  | boolean
  | null
  | array
  | tuple
  | object
  | file
deriving DecidableEq, Repr

namespace Kind

/-- Every kind, in the order in which validators are assembled. -/
def all : List Kind := [.string, .number, .boolean, .null, .array, .tuple, .object, .file]

/-- The name of a kind. -/
def name : Kind → String
  | .string => "string"
  | .number => "number"
  | .boolean => "boolean"
  | .null => "null"
  | .array => "array"
  | .tuple => "tuple"
  | .object => "object"
  | .file => "file"

/-- The kind with a name. -/
def ofName? (name : String) : Option Kind := all.find? fun kind => kind.name == name

theorem mem_all (kind : Kind) : kind ∈ all := by cases kind <;> decide

end Kind

namespace Value

/-- The kind of a value, if it has one. Truth values are no numbers. -/
def kind : Value → Option Kind
  | .null => some .null
  | .bool _ => some .boolean
  | .int _ => some .number
  | .float _ => some .number
  | .string _ => some .string
  | .list _ => some .array
  | .dict _ => some .object
  | .file f => if f.isFile then some .file else none
  | _ => none

/-- The kind of a value that stands in a schema as a literal; binary contents have none there. -/
def literalKind (v : Value) : Option Kind :=
  match v.kind with
  | some .file => none
  | kind => kind

/-- The name of the type of a value. -/
def typeName : Value → String
  | .absent => "_Missing"
  | .null => "NoneType"
  | .bool _ => "bool"
  | .int _ => "int"
  | .float _ => "float"
  | .string _ => "str"
  | .list _ => "list"
  | .dict _ => "dict"
  | .tuple _ => "tuple"
  | .set _ => "set"
  | .file (.bytes .fixed _) => "bytes"
  | .file (.bytes .growable _) => "bytearray"
  | .file (.bytes .view _) => "memoryview"
  | .file (.stream _ _ _) => "BytesIO"
  | .file (.upload _ _ _) => "Upload"
  | .date _ => "date"
  | .timestamp _ => "datetime"

/-- The name under which a value's sort is reported: its kind, else its type. -/
def sortName (v : Value) : String :=
  match v.kind with
  | some kind => kind.name
  | none => v.typeName

/-- Whether a value counts as true in a condition. -/
def truthy : Value → Bool
  | .absent => false
  | .null => false
  | .bool b => b
  | .int n => n != 0
  | .float x => !x.isZero
  | .string s => !s.isEmpty
  | .list items => !items.isEmpty
  | .dict entries => !entries.isEmpty
  | .tuple items => !items.isEmpty
  | .set items => !items.isEmpty
  | .file (.bytes _ content) => !content.isEmpty
  | _ => true

/-- The quantity of a number; truth values count as one and zero. -/
def quantity? : Value → Option Quantity
  | .bool b => some (.ofInt (if b then 1 else 0))
  | .int n => some (.ofInt n)
  | .float x => some (.ofDouble x)
  | _ => none

/-- Whether a value is the given text. -/
def isText (s : String) : Value → Bool
  | .string t => t == s
  | _ => false

/-- The text of a value that is one. -/
def text? : Value → Option String
  | .string s => some s
  | _ => none

/-- The items of a value that is a list. -/
def items? : Value → Option (List Value)
  | .list items => some items
  | _ => none

/-- The entries of a value that is a mapping. -/
def entries? : Value → Option Entries
  | .dict entries => some entries
  | _ => none

/-- Number of elements of a value that has elements. -/
def length? : Value → Option Nat
  | .string s => some s.length
  | .list items => some items.length
  | .dict entries => some entries.length
  | .tuple items => some items.length
  | .set items => some items.length
  | .file (.bytes _ content) => some content.length
  | _ => none

end Value

/-! ## Mappings -/

namespace Entries

/-- The value under a text key. -/
def get? (entries : Entries) (key : String) : Option Value :=
  (entries.find? fun e => e.1.isText key).map Prod.snd

/-- Whether a text key is present. -/
def has (entries : Entries) (key : String) : Bool := (Entries.get? entries key).isSome

/-- Whether one of some text keys is present. -/
def hasAny (entries : Entries) (keys : List String) : Bool := keys.any (Entries.has entries)

end Entries

end Schemata
