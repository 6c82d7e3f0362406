import Schemata.Text.Quoted
import Schemata.Value.Basic

/-!
# `Schemata.Json.Writer` — writing JSON texts

Texts are written in ASCII: other characters by their codes, in pairs beyond the basic plane. With an
indentation, every item and member has a line of its own; without, there are no blanks but those behind
commas and colons.

## Contents
- `Json.quote`, `Json.write`.
-/

namespace Schemata.Json

/-- The code of a sixteen-bit unit. -/
def unit (n : Nat) : List Char := '\\' :: 'u' :: Text.hexPadded 4 n

/-- How a character is written between quotes. -/
def writeChar (c : Char) : List Char :=
  let n := c.toNat
  if c = '"' then ['\\', '"']
  else if c = '\\' then ['\\', '\\']
  else if c = '\n' then ['\\', 'n']
  else if c = '\r' then ['\\', 'r']
  else if c = '\t' then ['\\', 't']
  else if c = '\x08' then ['\\', 'b']
  else if c = '\x0c' then ['\\', 'f']
  else if 0x20 ≤ n ∧ n < 0x7f then [c]
  else if n < 0x10000 then unit n
  else unit (0xd800 + (n - 0x10000) / 0x400) ++ unit (0xdc00 + (n - 0x10000) % 0x400)

/-- A text between quotes. -/
def quote (s : String) : String := String.ofList ('"' :: s.toList.flatMap writeChar ++ ['"'])

/-- The line break in front of an item at a depth, if there is an indentation. -/
def lineStart (indent : Option Nat) (depth : Nat) : String :=
  match indent with
  | some width => "\n" ++ String.ofList (List.replicate (width * depth) ' ')
  | none => ""

/-- What stands between items. -/
def separator (indent : Option Nat) (depth : Nat) : String :=
  match indent with
  | some _ => "," ++ lineStart indent depth
  | none => ", "

mutual

/-- Writes a value at a depth. What is no JSON is written as null. -/
def writeAt (indent : Option Nat) (depth : Nat) : Value → String
  | .bool b => if b then "true" else "false"
  | .int n => toString n
  | .float .nan => "NaN"
  | .float (.infinity negative) => if negative then "-Infinity" else "Infinity"
  | .float x => x.text
  | .string s => quote s
  | .list [] => "[]"
  | .list (v :: vs) =>
    "[" ++ lineStart indent (depth + 1) ++
      (separator indent (depth + 1)).intercalate (writeItems indent (depth + 1) (v :: vs)) ++
      lineStart indent depth ++ "]"
  | .dict [] => "\x7b\x7d"
  | .dict (e :: es) =>
    "\x7b" ++ lineStart indent (depth + 1) ++
      (separator indent (depth + 1)).intercalate (writeMembers indent (depth + 1) (e :: es)) ++
      lineStart indent depth ++ "\x7d"
  | _ => "null"

/-- Writes items. -/
def writeItems (indent : Option Nat) (depth : Nat) : List Value → List String
  | [] => []
  | v :: vs => writeAt indent depth v :: writeItems indent depth vs

/-- Writes the members whose keys are texts. -/
def writeMembers (indent : Option Nat) (depth : Nat) : Entries → List String
  | [] => []
  | (.string key, v) :: es =>
    (quote key ++ ": " ++ writeAt indent depth v) :: writeMembers indent depth es
  | _ :: es => writeMembers indent depth es

end

/-- Writes a value. -/
def write (indent : Option Nat) (v : Value) : String := writeAt indent 0 v

end Schemata.Json
