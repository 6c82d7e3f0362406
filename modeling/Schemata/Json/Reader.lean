import Schemata.Text.Blank
import Schemata.Unicode.Runs
import Schemata.Value.Equality
import Schemata.Value.Text

/-!
# `Schemata.Json.Reader` — reading JSON texts

Besides the standard the reader takes the words for infinities and for no number. A key that is repeated in an
object keeps its first place and its last value. Integers stay exact; numbers with a point or an exponent
are rounded to the nearest double. Escapes by code may spell half of a pair that the other half does not
follow: what they stand for is no text, so there is no value for a text with such an escape.

## Contents
- **Errors.** `JsonFault`, an `JsonError` with its line.
- **Scalars.** Texts with their escapes, numbers and words.
- **Values.** `Json.value`, `Json.items`, `Json.members`, bounded by the length of the text.
- `Json.read`, for a whole text.
-/

namespace Schemata

/-! ## Errors -/

/-- What is wrong with a JSON text. -/
inductive JsonFault
  | expectedValue
  | expectedName
  | expectedColon
  | expectedComma
  | unterminated
  | badEscape
  | badCode
  | control
  | extraData
  | byteOrderMark
deriving DecidableEq, Repr

/-- Why a JSON text has no value: a fault on a line, a number of too many digits, or an escape for what is no
character. -/
inductive JsonError
  | syntaxFault (fault : JsonFault) (line : Nat)
  | numberTooLong
  | notUnicode
deriving DecidableEq, Repr

/-- The message of a fault. -/
def JsonFault.message : JsonFault → String
  | .expectedValue => "Expecting value"
  | .expectedName => "Expecting property name enclosed in double quotes"
  | .expectedColon => "Expecting ':' delimiter"
  | .expectedComma => "Expecting ',' delimiter"
  | .unterminated => "Unterminated string starting at"
  | .badEscape => "Invalid \\escape"
  | .badCode => "Invalid \\uXXXX escape"
  | .control => "Invalid control character at"
  | .extraData => "Extra data"
  | .byteOrderMark => "Unexpected UTF-8 BOM (decode using utf-8-sig)"

namespace Json

/-- The rest of a text and the line on which it begins, counted from one. -/
structure Cursor where
  rest : List Char
  line : Nat
deriving DecidableEq, Repr

/-- The error of a fault at a place. -/
def fail {α : Type} (fault : JsonFault) (c : Cursor) : Except JsonError α :=
  .error (.syntaxFault fault c.line)

/-- Skips blanks and line breaks. -/
def skipBlanks : List Char → Nat → Cursor
  | '\n' :: cs, line => skipBlanks cs (line + 1)
  | ' ' :: cs, line => skipBlanks cs line
  | '\t' :: cs, line => skipBlanks cs line
  | '\r' :: cs, line => skipBlanks cs line
  | cs, line => ⟨cs, line⟩

/-- The place behind blanks and line breaks. -/
def Cursor.skip (c : Cursor) : Cursor := skipBlanks c.rest c.line

/-! ## Scalars -/

/-- The character of an escape by a letter. -/
def escaped? : Char → Option Char
  | '"' => some '"'
  | '\\' => some '\\'
  | '/' => some '/'
  | 'b' => some '\x08'
  | 'f' => some '\x0c'
  | 'n' => some '\n'
  | 'r' => some '\r'
  | 't' => some '\t'
  | _ => none

/-- Whether a character is a hexadecimal digit. -/
def isHex (c : Char) : Bool := c.isDigit || ('a' ≤ c && c ≤ 'f') || ('A' ≤ c && c ≤ 'F')

/-- The code of four hexadecimal digits that begin a text and do not end it. -/
def code? (cs : List Char) : Option Nat :=
  let digits := cs.take 4
  if digits.length = 4 ∧ digits.all isHex ∧ cs.length > 4 then some (Unicode.hexValue digits) else none

/-- Whether a code is the first half of a pair. -/
def isHighHalf (n : Nat) : Bool := 0xd800 ≤ n && n < 0xdc00

/-- Whether a code is the second half of a pair. -/
def isLowHalf (n : Nat) : Bool := 0xdc00 ≤ n && n < 0xe000

/-- Reads an escape by code, behind its letter: the code and how many characters it takes. -/
def escapedCode? (cs : List Char) : Option (Nat × Nat) :=
  match code? cs with
  | none => none
  | some high =>
    match cs.drop 4 with
    | '\\' :: 'u' :: more =>
      if isHighHalf high ∧ more.length > 4 then
        match code? more with
        | none => none
        | some low =>
          if isLowHalf low then some (0x10000 + (high - 0xd800) * 0x400 + (low - 0xdc00), 10)
          else some (high, 4)
      else some (high, 4)
    | _ => some (high, 4)

/-- Reads the characters of a text up to its closing quote. -/
def textBody : Nat → List Char → Nat → List Char → Except JsonError (String × Cursor)
  | 0, _, line, _ => fail .unterminated ⟨[], line⟩
  | _ + 1, [], line, _ => fail .unterminated ⟨[], line⟩
  | fuel + 1, c :: cs, line, taken =>
    if c = '"' then .ok (String.ofList taken.reverse, ⟨cs, line⟩)
    else if c = '\\' then
      match cs with
      | [] => fail .unterminated ⟨cs, line⟩
      | 'u' :: more =>
        match escapedCode? more with
        | some (code, n) => textBody fuel (more.drop n) line (Char.ofNat code :: taken)
        | none => fail .badCode ⟨cs, line⟩
      | d :: more =>
        match escaped? d with
        | some e => textBody fuel more line (e :: taken)
        | none => fail .badEscape ⟨cs, line⟩
    else if c.toNat < 0x20 then fail .control ⟨cs, line⟩
    else textBody fuel cs line (c :: taken)

/-- Reads a text behind its opening quote. -/
def text (c : Cursor) : Except JsonError (String × Cursor) :=
  textBody (c.rest.length + 1) c.rest c.line []

/-- Splits the fraction off that follows the whole part of a number. -/
def fractionPart (cs : List Char) : List Char × List Char :=
  match cs with
  | '.' :: more =>
    let (digits, rest) := Decimal.takeDigits more
    if digits.isEmpty then ([], cs) else ('.' :: digits, rest)
  | _ => ([], cs)

/-- Splits the exponent off that follows the digits of a number. -/
def exponentPart (cs : List Char) : List Char × List Char :=
  match cs with
  | c :: more =>
    if c = 'e' ∨ c = 'E' then
      let sign := match more with
        | '+' :: _ => ['+']
        | '-' :: _ => ['-']
        | _ => []
      let (digits, rest) := Decimal.takeDigits (more.drop sign.length)
      if digits.isEmpty then ([], cs) else (c :: sign ++ digits, rest)
    else ([], cs)
  | [] => ([], cs)

/-- Splits the whole part of a number off: a lone zero, or digits that begin with another one. -/
def wholePart (cs : List Char) : List Char × List Char :=
  match cs with
  | '0' :: more => (['0'], more)
  | _ => Decimal.takeDigits cs

/-- Reads a number. -/
def number (c : Cursor) : Except JsonError (Value × Cursor) :=
  let (sign, cs) := match c.rest with
    | '-' :: more => (['-'], more)
    | cs => ([], cs)
  let (whole, cs) := wholePart cs
  if whole.isEmpty then fail .expectedValue c
  else
    let (fraction, cs) := fractionPart cs
    let (exponent, cs) := exponentPart cs
    let after : Cursor := ⟨cs, c.line⟩
    if fraction.isEmpty ∧ exponent.isEmpty then
      if whole.length > Value.digitLimit then .error .numberTooLong
      else
        let n : Int := digitsValue 0 whole
        .ok (.int (if sign.isEmpty then n else -n), after)
    else
      match Decimal.read? (sign ++ whole ++ fraction ++ exponent) with
      | some d => .ok (.float (.ofDecimal d), after)
      | none => fail .expectedValue c

/-- The words that stand for values. -/
def words : List (String × Value) := [
  ("null", .null), ("true", .bool true), ("false", .bool false), ("NaN", .float .nan),
  ("Infinity", .float (.infinity false)), ("-Infinity", .float (.infinity true))]

/-- Reads a word or a number. -/
def scalar (c : Cursor) : Except JsonError (Value × Cursor) :=
  match words.find? fun word => word.1.toList.isPrefixOf c.rest with
  | some (word, value) => .ok (value, ⟨c.rest.drop word.length, c.line⟩)
  | none => number c

/-! ## Values -/

mutual

/-- Reads a value. -/
def value : Nat → Cursor → Except JsonError (Value × Cursor)
  | 0, c => fail .expectedValue c
  | fuel + 1, c =>
    match c.rest with
    | '"' :: cs => do
      let (s, after) ← text ⟨cs, c.line⟩
      return (.string s, after)
    | '{' :: cs =>
      let inside := Cursor.skip ⟨cs, c.line⟩
      match inside.rest with
      | '}' :: rest => .ok (.dict [], ⟨rest, inside.line⟩)
      | _ => do
        let (entries, after) ← members fuel inside []
        return (.dict entries, after)
    | '[' :: cs =>
      let inside := Cursor.skip ⟨cs, c.line⟩
      match inside.rest with
      | ']' :: rest => .ok (.list [], ⟨rest, inside.line⟩)
      | _ => do
        let (items, after) ← items fuel inside []
        return (.list items, after)
    | _ => scalar c

/-- Reads the items of an array up to its closing bracket. -/
def items : Nat → Cursor → List Value → Except JsonError (List Value × Cursor)
  | 0, c, _ => fail .expectedValue c
  | fuel + 1, c, taken => do
    let (v, after) ← value fuel c
    let after := after.skip
    match after.rest with
    | ']' :: rest => return ((v :: taken).reverse, ⟨rest, after.line⟩)
    | ',' :: rest => items fuel (Cursor.skip ⟨rest, after.line⟩) (v :: taken)
    | _ => fail .expectedComma after

/-- Reads the members of an object up to its closing brace. -/
def members : Nat → Cursor → Entries → Except JsonError (Entries × Cursor)
  | 0, c, _ => fail .expectedName c
  | fuel + 1, c, taken =>
    match c.rest with
    | '"' :: cs => do
      let (key, after) ← text ⟨cs, c.line⟩
      let after := after.skip
      match after.rest with
      | ':' :: rest =>
        let (v, after) ← value fuel (Cursor.skip ⟨rest, after.line⟩)
        let after := after.skip
        let entries := Entries.insert taken (.string key) v
        match after.rest with
        | '}' :: rest => return (entries, ⟨rest, after.line⟩)
        | ',' :: rest => members fuel (Cursor.skip ⟨rest, after.line⟩) entries
        | _ => fail .expectedComma after
      | _ => fail .expectedColon after
    | _ => fail .expectedName c

end

/-- Whether half of a pair is spelt alone somewhere in a text that breaks no rule. -/
def spellsHalf : Nat → List Char → Bool
  | 0, _ => false
  | _, [] => false
  | fuel + 1, '\\' :: 'u' :: cs =>
    match escapedCode? cs with
    | some (code, n) => isHighHalf code || isLowHalf code || spellsHalf fuel (cs.drop n)
    | none => spellsHalf fuel cs
  | fuel + 1, '\\' :: _ :: cs => spellsHalf fuel cs
  | fuel + 1, _ :: cs => spellsHalf fuel cs

/-- Reads a whole text. -/
def read (source : String) : Except JsonError Value := do
  let chars := source.toList
  if chars.head? = some '\ufeff' then fail .byteOrderMark ⟨chars, 1⟩
  else
    let (v, after) ← value (chars.length + 2) (skipBlanks chars 1)
    let after := after.skip
    if !after.rest.isEmpty then fail .extraData after
    else if spellsHalf chars.length chars then throw .notUnicode
    else return v

end Json

end Schemata
