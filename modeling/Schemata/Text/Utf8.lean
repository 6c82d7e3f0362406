import Schemata.Text.Quoted

/-!
# `Schemata.Text.Utf8` — characters from bytes

## Contents
- `Utf8Error`, why bytes are no text, with `Utf8Error.message`.
- `Utf8.decode`.
- `unifyLines` turns every kind of line end into a line feed.
-/

namespace Schemata.Text

/-- What is wrong with a sequence of bytes. -/
inductive Utf8Fault
  | badStart
  | badContinuation
  | cutOff
deriving DecidableEq, Repr

/-- Why bytes are no text: where the bad sequence begins, its bytes, and what is wrong with them. -/
structure Utf8Error where
  position : Nat
  bytes : List UInt8
  fault : Utf8Fault
deriving DecidableEq, Repr

/-- The wording of a fault. -/
def Utf8Fault.message : Utf8Fault → String
  | .badStart => "invalid start byte"
  | .badContinuation => "invalid continuation byte"
  | .cutOff => "unexpected end of data"

/-- The message of an error; a single byte is named, of several only the positions. -/
def Utf8Error.message (e : Utf8Error) : String :=
  let place :=
    match e.bytes with
    | [b] => s!"byte 0x{String.ofList (hexPadded 2 b.toNat)} in position {e.position}"
    | bytes => s!"bytes in position {e.position}-{e.position + bytes.length - 1}"
  s!"'utf-8' codec can't decode {place}: {e.fault.message}"

namespace Utf8

/-- Whether a byte continues a character. -/
def isContinuation (b : UInt8) : Bool := 0x80 ≤ b && b < 0xc0

/-- The number of bytes that follow the first byte of a character, with the bits that it holds. -/
def lead? (b : UInt8) : Option (Nat × Nat) :=
  let n := b.toNat
  if n < 0x80 then some (0, n)
  else if n < 0xc2 then none
  else if n < 0xe0 then some (1, n - 0xc0)
  else if n < 0xf0 then some (2, n - 0xe0)
  else if n < 0xf5 then some (3, n - 0xf0)
  else none

/-- Whether a byte may follow the first byte of a character: forms that are longer than needed, halves of
pairs and codes beyond the last character are excluded. -/
def isSecond (first second : UInt8) : Bool :=
  isContinuation second &&
    !((first == 0xe0 && second < 0xa0) || (first == 0xed && second ≥ 0xa0) ||
      (first == 0xf0 && second < 0x90) || (first == 0xf4 && second ≥ 0x90))

/-- A character, or what is wrong with the bytes that have been looked at. -/
inductive Step
  | char (c : Char) (rest : List UInt8)
  | bad (bytes : List UInt8) (fault : Utf8Fault)

/-- Reads the bytes that continue a character. -/
def continued (first : UInt8) : Nat → Nat → List UInt8 → List UInt8 → Step
  | 0, code, _, rest => .char (Char.ofNat code) rest
  | _ + 1, _, seen, [] => .bad seen .cutOff
  | missing + 1, code, seen, b :: rest =>
    let fits := if seen.length = 1 then isSecond first b else isContinuation b
    if fits then continued first missing (code * 64 + (b.toNat - 0x80)) (seen ++ [b]) rest
    else .bad seen .badContinuation

/-- Reads one character. -/
def step (first : UInt8) (rest : List UInt8) : Step :=
  match lead? first with
  | some (missing, bits) => continued first missing bits [first] rest
  | none => .bad [first] .badStart

/-- Reads characters from a position on. -/
def decodeFrom : Nat → Nat → List UInt8 → List Char → Except Utf8Error (List Char)
  | _, _, [], text => .ok text.reverse
  | 0, _, _ :: _, text => .ok text.reverse
  | fuel + 1, position, b :: bs, text =>
    match step b bs with
    | .char c rest => decodeFrom fuel (position + (bs.length + 1 - rest.length)) rest (c :: text)
    | .bad bytes fault => .error ⟨position, bytes, fault⟩

/-- The text of a sequence of bytes. -/
def decode (bytes : List UInt8) : Except Utf8Error (List Char) := decodeFrom bytes.length 0 bytes []

end Utf8

/-- Turns carriage returns, and pairs of carriage return and line feed, into line feeds. -/
def unifyLines : List Char → List Char
  | '\r' :: '\n' :: cs => '\n' :: unifyLines cs
  | '\r' :: cs => '\n' :: unifyLines cs
  | c :: cs => c :: unifyLines cs
  | [] => []

end Schemata.Text
