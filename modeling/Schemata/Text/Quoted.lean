import Schemata.Unicode.Printable

/-!
# `Schemata.Text.Quoted` — texts and bytes between quotes

A quoted text stands between single quotes, or between double quotes when it holds a single quote and
no double one. Backslashes, the chosen quote, line breaks and tabs are escaped by a letter or
themselves, and what is not printable by its code in hexadecimal.

## Contents
- `quoteText` and `quoteBytes`.
-/

namespace Schemata.Text

/-- The hexadecimal digits of `n`, filled up with zeros to `width`. -/
def hexPadded (width n : Nat) : List Char :=
  let digits := Nat.toDigits 16 n
  List.replicate (width - digits.length) '0' ++ digits

/-- The quote for a text that does or does not hold single and double quotes. -/
def chooseQuote (cs : List Char) : Char :=
  if cs.contains '\'' && !cs.contains '"' then '"' else '\''

/-- The escape of a code point by its number. -/
def escapeCode (n : Nat) : List Char :=
  if n < 0x100 then '\\' :: 'x' :: hexPadded 2 n
  else if n < 0x10000 then '\\' :: 'u' :: hexPadded 4 n
  else '\\' :: 'U' :: hexPadded 8 n

/-- How a character is written between the given quotes. -/
def escapeChar (quote : Char) (c : Char) : List Char :=
  if c = quote ∨ c = '\\' then ['\\', c]
  else if c = '\n' then ['\\', 'n']
  else if c = '\r' then ['\\', 'r']
  else if c = '\t' then ['\\', 't']
  else if Unicode.isPrintable c then [c]
  else escapeCode c.toNat

/-- A text between quotes. -/
def quoteText (s : String) : String :=
  let cs := s.toList
  let quote := chooseQuote cs
  String.ofList (quote :: cs.flatMap (escapeChar quote) ++ [quote])

/-- How a byte is written between the given quotes. -/
def escapeByte (quote : Char) (b : UInt8) : List Char :=
  let c := Char.ofNat b.toNat
  if b < 0x80 then escapeChar quote c else escapeCode b.toNat

/-- Bytes between quotes, marked by a `b`. -/
def quoteBytes (bytes : List UInt8) : String :=
  let quote := chooseQuote (bytes.map fun b => Char.ofNat b.toNat)
  String.ofList ('b' :: quote :: bytes.flatMap (escapeByte quote) ++ [quote])

end Schemata.Text
