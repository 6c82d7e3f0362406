/-!
# `Schemata.Yaml.Cursor` — reading a YAML text

A cursor is what is left of a text together with the place where it starts. The end of the text reads as
the character NUL, which no YAML text contains.

## Contents
- **Errors.** `YamlError`, why a text has no value, and `isPrintable`, the characters that a text may contain.
- **Places.** `Mark`.
- **Cursors.** `Cursor` with `peek`, `next`, `skip`, `takeWhile` and `takeBreak`.
- **Classes of characters.** `isBreak`, `isEnd`, `isGap` and `isWordChar`.
-/

namespace Schemata.Yaml

/-! ## Errors -/

/-- Why a YAML text has no value. -/
inductive YamlError
  /-- The text breaks a rule of the format. -/
  | malformed
  /-- A scalar of a numeric or temporal tag has no value, or a code is that of no character. -/
  | noValue
  /-- A scalar tagged as a truth value is none of the words for truth values. -/
  | unknownWord
  /-- A scalar tagged as a number is empty. -/
  | emptyNumber
  /-- A scalar tagged as a timestamp does not have the form of one. -/
  | noTimestamp
  /-- An alias refers to a node that it is part of. -/
  | cyclic
  /-- An escape spells half of a pair of codes, which is no character. -/
  | notUnicode
deriving DecidableEq, Repr

/-- Whether a character may occur in a text. -/
def isPrintable (c : Char) : Bool :=
  let n := c.toNat
  n == 0x9 || n == 0xa || n == 0xd || (0x20 ≤ n && n ≤ 0x7e) || n == 0x85 ||
    (0xa0 ≤ n && n ≤ 0xfffd) || 0x10000 ≤ n

/-! ## Places -/

/-- A place in a text, all counts beginning with zero. -/
structure Mark where
  index : Nat
  line : Nat
  column : Nat
deriving DecidableEq, Repr, Inhabited

/-! ## Classes of characters -/

/-- Whether a character breaks lines. -/
def isBreak (c : Char) : Bool :=
  c == '\n' || c == '\r' || c == '\x85' || c == '\u2028' || c == '\u2029'

/-- Whether a line ends here. -/
def isEnd (c : Char) : Bool := c == '\x00' || isBreak c

/-- Whether a line ends here or a blank stands here. -/
def isGap (c : Char) : Bool := c == ' ' || c == '\t' || isEnd c

/-- Whether a line ends here or a space stands here. -/
def isSpaceOrEnd (c : Char) : Bool := c == ' ' || isEnd c

/-- Whether a character may occur in the names of anchors and tag handles. -/
def isWordChar (c : Char) : Bool := c.isAlphanum || c == '-' || c == '_'

/-! ## Cursors -/

/-- What is left of a text, and where it starts. -/
structure Cursor where
  rest : List Char
  mark : Mark
deriving Repr

namespace Cursor

/-- The start of a text. -/
def ofText (text : String) : Cursor := ⟨text.toList, ⟨0, 0, 0⟩⟩

/-- The character at a distance. -/
def peek (c : Cursor) (distance : Nat) : Char := (c.rest[distance]?).getD '\x00'

/-- The column of the next character. -/
def column (c : Cursor) : Nat := c.mark.column

/-- Whether a character, given the one behind it, ends its line. A line feed belongs to the carriage
return in front of it. -/
def endsLine (ch following : Char) : Bool :=
  ch == '\n' || ch == '\x85' || ch == '\u2028' || ch == '\u2029' || (ch == '\r' && following != '\n')

/-- Moves over one character. A byte order mark takes no column. -/
def next (c : Cursor) : Cursor :=
  match c.rest with
  | [] => c
  | ch :: rest =>
    let m := c.mark
    if endsLine ch (rest.headD '\x00') then ⟨rest, ⟨m.index + 1, m.line + 1, 0⟩⟩
    else if ch = '\ufeff' then ⟨rest, ⟨m.index + 1, m.line, m.column⟩⟩
    else ⟨rest, ⟨m.index + 1, m.line, m.column + 1⟩⟩

/-- Moves over some characters. -/
def skip : Nat → Cursor → Cursor
  | 0, c => c
  | n + 1, c => skip n c.next

/-- The characters from here on that satisfy a condition. -/
def run (c : Cursor) (p : Char → Bool) : List Char := c.rest.takeWhile p

/-- Moves over the characters that satisfy a condition. -/
def skipWhile (c : Cursor) (p : Char → Bool) : Cursor := c.skip (c.run p).length

/-- Moves over spaces. -/
def skipSpaces (c : Cursor) : Cursor := c.skipWhile (· == ' ')

/-- Moves to the end of the line. -/
def skipLine (c : Cursor) : Cursor := c.skipWhile (!isEnd ·)

/-- Whether three characters stand here, with a gap behind them. -/
def isMarker (c : Cursor) (ch : Char) : Bool :=
  c.peek 0 == ch && c.peek 1 == ch && c.peek 2 == ch && isGap (c.peek 3)

/-- Whether a marker of the start or the end of a document stands here. -/
def isSeparator (c : Cursor) : Bool := c.isMarker '-' || c.isMarker '.'

/-- Moves over a line break if there is one, and gives the form in which it is kept. -/
def takeBreak (c : Cursor) : List Char × Cursor :=
  let ch := c.peek 0
  if ch = '\r' ∧ c.peek 1 = '\n' then (['\n'], c.skip 2)
  else if ch = '\r' ∨ ch = '\n' ∨ ch = '\x85' then (['\n'], c.next)
  else if ch = '\u2028' ∨ ch = '\u2029' then ([ch], c.next)
  else ([], c)

end Cursor

end Schemata.Yaml
