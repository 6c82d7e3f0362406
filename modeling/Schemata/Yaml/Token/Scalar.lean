import Schemata.Yaml.Cursor

/-!
# `Schemata.Yaml.Token.Scalar` — reading scalars

Scalars are plain, between quotes, or blocks of lines. Inside plain and quoted scalars a single line break
counts as a space and further ones are kept; blocks keep or fold their lines as their header says.

## Contents
- **Plain scalars.** `plainScalar`.
- **Quoted scalars.** `quotedScalar`.
- **Block scalars.** `blockScalar`.
-/

namespace Schemata.Yaml

/-! ## Plain scalars -/

/-- Whether a character ends a plain scalar inside brackets. -/
def isFlowSign (c : Char) : Bool :=
  c == ',' || c == '[' || c == ']' || c == '{' || c == '}'

/-- The characters up to the next gap, colon with a gap behind it, or sign that ends the scalar. -/
def plainRun (inFlow : Bool) : List Char → List Char
  | [] => []
  | ch :: rest =>
    let following := rest.headD '\x00'
    if isGap ch then []
    else if ch == ':' && (isGap following || (inFlow && isFlowSign following)) then []
    else if inFlow && (isFlowSign ch || ch == '?') then []
    else ch :: plainRun inFlow rest

/-- Moves over spaces and line breaks, keeping the breaks. Stops with nothing at the marker of a
document. -/
def plainBreaks : Nat → Cursor → List Char → Option (List Char) × Cursor
  | 0, c, kept => (some kept, c)
  | fuel + 1, c, kept =>
    if c.peek 0 = ' ' then plainBreaks fuel c.next kept
    else
      let (taken, after) := c.takeBreak
      if taken.isEmpty then (some kept, c)
      else if after.isSeparator then (none, after)
      else plainBreaks fuel after (kept ++ taken)

/-- How a line break and the breaks behind it are kept. -/
def foldBreaks (first more : List Char) : List Char :=
  if first ≠ ['\n'] then first ++ more else if more.isEmpty then [' '] else more

/-- What separates two parts of a plain scalar, the place behind it, and whether it breaks the line. -/
def plainGap (c : Cursor) : List Char × Cursor × Bool :=
  let blanks := c.run (· == ' ')
  let c := c.skip blanks.length
  let (first, after) := c.takeBreak
  if first.isEmpty then (blanks, c, false)
  else if after.isSeparator then ([], after, true)
  else
    match plainBreaks (after.rest.length + 1) after [] with
    | (some more, after) => (foldBreaks first more, after, true)
    | (none, after) => ([], after, true)

/-- A scalar that has been read. -/
structure ScalarRead where
  text : List Char
  /-- Where the scalar ends. -/
  finish : Mark
  /-- Where reading goes on. -/
  after : Cursor
  /-- Whether a line break follows. -/
  broken : Bool

/-- Reads the parts of a plain scalar. -/
def plainParts (inFlow : Bool) (indent : Int) : Nat → Cursor → List Char → List Char → Bool → Mark →
    ScalarRead
  | 0, c, text, _, broken, finish => ⟨text, finish, c, broken⟩
  | fuel + 1, c, text, gap, broken, finish =>
    let part := if c.peek 0 = '#' then [] else plainRun inFlow c.rest
    if part.isEmpty then ⟨text, finish, c, broken⟩
    else
      let behind := c.skip part.length
      let text := text ++ gap ++ part
      let (gap, after, broken) := plainGap behind
      if gap.isEmpty || after.peek 0 == '#' || (!inFlow && (after.column : Int) < indent) then
        ⟨text, behind.mark, after, broken⟩
      else plainParts inFlow indent fuel after text gap broken behind.mark

/-- Reads a plain scalar that goes on in lines of at least the given indentation. -/
def plainScalar (inFlow : Bool) (indent : Int) (c : Cursor) : ScalarRead :=
  plainParts inFlow indent (c.rest.length + 1) c [] [] false c.mark

/-! ## Quoted scalars -/

/-- The character that stands behind a backslash for another one. -/
def escaped? : Char → Option Char
  | '0' => some '\x00'
  | 'a' => some '\x07'
  | 'b' => some '\x08'
  | 't' => some '\t'
  | '\t' => some '\t'
  | 'n' => some '\n'
  | 'v' => some '\x0b'
  | 'f' => some '\x0c'
  | 'r' => some '\r'
  | 'e' => some '\x1b'
  | ' ' => some ' '
  | '"' => some '"'
  | '\\' => some '\\'
  | '/' => some '/'
  | 'N' => some '\x85'
  | '_' => some '\xa0'
  | 'L' => some '\u2028'
  | 'P' => some '\u2029'
  | _ => none

/-- Number of hexadecimal digits of a code behind a backslash and a letter. -/
def codeWidth? : Char → Option Nat
  | 'x' => some 2
  | 'u' => some 4
  | 'U' => some 8
  | _ => none

/-- Whether a character is a hexadecimal digit. -/
def isHexDigit (c : Char) : Bool := c.isDigit || ('a' ≤ c && c ≤ 'f') || ('A' ≤ c && c ≤ 'F')

/-- The value of a hexadecimal digit. -/
def hexDigitValue (c : Char) : Nat :=
  if c.isDigit then c.toNat - 48 else if 'a' ≤ c then c.toNat - 87 else c.toNat - 55

/-- The code that hexadecimal digits spell. -/
def codeOf (digits : List Char) : Nat := digits.foldl (fun n c => n * 16 + hexDigitValue c) 0

/-- Whether a code is half of a pair. -/
def isHalf (code : Nat) : Bool := 0xd800 ≤ code && code < 0xe000

/-- The character with a code. The replacement character stands in for half of a pair. -/
def charOfCode (digits : List Char) : Except YamlError Char :=
  let code := codeOf digits
  if code > 0x10ffff then .error .noValue
  else if isHalf code then .ok '\ufffd'
  else .ok (Char.ofNat code)

/-- Moves over line breaks and the blanks around them, keeping the breaks. The marker of a document must
not stand here. -/
def quotedBreaks : Nat → Cursor → List Char → Except YamlError (List Char × Cursor)
  | 0, c, kept => .ok (kept, c)
  | fuel + 1, c, kept =>
    if c.isSeparator then .error .malformed
    else
      let c := c.skipWhile fun ch => ch == ' ' || ch == '\t'
      let (taken, after) := c.takeBreak
      if taken.isEmpty then .ok (kept, c) else quotedBreaks fuel after (kept ++ taken)

/-- Reads what a backslash introduces; the cursor stands behind it. -/
def escapeSequence (c : Cursor) : Except YamlError (List Char × Cursor) :=
  let ch := c.peek 0
  match escaped? ch, codeWidth? ch with
  | some meant, _ => .ok ([meant], c.next)
  | none, some width =>
    let digits := c.next.rest.take width
    if digits.length = width ∧ digits.all isHexDigit then
      (charOfCode digits).map fun meant => ([meant], c.next.skip width)
    else .error .malformed
  | none, none =>
    if isBreak ch then quotedBreaks (c.rest.length + 1) c.takeBreak.2 [] else .error .malformed

/-- Whether a character between quotes stands for itself and is no blank. -/
def isQuotedChar (c : Char) : Bool := c != '\'' && c != '"' && c != '\\' && !isGap c

/-- Reads characters between quotes up to the next blank, line break or closing quote. -/
def quotedWord (double : Bool) : Nat → Cursor → List Char → Except YamlError (List Char × Cursor)
  | 0, c, text => .ok (text, c)
  | fuel + 1, c, text =>
    let part := c.run isQuotedChar
    let c := c.skip part.length
    let text := text ++ part
    let ch := c.peek 0
    if !double && ch == '\'' && c.peek 1 == '\'' then
      quotedWord double fuel (c.skip 2) (text ++ ['\''])
    else if (double && ch == '\'') || (!double && (ch == '"' || ch == '\\')) then
      quotedWord double fuel c.next (text ++ [ch])
    else if double && ch == '\\' then
      match escapeSequence c.next with
      | .ok (meant, after) => quotedWord double fuel after (text ++ meant)
      | .error e => .error e
    else .ok (text, c)

/-- Reads the blanks and line breaks between quotes. -/
def quotedGap (c : Cursor) : Except YamlError (List Char × Cursor) :=
  let blanks := c.run fun ch => ch == ' ' || ch == '\t'
  let c := c.skip blanks.length
  let (first, after) := c.takeBreak
  if c.peek 0 = '\x00' then .error .malformed
  else if first.isEmpty then .ok (blanks, c)
  else (quotedBreaks (after.rest.length + 1) after []).map fun (more, after) =>
    (foldBreaks first more, after)

/-- Reads words and gaps by turns up to the closing quote. -/
def quotedParts (double : Bool) (quote : Char) : Nat → Cursor → List Char →
    Except YamlError (List Char × Cursor)
  | 0, _, _ => .error .malformed
  | fuel + 1, c, text => do
    let (word, c) ← quotedWord double (c.rest.length + 1) c text
    if c.peek 0 = quote then return (word, c.next)
    let (gap, c) ← quotedGap c
    quotedParts double quote fuel c (word ++ gap)

/-- Reads a scalar between quotes. -/
def quotedScalar (c : Cursor) : Except YamlError (List Char × Cursor) :=
  let quote := c.peek 0
  quotedParts (quote == '"') quote (c.rest.length + 1) c.next []

/-- Whether half of a pair is spelt in what stands between double quotes. -/
def spellsHalf : List Char → Bool
  | '\\' :: c :: cs => (codeWidth? c).any (fun width => isHalf (codeOf (cs.take width))) || spellsHalf cs
  | _ :: cs => spellsHalf cs
  | [] => false

/-! ## Block scalars -/

/-- What becomes of the line breaks at the end of a block. -/
inductive Chomping
  | clip
  | strip
  | keep
deriving DecidableEq, Repr

/-- Reads how the end of a block is treated. -/
def chomping? (c : Cursor) : Option (Chomping × Cursor) :=
  match c.peek 0 with
  | '+' => some (.keep, c.next)
  | '-' => some (.strip, c.next)
  | _ => none

/-- Reads the indentation of a block, which is not zero. -/
def increment? (c : Cursor) : Except YamlError (Option (Nat × Cursor)) :=
  let ch := c.peek 0
  if ch = '0' then .error .malformed
  else if ch.isDigit then .ok (some (ch.toNat - 48, c.next))
  else .ok none

/-- Reads the header of a block: treatment of the end and indentation in either order, then at most a
comment. -/
def blockHeader (c : Cursor) : Except YamlError (Chomping × Option Nat × Cursor) := do
  let (chomping, increment, c) ←
    match chomping? c with
    | some (chomping, c) =>
      match (← increment? c) with
      | some (n, c) => pure (chomping, some n, c)
      | none => pure (chomping, none, c)
    | none =>
      match (← increment? c) with
      | some (n, c) =>
        match chomping? c with
        | some (chomping, c) => pure (chomping, some n, c)
        | none => pure (Chomping.clip, some n, c)
      | none => pure (Chomping.clip, none, c)
  if !isSpaceOrEnd (c.peek 0) then throw .malformed
  let c := c.skipSpaces
  let c := if c.peek 0 = '#' then c.skipLine else c
  if !isEnd (c.peek 0) then throw .malformed
  return (chomping, increment, c.takeBreak.2)

/-- Moves over the empty lines at the start of a block, noting their breaks and the widest
indentation. -/
def leadingLines : Nat → Cursor → List Char → Nat → Mark → List Char × Nat × Mark × Cursor
  | 0, c, breaks, widest, finish => (breaks, widest, finish, c)
  | fuel + 1, c, breaks, widest, finish =>
    if c.peek 0 = ' ' then leadingLines fuel c.next breaks (max widest c.next.column) finish
    else
      let (taken, after) := c.takeBreak
      if taken.isEmpty then (breaks, widest, finish, c)
      else leadingLines fuel after (breaks ++ taken) widest after.mark

/-- Moves over at most as many spaces as reach the given column. -/
def skipIndent (indent : Nat) (c : Cursor) : Cursor :=
  c.skip (min (c.run (· == ' ')).length (indent - c.column))

/-- Moves over empty lines inside a block and to the indentation of the next one. -/
def emptyLines (indent : Nat) : Nat → Cursor → List Char → Mark → List Char × Mark × Cursor
  | 0, c, breaks, finish => (breaks, finish, c)
  | fuel + 1, c, breaks, finish =>
    let c := skipIndent indent c
    let (taken, after) := c.takeBreak
    if taken.isEmpty then (breaks, finish, c)
    else emptyLines indent fuel after (breaks ++ taken) after.mark

/-- Reads the lines of a block. The break behind a line is folded into a space if it is a line feed
between two lines that do not begin with a blank. -/
def blockLines (folded : Bool) (indent : Nat) : Nat → Cursor → List Char → List Char → List Char → Mark →
    List Char × List Char × List Char × Mark × Cursor
  | 0, c, text, lineBreak, breaks, finish => (text, lineBreak, breaks, finish, c)
  | fuel + 1, c, text, lineBreak, breaks, finish =>
    if c.column ≠ indent ∨ c.peek 0 = '\x00' then (text, lineBreak, breaks, finish, c)
    else
      let isSolid (c : Cursor) : Bool := c.peek 0 != ' ' && c.peek 0 != '\t'
      let line := c.run (!isEnd ·)
      let text := text ++ breaks ++ line
      let (lineBreak, after) := (c.skip line.length).takeBreak
      let (breaks, finish, next) := emptyLines indent (after.rest.length + 1) after [] after.mark
      if next.column = indent ∧ next.peek 0 ≠ '\x00' then
        let joint :=
          if folded && lineBreak == ['\n'] && isSolid c && isSolid next then
            (if breaks.isEmpty then [' '] else [])
          else lineBreak
        blockLines folded indent fuel next (text ++ joint) lineBreak breaks finish
      else (text, lineBreak, breaks, finish, next)

/-- Reads a block scalar inside a collection of the given indentation. -/
def blockScalar (outer : Int) (c : Cursor) : Except YamlError ScalarRead := do
  let folded := c.peek 0 == '>'
  let (chomping, increment, c) ← blockHeader c.next
  let least := (max 1 (outer + 1)).toNat
  let fuel := c.rest.length + 1
  let (indent, breaks, finish, c) :=
    match increment with
    | some n =>
      let indent := least + n - 1
      let (breaks, finish, c) := emptyLines indent fuel c [] c.mark
      (indent, breaks, finish, c)
    | none =>
      let (breaks, widest, finish, c) := leadingLines fuel c [] 0 c.mark
      (max least widest, breaks, finish, c)
  let (text, lineBreak, breaks, finish, c) := blockLines folded indent fuel c [] [] breaks finish
  let text :=
    match chomping with
    | .clip => text ++ lineBreak
    | .strip => text
    | .keep => text ++ lineBreak ++ breaks
  return ⟨text, finish, c, true⟩

end Schemata.Yaml
