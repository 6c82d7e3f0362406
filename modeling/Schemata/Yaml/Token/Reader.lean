import Schemata.Yaml.Token
import Schemata.Yaml.Token.Scalar

/-!
# `Schemata.Yaml.Token.Reader` — from a text to its words

Block collections are marked by indentation alone, and a mapping is recognized only by the colon behind its
first key. So the reader notes where a key may have started, and puts the words that open a mapping and
announce its key in there once the colon turns up. A key that starts a line of a block must be followed by a
colon on the same line, within 1024 characters.

## Contents
- **States.** `Scan` and `PossibleKey`, the places where a key may have started.
- **Names, tags and directives.**
- **Words.** `Scan.step` reads one word; `Token.ofText?` reads all.
-/

namespace Schemata.Yaml

/-! ## States -/

/-- A place where a key may have started. -/
structure PossibleKey where
  /-- Number of words in front of it. -/
  position : Nat
  /-- Whether nothing else than a key may stand there. -/
  isRequired : Bool
  mark : Mark

/-- The state of reading. -/
structure Scan where
  cursor : Cursor
  tokens : Array Token
  /-- How many brackets are open. -/
  flow : Nat
  /-- The column of the innermost block collection. -/
  indent : Int
  /-- The columns of the collections around it. -/
  outer : List Int
  /-- Whether a key may start here. -/
  keyAllowed : Bool
  /-- Where keys may have started, by the number of open brackets. -/
  keys : List (Nat × PossibleKey)

namespace Scan

/-- The state at the start of a text. -/
def start (text : String) : Scan := ⟨Cursor.ofText text, #[], 0, -1, [], true, []⟩

/-- Adds a word that ends where reading has got to. -/
def push (s : Scan) (kind : TokenKind) (start : Mark) (after : Cursor) : Scan :=
  { s with tokens := s.tokens.push ⟨kind, start, after.mark⟩, cursor := after }

/-- Adds a word that is not written. -/
def pushImplied (s : Scan) (kind : TokenKind) : Scan := s.push kind s.cursor.mark s.cursor

/-- Forgets the place where a key may have started between the open brackets. -/
def dropKey (s : Scan) : Except YamlError Scan :=
  match s.keys.lookup s.flow with
  | none => .ok s
  | some key =>
    if key.isRequired then .error .malformed
    else .ok { s with keys := s.keys.filter fun k => k.1 != s.flow }

/-- Notes that a key may start here. -/
def noteKey (s : Scan) : Except YamlError Scan :=
  if s.keyAllowed then do
    let isRequired := s.flow == 0 && s.indent == (s.cursor.column : Int)
    let dropped ← s.dropKey
    return { dropped with keys := (s.flow, ⟨s.tokens.size, isRequired, s.cursor.mark⟩) :: dropped.keys }
  else .ok s

/-- Whether a key cannot have started at a place because a line or 1024 characters lie between. -/
def isStale (here : Mark) (key : PossibleKey) : Bool :=
  key.mark.line != here.line || here.index - key.mark.index > 1024

/-- Forgets the places where no key can have started after all. -/
def dropStaleKeys (s : Scan) : Except YamlError Scan :=
  let stale := s.keys.filter fun k => isStale s.cursor.mark k.2
  if stale.any fun k => k.2.isRequired then .error .malformed
  else .ok { s with keys := s.keys.filter fun k => !isStale s.cursor.mark k.2 }

/-- Closes the block collections that are indented deeper than a column. -/
def closeBlocks (s : Scan) (column : Int) : Scan :=
  let rec close : List Int → Int → Scan → Scan
    | [], _, s => s
    | next :: outer, indent, s =>
      if indent > column then close outer next { s.pushImplied .blockEnd with indent := next, outer := outer }
      else s
  if s.flow = 0 then close s.outer s.indent s else s

/-- Whether a column is deeper than the innermost block collection. -/
def isDeeper (s : Scan) (column : Nat) : Bool := s.indent < (column : Int)

/-- Enters a block collection at a column. -/
def enter (s : Scan) (column : Nat) : Scan :=
  { s with outer := s.indent :: s.outer, indent := column }

/-- Opens a block collection here if the column is deeper than the innermost one. -/
def openBlock (s : Scan) (kind : TokenKind) : Scan :=
  if s.flow = 0 ∧ s.isDeeper s.cursor.column then (s.pushImplied kind).enter s.cursor.column else s

end Scan

/-- Moves over blanks, comments and line breaks; tells whether a line was broken. -/
def skipToWord : Nat → Cursor → Bool → Cursor × Bool
  | 0, c, broken => (c, broken)
  | fuel + 1, c, broken =>
    let c := c.skipSpaces
    let c := if c.peek 0 = '#' then c.skipLine else c
    let (taken, after) := c.takeBreak
    if taken.isEmpty then (c, broken) else skipToWord fuel after true

/-! ## Names, tags and directives -/

/-- Reads the name of an anchor or an alias behind its sign. -/
def anchorName (c : Cursor) : Except YamlError (String × Cursor) :=
  let name := c.run isWordChar
  let after := c.skip name.length
  let ch := after.peek 0
  if name.isEmpty then .error .malformed
  else if isGap ch || ['?', ':', ',', ']', '}', '%', '@', '\x60'].contains ch then
    .ok (String.ofList name, after)
  else .error .malformed

/-- Whether a character may occur in a tag. -/
def isUriChar (c : Char) : Bool :=
  c.isAlphanum || ['-', ';', '/', '?', ':', '@', '&', '=', '+', '$', ',', '_', '.', '!', '~', '*', '\'',
    '(', ')', '[', ']', '%'].contains c

/-- Reads the bytes of codes behind percent signs. -/
def uriBytes : Nat → Cursor → Except YamlError (List UInt8 × Cursor)
  | 0, c => .ok ([], c)
  | fuel + 1, c =>
    if c.peek 0 != '%' then .ok ([], c)
    else if isHexDigit (c.peek 1) && isHexDigit (c.peek 2) then do
      let (bytes, after) ← uriBytes fuel (c.skip 3)
      return (UInt8.ofNat (hexDigitValue (c.peek 1) * 16 + hexDigitValue (c.peek 2)) :: bytes, after)
    else .error .malformed

/-- Reads a tag or a part of one, codes behind percent signs standing for characters. -/
def uriText : Nat → Cursor → List Char → Except YamlError (List Char × Cursor)
  | 0, c, text => .ok (text, c)
  | fuel + 1, c, text =>
    let ch := c.peek 0
    if ch = '%' then do
      let (bytes, after) ← uriBytes (c.rest.length + 1) c
      match String.fromUTF8? (ByteArray.mk bytes.toArray) with
      | some s => uriText fuel after (text ++ s.toList)
      | none => throw .malformed
    else if isUriChar ch then uriText fuel c.next (text ++ [ch])
    else .ok (text, c)

/-- Reads a tag or a part of one that is not empty. -/
def uri (c : Cursor) : Except YamlError (String × Cursor) := do
  let (text, after) ← uriText (c.rest.length + 1) c []
  if after.mark.index = c.mark.index then throw .malformed
  return (String.ofList text, after)

/-- Reads a tag handle: an exclamation mark alone, or a name between two. -/
def tagHandle (c : Cursor) : Except YamlError (String × Cursor) :=
  if c.peek 0 ≠ '!' then .error .malformed
  else if c.peek 1 = ' ' then .ok ("!", c.next)
  else
    let name := c.next.run isWordChar
    let after := c.next.skip name.length
    if after.peek 0 = '!' then .ok (String.ofList ('!' :: name ++ ['!']), after.next) else .error .malformed

/-- Whether an exclamation mark stands in front of the next space or line end. -/
def hasHandle (c : Cursor) : Bool := (c.run fun ch => !isSpaceOrEnd ch).contains '!'

/-- Reads a tag. -/
def tag (c : Cursor) : Except YamlError (TokenKind × Cursor) := do
  let ch := c.peek 1
  let (kind, after) ←
    if ch = '<' then
      let (suffix, after) ← uri (c.skip 2)
      if after.peek 0 ≠ '>' then throw .malformed
      pure (TokenKind.tag none suffix, after.next)
    else if isGap ch then pure (TokenKind.tag none "!", c.next)
    else
      let (handle, after) ← if hasHandle c.next then tagHandle c else pure ("!", c.next)
      let (suffix, after) ← uri after
      pure (TokenKind.tag (some handle) suffix, after)
  if !isSpaceOrEnd (after.peek 0) then throw .malformed
  return (kind, after)

/-- Reads a number of a directive. -/
def directiveNumber (c : Cursor) : Except YamlError (Nat × Cursor) :=
  let digits := c.run Char.isDigit
  if digits.isEmpty then .error .malformed
  else .ok (digits.foldl (fun n d => n * 10 + (d.toNat - 48)) 0, c.skip digits.length)

/-- Reads a directive; the cursor stands on its percent sign. -/
def directive (c : Cursor) : Except YamlError (TokenKind × Mark × Cursor) := do
  let name := c.next.run isWordChar
  let c := c.next.skip name.length
  if name.isEmpty || !isSpaceOrEnd (c.peek 0) then throw .malformed
  let (kind, finish) ←
    if name = "YAML".toList then
      let (major, c) ← directiveNumber c.skipSpaces
      if c.peek 0 ≠ '.' then throw .malformed
      let (minor, c) ← directiveNumber c.next
      if !isSpaceOrEnd (c.peek 0) then throw .malformed
      pure (TokenKind.versionDirective major minor, c)
    else if name = "TAG".toList then
      let (handle, c) ← tagHandle c.skipSpaces
      if c.peek 0 ≠ ' ' then throw .malformed
      let (start, c) ← uri c.skipSpaces
      if !isSpaceOrEnd (c.peek 0) then throw .malformed
      pure (TokenKind.tagDirective handle start, c)
    else pure (TokenKind.otherDirective, c.skipLine)
  let c := finish.skipSpaces
  let c := if c.peek 0 = '#' then c.skipLine else c
  if !isEnd (c.peek 0) then throw .malformed
  return (kind, finish.mark, c.takeBreak.2)

/-! ## Words -/

namespace Scan

/-- Leaves all block collections before a directive, a marker or the end of the text. -/
def leaveAll (s : Scan) : Except YamlError Scan := do
  let s ← (s.closeBlocks (-1)).dropKey
  return { s with keyAllowed := false }

/-- Reads an opening bracket. -/
def openFlow (s : Scan) (kind : TokenKind) : Except YamlError Scan := do
  let s ← s.noteKey
  return { s.push kind s.cursor.mark s.cursor.next with flow := s.flow + 1, keyAllowed := true }

/-- Reads a closing bracket. -/
def closeFlow (s : Scan) (kind : TokenKind) : Except YamlError Scan := do
  let s ← s.dropKey
  if s.flow = 0 then throw .malformed
  return { s.push kind s.cursor.mark s.cursor.next with flow := s.flow - 1, keyAllowed := false }

/-- Reads the dash of an item, or the question mark of a key. -/
def blockSign (s : Scan) (opening kind : TokenKind) (keyAllowed : Bool) : Except YamlError Scan := do
  if s.flow = 0 && !s.keyAllowed then throw .malformed
  let s ← { s.openBlock opening with keyAllowed := keyAllowed }.dropKey
  return s.push kind s.cursor.mark s.cursor.next

/-- Reads the colon of a value. If a key may have started before, it is announced there. -/
def valueSign (s : Scan) : Except YamlError Scan := do
  match s.keys.lookup s.flow with
  | some key =>
    let announce (tokens : Array Token) (kind : TokenKind) : Array Token :=
      tokens.insertIdxIfInBounds key.position ⟨kind, key.mark, key.mark⟩
    let opens := s.flow == 0 && s.isDeeper key.mark.column
    let tokens := announce s.tokens .key
    let s := { s with
      tokens := if opens then announce tokens .blockMappingStart else tokens
      keys := s.keys.filter fun k => k.1 != s.flow
      keyAllowed := false }
    let s := if opens then s.enter key.mark.column else s
    return s.push .value s.cursor.mark s.cursor.next
  | none => s.blockSign .blockMappingStart .value (s.flow == 0)

/-- Reads a word that may be a key. -/
def keyWord (s : Scan) (read : Scan → Except YamlError Scan) : Except YamlError Scan := do
  let s ← s.noteKey
  read { s with keyAllowed := false }

/-- Reads an alias or an anchor. -/
def nameWord (s : Scan) (kind : String → TokenKind) : Except YamlError Scan :=
  s.keyWord fun s => do
    let (name, after) ← anchorName s.cursor.next
    return s.push (kind name) s.cursor.mark after

/-- Reads a tag. -/
def tagWord (s : Scan) : Except YamlError Scan :=
  s.keyWord fun s => do
    let (kind, after) ← tag s.cursor
    return s.push kind s.cursor.mark after

/-- Reads a quoted scalar. -/
def quotedWord (s : Scan) : Except YamlError Scan :=
  s.keyWord fun s => do
    let (text, after) ← quotedScalar s.cursor
    let written := s.cursor.rest.take (after.mark.index - s.cursor.mark.index)
    let halved := written.head? == some '"' && spellsHalf written
    return s.push (.scalar (String.ofList text) false halved) s.cursor.mark after

/-- Reads a plain scalar. A line break behind it allows a key again. -/
def plainWord (s : Scan) : Except YamlError Scan :=
  s.keyWord fun s => do
    let read := plainScalar (s.flow != 0) (s.indent + 1) s.cursor
    let token : Token := ⟨.scalar (String.ofList read.text) true false, s.cursor.mark, read.finish⟩
    return { s with tokens := s.tokens.push token, cursor := read.after, keyAllowed := read.broken }

/-- Reads a block scalar. -/
def blockWord (s : Scan) : Except YamlError Scan := do
  let s ← { s with keyAllowed := true }.dropKey
  let read ← blockScalar s.indent s.cursor
  let token : Token := ⟨.scalar (String.ofList read.text) false false, s.cursor.mark, read.finish⟩
  return { s with tokens := s.tokens.push token, cursor := read.after }

/-- Whether a plain scalar starts with the characters at a cursor. -/
def startsPlain (c : Cursor) (inFlow : Bool) : Bool :=
  let ch := c.peek 0
  let isSign := ['-', '?', ':', ',', '[', ']', '{', '}', '#', '&', '*', '!', '|', '>', '\'', '"', '%', '@',
    '\x60'].contains ch
  if isGap ch then false
  else if !isSign then true
  else !isGap (c.peek 1) && (ch == '-' || (!inFlow && (ch == '?' || ch == ':')))

/-- Reads the next word. No word is added if the text is over. -/
def step (s : Scan) : Except YamlError Scan := do
  let c := if s.cursor.mark.index = 0 ∧ s.cursor.peek 0 = '\ufeff' then s.cursor.next else s.cursor
  let (c, broken) := skipToWord (c.rest.length + 1) c false
  let s ← { s with cursor := c, keyAllowed := s.keyAllowed || (broken && s.flow == 0) }.dropStaleKeys
  let s := s.closeBlocks c.column
  let ch := c.peek 0
  let atGap := isGap (c.peek 1)
  let inFlow := s.flow != 0
  if ch = '\x00' then
    let s ← s.leaveAll
    return { s.pushImplied .streamEnd with keys := [] }
  else if ch = '%' && c.column == 0 then
    let s ← s.leaveAll
    let (kind, finish, after) ← directive c
    return { s with tokens := s.tokens.push ⟨kind, c.mark, finish⟩, cursor := after }
  else if c.column == 0 && c.isMarker '-' then
    let s ← s.leaveAll
    return s.push .documentStart c.mark (c.skip 3)
  else if c.column == 0 && c.isMarker '.' then
    let s ← s.leaveAll
    return s.push .documentEnd c.mark (c.skip 3)
  else if ch = '[' then s.openFlow .flowSequenceStart
  else if ch = '{' then s.openFlow .flowMappingStart
  else if ch = ']' then s.closeFlow .flowSequenceEnd
  else if ch = '}' then s.closeFlow .flowMappingEnd
  else if ch = ',' then
    let s ← { s with keyAllowed := true }.dropKey
    return s.push .flowEntry c.mark c.next
  else if ch = '-' && atGap then s.blockSign .blockSequenceStart .blockEntry true
  else if ch = '?' && (inFlow || atGap) then s.blockSign .blockMappingStart .key (!inFlow)
  else if ch = ':' && (inFlow || atGap) then s.valueSign
  else if ch = '*' then s.nameWord .alias
  else if ch = '&' then s.nameWord .anchor
  else if ch = '!' then s.tagWord
  else if (ch = '|' || ch = '>') && !inFlow then s.blockWord
  else if ch = '\'' || ch = '"' then s.quotedWord
  else if startsPlain c inFlow then s.plainWord
  else throw .malformed

/-- Reads words up to the end of the text. -/
def loop : Nat → Scan → Except YamlError Scan
  | 0, s => .ok s
  | fuel + 1, s => do
    let s ← s.step
    match s.tokens.back? with
    | some ⟨.streamEnd, _, _⟩ => return s
    | _ => loop fuel s

end Scan

/-- The words of a text. -/
def Token.ofText? (text : String) : Except YamlError (List Token) :=
  if text.toList.all isPrintable then
    (Scan.loop (text.length + 2) (Scan.start text)).map fun s => s.tokens.toList
  else .error .malformed

end Schemata.Yaml
