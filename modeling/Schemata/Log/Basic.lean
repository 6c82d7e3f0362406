import Schemata.Pattern.Reader
import Schemata.Text.Quoted
import Schemata.Unicode.Casing

/-!
# `Schemata.Log.Basic` — records and how they are laid out

## Contents
- **Levels.** `levelOf?`, `levelNamed` and `levelName`.
- **Records.** `Record`.
- **Layouts.** A layout is a text with fields of the record inside, written `%(name)s`; a field may be
  padded to a width. `Layout.read?` and `Layout.line?`.
-/

namespace Schemata.Log

/-! ## Levels -/

/-- The levels and the names by which they may be given. -/
def levelNames : List (String × Int) := [("CRITICAL", 50), ("FATAL", 50), ("ERROR", 40), ("WARN", 30),
  ("WARNING", 30), ("INFO", 20), ("DEBUG", 10), ("NOTSET", 0)]

/-- The level with a name, whose letter case does not count. -/
def levelOf? (name : String) : Option Int :=
  levelNames.lookup (String.ofList (name.toList.flatMap Unicode.capitals))

/-- The level with a name, or another one if there is none. -/
def levelNamed (name : String) (otherwise : Int) : Int := (levelOf? name).getD otherwise

/-- The names under which levels are written. -/
def writtenNames : List (Int × String) := [(50, "CRITICAL"), (40, "ERROR"), (30, "WARNING"), (20, "INFO"),
  (10, "DEBUG"), (0, "NOTSET")]

/-- How a level is written. -/
def levelName (level : Int) : String := (writtenNames.lookup level).getD s!"Level {level}"

/-! ## Records -/

/-- Something that was reported on the way. -/
structure Record where
  source : String
  level : Int
  message : String
deriving DecidableEq, Repr

/-! ## Layouts -/

/-- What a field of a layout shows. -/
inductive Aspect
  | source
  | level
  | levelNumber
  | message
deriving DecidableEq, Repr

/-- How a field is padded. -/
structure Padding where
  width : Nat := 0
  toLeft : Bool := false
  zeros : Bool := false
  signed : Option Char := none
  /-- How many characters are shown at most. -/
  most : Option Nat := none
deriving DecidableEq, Repr

/-- How a field is converted: plainly, between quotes, between quotes and in ASCII, or as a number. -/
inductive Conversion
  | plain
  | quoted
  | ascii
  | number
deriving DecidableEq, Repr

/-- A part of a layout. -/
inductive Part
  | char (c : Char)
  | field (aspect : Aspect) (padding : Padding) (conversion : Conversion)
  /-- A field that no record has, or a sign that introduces none. -/
  | broken
deriving DecidableEq, Repr

/-- A text with fields inside. -/
abbrev Layout := List Part

/-- The aspect of a name. -/
def aspect? (name : String) : Option Aspect :=
  [("name", Aspect.source), ("levelname", .level), ("levelno", .levelNumber), ("message", .message),
    ("msg", .message)].lookup name

/-- Reads the flags of a field. -/
def flags : List Char → Padding → Padding × List Char
  | '-' :: cs, p => flags cs { p with toLeft := true }
  | '0' :: cs, p => flags cs { p with zeros := true }
  | '+' :: cs, p => flags cs { p with signed := some '+' }
  | ' ' :: cs, p => flags cs { p with signed := p.signed.or (some ' ') }
  | '#' :: cs, p => flags cs p
  | cs, p => (p, cs)

/-- The value of decimal digits. -/
def numeral (digits : List Char) : Nat := digits.foldl (fun n d => n * 10 + (d.toNat - 48)) 0

/-- Reads flags, width and greatest length of a field. -/
def padding (cs : List Char) : Padding × List Char :=
  let (p, cs) := flags cs {}
  let width := cs.takeWhile Char.isDigit
  let cs := cs.dropWhile Char.isDigit
  let p := { p with width := numeral width }
  match cs with
  | '.' :: cs => ({ p with most := some (numeral (cs.takeWhile Char.isDigit)) }, cs.dropWhile Char.isDigit)
  | cs => (p, cs)

/-- The conversion that a letter stands for. -/
def conversion? (c : Char) : Option Conversion :=
  if c = 's' then some .plain
  else if c = 'r' then some .quoted
  else if c = 'a' then some .ascii
  else if c = 'd' ∨ c = 'i' ∨ c = 'u' then some .number
  else none

/-- Reads what follows a percent sign. -/
def field (cs : List Char) : Part × List Char :=
  match cs with
  | '%' :: rest => (.char '%', rest)
  | '(' :: rest =>
    let name := rest.takeWhile (· != ')')
    let (p, rest) := padding ((rest.dropWhile (· != ')')).drop 1)
    match rest with
    | c :: rest =>
      match aspect? (String.ofList name), conversion? c with
      | some aspect, some conversion => (.field aspect p conversion, rest)
      | _, _ => (.broken, rest)
    | [] => (.broken, [])
  | cs => (.broken, cs)

/-- Reads the parts of a layout. -/
def parts : Nat → List Char → Layout
  | 0, _ => []
  | _, [] => []
  | fuel + 1, '%' :: cs =>
    let (part, rest) := field cs
    part :: parts fuel rest
  | fuel + 1, c :: cs => .char c :: parts fuel cs

namespace Layout

/-- What has to be found in the text of a layout. -/
def fieldForm : String := "(?i)%\\(\\w+\\)[#0+ -]*(\\*|\\d+)?(\\.(\\*|\\d+))?[diouxefgcrsa%]"

/-- Reads a layout, in which a field has to be found; an empty one shows the message. -/
def read? (text : String) : Option Layout :=
  let text := if text.isEmpty then "%(message)s" else text
  if (Pattern.read fieldForm).toOption.any (·.search text) then some (parts text.length text.toList) else none

/-- Source, level and message with dashes between them. -/
def usual : Layout := parts 64 "%(name)s - %(levelname)s - %(message)s".toList

end Layout

/-- Fills a text up to a width. -/
def Padding.fill (p : Padding) (isNumber : Bool) (cs : List Char) : List Char :=
  let missing := p.width - cs.length
  if p.toLeft then cs ++ List.replicate missing ' '
  else if p.zeros && isNumber then
    match cs with
    | c :: rest =>
      if c.isDigit then List.replicate missing '0' ++ cs else c :: (List.replicate missing '0' ++ rest)
    | [] => []
  else List.replicate missing ' ' ++ cs

/-- A number with its sign. -/
def Padding.number (p : Padding) (n : Int) : List Char :=
  let digits := Nat.toDigits 10 n.natAbs
  let digits := List.replicate ((p.most.getD 0) - digits.length) '0' ++ digits
  if n < 0 then '-' :: digits
  else
    match p.signed with
    | some sign => sign :: digits
    | none => digits

/-- How a character is written in ASCII. -/
def asciiChar (c : Char) : List Char := if c.toNat < 0x80 then [c] else Text.escapeCode c.toNat

/-- A field of a record; there is none for a text that is to be shown as a number. -/
def Record.show? (r : Record) (aspect : Aspect) (p : Padding) (conversion : Conversion) :
    Option (List Char) :=
  let text : String :=
    match aspect with
    | .source => r.source
    | .level => levelName r.level
    | .levelNumber => toString r.level
    | .message => r.message
  let shorten (cs : List Char) : List Char := p.most.elim cs cs.take
  match conversion, aspect with
  | .number, .levelNumber => some (p.fill true (p.number r.level))
  | .number, _ => none
  | .plain, _ | .quoted, .levelNumber | .ascii, .levelNumber => some (p.fill false (shorten text.toList))
  | .quoted, _ => some (p.fill false (shorten (Text.quoteText text).toList))
  | .ascii, _ => some (p.fill false (shorten ((Text.quoteText text).toList.flatMap asciiChar)))

/-- The line of a record in a layout, without the line break. -/
def Layout.line? (layout : Layout) (r : Record) : Option String := do
  let shown ← layout.mapM fun part =>
    match part with
    | .char c => some [c]
    | .field aspect p conversion => r.show? aspect p conversion
    | .broken => none
  return String.ofList shown.flatten

end Schemata.Log
