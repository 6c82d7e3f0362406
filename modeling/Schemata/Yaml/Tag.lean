import Schemata.Value.Moment

/-!
# `Schemata.Yaml.Tag` — what the nodes of a YAML text stand for

## Contents
- **Tags.** `Tag`, and the texts under which tags are known.
- **Forms of plain scalars.** One recognizer for each tag that a plain scalar may have by its form.
- **Timestamps.** `moment?` reads the parts of one.
- **Resolution.** `Tag.ofPlain`.
-/

namespace Schemata.Yaml

/-! ## Tags -/

/-- What a node stands for. -/
inductive Tag
  | null
  | bool
  | int
  | float
  | text
  /-- A text that is spelt with halves of pairs of codes. -/
  | halvedText
  | binary
  | timestamp
  | orderedMap
  | pairs
  | set
  | sequence
  | mapping
  /-- The key under which other mappings are merged in. -/
  | merge
  /-- The key of the value that a mapping stands for. -/
  | value
  | other (uri : String)
deriving DecidableEq, Repr

namespace Tag

/-- The start of the texts of all known tags. -/
def authority : String := "tag:yaml.org,2002:"

/-- The known tags and their names. -/
def known : List (String × Tag) := [
  ("null", .null), ("bool", .bool), ("int", .int), ("float", .float), ("str", .text),
  ("binary", .binary), ("timestamp", .timestamp), ("omap", .orderedMap), ("pairs", .pairs), ("set", .set),
  ("seq", .sequence), ("map", .mapping), ("merge", .merge), ("value", .value)]

/-- The tag that a text names. -/
def ofUri (uri : String) : Tag :=
  match known.find? fun entry => authority ++ entry.1 == uri with
  | some entry => entry.2
  | none => .other uri

/-- The text that names a tag. -/
def uri : Tag → String
  | .other uri => uri
  | .halvedText => authority ++ "str"
  | tag =>
    match known.find? fun entry => entry.2 == tag with
    | some entry => authority ++ entry.1
    | none => authority

end Tag

/-! ## Forms of plain scalars -/

/-- The words for truth values. -/
def truthWords : List (String × Bool) := [("yes", true), ("no", false), ("true", true), ("false", false),
  ("on", true), ("off", false)]

/-- A word in small letters, with a capital, or in capitals. -/
def isCasingOf (word : String) (text : List Char) : Bool :=
  let small := word.toList
  let capital := small.map Char.toUpper
  text == small || text == capital || text == capital.take 1 ++ small.drop 1

/-- Whether a text is a word for a truth value. -/
def isTruthForm (text : List Char) : Bool := truthWords.any fun entry => isCasingOf entry.1 text

/-- Whether a text stands for null. -/
def isNullForm (text : List Char) : Bool := text.isEmpty || text == ['~'] || isCasingOf "null" text

/-- A text without a sign in front. -/
def dropSign : List Char → List Char
  | '+' :: cs => cs
  | '-' :: cs => cs
  | cs => cs

/-- Whether a character is a digit or an underscore. -/
def isDigitOrLine (c : Char) : Bool := c.isDigit || c == '_'

/-- Whether a text starts with a digit and goes on with digits and underscores. -/
def isDigits : List Char → Bool
  | [] => false
  | c :: cs => c.isDigit && cs.all isDigitOrLine

/-- Whether a text is a number of sixtieths: one or two digits below sixty. -/
def isSixtieth : List Char → Bool
  | [d] => d.isDigit
  | [d, e] => '0' ≤ d && d ≤ '5' && e.isDigit
  | _ => false

/-- Whether a text is an integer: decimal, binary, octal, hexadecimal, or in groups of sixtieths. -/
def isIntForm (text : List Char) : Bool :=
  let body := dropSign text
  match body with
  | '0' :: 'b' :: c :: cs => (c :: cs).all fun d => d == '0' || d == '1' || d == '_'
  | '0' :: 'x' :: c :: cs =>
    (c :: cs).all fun d => isDigitOrLine d || ('a' ≤ d && d ≤ 'f') || ('A' ≤ d && d ≤ 'F')
  | ['0'] => true
  | '0' :: cs => cs.all fun d => ('0' ≤ d && d ≤ '7') || d == '_'
  | _ =>
    match body.splitOn ':' with
    | whole :: sixtieths => isDigits whole && sixtieths.all isSixtieth
    | [] => false

/-- Whether a text is empty or an exponent with a sign. -/
def isExponent : List Char → Bool
  | [] => true
  | e :: sign :: d :: ds =>
    (e == 'e' || e == 'E') && (sign == '+' || sign == '-') && (d :: ds).all Char.isDigit
  | _ => false

/-- Whether a text is a floating point number: with a point, perhaps with a signed exponent or groups of
sixtieths, or one of the words for infinities and for no number. -/
def isFloatForm (text : List Char) : Bool :=
  let body := dropSign text
  let whole := body.takeWhile (· != '.')
  match body.dropWhile (· != '.') with
  | [] => false
  | _ :: fraction =>
    if whole.isEmpty then
      isCasingOf "inf" fraction ||
        (text.head? == some '.' &&
          (fraction == "nan".toList || fraction == "NaN".toList || fraction == "NAN".toList ||
            (isDigits (fraction.takeWhile isDigitOrLine) && isExponent (fraction.dropWhile isDigitOrLine))))
    else
      match whole.splitOn ':' with
      | [whole] => isDigits whole && isExponent (fraction.dropWhile isDigitOrLine)
      | whole :: sixtieths =>
        isDigits whole && sixtieths.all isSixtieth && fraction.all isDigitOrLine
      | [] => false

/-! ## Timestamps -/

/-- The parts of a timestamp. -/
structure MomentParts where
  date : Date
  /-- Hour, minute and second. -/
  time : Option (Nat × Nat × Nat)
  /-- The digits of a fraction of a second. -/
  fraction : List Char
  /-- Whether there is an offset from universal time: none but the mark of universal time, or whether it is
  negative, with its hours and minutes. -/
  zone : Option (Option (Bool × Nat × Nat))

/-- Reads a number of so many digits, as long as possible. -/
def digitsBetween? (least most : Nat) (cs : List Char) : Option (Nat × List Char) :=
  let digits := (cs.take most).takeWhile Char.isDigit
  if digits.length < least then none else some (digitsValue 0 digits, cs.drop digits.length)

/-- What stands behind a given character. -/
def behind? (c : Char) : List Char → Option (List Char)
  | d :: rest => if d = c then some rest else none
  | [] => none

/-- Whether a character is a space or a tab. -/
def isBlank (c : Char) : Bool := c == ' ' || c == '\t'

/-- Reads an offset from universal time that ends the text. -/
def zone? (cs : List Char) : Option (Option (Option (Bool × Nat × Nat))) :=
  match cs.dropWhile isBlank with
  | [] => if cs.isEmpty then some none else none
  | ['Z'] => some (some none)
  | sign :: rest => do
    guard (sign = '+' ∨ sign = '-')
    let (hours, rest) ← digitsBetween? 1 2 rest
    let (minutes, rest) ←
      match rest with
      | ':' :: rest => digitsBetween? 2 2 rest
      | rest => some (0, rest)
    guard rest.isEmpty
    return some (some (sign == '-', hours, minutes))

/-- Reads the time of day behind a date. -/
def timeOfDay? (date : Date) (cs : List Char) : Option MomentParts := do
  let rest ←
    match cs with
    | 'T' :: rest => some rest
    | 't' :: rest => some rest
    | c :: rest => if isBlank c then some (rest.dropWhile isBlank) else none
    | [] => none
  let (hour, rest) ← digitsBetween? 1 2 rest
  let (minute, rest) ← digitsBetween? 2 2 (← behind? ':' rest)
  let (second, rest) ← digitsBetween? 2 2 (← behind? ':' rest)
  let (fraction, rest) :=
    match rest with
    | '.' :: rest => Decimal.takeDigits rest
    | rest => ([], rest)
  return ⟨date, some (hour, minute, second), fraction, ← zone? rest⟩

/-- Reads a date, with or without a time of day. -/
def moment? (cs : List Char) : Option MomentParts := do
  let (year, rest) ← digitsBetween? 4 4 cs
  let (month, rest) ← digitsBetween? 1 2 (← behind? '-' rest)
  let (day, rest) ← digitsBetween? 1 2 (← behind? '-' rest)
  if rest.isEmpty then return ⟨⟨year, month, day⟩, none, [], none⟩
  else timeOfDay? ⟨year, month, day⟩ rest

/-- Whether a plain text is a timestamp: a date of ten characters, or one with a time of day. -/
def isTimestampForm (text : List Char) : Bool :=
  match moment? text with
  | some parts => parts.time.isSome || text.length == 10
  | none => false

/-! ## Resolution -/

namespace Tag

/-- The tag of a plain scalar, which its form decides. -/
def ofPlain (text : List Char) : Tag :=
  if isNullForm text then .null
  else if isTruthForm text then .bool
  else if isFloatForm text then .float
  else if isIntForm text then .int
  else if text = ['<', '<'] then .merge
  else if text = ['='] then .value
  else if isTimestampForm text then .timestamp
  else .text

end Tag

end Schemata.Yaml
