import Schemata.Unicode.Casing
import Schemata.Unicode.CategoryData
import Schemata.Unicode.ScriptData

/-!
# `Schemata.Pattern.CharSet` — sets of characters

## Contents
- **Sets.** `CharSet`, membership `CharSet.contains`, and `CharSet.containsFolded` for comparisons that
  ignore case.
- **Properties.** The sets behind words, digits and blanks, and `CharSet.property?`, which finds the set
  that a property name stands for; `CharSet.isUnlisted` knows the names of further ones.
-/

namespace Schemata

/-! ## Sets -/

/-- A set of characters. -/
inductive CharSet
  | empty
  | single (c : Char)
  | range (low high : Char)
  | runs (r : Unicode.Runs)
  | complement (s : CharSet)
  | union (s t : CharSet)
  | inter (s t : CharSet)
deriving DecidableEq, Repr

namespace CharSet

/-- Membership. -/
def contains : CharSet → Char → Bool
  | .empty, _ => false
  | .single d, c => c == d
  | .range low high, c => low ≤ c && c ≤ high
  | .runs r, c => r.contains c.toNat
  | .complement s, c => !s.contains c
  | .union s t, c => s.contains c || t.contains c
  | .inter s t, c => s.contains c && t.contains c

/-- The characters that differ from a character in case alone, itself included. -/
def caseVariants (c : Char) : List Char :=
  let key := Unicode.caseKey c
  let positions := (Unicode.caseKeyTable.foldl (fun (acc : Nat × List Nat) step =>
    let place := acc.1 + step.1
    (place, if ((place : Int) + step.2).toNat = key.toNat then place :: acc.2 else acc.2)) (0, [])).2
  let ascii := if 'A' ≤ key ∧ key ≤ 'Z' then [key.toLower] else []
  c :: key :: ascii ++ positions.map Char.ofNat

/-- Whether some character that differs from `c` in case alone is a member. -/
def anyVariant (s : CharSet) (c : Char) : Bool := (caseVariants c).any s.contains

/-- Membership when case is ignored: a member of any case counts. -/
def containsFolded : CharSet → Char → Bool
  | .complement s, c => !s.containsFolded c
  | .union s t, c => s.containsFolded c || t.containsFolded c
  | .inter s t, c => s.containsFolded c && t.containsFolded c
  | .single d, c => Unicode.sameIgnoringCase c d
  | s, c => s.anyVariant c

/-- The union of a list of sets. -/
def unions (sets : List CharSet) : CharSet := sets.foldr .union .empty

/-- The set of the characters of a text. -/
def ofText (s : String) : CharSet := unions (s.toList.map .single)

/-! ## Properties -/

/-- Decimal digits of any script. -/
def digit : CharSet := .runs Unicode.decimalNumberRuns

/-- White space. -/
def space : CharSet := .runs Unicode.whiteSpaceRuns

/-- Letters in the wide sense. -/
def alphabetic : CharSet := .runs Unicode.alphabeticRuns

/-- Marks. -/
def mark : CharSet :=
  unions [.runs Unicode.nonspacingMarkRuns, .runs Unicode.spacingMarkRuns, .runs Unicode.enclosingMarkRuns]

/-- Characters of words: letters, marks, digits, connectors and the two joiners. -/
def word : CharSet :=
  unions [alphabetic, mark, digit, .runs Unicode.connectorPunctuationRuns, .range '\u200c' '\u200d']

/-- Punctuation. -/
def punctuation : CharSet :=
  unions ([Unicode.connectorPunctuationRuns, Unicode.dashPunctuationRuns, Unicode.openPunctuationRuns,
    Unicode.closePunctuationRuns, Unicode.initialPunctuationRuns, Unicode.finalPunctuationRuns,
    Unicode.otherPunctuationRuns].map .runs)

/-- Symbols. -/
def symbol : CharSet :=
  unions ([Unicode.mathSymbolRuns, Unicode.currencySymbolRuns, Unicode.modifierSymbolRuns,
    Unicode.otherSymbolRuns].map .runs)

/-- Letters. -/
def letter : CharSet :=
  unions ([Unicode.uppercaseLetterRuns, Unicode.lowercaseLetterRuns, Unicode.titlecaseLetterRuns,
    Unicode.modifierLetterRuns, Unicode.otherLetterRuns].map .runs)

/-- Letters with case. -/
def casedLetter : CharSet :=
  unions ([Unicode.uppercaseLetterRuns, Unicode.lowercaseLetterRuns, Unicode.titlecaseLetterRuns].map
    .runs)

/-- Numbers. -/
def number : CharSet :=
  unions ([Unicode.decimalNumberRuns, Unicode.letterNumberRuns, Unicode.otherNumberRuns].map .runs)

/-- Separators. -/
def separator : CharSet :=
  unions ([Unicode.spaceSeparatorRuns, Unicode.lineSeparatorRuns, Unicode.paragraphSeparatorRuns].map
    .runs)

/-- Characters of a category other than the unassigned ones. -/
def assigned : CharSet :=
  unions [letter, mark, number, punctuation, symbol, separator, .runs Unicode.controlCategoryRuns,
    .runs Unicode.formatRuns, .runs Unicode.privateUseRuns]

/-- Controls, format characters, private and unassigned code points. -/
def otherCategory : CharSet :=
  .complement (unions [letter, mark, number, punctuation, symbol, separator])

/-- ASCII digits. -/
def asciiDigit : CharSet := .range '0' '9'

/-- Hexadecimal digits. -/
def hexDigit : CharSet := unions [asciiDigit, .range 'a' 'f', .range 'A' 'F']

/-- Blanks inside a line. -/
def blank : CharSet := .union (.runs Unicode.spaceSeparatorRuns) (.single '\t')

/-- Characters that leave a visible trace. -/
def graphic : CharSet :=
  .inter assigned (.complement (.union space (.runs Unicode.controlCategoryRuns)))

/-- The general categories, each with its short and long names. -/
def categories : List (List String × CharSet) := [
  (["l", "letter"], letter),
  (["lc", "l&", "casedletter"], casedLetter),
  (["lu", "uppercaseletter"], .runs Unicode.uppercaseLetterRuns),
  (["ll", "lowercaseletter"], .runs Unicode.lowercaseLetterRuns),
  (["lt", "titlecaseletter"], .runs Unicode.titlecaseLetterRuns),
  (["lm", "modifierletter"], .runs Unicode.modifierLetterRuns),
  (["lo", "otherletter"], .runs Unicode.otherLetterRuns),
  (["m", "mark", "combiningmark"], mark),
  (["mn", "nonspacingmark"], .runs Unicode.nonspacingMarkRuns),
  (["mc", "spacingmark"], .runs Unicode.spacingMarkRuns),
  (["me", "enclosingmark"], .runs Unicode.enclosingMarkRuns),
  (["n", "number"], number),
  (["nd", "decimalnumber", "digit"], digit),
  (["nl", "letternumber"], .runs Unicode.letterNumberRuns),
  (["no", "othernumber"], .runs Unicode.otherNumberRuns),
  (["p", "punctuation", "punct"], punctuation),
  (["pc", "connectorpunctuation"], .runs Unicode.connectorPunctuationRuns),
  (["pd", "dashpunctuation"], .runs Unicode.dashPunctuationRuns),
  (["ps", "openpunctuation"], .runs Unicode.openPunctuationRuns),
  (["pe", "closepunctuation"], .runs Unicode.closePunctuationRuns),
  (["pi", "initialpunctuation"], .runs Unicode.initialPunctuationRuns),
  (["pf", "finalpunctuation"], .runs Unicode.finalPunctuationRuns),
  (["po", "otherpunctuation"], .runs Unicode.otherPunctuationRuns),
  (["s", "symbol"], symbol),
  (["sm", "mathsymbol"], .runs Unicode.mathSymbolRuns),
  (["sc", "currencysymbol"], .runs Unicode.currencySymbolRuns),
  (["sk", "modifiersymbol"], .runs Unicode.modifierSymbolRuns),
  (["so", "othersymbol"], .runs Unicode.otherSymbolRuns),
  (["z", "separator"], separator),
  (["zs", "spaceseparator"], .runs Unicode.spaceSeparatorRuns),
  (["zl", "lineseparator"], .runs Unicode.lineSeparatorRuns),
  (["zp", "paragraphseparator"], .runs Unicode.paragraphSeparatorRuns),
  (["c", "other"], otherCategory),
  (["cc", "control", "cntrl"], .runs Unicode.controlCategoryRuns),
  (["cf", "format"], .runs Unicode.formatRuns),
  (["co", "privateuse"], .runs Unicode.privateUseRuns),
  (["cs", "surrogate"], .empty),
  (["cn", "unassigned"], .complement assigned),
  (["assigned"], assigned)]

/-- The properties that a character has or has not, each with its names. -/
def binaryProperties : List (List String × CharSet) := [
  (["alphabetic", "alpha"], alphabetic),
  (["lowercase", "lower"], .runs Unicode.lowercaseRuns),
  (["uppercase", "upper"], .runs Unicode.uppercaseRuns),
  (["whitespace", "wspace", "space"], space),
  (["alnum"], .union alphabetic digit),
  (["blank"], blank),
  (["graph"], graphic),
  (["print"], .inter (.union graphic blank) (.complement (.runs Unicode.controlCategoryRuns))),
  (["word"], word),
  (["xdigit", "hexdigit", "hex"], .union hexDigit digit),
  (["any"], .complement .empty),
  (["ascii"], .range '\x00' '\x7f'),
  (["posixalnum"], .union alphabetic asciiDigit),
  (["posixdigit"], asciiDigit),
  (["posixpunct"], .union punctuation (.inter symbol (.complement alphabetic))),
  (["posixxdigit"], hexDigit)]

/-- The set listed under a name. -/
def named? (table : List (List String × CharSet)) (name : String) : Option CharSet :=
  (table.find? fun entry => entry.1.contains name).map Prod.snd

/-- The set of a script. -/
def script? (name : String) : Option CharSet := (Unicode.script? name).map .runs

/-- A property name without its separators, in lower case. -/
def bareName (name : List Char) : String :=
  String.ofList ((name.filter fun c => c != ' ' && c != '_' && c != '-').map Char.toLower)

/-- The set that a truth value of a binary property selects. -/
def truthValue? (s : CharSet) (value : String) : Option CharSet :=
  if ["y", "yes", "t", "true"].contains value then some s
  else if ["n", "no", "f", "false"].contains value then some (.complement s)
  else none

/-- Further properties that characters have by the standard, for which there are no sets here. -/
def unlisted : List String := ["age", "asciihexdigit", "ahex", "bidiclass", "bc", "bidicontrol", "bidic",
  "bidimirrored", "bidim", "block", "blk", "canonicalcombiningclass", "ccc", "cased", "caseignorable", "ci",
  "changeswhencasefolded", "cwcf", "changeswhencasemapped", "cwcm", "changeswhenlowercased", "cwl",
  "changeswhentitlecased", "cwt", "changeswhenuppercased", "cwu", "dash", "decompositiontype", "dt",
  "defaultignorablecodepoint", "di", "deprecated", "dep", "diacritic", "dia", "eastasianwidth", "ea", "emoji",
  "emojicomponent", "ecomp", "emojimodifier", "emod", "emojimodifierbase", "ebase", "emojipresentation", "epres",
  "extendedpictographic", "extpict", "extender", "ext", "graphemebase", "grbase", "graphemeclusterbreak", "gcb",
  "graphemeextend", "grext", "graphemelink", "grlink", "hangulsyllabletype", "hst", "horizspace", "hyphen",
  "idcontinue", "idc", "ideographic", "ideo", "idsbinaryoperator", "idsb", "idstart", "ids",
  "idstrinaryoperator", "idst", "indicpositionalcategory", "inpc", "indicsyllabiccategory", "insc",
  "joincontrol", "joinc", "joininggroup", "jg", "joiningtype", "jt", "linebreak", "lb",
  "logicalorderexception", "loe", "math", "noncharactercodepoint", "nchar", "numerictype", "nt", "numericvalue",
  "nv", "otheralphabetic", "oalpha", "otherlowercase", "olower", "othermath", "omath", "otheruppercase",
  "oupper", "patternsyntax", "patsyn", "patternwhitespace", "patws", "prependedconcatenationmark", "pcm",
  "quotationmark", "qmark", "radical", "regionalindicator", "ri", "scriptextensions", "scx", "sentencebreak",
  "sb", "sentenceterminal", "sterm", "softdotted", "sd", "terminalpunctuation", "term", "unifiedideograph",
  "uideo", "variationselector", "vs", "vertspace", "wordbreak", "wb", "xidcontinue", "xidc", "xidstart", "xids"]

/-- The set that a lone name stands for: a category, a script, or a binary property. -/
def lone? (name : String) : Option CharSet :=
  let bare := String.ofList (name.toList.drop 2)
  let isForm := if name.startsWith "is" then (named? binaryProperties bare).or (script? bare) else none
  (((named? categories name).or (script? name)).or (named? binaryProperties name)).or isForm

/-- Whether a name is that of a property, or of a block of characters, for which there is no set here. -/
def isUnlisted (name : List Char) : Bool :=
  let bare := bareName name
  unlisted.contains bare || (bare.startsWith "in" && bare.length > 2)

/-- The set that a property stands for, given the name of the property, if any, and of its value. In a
class between colons, four names stand for their ASCII forms. -/
def property? (property : Option (List Char)) (value : List Char) (betweenColons : Bool) :
    Option CharSet :=
  let value := bareName value
  match property.map bareName with
  | none =>
    let posix := betweenColons && ["alnum", "digit", "punct", "xdigit"].contains value
    lone? (if posix then "posix" ++ value else value)
  | some property =>
    if ["gc", "generalcategory"].contains property then named? categories value
    else if ["sc", "script"].contains property then script? value
    else (named? binaryProperties property).bind fun s => truthValue? s value

end CharSet

end Schemata
