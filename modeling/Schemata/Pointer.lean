/-!
# `Schemata.Pointer` — places inside a document

A place is a list of tokens: keys of objects and positions of arrays, from the outside in. As text, each
token follows a slash, and inside a token a tilde is written `~0` and a slash `~1`.

## Contents
- **Encoding.** `Pointer.escape`, `Pointer.extend`, `Pointer.encode`.
- **Decoding.** `Pointer.unescapeChars`, `Pointer.decode`.
- **Ancestors.** `Pointer.parent?` cuts the last token off.
-/

namespace Schemata

/-- A place inside a document, as tokens from the outside in. -/
abbrev Pointer := List String

namespace Pointer

/-! ## Encoding -/

/-- The written form of the characters of a token. -/
def escapeChars : List Char → List Char
  | [] => []
  | '~' :: cs => '~' :: '0' :: escapeChars cs
  | '/' :: cs => '~' :: '1' :: escapeChars cs
  | c :: cs => c :: escapeChars cs

/-- The written form of a token. -/
def escape (token : String) : String := String.ofList (escapeChars token.toList)

/-- A written pointer extended by a token. -/
def extend (base token : String) : String := base ++ "/" ++ escape token

/-- The written form of a pointer; the whole document is the empty text. -/
def encode (pointer : Pointer) : String := pointer.foldl extend ""

/-! ## Decoding -/

/-- The characters that a written form of a token stands for. A tilde before any other character stands for itself. -/
def unescapeChars : List Char → List Char
  | [] => []
  | '~' :: '0' :: cs => '~' :: unescapeChars cs
  | '~' :: '1' :: cs => '/' :: unescapeChars cs
  | c :: cs => c :: unescapeChars cs

/-- The pieces of a text between slashes. -/
def pieces : List Char → List Char → List (List Char)
  | current, [] => [current]
  | current, '/' :: cs => current :: pieces [] cs
  | current, c :: cs => pieces (current ++ [c]) cs

/-- The pointer that a text stands for; what stands in front of the first slash is dropped. -/
def decode (text : String) : Pointer :=
  ((pieces [] text.toList).drop 1).map fun piece => String.ofList (unescapeChars piece)

/-! ## Ancestors -/

/-- The characters in front of the last slash; all of them if there is none. -/
def beforeLastSlash (cs : List Char) : List Char :=
  if cs.contains '/' then ((cs.reverse.dropWhile (· != '/')).drop 1).reverse else cs

/-- The written pointer without its last token; the empty one has no parent. -/
def parent? (text : String) : Option String :=
  if text.isEmpty then none else some (String.ofList (beforeLastSlash text.toList))

end Pointer

end Schemata
