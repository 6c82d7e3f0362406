import Schemata.Yaml.Node
import Schemata.Yaml.Token.Reader

/-!
# `Schemata.Yaml.Node.Reader` — from words to a tree

A text holds at most one document. Collections are read item by item; where a value is missing, an empty
scalar stands in at that place.

## Contents
- **States.** `Reading`: the words left, the tag handles, and the anchors that have been set.
- **Nodes.** `Node.read` with its companions for each form of collection.
- **Documents.** `Node.ofTokens?` and `Node.ofText?`.
-/

namespace Schemata.Yaml

/-! ## States -/

/-- What reading has got to. -/
structure Reading where
  tokens : List Token
  handles : List (String × String)
  /-- The anchors; one whose node is still being read has none yet. -/
  anchors : List (String × Option Node)

/-- A step of reading. -/
abbrev Read := StateT Reading (Except YamlError)

namespace Reading

/-- The next word; behind the last one, the end of the text. -/
def peek : Read Token := do
  match (← get).tokens with
  | token :: _ => return token
  | [] => return ⟨.streamEnd, ⟨0, 0, 0⟩, ⟨0, 0, 0⟩⟩

/-- The kind of the next word. -/
def peekKind : Read TokenKind := do return (← peek).kind

/-- Takes the next word. -/
def take : Read Token := do
  let token ← peek
  modify fun s => { s with tokens := s.tokens.drop 1 }
  return token

/-- Takes the next word if it is of a kind. -/
def takeIf (kind : TokenKind) : Read (Option Token) := do
  if (← peekKind) = kind then return some (← take) else return none

/-- Takes the next word, which has to be of a kind. -/
def expect (kind : TokenKind) : Read Token := do
  match (← takeIf kind) with
  | some token => return token
  | none => throw .malformed

end Reading

open Reading

/-! ## Nodes -/

/-- The scalar that stands in where nothing is written. -/
def emptyScalar (mark : Mark) : Node := .scalar mark .null ""

/-- What stands in front of a node: anchor, tag, and where the first of them starts. -/
structure Properties where
  anchor : Option String := none
  tag : Option String := none
  mark : Option Mark := none

/-- The full text of a tag. -/
def fullTag (handle : Option String) (suffix : String) : Read String := do
  match handle with
  | none => return suffix
  | some handle =>
    match (← get).handles.lookup handle with
    | some start => return start ++ suffix
    | none => throw .malformed

/-- Reads an anchor and a tag in either order. -/
def properties : Read Properties := do
  let first ← peek
  match first.kind with
  | .anchor name =>
    let _ ← take
    match (← peekKind) with
    | .tag handle suffix =>
      let _ ← take
      return ⟨some name, some (← fullTag handle suffix), some first.start⟩
    | _ => return ⟨some name, none, some first.start⟩
  | .tag handle suffix =>
    let _ ← take
    match (← peekKind) with
    | .anchor name =>
      let _ ← take
      return ⟨some name, some (← fullTag handle suffix), some first.start⟩
    | _ => return ⟨none, some (← fullTag handle suffix), some first.start⟩
  | _ => return {}

/-- A tag that leaves the choice to the form of the node. -/
def isOpenTag : Option String → Bool
  | none => true
  | some tag => tag == "!"

/-- The tag of a collection. -/
def collectionTag (given : Option String) (usual : Tag) : Tag :=
  if isOpenTag given then usual else Tag.ofUri (given.getD "")

/-- The tag of a scalar. Quoted scalars without a tag are texts. -/
def scalarTag (given : Option String) (isPlain : Bool) (text : String) : Tag :=
  match given with
  | none => if isPlain then Tag.ofPlain text.toList else .text
  | some "!" => Tag.ofPlain text.toList
  | some tag => Tag.ofUri tag

/-- The tag of a scalar that may be spelt with halves of pairs: where it would be a text, that is noted. -/
def spelledTag (tag : Tag) (halved : Bool) : Tag := if halved && tag == .text then .halvedText else tag

/-- The node of an alias. -/
def aliased (name : String) : Read Node := do
  match (← get).anchors.lookup name with
  | some (some node) => return node
  | some none => throw .cyclic
  | none => throw .malformed

/-- Sets an anchor whose node is about to be read. No anchor is set twice. -/
def openAnchor (name : Option String) : Read Unit := do
  match name with
  | none => return
  | some name =>
    if ((← get).anchors.lookup name).isSome then throw .malformed
    modify fun s => { s with anchors := (name, none) :: s.anchors }

/-- Gives an anchor its node. -/
def closeAnchor (name : Option String) (node : Node) : Read Node := do
  match name with
  | none => return node
  | some name =>
    modify fun s => { s with anchors := (name, some node) :: s.anchors }
    return node

/-- Whether a word ends the place of a key or a value in a block mapping. -/
def endsBlockPart : TokenKind → Bool
  | .key | .value | .blockEnd => true
  | _ => false

/-- Whether a word ends the place of a value in a flow collection that a given word closes. -/
def endsFlowPart (closing : TokenKind) (kind : TokenKind) : Bool :=
  kind == .flowEntry || kind == closing

mutual

/-- Reads a node. Block collections are allowed in block context, and items without indentation of their
own behind a key. -/
def Node.read (block indentless : Bool) : Nat → Read Node
  | 0 => throw .malformed
  | fuel + 1 => do
    match (← peekKind) with
    | .alias name =>
      let _ ← take
      aliased name
    | _ =>
      let given ← properties
      let token ← peek
      let mark := given.mark.getD token.start
      openAnchor given.anchor
      let node ←
        match token.kind with
        | .blockEntry =>
          if indentless then
            pure (.sequence mark (collectionTag given.tag .sequence) (← Node.readIndentless fuel))
          else if given.mark.isSome then pure (.scalar mark (scalarTag given.tag true "") "")
          else throw .malformed
        | .scalar text isPlain halved =>
          let _ ← take
          pure (.scalar mark (spelledTag (scalarTag given.tag isPlain text) halved) text)
        | .flowSequenceStart =>
          let _ ← take
          pure (.sequence mark (collectionTag given.tag .sequence) (← Node.readFlowItems true fuel))
        | .flowMappingStart =>
          let _ ← take
          pure (.mapping mark (collectionTag given.tag .mapping) (← Node.readFlowEntries true fuel))
        | kind =>
          if block && kind == .blockSequenceStart then
            let _ ← take
            pure (.sequence mark (collectionTag given.tag .sequence) (← Node.readBlockItems fuel))
          else if block && kind == .blockMappingStart then
            let _ ← take
            pure (.mapping mark (collectionTag given.tag .mapping) (← Node.readBlockEntries fuel))
          else if given.mark.isSome then pure (.scalar mark (scalarTag given.tag true "") "")
          else throw .malformed
      closeAnchor given.anchor node

/-- Reads the items of a block sequence up to its end. -/
def Node.readBlockItems : Nat → Read (List Node)
  | 0 => throw .malformed
  | fuel + 1 => do
    match (← takeIf .blockEntry) with
    | some dash =>
      let kind ← peekKind
      let item ←
        if kind == .blockEntry || kind == .blockEnd then pure (emptyScalar dash.finish)
        else Node.read true false fuel
      return item :: (← Node.readBlockItems fuel)
    | none =>
      let _ ← expect .blockEnd
      return []

/-- Reads items that are not indented deeper than the key they belong to. -/
def Node.readIndentless : Nat → Read (List Node)
  | 0 => throw .malformed
  | fuel + 1 => do
    match (← takeIf .blockEntry) with
    | some dash =>
      let kind ← peekKind
      let item ←
        if kind == .blockEntry || endsBlockPart kind then pure (emptyScalar dash.finish)
        else Node.read true false fuel
      return item :: (← Node.readIndentless fuel)
    | none => return []

/-- Reads the entries of a block mapping up to its end. -/
def Node.readBlockEntries : Nat → Read (List (Node × Node))
  | 0 => throw .malformed
  | fuel + 1 => do
    let first ← peek
    match first.kind with
    | .blockEnd =>
      let _ ← take
      return []
    | .key =>
      let _ ← take
      let key ←
        if endsBlockPart (← peekKind) then pure (emptyScalar first.finish) else Node.read true true fuel
      let value ← Node.readBlockValue fuel
      return (key, value) :: (← Node.readBlockEntries fuel)
    | _ => throw .malformed

/-- Reads the value of an entry of a block mapping. -/
def Node.readBlockValue : Nat → Read Node
  | 0 => throw .malformed
  | fuel + 1 => do
    match (← takeIf .value) with
    | some colon =>
      if endsBlockPart (← peekKind) then return emptyScalar colon.finish else Node.read true true fuel
    | none => return emptyScalar (← peek).start

/-- Reads the items of a sequence in brackets. A key makes an item a mapping of one entry. -/
def Node.readFlowItems (first : Bool) : Nat → Read (List Node)
  | 0 => throw .malformed
  | fuel + 1 => do
    if (← takeIf .flowSequenceEnd).isSome then return []
    if !first then
      let _ ← expect .flowEntry
    let next ← peek
    match next.kind with
    | .flowSequenceEnd =>
      let _ ← take
      return []
    | .key =>
      let _ ← take
      let kind ← peekKind
      let key ←
        if kind == .value || endsFlowPart .flowSequenceEnd kind then pure (emptyScalar next.finish)
        else Node.read false false fuel
      let value ← Node.readFlowValue .flowSequenceEnd fuel
      return .mapping next.start .mapping [(key, value)] :: (← Node.readFlowItems false fuel)
    | _ =>
      let item ← Node.read false false fuel
      return item :: (← Node.readFlowItems false fuel)

/-- Reads the value of an entry in brackets that a given word closes. -/
def Node.readFlowValue (closing : TokenKind) : Nat → Read Node
  | 0 => throw .malformed
  | fuel + 1 => do
    match (← takeIf .value) with
    | some colon =>
      if endsFlowPart closing (← peekKind) then return emptyScalar colon.finish
      else Node.read false false fuel
    | none => return emptyScalar (← peek).start

/-- Reads the entries of a mapping in braces. An entry without a key sign has no value. -/
def Node.readFlowEntries (first : Bool) : Nat → Read (List (Node × Node))
  | 0 => throw .malformed
  | fuel + 1 => do
    if (← takeIf .flowMappingEnd).isSome then return []
    if !first then
      let _ ← expect .flowEntry
    let next ← peek
    match next.kind with
    | .flowMappingEnd =>
      let _ ← take
      return []
    | .key =>
      let _ ← take
      let kind ← peekKind
      let key ←
        if kind == .value || endsFlowPart .flowMappingEnd kind then pure (emptyScalar next.finish)
        else Node.read false false fuel
      let value ← Node.readFlowValue .flowMappingEnd fuel
      return (key, value) :: (← Node.readFlowEntries false fuel)
    | _ =>
      let key ← Node.read false false fuel
      let value := emptyScalar (← peek).start
      return (key, value) :: (← Node.readFlowEntries false fuel)

end

/-! ## Documents -/

/-- The tag handles that are known without a directive. -/
def usualHandles : List (String × String) := [("!", "!"), ("!!", Tag.authority)]

/-- Reads the directives of a document. There may be one for the version, which has to be 1, and one for
each tag handle. -/
def readDirectives : Nat → Bool → List (String × String) → Read (List (String × String))
  | 0, _, _ => throw .malformed
  | fuel + 1, versioned, handles => do
    match (← peekKind) with
    | .versionDirective major _ =>
      let _ ← take
      if versioned || major != 1 then throw .malformed
      readDirectives fuel true handles
    | .tagDirective handle start =>
      let _ ← take
      if (handles.lookup handle).isSome then throw .malformed
      readDirectives fuel versioned (handles ++ [(handle, start)])
    | .otherDirective =>
      let _ ← take
      readDirectives fuel versioned handles
    | _ => return handles

/-- Whether a word ends the content of a document. -/
def endsDocument : TokenKind → Bool
  | .versionDirective _ _ | .tagDirective _ _ | .otherDirective => true
  | .documentStart | .documentEnd | .streamEnd => true
  | _ => false

/-- Moves over the marks of the ends of documents. -/
def skipDocumentEnds : Nat → Read Unit
  | 0 => throw .malformed
  | fuel + 1 => do
    if (← takeIf .documentEnd).isSome then skipDocumentEnds fuel

/-- Reads a document that is announced by directives and a marker. -/
def readAnnounced (fuel : Nat) : Read Node := do
  let handles ← readDirectives fuel false []
  let _ ← expect .documentStart
  modify fun s => { s with handles := handles ++ usualHandles }
  let next ← peek
  if endsDocument next.kind then return emptyScalar next.start else Node.read true false fuel

/-- Reads a text of at most one document. -/
def readSingle (fuel : Nat) : Read (Option Node) := do
  let kind ← peekKind
  let node ←
    if kind == .streamEnd then return none
    else if endsDocument kind && kind != .documentEnd then readAnnounced fuel
    else Node.read true false fuel
  skipDocumentEnds fuel
  let _ ← expect .streamEnd
  return some node

namespace Node

/-- The tree of a list of words, if they are those of a document. -/
def ofTokens? (tokens : List Token) : Except YamlError (Option Node) :=
  ((readSingle (2 * tokens.length + 8)).run ⟨tokens, usualHandles, []⟩).map Prod.fst

/-- The tree of a text; there is none if the text holds no document. -/
def ofText? (text : String) : Except YamlError (Option Node) := do
  ofTokens? (← Token.ofText? text)

end Node

end Schemata.Yaml
