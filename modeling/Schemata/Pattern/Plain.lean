import Schemata.Pattern.Reader

/-!
# `Schemata.Pattern.Plain` — patterns of the plain dialect

The form of a schema is checked with a plainer dialect than the one that values are matched with. It knows
no properties and no sets of characters by name; an escaped letter has a meaning or is refused; no two groups
share a name; options for the whole pattern stand at its beginning; and what must stand in front of a place
has a fixed width. Nothing is matched with this dialect, so a pattern is read for its widths alone.

## Contents
- **Pieces.** `Piece`, a character with the backslash in front of it, and `Width`.
- **State.** `Scan` and the reading of single pieces and names.
- **Escapes and classes.** `escape`, `classItem`, `charClass`.
- **Repetition and options.** `counts`, `options`.
- **Expressions.** `alternatives`, `sequence` and `parenthesis`.
- **Patterns.** `isPattern`.
-/

namespace Schemata.Pattern.Plain

-- the core powers, also beside the powers of other libraries
attribute [local instance (high)] instPowNat

/-! ## Pieces -/

/-- A character, or one with a backslash in front of it. -/
inductive Piece
  | char (c : Char)
  | escaped (c : Char)
deriving DecidableEq, Repr

namespace Piece

/-- The pieces of a text, which must not end in a lone backslash. -/
def ofChars? : List Char → Option (List Piece)
  | [] => some []
  | '\\' :: c :: cs => (ofChars? cs).map (.escaped c :: ·)
  | '\\' :: [] => none
  | c :: cs => (ofChars? cs).map (.char c :: ·)

/-- The characters of a piece. -/
def chars : Piece → List Char
  | .char c => [c]
  | .escaped c => ['\\', c]

/-- Whether a piece is one of some characters. -/
def isOneOf (test : Char → Bool) : Piece → Bool
  | .char c => test c
  | .escaped _ => false

end Piece

/-- How many characters something matches at least and at most. -/
structure Width where
  least : Nat
  most : Nat
deriving DecidableEq, Repr

namespace Width

/-- The width above which widths are not told apart. -/
def limit : Nat := 2 ^ (64 : Nat)

/-- A width cut off at the limit. -/
def capped (least most : Nat) : Width := ⟨min least limit, min most limit⟩

/-- The width of nothing. -/
def zero : Width := ⟨0, 0⟩

/-- The width of one character. -/
def one : Width := ⟨1, 1⟩

/-- The width of one thing behind another. -/
def add (a b : Width) : Width := capped (a.least + b.least) (a.most + b.most)

/-- The width of either of two things. -/
def either (a b : Width) : Width := ⟨min a.least b.least, max a.most b.most⟩

/-- The width of something repeated; without a greatest number it has no greatest width. -/
def times (w : Width) (least : Nat) (most : Option Nat) : Width :=
  capped (w.least * least) (most.elim (if w.most = 0 then 0 else limit) (w.most * ·))

end Width

/-- What a part of a sequence is, as far as repetition is concerned. -/
inductive Role
  | anchor
  | repetition
  | item
deriving DecidableEq, Repr

/-- A part of a sequence. -/
structure Part where
  role : Role
  width : Width

/-- A part that matches one character. -/
def Part.single : Part := ⟨.item, .one⟩

/-- A part that matches at places and may not be repeated. -/
def Part.place : Part := ⟨.anchor, .zero⟩

/-! ## State -/

/-- How far a pattern has been read. -/
structure Scan where
  rest : List Piece
  /-- The widths of the groups, the whole pattern first; open ones have none. -/
  groups : List (Option Width) := [none]
  names : List (String × Nat) := []
  /-- The number of the first group that may not be referred to while looking back. -/
  boundary : Option Nat := none
  /-- The numbers of groups that conditions ask for. -/
  conditions : List Nat := []
  /-- Whether blanks and comments are skipped in the whole pattern. -/
  spaced : Bool := false

/-- A reading step. -/
abbrev Reading := StateT Scan Option

/-- Takes the next piece, which has to be there. -/
def next : Reading Piece := do
  let s ← get
  match s.rest with
  | [] => failure
  | piece :: rest =>
    set { s with rest := rest }
    return piece

/-- Takes a character if it comes next. -/
def accept (c : Char) : Reading Bool := do
  let s ← get
  if s.rest.head? = some (.char c) then
    set { s with rest := s.rest.drop 1 }
    return true
  else return false

/-- Takes a character that has to come next. -/
def expect (c : Char) : Reading Unit := do
  unless (← accept c) do failure

/-- Takes at most some number of characters that satisfy a test. -/
def takeUpTo (n : Nat) (test : Char → Bool) : Reading (List Char) := do
  let s ← get
  let taken := (s.rest.take n).takeWhile (Piece.isOneOf test)
  set { s with rest := s.rest.drop taken.length }
  return taken.flatMap Piece.chars

/-- Takes what stands in front of a closing character, which is taken too. -/
def takeTo (closing : Char) : Reading (List Char) := do
  let s ← get
  let taken := s.rest.takeWhile (· != .char closing)
  set { s with rest := s.rest.drop taken.length }
  expect closing
  return taken.flatMap Piece.chars

/-- Takes a name, which may not be empty, and the closing character behind it. -/
def nameTo (closing : Char) : Reading (List Char) := do
  let name ← takeTo closing
  if name.isEmpty then failure else return name

/-- The width of a group that is referred to. It has to be closed, and closed before looking back begins. -/
def refer (number : Nat) : Reading Width := do
  let s ← get
  if s.boundary.any (· ≤ number) then failure
  (s.groups[number]?).join

/-- The number of the group with a name. -/
def named (name : List Char) : Reading Nat := do
  if Pattern.isName name then (← get).names.lookup (String.ofList name) else failure

/-! ## Escapes and classes -/

/-- The value of some number of hexadecimal digits. -/
def hexCode (digits : Nat) : Reading Nat := do
  let taken ← takeUpTo digits CharSet.hexDigit.contains
  if taken.length = digits then return Unicode.hexValue taken else failure

/-- The code of a character with a letter for its notation; the name of a character is taken as known. -/
def noted? (c : Char) : Option (Reading Nat) :=
  match c with
  | 'x' => some (hexCode 2)
  | 'u' => some (hexCode 4)
  | 'U' => some do
    let code ← hexCode 8
    if code < 0x110000 then return code else failure
  | 'N' => some do
    expect '{'
    let _ ← nameTo '\x7d'
    return 0
  | _ => none

/-- The code that octal digits stand for. -/
def octalCode (digits : List Char) : Reading Nat :=
  if Pattern.octalValue digits ≤ 0o377 then return Pattern.octalValue digits else failure

/-- Whether a letter behind a backslash stands for a set of characters. -/
def isSetLetter (c : Char) : Bool := "dDsSwW".toList.contains c

/-- Reads what stands behind a backslash outside of classes. -/
def escape (c : Char) : Reading Part := do
  if "AbBZ".toList.contains c then return .place
  else if isSetLetter c || "afnrtv\\".toList.contains c then return .single
  else if let some read := noted? c then
    let _ ← read
    return .single
  else if c = '0' then
    let _ ← takeUpTo 2 Pattern.isOctal
    return .single
  else if c.isDigit then
    let second ← takeUpTo 1 Char.isDigit
    let third ← if second.length = 1 && (c :: second).all Pattern.isOctal then takeUpTo 1 Pattern.isOctal else pure []
    if third.isEmpty then return ⟨.item, ← refer (digitsValue 0 (c :: second))⟩
    else
      let _ ← octalCode (c :: second ++ third)
      return .single
  else if c.isAlpha then failure
  else return .single

/-- Reads an item of a class: the code of a character, or nothing for a set of them. -/
def classItem : Piece → Reading (Option Nat)
  | .char c => return some c.toNat
  | .escaped c => do
    if isSetLetter c then return none
    else if let some read := noted? c then return some (← read)
    else if Pattern.isOctal c then return some (← octalCode (c :: (← takeUpTo 2 Pattern.isOctal)))
    else if let some d := Pattern.letterChar? c then return some d.toNat
    else if c = 'b' then return some 8
    else if c.isAlphanum then failure
    else return some c.toNat

/-- Reads the members of a class and the bracket that closes it. -/
def classMembers : Nat → Bool → Reading Unit
  | 0, _ => failure
  | fuel + 1, isFirst => do
    let piece ← next
    if piece = .char ']' && !isFirst then return
    let low ← classItem piece
    if (← accept '-') then
      let piece ← next
      if piece = .char ']' then return
      match low, ← classItem piece with
      | some low, some high => if high < low then failure
      | _, _ => failure
    classMembers fuel false

/-- Reads a class behind the bracket that opens it. -/
def charClass : Reading Unit := do
  let _ ← accept '^'
  classMembers ((← get).rest.length + 1) true

/-! ## Repetition and options -/

/-- Reads counts in braces behind the opening one; braces that hold no counts are no repetition. -/
def bracedCounts : Reading (Option (Nat × Option Nat)) := do
  let saved ← get
  let least ← takeUpTo saved.rest.length Char.isDigit
  let most ← if (← accept ',') then takeUpTo saved.rest.length Char.isDigit else pure least
  if saved.rest.head? = some (.char '\x7d') || !(← accept '\x7d') then
    set saved
    return none
  else
    let low := digitsValue 0 least
    let high := if most.isEmpty then none else some (digitsValue 0 most)
    if low ≥ Pattern.repetitionLimit || high.any fun n => n ≥ Pattern.repetitionLimit || n < low then failure
    else return some (low, high)

/-- The counts of a repetition that begins with a character, if it is one. -/
def counts (c : Char) : Reading (Option (Nat × Option Nat)) :=
  match c with
  | '?' => return some (0, some 1)
  | '*' => return some (0, none)
  | '+' => return some (1, none)
  | _ => bracedCounts

/-- The letters of options. -/
def optionLetters : List Char := "imsxatu".toList

/-- Options in parentheses. -/
inductive Options
  /-- For the whole pattern. -/
  | whole (spaced : Bool)
  /-- For a group, in which blanks are skipped if they are outside unless that is switched off. -/
  | group (on off : List Char)

/-- Reads options behind the question mark. -/
def options : Reading Options := do
  let bound := (← get).rest.length
  let on ← takeUpTo bound optionLetters.contains
  if on.contains 'a' && on.contains 'u' then failure
  match ← next with
  | .char ')' => if on.isEmpty then failure else return .whole (on.contains 'x')
  | .char ':' => if on.isEmpty || on.contains 't' then failure else return .group on []
  | .char '-' =>
    let off ← takeUpTo bound optionLetters.contains
    expect ':'
    let clash := off.any fun c => on.contains c || "aut".toList.contains c
    if off.isEmpty || on.contains 't' || clash then failure else return .group on off
  | _ => failure

/-! ## Expressions -/

/-- Whether a character is a blank that may be skipped. -/
def isSkipped (c : Char) : Bool := c = ' ' || ('\t' ≤ c && c ≤ '\r')

/-- Opens a group, whose name may not be taken. -/
def openGroup (name : Option (List Char)) : Reading Nat := do
  let s ← get
  let number := s.groups.length
  match name with
  | none => set { s with groups := s.groups ++ [none] }
  | some name =>
    let text := String.ofList name
    if !Pattern.isName name || (s.names.lookup text).isSome then failure
    set { s with groups := s.groups ++ [none], names := (text, number) :: s.names }
  return number

/-- Closes a group. -/
def closeGroup (number : Nat) (width : Width) : Reading Unit :=
  modify fun s => { s with groups := s.groups.set number (some width) }

/-- The number of the group that a condition asks for. -/
def condition : Reading Nat := do
  let name ← nameTo ')'
  let number ←
    if Pattern.isName name then named name
    else if name.all Char.isDigit && digitsValue 0 name > 0 then
      modify fun s => { s with conditions := digitsValue 0 name :: s.conditions }
      pure (digitsValue 0 name)
    else failure
  if (← get).boundary.isSome then
    let _ ← refer number
  return number

mutual

/-- Reads alternatives up to a parenthesis that closes none of their own. -/
def alternatives : Nat → Bool → Bool → Bool → Reading Width
  | 0, _, _, _ => failure
  | fuel + 1, spaced, isOutermost, isFirst => do
    let width ← sequence fuel spaced (isOutermost && isFirst) .zero none
    if (← accept '|') then
      let s ← get
      let spaced := if isOutermost then s.spaced else spaced
      return width.either (← alternatives fuel spaced isOutermost false)
    else return width

/-- Reads a sequence, given the width of its parts but the last one, and the last one. -/
def sequence : Nat → Bool → Bool → Width → Option Part → Reading Width
  | 0, _, _, _, _ => failure
  | fuel + 1, spaced, isFirst, done, last => do
    let total := done.add ((last.map Part.width).getD .zero)
    let s ← get
    match s.rest with
    | [] => return total
    | .escaped c :: rest =>
      set { s with rest := rest }
      sequence fuel spaced isFirst total (some (← escape c))
    | .char c :: rest =>
      set { s with rest := rest }
      if c = '|' || c = ')' then
        set s
        return total
      else if spaced && isSkipped c then sequence fuel spaced isFirst done last
      else if spaced && c = '#' then
        set { s with rest := (rest.dropWhile (· != Piece.char '\n')).drop 1 }
        sequence fuel spaced isFirst done last
      else if c = '^' || c = '$' then sequence fuel spaced isFirst total (some .place)
      else if c = '[' then
        charClass
        sequence fuel spaced isFirst total (some .single)
      else if c = '(' then
        match ← parenthesis fuel spaced (isFirst && last.isNone) with
        | .inl part => sequence fuel spaced isFirst total (some part)
        | .inr spaced => sequence fuel spaced isFirst done last
      else if "*+?\x7b".toList.contains c then
        match ← counts c with
        | none => sequence fuel spaced isFirst total (some .single)
        | some (least, most) =>
          match last with
          | some ⟨.item, width⟩ =>
            let lazily ← accept '?'
            let _ ← if lazily then pure true else accept '+'
            sequence fuel spaced isFirst done (some ⟨.repetition, width.times least most⟩)
          | _ => failure
      else sequence fuel spaced isFirst total (some .single)

/-- Reads what a parenthesis opens: a part, or whether blanks are skipped behind it. -/
def parenthesis : Nat → Bool → Bool → Reading (Part ⊕ Bool)
  | 0, _, _ => failure
  | fuel + 1, spaced, isAtStart => do
    let enclosed (spaced : Bool) : Reading Width := do
      let width ← alternatives fuel spaced false true
      expect ')'
      return width
    let group (name : Option (List Char)) : Reading (Part ⊕ Bool) := do
      let number ← openGroup name
      let width ← enclosed spaced
      closeGroup number width
      return .inl ⟨.item, width⟩
    if !(← accept '?') then group none
    else
      let saved ← get
      match ← next with
      | .char ':' | .char '>' => return .inl ⟨.item, ← enclosed spaced⟩
      | .char '#' =>
        let _ ← takeTo ')'
        return .inr spaced
      | .char '=' | .char '!' =>
        let _ ← enclosed spaced
        return .inl ⟨.item, .zero⟩
      | .char '<' =>
        let isPositive ← accept '='
        unless isPositive do expect '!'
        let outer := (← get).boundary
        modify fun s => { s with boundary := outer.or (some s.groups.length) }
        let width ← enclosed spaced
        modify fun s => { s with boundary := outer }
        if width.least = width.most then return .inl ⟨.item, .zero⟩ else failure
      | .char 'P' =>
        match ← next with
        | .char '<' => group (some (← nameTo '>'))
        | .char '=' => return .inl ⟨.item, ← refer (← named (← nameTo ')'))⟩
        | _ => failure
      | .char '(' =>
        let _ ← condition
        let yes ← sequence fuel spaced false .zero none
        let no ← if (← accept '|') then sequence fuel spaced false .zero none else pure .zero
        expect ')'
        return .inl ⟨.item, yes.either no⟩
      | _ =>
        set saved
        match ← options with
        | .whole on =>
          unless isAtStart do failure
          let s ← get
          set { s with spaced := s.spaced || on }
          return .inr (s.spaced || on)
        | .group on off =>
          return .inl ⟨.item, ← enclosed ((spaced || on.contains 'x') && !off.contains 'x')⟩

end

/-! ## Patterns -/

/-- Whether a text is a pattern of the plain dialect: nothing is left over, and all groups that conditions ask
for exist. -/
def isPattern (source : String) : Bool :=
  match Piece.ofChars? source.toList with
  | none => false
  | some pieces =>
    match (alternatives (3 * pieces.length + 3) false true true).run { rest := pieces } with
    | none => false
    | some (_, s) => s.rest.isEmpty && s.conditions.all (· < s.groups.length)

end Schemata.Pattern.Plain
