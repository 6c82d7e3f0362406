import Schemata.Number.Decimal
import Schemata.Pattern.Basic
import Schemata.Pattern.Engine
import Schemata.Text.Blank

/-!
# `Schemata.Pattern.Reader` — reading regular expressions

A pattern text is read from left to right. What is written without being special stands for itself,
braces that are no repetition included. Options that are set for the whole pattern in its midst take
effect from its beginning, so the text is read again with them.

Some notations are known for what they are and not read: calls of groups and of the whole pattern, groups that
share their numbers between branches, characters by their names, named lists, approximate matching, sets made
of sets, the locale, and properties that are not listed. A pattern that uses one of them is not called malformed
but ends with a fault. Of the options, those for full case folding, for word boundaries by the default rules of
Unicode, for the direction of the search and for the choice among matches are read without effect.

## Contents
- **State.** `Options`, `Scan`, and the reading of single characters.
- **Pieces.** Names, escapes, properties, classes and repetition counts.
- **Expressions.** `alternatives`, `sequence` and `parenthesis`, bounded by a number of steps that the
  length of the text exceeds nowhere.
- **Patterns.** `Pattern.read` and `Pattern.engine`.
-/

namespace Schemata

-- the core powers, also beside the powers of other libraries
attribute [local instance (high)] instPowNat

namespace Pattern

/-! ## State -/

/-- The options that are set, by their letters; the versions of the notation go by their digits. -/
abbrev Options := List Char

namespace Options

/-- Options set in either of two. -/
def join (a b : Options) : Options := a ++ b.filter fun c => !a.contains c

/-- Options set in the first and not in the second. -/
def without (a b : Options) : Options := a.filter fun c => !b.contains c

/-- Whether two sets of options have one in common. -/
def overlaps (a b : Options) : Bool := a.any fun c => b.contains c

/-- The letters of all options but the versions. -/
def letters : List Char := "abefiLmprsuwx".toList

/-- The options that can be set for nothing less than a whole pattern. -/
def forWhole : Options := "bepr01".toList

/-- Whether options contradict each other when they are set for a whole pattern. -/
def clash (o : Options) : Bool :=
  (o.contains '0' && o.contains '1') || ("aLu".toList.filter o.contains).length > 1

end Options

/-- Why reading stops early. -/
inductive Interruption
  | malformed
  /-- A notation is met that is not read. -/
  | unread
  | rescan (options : Options)
deriving DecidableEq, Repr

/-- How far a pattern has been read. -/
structure Scan where
  rest : List Char
  options : Options
  wholeOptions : Options
  groupCount : Nat
  names : List (String × Nat)
  openGroups : List Nat
  references : List (Except String Nat)

/-- A reading step. -/
abbrev Reading := StateT Scan (Except Interruption)

/-- Gives a pattern up. -/
def malformed {α : Type} : Reading α := throw .malformed

/-- Stops at a notation that is not read. -/
def unread {α : Type} : Reading α := throw .unread

/-- The rest of a text behind blanks and comments. -/
def skipSpace : List Char → Bool → List Char
  | [], _ => []
  | c :: cs, true => if c = '\n' then skipSpace cs false else skipSpace cs true
  | c :: cs, false =>
    if Text.isBlank c then skipSpace cs false
    else if c = '#' then skipSpace cs true
    else c :: cs

/-- Skips blanks and comments where the options say so. -/
def skipIgnored : Reading Unit := modify fun s =>
  if s.options.contains 'x' then { s with rest := skipSpace s.rest false } else s

/-- The next character, taken as it is. -/
def nextRaw : Reading (Option Char) := do
  let s ← get
  match s.rest with
  | [] => return none
  | c :: cs =>
    set { s with rest := cs }
    return some c

/-- The next character that counts. -/
def next : Reading (Option Char) := do
  skipIgnored
  nextRaw

/-- Takes a text that comes next, or nothing. -/
def accept (text : String) : Reading Bool := do
  let s ← get
  let rest := if s.options.contains 'x' then skipSpace s.rest false else s.rest
  if text.toList.isPrefixOf rest then
    set { s with rest := rest.drop text.length }
    return true
  else return false

/-- Takes a text that has to come next. -/
def expect (text : String) : Reading Unit := do
  unless (← accept text) do malformed

/-- Takes the characters that come next and satisfy a test. -/
def takeWhile (test : Char → Bool) : Reading (List Char) := do
  let s ← get
  set { s with rest := s.rest.dropWhile test }
  return s.rest.takeWhile test

/-- Goes back to an earlier state if a step fails. -/
def attempt {α : Type} (step : Reading α) : Reading (Option α) := fun s =>
  match step s with
  | .ok (a, t) => .ok (some a, t)
  | .error .malformed => .ok (none, s)
  | .error e => .error e

/-! ## Pieces -/

/-- Whether a text is a name: a letter or low line, then characters of words. -/
def isName : List Char → Bool
  | [] => false
  | c :: cs =>
    (CharSet.letter.contains c || c == '_' || CharSet.contains (.runs Unicode.letterNumberRuns) c) &&
      cs.all fun d => CharSet.word.contains d && d != '\u200c' && d != '\u200d'

/-- Reads the name or number of a group, which ends in front of a closing bracket. -/
def groupName (numbers : Bool) : Reading (Except String Nat) := do
  let name ← takeWhile fun c => c != ')' && c != '>'
  if name.isEmpty then malformed
  else if name.all CharSet.digit.contains then
    if numbers && name.all Char.isDigit && digitsValue 0 name ≥ 1 then
      return .ok (digitsValue 0 name)
    else malformed
  else if isName name then return .error (String.ofList name)
  else malformed

/-- The number of a group that is referred to, if it is known already. -/
def groupNumber? (s : Scan) : Except String Nat → Option Nat
  | .ok n => some n
  | .error name => s.names.lookup name

/-- Whether a group that is referred to has been opened and not closed. -/
def isOpen (reference : Except String Nat) : Reading Bool := do
  let s ← get
  return ((groupNumber? s reference).map s.openGroups.contains).getD false

/-- Opens a group; groups of one name share one number. -/
def openGroup (name : Option String) : Reading Nat := do
  let s ← get
  match name.bind fun n => s.names.lookup n with
  | some number =>
    set { s with openGroups := number :: s.openGroups }
    return number
  | none =>
    let number := s.groupCount + 1
    let names := match name with
      | some n => (n, number) :: s.names
      | none => s.names
    set { s with groupCount := number, names := names, openGroups := number :: s.openGroups }
    return number

/-- Closes the group that was opened last. -/
def closeGroup : Reading Unit := modify fun s => { s with openGroups := s.openGroups.drop 1 }

/-- A reference to a group; that the group exists is checked when the whole pattern has been read. -/
def referTo (reference : Except String Nat) : Reading Regex := do
  if (← isOpen reference) then malformed
  let s ← get
  set { s with references := reference :: s.references }
  let number := match groupNumber? s reference with
    | some n => n
    | none => 0
  return .backReference number (s.options.contains 'i')

/-- A set under the current options. -/
def setOf (s : CharSet) : Reading Regex := do
  return .set s ((← get).options.contains 'i')

/-- A character under the current options. -/
def literal (c : Char) : Reading Regex := setOf (.single c)

/-- A property under the current options. -/
def propertySet (s : CharSet) (positive : Bool) : Reading CharSet := do
  let s := if (← get).options.contains 'a' then .inter s (.range '\x00' '\x7f') else s
  return if positive then s else .complement s

/-- Whether a character may stand in the name of a property. -/
def isPropertyChar (c : Char) : Bool :=
  c.isAlphanum || c == ' ' || c == '&' || c == '_' || c == '-' || c == '.'

/-- Reads the name of a property, perhaps with its value behind a colon or an equals sign. -/
def propertyName : Reading (Option (List Char) × List Char) := do
  let name ← takeWhile isPropertyChar
  let s ← get
  match s.rest with
  | c :: cs =>
    if c = ':' ∨ c = '=' then
      set { s with rest := cs }
      let value ← takeWhile fun d => isPropertyChar d || d == '/'
      let value := Text.stripChars value
      if value.isEmpty then
        set s
        return (none, name)
      else return (some name, value)
    else return (none, name)
  | [] => return (none, name)

/-- Reads a property behind its letter; what is no property stands for the letter itself. -/
def property (positive : Bool) : Reading CharSet := do
  let saved ← get
  let fallback : Reading CharSet := do
    set saved
    return .single (if positive then 'p' else 'P')
  match (← nextRaw) with
  | some '{' =>
    let negated ← accept "^"
    let (name, value) ← propertyName
    if (← accept "\x7d") then
      match CharSet.property? name value false with
      | some s => propertySet s (positive != negated)
      | none => if CharSet.isUnlisted (name.getD value) then unread else malformed
    else fallback
  | some c =>
    if "CLMNPSZ".toList.contains c then
      match CharSet.property? none [c] false with
      | some s => propertySet s positive
      | none => malformed
    else fallback
  | none => fallback

/-- Reads an exact number of hexadecimal digits. -/
def hexDigits : Nat → List Char → Reading (List Char)
  | 0, taken => return taken
  | n + 1, taken => do
    match (← nextRaw) with
    | some c => if CharSet.hexDigit.contains c then hexDigits n (taken ++ [c]) else malformed
    | none => malformed

/-- The character with a code; codes beyond the last character are refused. -/
def charOfCode (n : Nat) : Reading Char :=
  if n < 0x110000 then return Char.ofNat n else malformed

/-- Whether a character is an octal digit. -/
def isOctal (c : Char) : Bool := '0' ≤ c && c ≤ '7'

/-- The value of octal digits. -/
def octalValue (cs : List Char) : Nat := cs.foldl (fun n c => n * 8 + (c.toNat - '0'.toNat)) 0

/-- Reads the rest of an octal code of at most three digits. -/
def octal (first : Char) : Reading Char := do
  let s ← get
  let more := (s.rest.take 2).takeWhile isOctal
  set { s with rest := s.rest.drop more.length }
  if isOctal first then charOfCode (octalValue (first :: more)) else malformed

/-- The set behind an escaped letter. -/
def letterSet? : Char → Option (CharSet × Bool)
  | 'd' => some (CharSet.digit, true)
  | 'D' => some (CharSet.digit, false)
  | 'h' => some (CharSet.blank, true)
  | 's' => some (CharSet.space, true)
  | 'S' => some (CharSet.space, false)
  | 'w' => some (CharSet.word, true)
  | 'W' => some (CharSet.word, false)
  | _ => none

/-- The character behind an escaped letter. -/
def letterChar? : Char → Option Char
  | 'a' => some '\x07'
  | 'b' => some '\x08'
  | 'f' => some '\x0c'
  | 'n' => some '\n'
  | 'r' => some '\r'
  | 't' => some '\t'
  | 'v' => some '\x0b'
  | _ => none

/-- The anchor behind an escaped letter. -/
def letterAnchor? : Char → Option Regex
  | 'A' => some (.anchor .textStart)
  | 'b' => some (.anchor .wordBoundary)
  | 'B' => some (.anchor .insideWord)
  | 'G' => some (.anchor .searchStart)
  | 'K' => some .empty
  | 'm' => some (.anchor .wordStart)
  | 'M' => some (.anchor .wordEnd)
  | 'Z' => some (.anchor .textEnd)
  | _ => none

/-- Escapes that have one meaning inside and outside of classes, with the character behind the
backslash. A plain character is told apart, since it may begin a range. -/
def commonEscape (c : Char) : Reading (Char ⊕ CharSet) := do
  if c = 'x' then return .inl (← charOfCode (Unicode.hexValue (← hexDigits 2 [])))
  else if c = 'u' then return .inl (← charOfCode (Unicode.hexValue (← hexDigits 4 [])))
  else if c = 'U' then return .inl (← charOfCode (Unicode.hexValue (← hexDigits 8 [])))
  else if c = 'N' then
    let s ← get
    if s.rest.head? = some '{' then unread else return .inl 'N'
  else if c = 'p' ∨ c = 'P' then
    match (← property (c = 'p')) with
    | .single d => return .inl d
    | s => return .inr s
  else if c.isAlpha then
    match letterSet? c with
    | some (s, positive) => return .inr (← propertySet s positive)
    | none =>
      match letterChar? c with
      | some d => return .inl d
      | none => malformed
  else return .inl c

/-- A numeric escape outside of a class: an octal code, or the number of a group. -/
def numericEscape (c : Char) : Reading Regex := do
  if c = '0' then literal (← octal c)
  else
    let s ← get
    match s.rest with
    | d :: rest =>
      if d.isDigit then
        match rest with
        | e :: rest' =>
          if isOctal c && isOctal d && isOctal e then
            set { s with rest := rest' }
            literal (← charOfCode (octalValue [c, d, e] % 512))
          else
            set { s with rest := rest }
            referTo (.ok (digitsValue 0 [c, d]))
        | [] =>
          set { s with rest := rest }
          referTo (.ok (digitsValue 0 [c, d]))
      else referTo (.ok (digitsValue 0 [c]))
    | [] => referTo (.ok (digitsValue 0 [c]))

/-- The ends of lines: one break or the two-character break. -/
def lineBreak : Regex :=
  .atomic (.alt (.seq (.set (.single '\r') false) (.set (.single '\n') false))
    (.set (.unions [.range '\n' '\r', .single '\u0085', .range '\u2028' '\u2029']) false))

/-- An escape outside of a class, behind the backslash. -/
def escape : Reading Regex := do
  match (← nextRaw) with
  | none => malformed
  | some 'g' =>
    let reference ← attempt do
      expect "<"
      let name ← groupName true
      expect ">"
      referTo name
    match reference with
    | some r => return r
    | none => literal 'g'
  | some 'L' => unread
  | some 'R' => return lineBreak
  | some 'X' => return .cluster
  | some c =>
    match letterAnchor? c with
    | some r => return r
    | none =>
      if c.isDigit then numericEscape c
      else
        match (← commonEscape c) with
        | .inl d => literal d
        | .inr s => setOf s

/-- The name of a class between colons inside brackets, and whether its complement is meant. -/
def colonName : Reading (Bool × Option (List Char) × List Char) := do
  expect "[:"
  let negated ← accept "^"
  let name ← propertyName
  expect ":]"
  return (negated, name)

/-- One item of a class: a character, which may begin a range, or a set. -/
def classItem : Reading (Char ⊕ CharSet) := do
  let s ← get
  match s.rest with
  | '\\' :: rest =>
    set { s with rest := rest }
    match (← nextRaw) with
    | none => malformed
    | some c =>
      if c.isDigit then return .inl (← octal c)
      else if c = 'b' then return .inl '\x08'
      else commonEscape c
  | '[' :: ':' :: _ =>
    match (← attempt colonName) with
    | some (negated, name, value) =>
      match CharSet.property? name value true with
      | some t => return .inr (← propertySet t (!negated))
      | none => if CharSet.isUnlisted (name.getD value) then unread else malformed
    | none =>
      set { s with rest := s.rest.drop 1 }
      return .inl '['
  | c :: rest =>
    set { s with rest := rest }
    return .inl c
  | [] => malformed

/-- Whether a text begins with a set inside a set or with an operation on sets. -/
def startsSetNotation : List Char → Bool
  | '[' :: ':' :: _ => false
  | '[' :: _ => true
  | c :: d :: _ => c == d && "|&-~".toList.contains c
  | _ => false

/-- One member of a class: an item or a range. -/
def classMember : Reading CharSet := do
  match (← classItem) with
  | .inr s => return s
  | .inl low =>
    let s ← get
    if s.options.contains '1' && startsSetNotation s.rest then return .single low
    match s.rest with
    | '-' :: ']' :: rest =>
      set { s with rest := ']' :: rest }
      return .union (.single low) (.single '-')
    | '-' :: rest =>
      set { s with rest := rest }
      match (← classItem) with
      | .inl high => if low > high then malformed else return .range low high
      | .inr t => return .unions [.single low, .single '-', t]
    | _ => return .single low

/-- The members of a class up to its closing bracket, at least one. -/
def classMembers : Nat → Reading CharSet
  | 0 => malformed
  | bound + 1 => do
    if (← get).options.contains '1' && startsSetNotation (← get).rest then unread
    let member ← classMember
    let s ← get
    match s.rest with
    | ']' :: rest =>
      set { s with rest := rest }
      return member
    | _ => return .union member (← classMembers bound)

/-- A class behind its opening bracket. -/
def charClass : Reading Regex := do
  let saved ← get
  let (negated, rest) := match saved.rest with
    | '^' :: rest => (true, rest)
    | rest => (false, rest)
  set { saved with rest := rest }
  let s ← classMembers (rest.length + 1)
  setOf (if negated then .complement s else s)

/-- The greatest number of repetitions. -/
def repetitionLimit : Nat := 2 ^ (32 : Nat) - 1

/-- Reads counts in braces behind the opening one; braces that hold no counts are no repetition. -/
def counts : Reading (Option (Nat × Option Nat)) := do
  let saved ← get
  let least ← takeWhile Char.isDigit
  let comma ← accept ","
  let most ← if comma then takeWhile Char.isDigit else pure least
  if (!comma && least.isEmpty) || !(← accept "\x7d") then
    set saved
    return none
  else
    let low := digitsValue 0 least
    let high := if most.isEmpty then none else some (digitsValue 0 most)
    if low ≥ repetitionLimit || high.any (· ≥ repetitionLimit) || high.any (· < low) then malformed
    else return some (low, high)

/-- The counts of a repetition that begins with a character, if it is one. -/
def quantifier (c : Char) : Reading (Option (Nat × Option Nat)) :=
  match c with
  | '?' => return some (0, some 1)
  | '*' => return some (0, none)
  | '+' => return some (1, none)
  | _ => counts

/-- Whether a letter names a sort of errors in approximate matching. -/
def isErrorSort (c : Char) : Bool := "deis".toList.contains c

/-- Why braces that hold no counts stop the reading, if they do: they ask for approximate matching, or they begin
like that and go on otherwise. -/
def approximation? (cs : List Char) : Option Interruption :=
  match cs.takeWhile Char.isDigit, cs.dropWhile Char.isDigit with
  | [], c :: d :: _ =>
    if isErrorSort c then some (if "<,:\x7d".toList.contains d then .unread else .malformed) else none
  | [], [c] => if isErrorSort c then some .malformed else none
  | _ :: _, '<' :: '=' :: c :: '<' :: _ => if isErrorSort c then some .unread else none
  | _ :: _, '<' :: c :: '<' :: _ => if isErrorSort c then some .unread else none
  | _ :: _, c :: d :: _ => if isErrorSort c ∧ c ≠ 'e' ∧ (d = '+' ∨ d = '<') then some .unread else none
  | _, _ => none

/-- Reads option letters up to a character that is none. -/
def optionLetters : Nat → Options → Reading Options
  | 0, acc => return acc
  | bound + 1, acc => do
    let saved ← get
    match (← nextRaw) with
    | some 'V' =>
      match (← nextRaw) with
      | some '0' => optionLetters bound (acc.join ['0'])
      | some '1' => optionLetters bound (acc.join ['1'])
      | _ =>
        set saved
        return acc
    | some c =>
      if Options.letters.contains c then optionLetters bound (acc.join [c])
      else
        set saved
        return acc
    | none => return acc

/-! ## Expressions -/

/-- The expressions of a sequence joined together. -/
def joinAll (parts : List Regex) : Regex :=
  match parts with
  | [] => .empty
  | r :: rs => rs.foldl .seq r

mutual

/-- Reads alternatives up to a closing parenthesis or the end. -/
def alternatives : Nat → Reading Regex
  | 0 => malformed
  | bound + 1 => do
    let first ← sequence bound [] none
    if (← accept "|") then return .alt first (← alternatives bound) else return first

/-- Reads a sequence. Repetition applies to `last`, the part read just before it, if that has not been
repeated already. -/
def sequence : Nat → List Regex → Option Regex → Reading Regex
  | 0, _, _ => malformed
  | bound + 1, done, last => do
    let saved ← get
    let all := done ++ last.toList
    match (← next) with
    | none => return joinAll all
    | some ')' | some '|' =>
      set saved
      return joinAll all
    | some '\\' => sequence bound all (some (← escape))
    | some '(' =>
      match (← parenthesis bound) with
      | some r => sequence bound all (some r)
      | none => sequence bound done last
    | some '.' =>
      let o := (← get).options
      let r : Regex := .set (if o.contains 's' then .complement .empty else .complement (.single '\n')) false
      sequence bound all (some r)
    | some '[' => sequence bound all (some (← charClass))
    | some '^' =>
      let o := (← get).options
      sequence bound all (some (.anchor (if o.contains 'm' then .lineStart else .textStart)))
    | some '$' =>
      let o := (← get).options
      sequence bound all (some (.anchor (if o.contains 'm' then .lineEnd else .lastLineEnd)))
    | some c =>
      if c = '?' ∨ c = '*' ∨ c = '+' ∨ c = '{' then
        match (← quantifier c) with
        | none =>
          match approximation? (← get).rest with
          | some stop => throw stop
          | none => sequence bound all (some (← literal c))
        | some (least, most) =>
          match last with
          | none => malformed
          | some r =>
            let manner ← (do
              if (← accept "?") then return Manner.lazy
              else if (← accept "+") then return Manner.possessive
              else return Manner.greedy)
            let repeated := if least = 1 ∧ most = some 1 then r else .iterate r least most manner
            sequence bound (done ++ [repeated]) none
      else sequence bound all (some (← literal c))

/-- Reads what follows an opening parenthesis. Options and comments are no part of the sequence. -/
def parenthesis : Nat → Reading (Option Regex)
  | 0 => malformed
  | bound + 1 => do
    let saved ← get
    match saved.rest with
    | '?' :: '#' :: rest =>
      let behind := rest.dropWhile (· != ')')
      if behind.isEmpty then malformed
      else
        set { saved with rest := behind.drop 1 }
        return none
    | '?' :: 'P' :: '<' :: rest | '?' :: '<' :: rest =>
      match saved.rest, rest with
      | '?' :: '<' :: _, '=' :: behind =>
        set { saved with rest := behind }
        return some (.look false true (← enclosed bound))
      | '?' :: '<' :: _, '!' :: behind =>
        set { saved with rest := behind }
        return some (.look false false (← enclosed bound))
      | _, _ =>
        set { saved with rest := rest }
        match (← groupName false) with
        | .ok _ => malformed
        | .error name =>
          let number ← openGroup (some name)
          expect ">"
          let r ← enclosed bound
          closeGroup
          return some (.group number r)
    | '?' :: 'P' :: '=' :: rest =>
      set { saved with rest := rest }
      let name ← groupName true
      expect ")"
      return some (← referTo name)
    | '?' :: '=' :: rest =>
      set { saved with rest := rest }
      return some (.look true true (← enclosed bound))
    | '?' :: '!' :: rest =>
      set { saved with rest := rest }
      return some (.look true false (← enclosed bound))
    | '?' :: '>' :: rest =>
      set { saved with rest := rest }
      return some (.atomic (← enclosed bound))
    | '?' :: '(' :: rest =>
      set { saved with rest := rest }
      let name ← groupName true
      expect ")"
      let yes ← sequence bound [] none
      let no ← if (← accept "|") then sequence bound [] none else pure .empty
      expect ")"
      modify fun s => { s with references := name :: s.references }
      let number := (groupNumber? (← get) name).getD 0
      return some (.conditional number yes no)
    | '?' :: '|' :: _ | '?' :: 'R' :: _ | '?' :: '&' :: _ | '?' :: 'P' :: '>' :: _ => unread
    | '?' :: c :: rest =>
      if c.isDigit then unread
      set { saved with rest := c :: rest }
      let on ← optionLetters (rest.length + 1) []
      let minus ← accept "-"
      let off ← if minus then optionLetters rest.length [] else pure []
      if (minus && off.isEmpty) || off.overlaps Options.forWhole || on.overlaps off then malformed
      let whole : Options := on.filter Options.forWhole.contains
      if !(whole.without saved.wholeOptions).isEmpty then throw (.rescan (saved.wholeOptions.join whole))
      if (← accept ":") then
        let s ← get
        set { s with options := (s.options.join on).without off }
        let r ← alternatives bound
        expect ")"
        modify fun t => { t with options := s.options }
        return some r
      else if (← accept ")") then
        -- The second version of the notation sets options from here on, the first one for the whole pattern.
        if saved.wholeOptions.contains '1' then
          modify fun s => { s with options := (s.options.join on).without off }
          return none
        else if minus then malformed
        else if (on.without saved.wholeOptions).isEmpty then return none
        else throw (.rescan (saved.wholeOptions.join on))
      else malformed
    | _ =>
      let number ← openGroup none
      let r ← enclosed bound
      closeGroup
      return some (.group number r)

/-- Reads alternatives and the closing parenthesis; options set inside end there. -/
def enclosed : Nat → Reading Regex
  | 0 => malformed
  | bound + 1 => do
    let saved ← get
    let r ← alternatives bound
    expect ")"
    modify fun s => { s with options := saved.options }
    return r

end

/-! ## Patterns -/

/-- Reads a whole pattern under options for the whole of it. -/
def whole (source : List Char) (options : Options) : Except Interruption Regex := do
  let start : Scan := ⟨source, options, options, 0, [], [], []⟩
  let (r, s) ← (alternatives (8 * (source.length + 2))).run start
  if !s.rest.isEmpty then throw .malformed
  else if s.references.all fun reference =>
      (groupNumber? s reference).any fun n => 1 ≤ n && n ≤ s.groupCount then
    return r
  else throw .malformed

/-- Reads a pattern again while it asks for further options, of which there are no more than letters. -/
def rescan : Nat → List Char → Options → Except Refusal Regex
  | 0, _, _ => .error .malformed
  | turns + 1, source, options =>
    match whole source options with
    | .ok r => if options.clash then .error (.fault .noValue) else .ok r
    | .error .malformed => .error .malformed
    | .error .unread => .error (.fault .unsupported)
    | .error (.rescan more) => rescan turns source more

/-- Reads a pattern. -/
def read (source : String) : Except Refusal Pattern :=
  (rescan (Options.letters.length + 3) source.toList []).map fun r => ⟨r.search⟩

/-- The engine that reads and searches in this way. -/
@[reducible] def engine : Engine := ⟨read⟩

end Pattern

end Schemata
