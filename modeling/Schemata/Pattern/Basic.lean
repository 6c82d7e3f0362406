import Schemata.Pattern.CharSet
import Schemata.Unicode.Cluster

/-!
# `Schemata.Pattern.Basic` — regular expressions and searching

A pattern is matched by trying its alternatives from left to right, with repetition going as far as its
manner says and giving back on failure. What comes behind a part is handed to it as a continuation, so
every function here recurses on the expression, and repetition on a bound that the rest of the text
sets: an optional turn that consumes nothing is not taken.

## Contents
- **Expressions.** `Regex`, with `Manner` of repetition and `Anchor`s.
- **Matching.** `Place` in a text, `Regex.run`, `Regex.repeated`.
- **Searching.** `Regex.search`.
-/

namespace Schemata

/-! ## Expressions -/

/-- How far a repetition goes: as far as possible, no further than needed, or as far as possible
without giving back. -/
inductive Manner
  | greedy
  | lazy
  | possessive
deriving DecidableEq, Repr

/-- Conditions on a place in the text. -/
inductive Anchor
  | textStart
  | lineStart
  | textEnd
  | lastLineEnd
  | lineEnd
  | wordBoundary
  | insideWord
  | wordStart
  | wordEnd
  | searchStart
deriving DecidableEq, Repr

/-- A regular expression. -/
inductive Regex
  | empty
  | set (s : CharSet) (ignoreCase : Bool)
  | cluster
  | anchor (a : Anchor)
  | seq (r s : Regex)
  | alt (r s : Regex)
  | group (number : Nat) (r : Regex)
  | backReference (number : Nat) (ignoreCase : Bool)
  | look (ahead positive : Bool) (r : Regex)
  | atomic (r : Regex)
  | iterate (r : Regex) (least : Nat) (most : Option Nat) (manner : Manner)
  | conditional (number : Nat) (r s : Regex)
deriving DecidableEq, Repr

/-! ## Matching -/

/-- A place in a text: the characters in front of it, nearest first, and those behind it, with the
texts captured on the way and the place where the search began. -/
structure Place where
  before : List Char
  after : List Char
  position : Nat
  captures : List (Nat × List Char)
  start : Nat
deriving DecidableEq, Repr

namespace Place

/-- The place one character further on. -/
def advance (p : Place) : Place :=
  match p.after with
  | [] => p
  | c :: cs => { p with before := c :: p.before, after := cs, position := p.position + 1 }

/-- The place some characters further back. -/
def retreat (p : Place) : Nat → Place
  | 0 => p
  | n + 1 =>
    match p.before with
    | [] => p
    | c :: cs => { p with before := cs, after := c :: p.after, position := p.position - 1 }.retreat n

/-- The place after a prefix of the rest. -/
def skip (p : Place) : List Char → Place
  | [] => p
  | _ :: cs => p.advance.skip cs

/-- The text of a group, if it has been captured. -/
def capture? (p : Place) (number : Nat) : Option (List Char) := p.captures.lookup number

/-- Whether a character of a word stands in front. -/
def wordBefore (p : Place) : Bool := p.before.head?.any CharSet.word.contains

/-- Whether a character of a word follows. -/
def wordAfter (p : Place) : Bool := p.after.head?.any CharSet.word.contains

/-- Whether an anchor holds at a place. -/
def satisfies (p : Place) : Anchor → Bool
  | .textStart => p.before.isEmpty
  | .lineStart => p.before.isEmpty || p.before.head? == some '\n'
  | .textEnd => p.after.isEmpty
  | .lastLineEnd => p.after.isEmpty || p.after == ['\n']
  | .lineEnd => p.after.isEmpty || p.after.head? == some '\n'
  | .wordBoundary => p.wordBefore != p.wordAfter
  | .insideWord => p.wordBefore == p.wordAfter
  | .wordStart => !p.wordBefore && p.wordAfter
  | .wordEnd => p.wordBefore && !p.wordAfter
  | .searchStart => p.position == p.start

end Place

/-- Whether the rest of a text begins with given characters. -/
def beginsWith (ignoreCase : Bool) : List Char → List Char → Bool
  | [], _ => true
  | _ :: _, [] => false
  | c :: cs, d :: ds =>
    (if ignoreCase then Unicode.sameIgnoringCase c d else c == d) && beginsWith ignoreCase cs ds

namespace Regex

/-- What may follow a match, and where it ends. -/
abbrev Continuation := Place → Option Place

/-- Repeats a matcher. The first number bounds the turns that are taken at all; `least` turns are
obligatory, and further ones, up to `most` in all, have to consume something. -/
def repeated (body : Place → Continuation → Option Place) (eager : Bool) :
    Nat → Nat → Option Nat → Place → Continuation → Option Place
  | 0, least, _, p, k => if least = 0 then k p else none
  | bound + 1, least, most, p, k =>
    if most = some 0 then k p
    else
      let rest := most.map (· - 1)
      if least > 0 then body p fun q => repeated body eager bound (least - 1) rest q k
      else
        let more := fun (_ : Unit) => body p fun q =>
          if q.position = p.position then none else repeated body eager bound 0 rest q k
        if eager then
          match more () with
          | some q => some q
          | none => k p
        else
          match k p with
          | some q => some q
          | none => more ()

/-- Whether some place at most `distance` back is the beginning of a match that ends here. -/
def lookBack (body : Place → Continuation → Option Place) (p : Place) : Nat → Option Place
  | 0 => body p fun q => if q.position = p.position then some q else none
  | distance + 1 =>
    match lookBack body p distance with
    | some q => some q
    | none =>
      body (p.retreat (distance + 1)) fun q => if q.position = p.position then some q else none

/-- Matches an expression at a place and goes on with the continuation, giving the place where the
whole match ends. -/
def run : Regex → Place → Continuation → Option Place
  | .empty, p, k => k p
  | .set s ignoreCase, p, k =>
    match p.after with
    | [] => none
    | c :: _ => if (if ignoreCase then s.containsFolded c else s.contains c) then k p.advance else none
  | .cluster, p, k =>
    match Unicode.splitCluster p.before p.after with
    | none => none
    | some (taken, _) => k (p.skip taken)
  | .anchor a, p, k => if p.satisfies a then k p else none
  | .seq r s, p, k => r.run p fun q => s.run q k
  | .alt r s, p, k =>
    match r.run p k with
    | some q => some q
    | none => s.run p k
  | .group number r, p, k =>
    r.run p fun q =>
      k { q with captures := (number, p.after.take (q.position - p.position)) :: q.captures }
  | .backReference number ignoreCase, p, k =>
    match p.capture? number with
    | none => none
    | some text => if beginsWith ignoreCase text p.after then k (p.skip text) else none
  | .look ahead positive r, p, k =>
    let found := if ahead then r.run p some else lookBack (fun q => r.run q) p p.before.length
    match found with
    | some q => if positive then k { p with captures := q.captures } else none
    | none => if positive then none else k p
  | .atomic r, p, k =>
    match r.run p some with
    | some q => k q
    | none => none
  | .iterate r least most manner, p, k =>
    let bound := least + p.after.length + 1
    match manner with
    | .greedy => repeated (fun q => r.run q) true bound least most p k
    | .lazy => repeated (fun q => r.run q) false bound least most p k
    | .possessive =>
      match repeated (fun q => r.run q) true bound least most p some with
      | some q => k q
      | none => none
  | .conditional number r s, p, k => if (p.capture? number).isSome then r.run p k else s.run p k

/-! ## Searching -/

/-- Whether an expression matches somewhere from a place on. -/
def searchFrom (r : Regex) : List Char → List Char → Nat → Bool
  | before, [], position => (r.run ⟨before, [], position, [], 0⟩ some).isSome
  | before, c :: cs, position =>
    (r.run ⟨before, c :: cs, position, [], 0⟩ some).isSome || searchFrom r (c :: before) cs (position + 1)

/-- Whether an expression matches somewhere in a text. -/
def search (r : Regex) (text : String) : Bool := searchFrom r [] text.toList 0

end Regex

end Schemata
