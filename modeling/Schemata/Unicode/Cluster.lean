import Schemata.Unicode.Runs

/-!
# `Schemata.Unicode.Cluster` — characters as a reader counts them

An extended grapheme cluster is what a reader takes for one character: a letter with its marks, a
syllable of Hangul, a flag, a joined sequence of pictographs. The boundaries follow the break rules of
the standard, version 17.0, without the rule for Indic conjuncts.

## Contents
- **Classes.** `ClusterClass` and `ClusterClass.ofChar`.
- **Boundaries.** `Context` holds what the rules look back at; `Context.joins` says whether a character
  continues the cluster in front of it.
- **Clusters.** `clusterCount` counts them, `splitCluster` takes one off.
-/

namespace Schemata.Unicode

/-! ## Classes -/

/-- Controls, format characters and separators, CR and LF apart. -/
def controlRuns : Runs := Runs.ofText
  "0 a 1 2 1 12 5f 21 d 1 56e 1 11f1 1 7fc 1 2 2 18 7 31 10 de8f 1 f0 c 3434 10 8860 4
   14cf 8 c2e85 20 60 80 f0 e10"

/-- Characters that continue the cluster in front of them. -/
def extendingRuns : Runs := Runs.ofText
  "300 70 113 7 107 2d 1 1 1 2 1 2 1 1 48 b 30 15 10 1 65 7 2 6 2 2 1 4 23 1 1e 1b 5b b 3a
   9 9 1 18 4 1 9 1 3 1 5 2b 3 3b 9 2a 18 1 20 37 1 1 1 4 8 4 1 3 7 a 2 1d 1 3a 1 1 1 2 4
   8 1 9 1 a 2 1a 1 2 2 39 1 4 2 4 2 2 3 3 1 1e 2 3 1 b 2 39 1 4 5 1 2 4 1 14 2 16 6 1 1
   3a 1 1 2 1 4 8 1 7 3 a 2 1e 1 3b 1 1 1 c 1 9 1 28 1 3 1 37 1 1 3 5 3 1 4 7 2 b 2 1d 1
   3a 1 2 2 1 1 3 3 1 4 7 2 b 2 1c 2 39 2 1 1 2 4 8 1 9 1 a 2 1d 1 48 1 4 1 2 3 1 1 8 1 51
   1 2 7 c 8 62 1 2 9 b 7 49 2 1b 1 1 1 1 1 37 e 1 5 1 2 5 b 1 24 9 1 66 4 1 6 1 2 2 2 19
   2 4 3 10 4 d 1 2 2 6 1 f 1 2bf 3 3b2 4 1c 3 1d 2 1e 2 40 2 1 7 8 1 2 b 9 1 2d 3 1 1 75
   2 22 1 76 3 4 2 9 1 6 3 db 2 2 1 3a 1 1 7 1 1 1 1 2 8 6 a 2 1 30 2e 2 c 14 4 30 a 4 3
   26 9 c 2 20 4 2 6 38 1 1 2 3 1 1 5 38 8 2 2 98 3 1 d 1 7 4 1 6 1 3 2 c6 40 20c 1 c3 21
   bfe 3 8d 1 60 20 22a 6 69 2 75d4 4 1 a 20 2 50 2 110 1 3 1 4 1 19 2 5 1 97 2 1a 12 d 1
   26 8 19 b 1 1 2c 3 30 1 2 4 2 2 2 1 24 1 43 6 2 2 2 2 c 1 8 1 2f 1 33 1 1 3 2 2 5 2 1 1
   2a 2 8 1 ee 1 2 1 4 1 4f30 1 2e1 10 10 10 16e 2 25d 1 e2 1 95 5 686 3 1 2 5 4 28 3 4 1
   a5 2 23d 4 41 5 13d 2 4d 6 46 b 31 4 7b 1 36 f 29 1 2 2 a 3 31 4 2 2 7 1 3d 3 24 5 1 8
   3e 1 c 2 34 9 1 1 8 4 2 1 5f 3 2 4 6 1 2 1 9d 1 3 8 15 2 39 2 1 1 1 1 c 1 9 1 e 7 3 5
   43 1 2 6 1 1 2 1 1 3 4 3 1 1 e 2 55 8 2 3 1 1 17 1 51 1 2 6 1 1 2 1 1 2 1 2 eb 1 2 4 6
   2 1 2 1b 2 55 8 2 1 1 2 6a 1 1 1 2 8 65 1 1 1 2 4 1 5 103 9 1 2 f5 1 a 4 4 1 90 4 2 2 4
   1 20 a 28 6 2 4 8 1 9 6 2 3 2e d 1 2 c6 1 1 3 1 1 c9 7 1 6 1 1 52 16 2 7 1 2 1 2 7a 6 3
   1 1 2 1 7 1 1 48 2 3 1 1 1 15b 2 b 2 34 5 5 3 17 1 14e5 1 6 f 2cc8 c 3 3 9c0 5 3b 7 418
   1 3f 4 51 1 b 2 4cab 2 1261 2e 2 17 21e 5 3 6 8 8 2 7 1e 4 94 3 7bb 37 4 32 8 1 e 1 16
   5 1 f 550 7 1 11 2 7 1 2 1 5 64 1 a0 7 177 1 3d 4 1fc 4 fe 2 f3 1 2 1 7 2 5 1 1da 7 6d
   7 ab0 5 c0c20 60 80 f0"

/-- Characters that join the cluster behind them. -/
def prependedRuns : Runs := Runs.ofText
  "600 6 d7 1 31 1 180 2 50 1 46b 1 1036e 1 f 1 f4 2 20d 1 56d 1 1 1 142 6 2bc 1 1bb 1"

/-- Spacing marks that continue a cluster. -/
def clusterSpacingRuns : Runs := Runs.ofText
  "903 1 37 1 2 3 8 4 1 2 32 2 3b 2 6 2 2 2 36 1 3a 3 42 1 3a 3 8 1 1 2 35 2 3c 1 6 2 2 2
   72 1 1 2 3 3 1 3 34 3 3d 4 3d 2 3a 1 2 1 1 2 2e 1 e 2 3b 2 5 3 1 3 35 2 4c 2 6 7 13 2
   3f 1 7f 1 8a 2 3f 1 b1 1 9 2 19 2 2c 1 731 1 7 8 1 2 15a 4 2 3 4 2 1 6 e0 2 3a 1 1 1 15
   6 91 1 39 4 40 1 1e 1 4 2 3f 1 2 3 1 1 35 8 8 2 ab 1 15 1 8b2b 2 2 1 58 2 32 10 8e 1 30
   1 30 2 4 2 2 2 6f 2 2 2 18 1 9d 1 2 2 5 1 ed 2 1 2 1 2 1 1 6413 1 1 1 7f 1 2d 3 4 2 73
   1 18 2 3b 1 30 3 9 1 e 1 5d 3 3 2 ac 3 1f 2 3b 1 1 4 2 2 2 2 15 2 55 2 f 1 1 2 67 3 8 2
   3 1 6b 2 6 1 1 2 1 1 2 1 ee 2 6 4 2 1 71 3 8 2 1 1 6d 1 1 2 6e 1 7 1 105 3 9 1 f8 5 1 2
   7 1 1 1 8e 3 8 4 4 1 54 1 1d 2 3e 1 c9 1 3 1 1 1 c7 1 e 1 6a 1 7 1 2 1 d5 5 4 2 1 1 15e
   2 c 1 30 2 8 2 41ea 3 e24 37"

/-- Pictographic characters. -/
def pictographicRuns : Runs := Runs.ofText
  "a9 1 4 1 1f8d 1 c 1 d8 1 16 1 5a 6 f 2 16f 2 c 1 a6 1 19 b 4 3 c7 1 e7 2 a 1 9 1 3a 4 1
   5 9 1 2 1 2 2 2 1 4 1 2 1 1 2 2 1 3 1 3 2 8 3 5 1 1 1 5 c b 2 2 1 1 2 1 1 12 1 2 2 12 6
   1 1 1 2 3 2 5 1 2 2 4 2 b 2 5 2 2 1 5 2 1 1 1 2 14 2 5 6 1 4 2 1 4 1 2 1 2 6 1 1 2 1 1
   1 1 1 6 1 3 1 6 1 a 2 f 1 2 1 4 1 1 1 4 3 1 1 b 2 30 3 9 1 e 1 e 1 174 2 1cf 3 13 2 33
   1 4 1 4da 1 c 1 259 1 1 1 1bd6a 1 27 4 64 c f 2 f 1 e 2 25 a 70 2 c 2 e 1 2 a 13 38 1b
   f a 1 14 1 2 9 1 4 9 17 6 bc 2 70 2 2 1 3 2 53 2 3 1 4 5 fe 1 3f b 6 1 18 7 2 2 8 c 1 2
   4 2 1 4 2 d 2 2 1 8 2 9 1 5 3 c 3 8 3 2 1 1 1 4 1 6 1 3 1 6 56 30 46 5 8 2 11 3 1 1 6 2
   d da 26 c 4 38 8 a 6 28 8 1e 2 c 4 2 e 9 27 c 2f 1 a 1 b9 58 8 e 92 100 3fe"

/-- The classes of characters that the break rules tell apart. -/
inductive ClusterClass
  | carriageReturn
  | lineFeed
  | control
  | extending
  | joiner
  | regional
  | prepended
  | spacingMark
  | leadingJamo
  | vowelJamo
  | trailingJamo
  | openSyllable
  | closedSyllable
  | pictographic
  | other
deriving DecidableEq, Repr

/-- The class of a code point beyond the Latin letters. -/
def ClusterClass.ofCode (n : Nat) : ClusterClass :=
  if n = 0x200d then .joiner
  else if 0x1f1e6 ≤ n ∧ n ≤ 0x1f1ff then .regional
  else if (0x1100 ≤ n ∧ n ≤ 0x115f) ∨ (0xa960 ≤ n ∧ n ≤ 0xa97c) then .leadingJamo
  else if (0x1160 ≤ n ∧ n ≤ 0x11a7) ∨ (0xd7b0 ≤ n ∧ n ≤ 0xd7c6) ∨ n = 0x16d63 ∨
      (0x16d67 ≤ n ∧ n ≤ 0x16d6a) then .vowelJamo
  else if (0x11a8 ≤ n ∧ n ≤ 0x11ff) ∨ (0xd7cb ≤ n ∧ n ≤ 0xd7fb) then .trailingJamo
  else if 0xac00 ≤ n ∧ n ≤ 0xd7a3 then
    (if (n - 0xac00) % 28 = 0 then .openSyllable else .closedSyllable)
  else if controlRuns.contains n then .control
  else if extendingRuns.contains n then .extending
  else if prependedRuns.contains n then .prepended
  else if clusterSpacingRuns.contains n then .spacingMark
  else if pictographicRuns.contains n then .pictographic
  else .other

/-- The class of a character. -/
def ClusterClass.ofChar (c : Char) : ClusterClass :=
  if c = '\r' then .carriageReturn
  else if c = '\n' then .lineFeed
  else if c.toNat < 0x7f then (if c.toNat < 0x20 then .control else .other)
  else .ofCode c.toNat

/-! ## Boundaries -/

/-- What the rules look back at: the class of the last character, whether it ends a pictograph with
extending characters and perhaps a joiner, and whether it ends an odd run of regional indicators. -/
structure Context where
  last : ClusterClass
  afterPictograph : Bool
  oddRegional : Bool
deriving DecidableEq, Repr

/-- Whether a class breaks on both sides. -/
def ClusterClass.isControl : ClusterClass → Bool
  | .carriageReturn | .lineFeed | .control => true
  | _ => false

/-- Whether a character of class `next` continues the cluster that ends in the given context. -/
def Context.joins (ctx : Context) (next : ClusterClass) : Bool :=
  match ctx.last, next with
  | .carriageReturn, .lineFeed => true
  | last, next =>
    if last.isControl || next.isControl then false
    else
      match last, next with
      | _, .extending | _, .joiner | _, .spacingMark => true
      | .prepended, _ => true
      | .leadingJamo, .leadingJamo | .leadingJamo, .vowelJamo | .leadingJamo, .openSyllable
      | .leadingJamo, .closedSyllable => true
      | .openSyllable, .vowelJamo | .openSyllable, .trailingJamo | .vowelJamo, .vowelJamo
      | .vowelJamo, .trailingJamo => true
      | .closedSyllable, .trailingJamo | .trailingJamo, .trailingJamo => true
      | .joiner, .pictographic => ctx.afterPictograph
      | .regional, .regional => ctx.oddRegional
      | _, _ => false

/-- The context behind one more character. -/
def Context.advance (ctx : Option Context) (next : ClusterClass) : Context where
  last := next
  afterPictograph :=
    match next with
    | .pictographic => true
    | .extending => ctx.any fun c => c.afterPictograph && c.last != .joiner
    | .joiner => ctx.any fun c => c.afterPictograph && c.last != .joiner
    | _ => false
  oddRegional := next == .regional && !(ctx.any fun c => c.oddRegional)

/-- The context behind a text, which is given last character first. -/
def Context.behind : List Char → Option Context
  | [] => none
  | c :: before => some (Context.advance (Context.behind before) (.ofChar c))

/-! ## Clusters -/

/-- Number of clusters that begin in the text. -/
def clusterCountFrom : Option Context → List Char → Nat
  | _, [] => 0
  | ctx, c :: cs =>
    let next := ClusterClass.ofChar c
    let starts := if ctx.any fun before => before.joins next then 0 else 1
    starts + clusterCountFrom (some (Context.advance ctx next)) cs

/-- Number of characters of a text as a reader counts them. -/
def clusterCount (s : String) : Nat := clusterCountFrom none s.toList

/-- Takes the characters that continue a cluster off a text. -/
def continueCluster : Context → List Char → List Char × List Char
  | _, [] => ([], [])
  | ctx, c :: cs =>
    let next := ClusterClass.ofChar c
    if ctx.joins next then
      let (taken, rest) := continueCluster (Context.advance (some ctx) next) cs
      (c :: taken, rest)
    else ([], c :: cs)

/-- Takes the characters up to the next boundary off a non-empty text that stands behind `before`,
which is given last character first. -/
def splitCluster (before : List Char) : List Char → Option (List Char × List Char)
  | [] => none
  | c :: cs =>
    let ctx := Context.advance (Context.behind before) (.ofChar c)
    let (taken, rest) := continueCluster ctx cs
    some (c :: taken, rest)

end Schemata.Unicode
