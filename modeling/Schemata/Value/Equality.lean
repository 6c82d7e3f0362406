import Schemata.Value.Basic

/-!
# `Schemata.Value.Equality` — when two values are the same

Two notions are in use. *Likeness* is the equality of keys and of values without a kind: truth values
count as the numbers one and zero. *Equality* is that of JSON: values of different kinds differ, arrays are
compared item by item, objects by their keys and the values under them, and numbers by their values.

## Contents
- `Value.alike`, with `Entries.hasAlike` and `Entries.insert` for keys of any kind.
- `Value.equal`, and `Value.distinctItems`, which says that a list holds no value twice.
-/

namespace Schemata

namespace Value

/-! ## Likeness -/

/-- Likeness of values without items. -/
def alikeScalars (a b : Value) : Bool :=
  match a, b with
  | .absent, .absent => true
  | .null, .null => true
  | .string s, .string t => s == t
  | .int m, .int n => m == n
  | .file f, .file g => f.same g
  | .date d, .date e => d == e
  | .timestamp t, .timestamp u => t.same u
  | a, b =>
    match a.quantity?, b.quantity? with
    | some p, some q => p.same q
    | _, _ => false

mutual

/-- Likeness: numbers and truth values by number, everything else by sort and content. -/
def alike : Value → Value → Bool
  | .list xs, .list ys => alikeItems xs ys
  | .tuple xs, .tuple ys => alikeItems xs ys
  | .set xs, .set ys => xs.length == ys.length && alikeAmong xs ys
  | .dict es, .dict fs => es.length == fs.length && alikeEntries es fs
  | a, b => alikeScalars a b

/-- Likeness position by position. -/
def alikeItems : List Value → List Value → Bool
  | [], [] => true
  | x :: xs, y :: ys => x.alike y && alikeItems xs ys
  | _, _ => false

/-- Whether every item has one like it among others. -/
def alikeAmong : List Value → List Value → Bool
  | [], _ => true
  | x :: xs, ys => (ys.any fun y => x.alike y) && alikeAmong xs ys

/-- Whether every entry has one with a like key and a like value among others. -/
def alikeEntries : Entries → Entries → Bool
  | [], _ => true
  | (k, v) :: es, fs => (fs.any fun e => k.alike e.1 && v.alike e.2) && alikeEntries es fs

end

/-! ## Equality -/

mutual

/-- Equality of JSON values: kinds agree, and within a kind arrays are compared item by item, objects as
sets of members, and numbers by value. Values without a kind are equal when they are alike. -/
def equal : Value → Value → Bool
  | .list xs, .list ys => equalItems xs ys
  | .dict es, .dict fs => es.length == fs.length && equalEntries es fs
  | a, b => a.kind == b.kind && a.alike b

/-- Equality position by position. -/
def equalItems : List Value → List Value → Bool
  | [], [] => true
  | x :: xs, y :: ys => x.equal y && equalItems xs ys
  | _, _ => false

/-- Whether every member has one of the same key and an equal value among others. -/
def equalEntries : Entries → Entries → Bool
  | [], _ => true
  | (k, v) :: es, fs => (fs.any fun e => k.alike e.1 && v.equal e.2) && equalEntries es fs

end

/-- Whether no two items of a list are equal, given those already `seen`. -/
def distinctFrom (seen : List Value) : List Value → Bool
  | [] => true
  | x :: xs => !(seen.any fun y => x.equal y) && distinctFrom (seen ++ [x]) xs

/-- Whether a value is no list, or a list without two equal items. -/
def distinctItems : Value → Bool
  | .list items => distinctFrom [] items
  | _ => true

end Value

/-! ## Entries with keys of any kind -/

namespace Entries

/-- Whether a key is present, keys being compared by likeness. -/
def hasAlike (entries : Entries) (key : Value) : Bool := entries.any fun e => e.1.alike key

/-- Puts a value under a key. A key that is present keeps its place and its form. -/
def insert : Entries → Value → Value → Entries
  | [], key, value => [(key, value)]
  | (k, v) :: es, key, value => if k.alike key then (k, value) :: es else (k, v) :: insert es key value

/-- The entries of `left` updated by those of `right`. -/
def union (left right : Entries) : Entries := right.foldl (fun es e => Entries.insert es e.1 e.2) left

/-- The mapping that results from putting pairs in one by one. -/
def ofPairs (pairs : Entries) : Entries := Entries.union [] pairs

end Entries

end Schemata
