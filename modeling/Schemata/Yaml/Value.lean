import Schemata.Number.Double
import Schemata.Value.Equality
import Schemata.Value.Text
import Schemata.Yaml.Engine
import Schemata.Yaml.Node.Reader

/-!
# `Schemata.Yaml.Value` — the value of a YAML text

The tag of a node decides how its value is read. Faults are found level by level from the outside in, so each
is kept with its depth, and of several the least deep counts, the first among equals.

## Contents
- **Faults by depth.** `Attempt` and `Attempt.all`.
- **Scalars.** The values of texts under the tags of integers, floating point numbers, binary contents and
  timestamps.
- **Merging.** `Node.merged`, the entries of a mapping with those merged in.
- **Values.** `Node.value`, and `engine`, which reads trees and values in this way.
-/

namespace Schemata.Yaml

/-! ## Faults by depth -/

/-- A value, or a fault and how deep it lies. -/
abbrev Attempt (α : Type) := Except (Nat × YamlError) α

/-- Whether the first of two faults counts. -/
def comesFirst (a b : Nat × YamlError) : Bool := a.1 ≤ b.1

/-- Both of two values, or the fault that counts. -/
def Attempt.both {α β : Type} (a : Attempt α) (b : Attempt β) : Attempt (α × β) :=
  match a, b with
  | .ok a, .ok b => .ok (a, b)
  | .error e, .ok _ => .error e
  | .ok _, .error f => .error f
  | .error e, .error f => .error (if comesFirst e f then e else f)

/-! ## Scalars -/

/-- A digit of a base up to sixteen. -/
def digitIn? (base : Nat) (c : Char) : Option Nat :=
  if isHexDigit c ∧ hexDigitValue c < base then some (hexDigitValue c) else none

/-- The value of digits of a base. -/
def digitsIn? (base : Nat) (cs : List Char) : Option Nat :=
  if cs.isEmpty then none
  else cs.foldl (fun n c => n.bind fun n => (digitIn? base c).map fun d => n * base + d) (some 0)

/-- The value of a decimal numeral with at most the digits that are ever read. -/
def decimal? (cs : List Char) : Option Int :=
  let (negative, digits) := Decimal.takeSign (Text.stripChars cs)
  if digits.length > Value.digitLimit then none
  else (digitsIn? 10 digits).map fun n => if negative then -(n : Int) else n

/-- The value of a numeral in groups of sixtieths, the last one first. -/
def sixtieths (groups : List Int) : Int := groups.foldl (fun value group => value * 60 + group) 0

/-- An integer without its sign. -/
def magnitude? (cs : List Char) : Except YamlError Int :=
  let orNoValue (n : Option Int) : Except YamlError Int := n.elim (.error .noValue) .ok
  let inBase (base : Nat) (cs : List Char) := orNoValue ((digitsIn? base cs).map Int.ofNat)
  match cs with
  | [] => .error .emptyNumber
  | ['0'] => .ok 0
  | '0' :: 'b' :: digits => inBase 2 digits
  | '0' :: 'x' :: digits => inBase 16 digits
  | '0' :: 'o' :: digits => inBase 8 digits
  | '0' :: digits => inBase 8 ('0' :: digits)
  | cs =>
    if cs.contains ':' then orNoValue (((cs.splitOn ':').mapM decimal?).map sixtieths)
    else orNoValue (decimal? cs)

/-- The value of an integer. Underscores do not count. -/
def intValue (text : String) : Except YamlError Int :=
  let cs := text.toList.filter (· != '_')
  if cs.isEmpty then .error .emptyNumber
  else
    let (negative, body) := Decimal.takeSign cs
    (magnitude? body).map fun n => if negative then -n else n

/-- The double nearest to a quotient of integers. -/
def nearest (q : Rat) (negativeZero : Bool) : Double :=
  Double.round (q.num < 0 || (q.num == 0 && negativeZero)) q.num.natAbs q.den

/-- Adds a group of sixtieths of a weight, rounding the product and the sum. -/
def addGroup (value group : Double) (weight : Nat) : Double :=
  match value.toRat?, group.toRat? with
  | some v, some g =>
    match (nearest (g * weight) false).toRat? with
    | some product => nearest (v + product) false
    | none => nearest (g * weight) false
  | none, _ => value
  | _, none => group

/-- The value of groups of sixtieths, given from the last one on. -/
def floatSixtieths : Nat → Double → List Double → Double
  | _, value, [] => value
  | weight, value, group :: groups => floatSixtieths (weight * 60) (addGroup value group weight) groups

/-- The words for infinities and for no number in plain numerals. -/
def floatWord? (cs : List Char) : Option Double :=
  let (negative, body) := Decimal.takeSign cs
  if body = "inf".toList ∨ body = "infinity".toList then some (.infinity negative)
  else if body = "nan".toList then some .nan
  else none

/-- The value of a plain numeral with blanks around it. -/
def plainFloat? (cs : List Char) : Option Double :=
  let body := Text.stripChars cs
  (floatWord? body).or ((Decimal.read? body).map Double.ofDecimal)

/-- The double with the other sign. -/
def negate : Double → Double
  | .nan => .nan
  | .infinity negative => .infinity !negative
  | .finite negative m e => .finite (!negative) m e

/-- The value of a floating point number. Underscores and letter case do not count. -/
def floatValue (text : String) : Except YamlError Double :=
  let cs := (text.toList.filter (· != '_')).map Char.toLower
  if cs.isEmpty then .error .emptyNumber
  else
    let (negative, body) := Decimal.takeSign cs
    let value :=
      if body = ".inf".toList then some (Double.infinity false)
      else if body = ".nan".toList then some Double.nan
      else if body.contains ':' then
        ((body.splitOn ':').mapM plainFloat?).map fun groups =>
          floatSixtieths 1 (Double.ofInt 0) groups.reverse
      else plainFloat? body
    match value with
    | some x => .ok (if negative then negate x else x)
    | none => .error .noValue

/-- The value of a truth word; letter case does not count. -/
def boolValue (text : String) : Except YamlError Bool :=
  let small := Unicode.lower text
  match truthWords.lookup small with
  | some b => .ok b
  | none => .error .unknownWord

/-- The six bits that a character of a binary content stands for. -/
def sextet? (c : Char) : Option Nat :=
  if 'A' ≤ c ∧ c ≤ 'Z' then some (c.toNat - 65)
  else if 'a' ≤ c ∧ c ≤ 'z' then some (c.toNat - 71)
  else if c.isDigit then some (c.toNat + 4)
  else if c = '+' then some 62
  else if c = '/' then some 63
  else none

/-- The bytes of a binary content, given how many characters of the current group of four have been read,
the bits left over from them, and how many padding signs precede. Other characters are skipped. -/
def binaryBytes : Nat → Nat → Nat → List Char → Option (List UInt8)
  | count, _, _, [] => if count = 0 then some [] else none
  | count, left, pads, c :: cs =>
    if c = '=' then
      if count ≥ 2 ∧ count + pads + 1 ≥ 4 then some []
      else binaryBytes count left (if count ≥ 2 then pads + 1 else pads) cs
    else
      match sextet? c with
      | none => binaryBytes count left pads cs
      | some bits =>
        let byte (n : Nat) (rest : Option (List UInt8)) := rest.map (UInt8.ofNat n :: ·)
        match count with
        | 0 => binaryBytes 1 bits 0 cs
        | 1 => byte (left * 4 + bits / 16) (binaryBytes 2 (bits % 16) 0 cs)
        | 2 => byte (left * 16 + bits / 4) (binaryBytes 3 (bits % 4) 0 cs)
        | _ => byte (left * 64 + bits) (binaryBytes 0 0 0 cs)

/-- The value of a binary content, which is written in ASCII. -/
def binaryValue (text : String) : Except YamlError Value :=
  if text.toList.all fun c => c.toNat < 128 then
    match binaryBytes 0 0 0 text.toList with
    | some bytes => .ok (.file (.bytes .fixed bytes))
    | none => .error .malformed
  else .error .malformed

/-- The offset of a zone in seconds; it is less than a day. -/
def offsetValue : Option (Bool × Nat × Nat) → Except YamlError Int
  | none => .ok 0
  | some (negative, hours, minutes) =>
    let seconds : Int := (hours * 60 + minutes) * 60
    if seconds < 86400 then .ok (if negative then -seconds else seconds) else .error .noValue

/-- The value of a timestamp: a date, or a date with a time of day. -/
def timestampValue (text : String) : Except YamlError Value := do
  match moment? text.toList with
  | none => throw .noTimestamp
  | some parts =>
    match parts.time with
    | none => if parts.date.isValid then return .date parts.date else throw .noValue
    | some (hour, minute, second) =>
      let micro := digitsValue 0 ((parts.fraction ++ List.replicate 6 '0').take 6)
      let offset ←
        match parts.zone with
        | none => pure none
        | some zone => (offsetValue zone).map some
      if parts.date.isValid && hour < 24 && minute < 60 && second < 60 then
        return .timestamp ⟨parts.date, hour, minute, second, micro, offset⟩
      else throw .noValue

/-- The value of a scalar under a tag. -/
def scalarValue (tag : Tag) (text : String) : Except YamlError Value :=
  match tag with
  | .null => .ok .null
  | .bool => (boolValue text).map .bool
  | .int => (intValue text).map .int
  | .float => (floatValue text).map .float
  | .text => .ok (.string text)
  | .halvedText => .error .notUnicode
  | .binary => binaryValue text
  | .timestamp => timestampValue text
  | _ => .error .malformed

/-! ## Merging -/

/-- The entries of several mappings that are merged in, those of later ones first. -/
def joinReversed (groups : List (List (Node × Node))) : List (Node × Node) := groups.reverse.flatten

mutual

/-- The entries of a mapping: first those that are merged in, then its own. A value key is a text. -/
def Node.merged : Node → Except YamlError (List (Node × Node))
  | .mapping _ _ entries => do
    let (inserted, own) ← Node.mergedEntries entries
    return inserted ++ own
  | _ => .error .malformed

/-- The entries that are merged in, and those that are the mapping's own. -/
def Node.mergedEntries : List (Node × Node) → Except YamlError (List (Node × Node) × List (Node × Node))
  | [] => .ok ([], [])
  | (key, value) :: rest => do
    match key.tag with
    | .merge =>
      let inserted ← Node.mergeSource value
      let (more, own) ← Node.mergedEntries rest
      return (inserted ++ more, own)
    | .value =>
      let (inserted, own) ← Node.mergedEntries rest
      let key :=
        match key with
        | .scalar mark _ text => .scalar mark .text text
        | node => node
      return (inserted, (key, value) :: own)
    | _ =>
      let (inserted, own) ← Node.mergedEntries rest
      return (inserted, (key, value) :: own)

/-- The entries that a value under a merge key brings in: those of a mapping, or of a list of mappings. -/
def Node.mergeSource : Node → Except YamlError (List (Node × Node))
  | .mapping _ _ entries => do
    let (inserted, own) ← Node.mergedEntries entries
    return inserted ++ own
  | .sequence _ _ items => do return joinReversed (← Node.mergeSources items)
  | .scalar _ _ _ => .error .malformed

/-- The entries of each of several mappings. -/
def Node.mergeSources : List Node → Except YamlError (List (List (Node × Node)))
  | [] => .ok []
  | .mapping _ _ entries :: rest => do
    let (inserted, own) ← Node.mergedEntries entries
    return (inserted ++ own) :: (← Node.mergeSources rest)
  | _ :: _ => .error .malformed

end

/-! ## Values -/

/-- The form of a collection. -/
inductive Form
  | list
  | dict
  | set
  /-- A list of pairs, each written as a mapping of one entry. -/
  | pairs

/-- The form that the tag of a collection stands for. -/
def Tag.form? : Tag → Option Form
  | .sequence => some .list
  | .mapping => some .dict
  | .set => some .set
  | .orderedMap => some .pairs
  | .pairs => some .pairs
  | _ => none

mutual

/-- How deep a node is nested. -/
def Node.height : Node → Nat
  | .scalar _ _ _ => 0
  | .sequence _ _ items => Node.heightOfItems items + 1
  | .mapping _ _ entries => Node.heightOfEntries entries + 1

/-- The greatest height among items. -/
def Node.heightOfItems : List Node → Nat
  | [] => 0
  | node :: nodes => max node.height (Node.heightOfItems nodes)

/-- The greatest height among keys and values. -/
def Node.heightOfEntries : List (Node × Node) → Nat
  | [] => 0
  | (key, value) :: entries => max (max key.height value.height) (Node.heightOfEntries entries)

end

/-- The text that a mapping with a value key stands for under the tag of a scalar. -/
def Node.valueText? : Nat → Node → Option String
  | _, .scalar _ _ text => some text
  | 0, _ => none
  | fuel + 1, .mapping _ _ entries =>
    (entries.find? fun e => e.1.tag == .value).bind fun e => Node.valueText? fuel e.2
  | _, .sequence _ _ _ => none

/-- The values of items, each read by the given function. -/
def valuesOf (value : Node → Attempt Value) : List Node → Attempt (List Value)
  | [] => .ok []
  | node :: nodes => (Attempt.both (value node) (valuesOf value nodes)).map fun (v, vs) => v :: vs

/-- A key; lists, mappings and sets are none. -/
def asKey (depth : Nat) (v : Value) : Attempt Value :=
  match v with
  | .list _ | .dict _ | .set _ => .error (depth, .malformed)
  | v => .ok v

/-- The value of a node that is a key, at a depth. -/
def keyValue (depth : Nat) (value : Node → Attempt Value) (node : Node) : Attempt Value :=
  match node with
  | .scalar _ _ _ => (value node).bind (asKey depth)
  | node => if node.tag.form?.isSome then .error (depth, .malformed) else value node

/-- The values of entries, each read by the given functions. -/
def entriesOf (key value : Node → Attempt Value) : List (Node × Node) → Attempt Entries
  | [] => .ok []
  | (k, v) :: rest =>
    (Attempt.both (Attempt.both (key k) (value v)) (entriesOf key value rest)).map fun (e, es) => e :: es

/-- The only entry of a mapping. -/
def onlyEntry? : Node → Option (Node × Node)
  | .mapping _ _ [entry] => some entry
  | _ => none

/-- The value of a node at a depth, read with a bound on the height that is left. -/
def Node.valueWithin : Nat → Nat → Node → Attempt Value
  | 0, depth, _ => .error (depth, .malformed)
  | fuel + 1, depth, node =>
    let inner := Node.valueWithin fuel (depth + 1)
    let atDepth {α : Type} (depth : Nat) (x : Except YamlError α) : Attempt α :=
      x.mapError fun e => (depth, e)
    match node.tag.form? with
    | none =>
      match Node.valueText? node.height node with
      | some text => atDepth depth (scalarValue node.tag text)
      | none => .error (depth, .malformed)
    | some .list =>
      match node with
      | .sequence _ _ items => (valuesOf inner items).map .list
      | _ => .error (depth + 1, .malformed)
    | some .dict =>
      (atDepth (depth + 1) node.merged).bind fun entries =>
        (entriesOf (keyValue (depth + 1) inner) inner entries).map fun es => .dict (Entries.ofPairs es)
    | some .set =>
      (atDepth (depth + 1) node.merged).bind fun entries =>
        (entriesOf (keyValue (depth + 1) inner) inner entries).map fun es =>
          .set ((Entries.ofPairs es).map Prod.fst)
    | some .pairs =>
      match node with
      | .sequence _ _ items =>
        match items.mapM onlyEntry? with
        | some entries =>
          (entriesOf inner inner entries).map fun es => .list (es.map fun e => .tuple [e.1, e.2])
        | none => .error (depth + 1, .malformed)
      | _ => .error (depth + 1, .malformed)

/-- The value of a tree. Merging brings in nodes of no greater height than the tree's own. -/
def Node.value (node : Node) : Except YamlError Value :=
  (Node.valueWithin (node.height + 1) 0 node).mapError Prod.snd

/-- The engine that reads trees and their values in this way. -/
@[reducible] def engine : Engine := ⟨Node.ofText?, Node.value⟩

end Schemata.Yaml
