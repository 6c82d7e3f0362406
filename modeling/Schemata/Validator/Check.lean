import Schemata.Number.Divisibility
import Schemata.Unicode.Cluster
import Schemata.Validator.Basic
import Schemata.Value.Order

/-!
# `Schemata.Validator.Check` — validation

A validator maps a value at a place to an output and a list of issues; the value is accepted when there
are no issues, and only then does the output mean anything. The output is the value with defaults filled
in.

Reading the size of an open stream moves it, so validation is written for any way of measuring files.
`Validator.check` takes sizes as known; `Validator.checkOpen` measures streams on their positions.

## Contents
- **Reports.** `Report`, merging of outputs, the traversal of items and members.
- **Checking.** `Validator.checkWith`, `Test.holdsWith` and their companions on lists.
- **Outcomes.** `Validator.check`, `Validator.accepts`, `Validator.validate`, `Validator.validateOpen`.
-/

namespace Schemata

/-! ## Reports -/

/-- The outcome of checking a value at a place. -/
structure Report where
  output : Value
  issues : List Issue

namespace Report

/-- An accepted value. -/
def accept (output : Value) : Report := ⟨output, []⟩

/-- A value rejected for one cause. -/
def reject (value : Value) (path : Pointer) (cause : Cause) : Report := ⟨value, [⟨path, cause⟩]⟩

/-- Whether the value was accepted. -/
def ok (r : Report) : Bool := r.issues.isEmpty

end Report

/-- The cause that a value is not of an expected kind. -/
def wrongType (expected : String) (value : Value) : Cause := .wrongType expected value.sortName

/-- Joins the outputs of two validators: the left one counts, objects are joined, and an absent left
output gives way. -/
def mergeOutputs (left right : Value) : Value :=
  match left, right with
  | .absent, r => r
  | .dict es, .dict fs => .dict (Entries.union es fs)
  | l, _ => l

/-- Whether a tag of a union is for values of a kind; tuples are checked on lists. -/
def tagAdmits (tag : String) (kind : Option Kind) : Bool :=
  match kind with
  | none => false
  | some kind => if tag = "tuple" then kind = .array else tag = kind.name

/-- Whether a value may be looked up among keys. -/
def isKey : Value → Bool
  | .list _ => false
  | .dict _ => false
  | .set _ => false
  | .file (.bytes .growable _) => false
  | _ => true

section

variable {m : Type → Type} [Monad m] [MonadExceptOf Fault m]

/-- An answer or a fault as a step of the computation. -/
def orFault {α : Type} (x : Except Fault α) : m α :=
  match x with
  | .ok a => pure a
  | .error fault => throw fault

/-- Checks items from a position on, one after the other. -/
def checkItems (check : Value → Pointer → m Report) (path : Pointer) :
    Nat → List Value → m (List Value × List Issue)
  | _, [] => pure ([], [])
  | i, v :: vs => do
    let r ← check v (path ++ [toString i])
    let (outputs, issues) ← checkItems check path (i + 1) vs
    return (r.output :: outputs, r.issues ++ issues)

/-- Checks entries one after the other; an entry may leave no output. -/
def checkEntries (check : Value → Value → m (Option Value × List Issue)) :
    Entries → m (Entries × List Issue)
  | [] => pure ([], [])
  | (k, v) :: es => do
    let (output, issues) ← check k v
    let (outputs, more) ← checkEntries check es
    let kept := match output with
      | some w => (k, w) :: outputs
      | none => outputs
    return (kept, issues ++ more)

/-- Whether every element satisfies a condition; those after the first that does not are not asked. -/
def allSatisfy {α : Type} (test : α → m Bool) : List α → m Bool
  | [] => pure true
  | a :: as => do
    if (← test a) then allSatisfy test as else return false

/-- How many elements satisfy a condition. -/
def countSatisfying {α : Type} (test : α → m Bool) : List α → m Nat
  | [] => pure 0
  | a :: as => do
    let one ← test a
    let rest ← countSatisfying test as
    return (if one then 1 else 0) + rest

/-- The issue of a list whose length is out of bounds; the lower bound is asked first. -/
def lengthIssues (length : Nat) (bounds : Bounds) (path : Pointer) : m (List Issue) := do
  let short ← match bounds.least with
    | some least => orFault (Value.related .less (.int length) least)
    | none => pure false
  if short then
    let least ← orFault (bounds.least.getD .null).plain?
    return [⟨path, .tooFewItems least⟩]
  let long ← match bounds.most with
    | some most => orFault (Value.related .greater (.int length) most)
    | none => pure false
  if long then
    let most ← orFault (bounds.most.getD .null).plain?
    return [⟨path, .tooManyItems most⟩]
  return []

/-- The issues of an object with too few or too many members. -/
def memberCountIssues (count : Nat) (bounds : Bounds) (path : Pointer) : m (List Issue) := do
  let few ← match bounds.least with
    | some least =>
      if (← orFault (Value.related .less (.int count) least)) then
        pure [⟨path, .tooFewMembers (← orFault least.plain?)⟩]
      else pure []
    | none => pure []
  let many ← match bounds.most with
    | some most =>
      if (← orFault (Value.related .greater (.int count) most)) then
        pure [⟨path, .tooManyMembers (← orFault most.plain?)⟩]
      else pure []
    | none => pure []
  return few ++ many

/-- The issue of a file whose size is unknown or out of bounds; the lower bound is asked first. -/
def fileSizeIssues (size : Option Int) (bounds : Bounds) (path : Pointer) : m (List Issue) := do
  match size with
  | none => return [⟨path, .fileSizeUnknown⟩]
  | some size =>
    let small ← match bounds.least with
      | some least => orFault (Value.related .less (.int size) least)
      | none => pure false
    if small then
      let least ← orFault (bounds.least.getD .null).plain?
      return [⟨path, .fileTooSmall least⟩]
    let big ← match bounds.most with
      | some most => orFault (Value.related .greater (.int size) most)
      | none => pure false
    if big then
      let most ← orFault (bounds.most.getD .null).plain?
      return [⟨path, .fileTooBig most⟩]
    return []

/-- The issue of a file whose media type is not among those allowed. -/
def mediaTypeIssues (f : File) (allowed : List String) (path : Pointer) : List Issue :=
  if allowed.isEmpty then []
  else
    let admitted := match f.mediaType? with
      | some mediaType => (allowed.map Unicode.lower).contains mediaType
      | none => false
    if admitted then [] else [⟨path, .mediaType allowed⟩]

/-- Whether a number is whole. -/
def isIntegral : Value → Except Fault Bool
  | .bool _ => .ok true
  | .int _ => .ok true
  | .float x => .ok x.isIntegral
  | _ => .error .unsupported

/-! ## Checking -/

mutual

/-- Checks a value at a place with a given way of measuring files. -/
def Validator.checkWith (measure : File → m (Option Int)) :
    Validator → Value → Pointer → m Report
  | .any, v, _ => pure (.accept v)
  | .never, v, path => pure (.reject v path .never)
  | .string, v, path => pure <|
    match v with
    | .absent => .reject v path .required
    | .string _ => .accept v
    | v => .reject v path (wrongType "string" v)
  | .number, v, path => pure <|
    match v with
    | .absent => .reject v path .required
    | .int _ => .accept v
    | .float x => if x.isFinite then .accept v else .reject v path .notFinite
    | v => .reject v path (wrongType "number" v)
  | .boolean, v, path => pure <|
    match v with
    | .absent => .reject v path .required
    | .bool _ => .accept v
    | v => .reject v path (wrongType "boolean" v)
  | .null, v, path => pure <|
    match v with
    | .absent => .reject v path .required
    | .null => .accept v
    | v => .reject v path (wrongType "null" v)
  | .literal value, v, path =>
    match v with
    | .absent => pure (.reject v path .required)
    | v => do
      if v.equal value then return .accept v
      else return .reject v path (.literal (← orFault value.quoted?))
  | .enumeration values, v, path =>
    match v with
    | .absent => pure (.reject v path .required)
    | v => do
      if values.any fun value => v.equal value then return .accept v
      else
        let expected ← values.mapM fun value => orFault value.quoted?
        return .reject v path (.enumeration expected)
  | .refined inner test message, v, path => do
    let r ← inner.checkWith measure v path
    if !r.ok then return r
    else if (← test.holdsWith measure r.output) then return r
    else return .reject r.output path (.refinement message)
  | .optional inner, v, path => do
    let r ← inner.checkWith measure v path
    match v with
    | .absent => return if r.ok then r else .accept .absent
    | _ => return r
  | .defaulted inner value, v, path =>
    match v with
    | .absent => pure (.accept value)
    | v => inner.checkWith measure v path
  | .described inner _, v, path => inner.checkWith measure v path
  | .union options tags, v, path => do
    let isPresent := match v with
      | .absent => false
      | _ => true
    let bySort := !tags.isEmpty && isPresent
    let admitted :=
      if bySort then tags.map fun tag => tagAdmits tag v.kind else options.map fun _ => true
    if bySort && !(options.zip admitted).any Prod.snd then
      return .reject v path (wrongType (" | ".intercalate tags) v)
    else
      match (← Validator.checkOptions measure options admitted v path) with
      | .inl output => return .accept output
      | .inr [issues] => return ⟨v, issues⟩
      | .inr _ => return .reject v path (if isPresent then .noOption else .required)
  | .both left right, v, path => do
    let l ← left.checkWith measure v path
    let r ← right.checkWith measure v path
    if l.ok && r.ok then return .accept (mergeOutputs l.output r.output)
    else return ⟨v, l.issues ++ r.issues⟩
  | .file limits, v, path =>
    match v with
    | .absent => pure (.reject v path .required)
    | .file f => do
      if !f.isFile then return .reject v path (wrongType "file" v)
      else
        let sizeIssues ←
          if limits.size.least.isSome || limits.size.most.isSome then
            fileSizeIssues (← measure f) limits.size path
          else pure []
        return ⟨v, sizeIssues ++ mediaTypeIssues f limits.mediaTypes path⟩
    | v => pure (.reject v path (wrongType "file" v))
  | .array element bounds, v, path =>
    match v with
    | .absent => pure (.reject v path .required)
    | .list items => do
      let lengths ← lengthIssues items.length bounds path
      let (outputs, issues) ←
        checkItems (fun item place => element.checkWith measure item place) path 0 items
      return ⟨.list outputs, lengths ++ issues⟩
    | v => pure (.reject v path (wrongType "array" v))
  | .tuple validators rest bounds, v, path =>
    match v with
    | .absent => pure (.reject v path .required)
    | .list items => do
      let size := validators.length
      if rest.isNone && items.length < size then return .reject v path (.itemsShortOf size)
      else if rest.isNone && items.length > size then return .reject v path (.itemsBeyond size)
      else if items.length < size then return .reject v path (.itemsBelow size)
      else
        let lengths ← lengthIssues items.length bounds path
        let (outputs, issues) ← Validator.checkPositional measure validators 0 items path
        let (more, moreIssues) ← Validator.checkRest measure rest size (items.drop size) path
        return ⟨.list (outputs ++ more), lengths ++ issues ++ moreIssues⟩
    | v => pure (.reject v path (wrongType "array" v))
  | .object fields additional bounds, v, path =>
    match v with
    | .absent => pure (.reject v path .required)
    | .dict entries => do
      let counts ← memberCountIssues entries.length bounds path
      let (present, issues) ← checkEntries (fun key item => do
        let place := path ++ [key.plain]
        match (← Field.checkMember measure fields key item place) with
        | some r => return (some r.output, r.issues)
        | none => additional.checkMember measure key item place) entries
      let (filled, missing) ← Field.checkAbsent measure fields entries path
      return ⟨.dict (present ++ filled), counts ++ issues ++ missing⟩
    | v => pure (.reject v path (wrongType "object" v))

/-- Tries the admitted options in order: the output of the first that accepts, or the issues of each. -/
def Validator.checkOptions (measure : File → m (Option Int)) :
    List Validator → List Bool → Value → Pointer → m (Value ⊕ List (List Issue))
  | option :: options, admitted :: others, v, path => do
    if !admitted then Validator.checkOptions measure options others v path
    else
      let r ← option.checkWith measure v path
      if r.ok then return .inl r.output
      else
        match (← Validator.checkOptions measure options others v path) with
        | .inl output => return .inl output
        | .inr issues => return .inr (r.issues :: issues)
  | _, _, _, _ => pure (.inr [])

/-- Checks items against validators position by position, as far as both go. -/
def Validator.checkPositional (measure : File → m (Option Int)) :
    List Validator → Nat → List Value → Pointer → m (List Value × List Issue)
  | validator :: validators, i, v :: vs, path => do
    let r ← validator.checkWith measure v (path ++ [toString i])
    let (outputs, issues) ← Validator.checkPositional measure validators (i + 1) vs path
    return (r.output :: outputs, r.issues ++ issues)
  | _, _, _, _ => pure ([], [])

/-- Checks the items beyond the positional ones. -/
def Validator.checkRest (measure : File → m (Option Int)) :
    Option Validator → Nat → List Value → Pointer → m (List Value × List Issue)
  | some validator, i, vs, path =>
    checkItems (fun item place => validator.checkWith measure item place) path i vs
  | none, _, _, _ => pure ([], [])

/-- Checks a member against the field of its key, if there is one. -/
def Field.checkMember (measure : File → m (Option Int)) :
    List Field → Value → Value → Pointer → m (Option Report)
  | [], _, _, _ => pure none
  | .mk name _ validator :: fields, key, item, place => do
    if name.alike key then return some (← validator.checkWith measure item place)
    else Field.checkMember measure fields key item place

/-- Checks a member without a field. -/
def Additional.checkMember (measure : File → m (Option Int)) :
    Additional → Value → Value → Pointer → m (Option Value × List Issue)
  | .strict, key, _, place => pure (none, [⟨place, .unknownMember key.plain⟩])
  | .passthrough, _, item, _ => pure (some item, [])
  | .checked validator, _, item, place => do
    let r ← validator.checkWith measure item place
    return (some r.output, r.issues)

/-- Checks the absent value in place of each field without a member: an accepted output fills the field
in, and otherwise a required field is missing. -/
def Field.checkAbsent (measure : File → m (Option Int)) :
    List Field → Entries → Pointer → m (Entries × List Issue)
  | [], _, _ => pure ([], [])
  | .mk name required validator :: fields, entries, path => do
    if Entries.hasAlike entries name then Field.checkAbsent measure fields entries path
    else
      let place := path ++ [name.plain]
      let r ← validator.checkWith measure .absent place
      let (filled, missing) ← Field.checkAbsent measure fields entries path
      let gives := match r.output with
        | .absent => false
        | _ => r.ok
      if gives then return ((name, r.output) :: filled, missing)
      else if required then return (filled, ⟨place, .missingMember name.plain⟩ :: missing)
      else return (filled, missing)

/-- Whether a condition holds of a value. -/
def Test.holdsWith (measure : File → m (Option Int)) : Test → Value → m Bool
  | .custom holds, v => orFault (holds v)
  | .integral, v => orFault (isIntegral v)
  | .compares relation limit, v => orFault (Value.related relation v limit)
  | .multipleOf divisor, v => orFault (v.isMultipleOf divisor)
  | .characters relation limit, v =>
    match v with
    | .string s => orFault (Value.related relation (.int (Unicode.clusterCount s)) limit)
    | _ => throw Fault.unsupported
  | .found pattern, v =>
    match v with
    | .string s => pure (pattern.search s)
    | _ => throw Fault.unsupported
  | .size relation limit, v =>
    match v.length? with
    | some n => orFault (Value.related relation (.int n) limit)
    | none => throw Fault.unsupported
  | .amongComposites members, v => pure <|
    match v with
    | .list _ | .dict _ => members.any fun member => v.equal member
    | _ => true
  | .equals value, v => pure (v.equal value)
  | .positions items extra, v =>
    match v with
    | .list vs => do
      if (← Validator.acceptPositional measure items vs) then
        extra.acceptItems measure (vs.drop items.length)
      else return false
    | _ => pure true
  | .counted item least most, v =>
    match v with
    | .list vs => do
      let n ← countSatisfying (fun w => do return (← item.checkWith measure w []).ok) vs
      if (← orFault (Value.related .less (.int n) least)) then return false
      else
        match most with
        | none => return true
        | some most => orFault (Value.related .atMost (.int n) most)
    | _ => pure true
  | .patterns rules declared others, v =>
    match v with
    | .dict entries => allSatisfy (fun (entry : Value × Value) => do
        if declared.any fun name => name.alike entry.1 then return true
        else
          match (← PatternRule.acceptMember measure rules entry.1.plain entry.2) with
          | some outcome => return outcome
          | none => others.acceptItems measure [entry.2]) entries
    | _ => pure true
  | .distinct, v => pure v.distinctItems
  | .rejectedBy negated, v => do return !(← negated.checkWith measure v []).ok
  | .hasKeys keys, v =>
    match v with
    | .dict entries => allSatisfy (fun key =>
        if isKey key then pure (Entries.hasAlike entries key) else throw Fault.unsupported) keys
    | _ => pure true

/-- Whether validators accept items position by position, as far as both go. -/
def Validator.acceptPositional (measure : File → m (Option Int)) :
    List Validator → List Value → m Bool
  | validator :: validators, v :: vs => do
    if (← validator.checkWith measure v []).ok then Validator.acceptPositional measure validators vs
    else return false
  | _, _ => pure true

/-- Whether items or members beyond the declared ones are accepted. -/
def Additional.acceptItems (measure : File → m (Option Int)) : Additional → List Value → m Bool
  | .strict, vs => pure vs.isEmpty
  | .passthrough, _ => pure true
  | .checked validator, vs =>
    allSatisfy (fun v => do return (← validator.checkWith measure v []).ok) vs

/-- Whether every rule whose pattern fits a key accepts the member; no answer if none fits. -/
def PatternRule.acceptMember (measure : File → m (Option Int)) :
    List PatternRule → String → Value → m (Option Bool)
  | [], _, _ => pure none
  | .mk pattern validator :: rules, key, v => do
    if pattern.search key then
      if (← validator.checkWith measure v []).ok then
        return some ((← PatternRule.acceptMember measure rules key v).getD true)
      else return some false
    else PatternRule.acceptMember measure rules key v

end

end

/-! ## Outcomes -/

namespace Validator

/-- Checks a value with the sizes of files taken as known. -/
def check (validator : Validator) (v : Value) (path : Pointer) : Except Fault Report :=
  validator.checkWith (m := Except Fault) (fun f => .ok f.size?) v path

/-- Checks a value, measuring open streams on their positions. -/
def checkOpen (validator : Validator) (v : Value) (path : Pointer) :
    StateT File.Positions (Except Fault) Report :=
  validator.checkWith (m := StateT File.Positions (Except Fault))
    (fun f positions => .ok (f.measure positions)) v path

/-- Whether a value is accepted. -/
def accepts (validator : Validator) (v : Value) : Except Fault Bool :=
  (validator.check v []).map Report.ok

end Validator

/-- The outcome of validating a whole value: the output, or what is wrong. -/
abbrev Outcome := Except (List Issue) Value

/-- The outcome that a report amounts to. -/
def Report.outcome (r : Report) : Outcome := if r.ok then .ok r.output else .error r.issues

namespace Validator

/-- Validates a value with the sizes of files taken as known. -/
def validate (validator : Validator) (v : Value) : Except Fault Outcome :=
  (validator.check v []).map Report.outcome

/-- Validates a value on open streams; the positions afterwards come with the outcome. -/
def validateOpen (validator : Validator) (v : Value) (positions : File.Positions) :
    Except Fault (Outcome × File.Positions) :=
  ((validator.checkOpen v []).run positions).map fun (r, after) => (r.outcome, after)

end Validator

end Schemata
