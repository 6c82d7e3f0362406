import Schemata.Pointer
import Schemata.Proofs.Value.Keys

/-!
# `Schemata.Proofs.Value.Tree` — values as trees of lists and mappings

A value of JSON is a tree whose branches are lists and mappings with distinct texts as keys and whose leaves are
scalars. Most facts about validation need the branches only, so the leaves are a parameter: `TreeOver leaf`. A
place leads from a tree down to one of its parts, a token for every branch (`Leads`).

## Contents
- **Trees.** `Value.TreeOver`, and `Value.IsJson` for the scalars of JSON. Like it, a property may go down: `GoesDown`.
- **Places.** `Value.Leads`, with `Leads.trans` and the first steps into lists and mappings.
-/

namespace Schemata.Value

/-! ## Trees -/

/-- A tree of lists, and of mappings whose keys are distinct texts, over leaves of some sort. -/
inductive TreeOver (leaf : Value → Prop) : Value → Prop
  | leaf {v : Value} (noItems : v.items? = none) (noEntries : v.entries? = none) (here : leaf v) :
      TreeOver leaf v
  | list {items : List Value} (each : ∀ v ∈ items, TreeOver leaf v) : TreeOver leaf (.list items)
  | dict {entries : Entries} (keys : DistinctTexts (entries.map Prod.fst))
      (each : ∀ e ∈ entries, TreeOver leaf e.2) : TreeOver leaf (.dict entries)

/-- Whether a value is a scalar of JSON: numbers are finite. -/
def isJsonScalar : Value → Bool
  | .null => true
  | .bool _ => true
  | .int _ => true
  | .float x => x.isFinite
  | .string _ => true
  | _ => false

/-- A value of JSON. -/
def IsJson (v : Value) : Prop := TreeOver (fun leaf => leaf.isJsonScalar = true) v

namespace TreeOver

variable {leaf other : Value → Prop}

theorem mono (h : ∀ v, leaf v → other v) {v : Value} (hv : TreeOver leaf v) : TreeOver other v := by
  induction hv with
  | leaf noItems noEntries here => exact .leaf noItems noEntries (h _ here)
  | list _ ih => exact .list ih
  | dict keys _ ih => exact .dict keys ih

theorem item {items : List Value} (h : TreeOver leaf (.list items)) {v : Value} (hv : v ∈ items) :
    TreeOver leaf v := by
  cases h with
  | leaf noItems _ _ => simp [items?] at noItems
  | list each => exact each v hv

theorem keys {entries : Entries} (h : TreeOver leaf (.dict entries)) :
    DistinctTexts (entries.map Prod.fst) := by
  cases h with
  | leaf _ noEntries _ => simp [entries?] at noEntries
  | dict keys _ => exact keys

theorem member {entries : Entries} (h : TreeOver leaf (.dict entries)) {e : Value × Value}
    (he : e ∈ entries) : TreeOver leaf e.2 := by
  cases h with
  | leaf _ noEntries _ => simp [entries?] at noEntries
  | dict _ each => exact each e he

/-- The key of an entry is a text. -/
theorem key {entries : Entries} (h : TreeOver leaf (.dict entries)) {e : Value × Value} (he : e ∈ entries) :
    ∃ s, e.1 = .string s :=
  h.keys.texts e.1 (List.mem_map_of_mem he)

end TreeOver

namespace IsJson

/-- A value of JSON is there. -/
theorem present {v : Value} (h : v.IsJson) : TreeOver (fun leaf => leaf ≠ .absent) v :=
  TreeOver.mono (fun leaf hleaf habsent => by simp [habsent, isJsonScalar] at hleaf) h

theorem ne_absent {v : Value} (h : v.IsJson) : v ≠ .absent := by
  rintro rfl
  cases h with
  | leaf _ _ here => cases here

end IsJson

/-- A property of values that goes down to the items of lists and to the members of mappings. -/
structure GoesDown (good : Value → Prop) : Prop where
  item : ∀ {items : List Value}, good (.list items) → ∀ v ∈ items, good v
  member : ∀ {entries : Entries}, good (.dict entries) → ∀ e ∈ entries, good e.2

theorem goesDown_isJson : GoesDown IsJson := ⟨fun h _ => h.item, fun h _ => h.member⟩

/-! ## Places -/

/-- `Leads v place w`: from `v`, the place leads to `w`. A token is the number of an item or the key of a
member. -/
inductive Leads : Value → Pointer → Value → Prop
  | here (v : Value) : Leads v [] v
  | item {items : List Value} {i : Nat} {v w : Value} {place : Pointer} (hi : items[i]? = some v)
      (below : Leads v place w) : Leads (.list items) (toString i :: place) w
  | member {entries : Entries} {key : String} {v w : Value} {place : Pointer}
      (hkey : Entries.get? entries key = some v) (below : Leads v place w) :
      Leads (.dict entries) (key :: place) w

namespace Leads

theorem trans {u v w : Value} {place next : Pointer} (h : Leads u place v) (hnext : Leads v next w) :
    Leads u (place ++ next) w := by
  induction h with
  | here => exact hnext
  | item hi _ ih => exact .item hi (ih hnext)
  | member hkey _ ih => exact .member hkey (ih hnext)

/-- One more step, to an item. -/
theorem toItem {u : Value} {place : Pointer} {items : List Value} {i : Nat} {v : Value}
    (h : Leads u place (.list items)) (hi : items[i]? = some v) : Leads u (place ++ [toString i]) v :=
  h.trans (.item hi (.here v))

/-- One more step, to a member. -/
theorem toMember {u : Value} {place : Pointer} {entries : Entries} {key : String} {v : Value}
    (h : Leads u place (.dict entries)) (hkey : Entries.get? entries key = some v) :
    Leads u (place ++ [key]) v :=
  h.trans (.member hkey (.here v))

end Leads

end Schemata.Value
