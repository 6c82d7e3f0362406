import Schemata.Proofs.Value.Keys
import Schemata.Validator.Check

/-!
# `Schemata.Proofs.Value.Covering` — values that have all keys of others

A value covers another one if it has, wherever the other one has a key, that key in that place. Joining two mappings
covers the right one, for its members replace those of the left one; a member that both have is not joined.

## Contents
- **Places.** `HasKey`, the keys of a value at any depth, and `Covers`.
- **Mappings.** `covers_dict_iff`, member by member.
- **Joining.** `get?_union`, and `covers_union_right` and `covers_union_left_iff`.
-/

namespace Schemata

namespace Value

/-! ## Places -/

/-- A step down in a value. -/
inductive Down
  | item (i : Nat)
  | member (key : String)

/-- A value has a key in the mapping that some steps lead down to. -/
inductive HasKey : Value → List Down → String → Prop
  | here {entries : Entries} {key : String} {v : Value} (hkey : Entries.get? entries key = some v) :
      HasKey (.dict entries) [] key
  | item {items : List Value} {i : Nat} {v : Value} {place : List Down} {key : String} (hi : items[i]? = some v)
      (below : HasKey v place key) : HasKey (.list items) (.item i :: place) key
  | member {entries : Entries} {name : String} {v : Value} {place : List Down} {key : String}
      (hname : Entries.get? entries name = some v) (below : HasKey v place key) :
      HasKey (.dict entries) (.member name :: place) key

/-- One value has, in every place, all keys that another one has there. -/
def Covers (v w : Value) : Prop := ∀ place key, w.HasKey place key → v.HasKey place key

theorem Covers.refl (v : Value) : v.Covers v := fun _ _ h => h

/-! ## Mappings -/

/-- **A mapping covers another one member by member.** -/
theorem covers_dict_iff {es fs : Entries} : (Value.dict es).Covers (.dict fs) ↔
    ∀ key x, Entries.get? fs key = some x → ∃ y, Entries.get? es key = some y ∧ y.Covers x := by
  constructor
  · intro h key x hx
    cases h [] key (.here hx) with
    | @here _ _ y hy =>
      refine ⟨y, hy, fun place k hk => ?_⟩
      cases h (.member key :: place) k (.member hx hk) with
      | member hname below =>
        obtain rfl := Option.some.inj (hname.symm.trans hy)
        exact below
  · intro h place key hkey
    cases hkey with
    | here hx =>
      obtain ⟨y, hy, _⟩ := h _ _ hx
      exact .here hy
    | member hname below =>
      obtain ⟨y, hy, hcovers⟩ := h _ _ hname
      exact .member hy (hcovers _ _ below)

end Value

/-! ## Joining -/

section Joining

variable {es fs : Entries} (hes : DistinctTexts (es.map Prod.fst)) (hfs : DistinctTexts (fs.map Prod.fst))

include hes hfs

/-- **Under every key, joining leaves the value on the right,** and the one on the left if there is none. -/
theorem get?_union (key : String) :
    Entries.get? (Entries.union es fs) key = (Entries.get? fs key).or (Entries.get? es key) := by
  have hunion := Entries.distinctTexts_union hes hfs
  cases hright : Entries.get? fs key with
  | some y => exact Entries.get?_of_mem hunion ((Entries.mem_union hes hfs).mpr (.inl (Entries.mem_of_get? hright)))
  | none =>
    -- the key is none of those on the right
    have hnew : Value.string key ∉ fs.map Prod.fst := by
      intro hmem
      obtain ⟨⟨_, y⟩, hf, rfl⟩ := List.mem_map.mp hmem
      rw [Entries.get?_of_mem hfs hf] at hright
      cases hright
    cases hleft : Entries.get? es key with
    | some x =>
      exact Entries.get?_of_mem hunion ((Entries.mem_union hes hfs).mpr (.inr ⟨Entries.mem_of_get? hleft, hnew⟩))
    | none =>
      cases hboth : Entries.get? (Entries.union es fs) key with
      | none => rfl
      | some x =>
        rcases (Entries.mem_union hes hfs).mp (Entries.mem_of_get? hboth) with hf | ⟨he, _⟩
        · exact absurd (List.mem_map_of_mem hf) hnew
        · rw [Entries.get?_of_mem hes he] at hleft
          cases hleft

theorem covers_union_right : (Value.dict (Entries.union es fs)).Covers (.dict fs) := by
  rw [Value.covers_dict_iff]
  intro key y hy
  refine ⟨y, ?_, .refl y⟩
  rw [get?_union hes hfs, hy]
  rfl

/-- Joining covers the left mapping only as far as the right one does: members that both have are not joined. -/
theorem covers_union_left_iff : (Value.dict (Entries.union es fs)).Covers (.dict es) ↔
    ∀ key x y, Entries.get? es key = some x → Entries.get? fs key = some y → y.Covers x := by
  rw [Value.covers_dict_iff]
  constructor
  · intro h key x y hx hy
    obtain ⟨z, hz, hcovers⟩ := h key x hx
    rw [get?_union hes hfs, hy] at hz
    exact Option.some.inj hz ▸ hcovers
  · intro h key x hx
    rw [get?_union hes hfs]
    cases hy : Entries.get? fs key with
    | some y => exact ⟨y, rfl, h key x y hx hy⟩
    | none => exact ⟨x, hx, .refl x⟩

end Joining

end Schemata
