import Mathlib.Data.List.Forall2
import Schemata.Proofs.Value.Tree
import Schemata.Validator.Check

/-!
# `Schemata.Proofs.Value.Extension` — values that extend others

Validation fills members in and changes nothing else. `Extends o v` says so of an output `o` and an input `v`:
lists agree position by position, and a mapping holds the members of the input, in their order and each with an
extended value, with new members behind them. Everything else is itself.

## Contents
- **Extension.** `Value.Extends`, with `Extends.refl`.
- **Look-up.** `Extends.get?`, the members of the input in the output.
- **Joining.** `extends_mergeOutputs`: two outputs that extend the same input are joined to a third.
-/

namespace Schemata

namespace Value

/-! ## Extension -/

/-- `Extends o v`: the output `o` is the input `v` with members filled in, at any depth. -/
inductive Extends : Value → Value → Prop
  | leaf {v : Value} (noItems : v.items? = none) (noEntries : v.entries? = none) : Extends v v
  | list {outputs items : List Value} (each : List.Forall₂ Extends outputs items) :
      Extends (.list outputs) (.list items)
  | dict {outputs entries filled : Entries} (keys : outputs.map Prod.fst = entries.map Prod.fst)
      (each : List.Forall₂ Extends (outputs.map Prod.snd) (entries.map Prod.snd))
      (new : ∀ e ∈ filled, Entries.hasAlike entries e.1 = false) :
      Extends (.dict (outputs ++ filled)) (.dict entries)

variable {leaf : Value → Prop}

/-- A tree extends itself. -/
theorem TreeOver.extends_self {v : Value} (h : TreeOver leaf v) : Extends v v := by
  induction h with
  | leaf noItems noEntries _ => exact .leaf noItems noEntries
  | @list items _ ih => exact .list (List.forall₂_same.mpr ih)
  | @dict entries keys _ ih =>
    have hself : List.Forall₂ Extends (entries.map Prod.snd) (entries.map Prod.snd) :=
      List.forall₂_same.mpr fun w hw => by
        obtain ⟨e, he, rfl⟩ := List.mem_map.mp hw
        exact ih e he
    simpa using @Extends.dict entries entries [] rfl hself (by simp)

/-! ## Look-up -/

/-- The value under a key of the input, in entries with the same keys in front. -/
theorem get?_append_of_keys_eq {outputs entries filled : Entries} {key : String} {v : Value}
    (keys : outputs.map Prod.fst = entries.map Prod.fst)
    (each : List.Forall₂ Extends (outputs.map Prod.snd) (entries.map Prod.snd))
    (h : Entries.get? entries key = some v) :
    ∃ o, Entries.get? (outputs ++ filled) key = some o ∧ Extends o v := by
  induction entries generalizing outputs with
  | nil => simp [Entries.get?] at h
  | cons e es ih =>
    obtain ⟨⟨k, o⟩, os, rfl, rfl, htail⟩ := List.map_eq_cons_iff.mp keys
    rw [List.map_cons, List.map_cons, List.forall₂_cons] at each
    by_cases hkey : e.1.isText key = true
    · obtain rfl : e.2 = v := by simpa [Entries.get?, hkey] using h
      exact ⟨o, by simp [Entries.get?, hkey], each.1⟩
    · have hes : Entries.get? es key = some v := by simpa [Entries.get?, hkey] using h
      obtain ⟨o', ho', hext⟩ := ih htail each.2 hes
      exact ⟨o', by simpa [Entries.get?, hkey] using ho', hext⟩

/-- **Every member of the input is a member of the output**, and its value extends the one it had. -/
theorem Extends.get? {outputs entries : Entries} (h : Extends (.dict outputs) (.dict entries)) {key : String}
    {v : Value} (hv : Entries.get? entries key = some v) :
    ∃ o, Entries.get? outputs key = some o ∧ Extends o v := by
  cases h with
  | leaf _ noEntries => simp [entries?] at noEntries
  | dict keys each _ => exact get?_append_of_keys_eq keys each hv

/-! ## Joining -/

/-- Joining a tree with itself changes nothing. -/
theorem TreeOver.mergeOutputs_self {v : Value} (h : TreeOver leaf v) : mergeOutputs v v = v := by
  cases h with
  | leaf noItems noEntries _ => cases v <;> simp_all [mergeOutputs, entries?]
  | list => rfl
  | dict keys _ => rw [mergeOutputs, Entries.union_self keys]

/-- **Joining keeps what was there.** Two outputs that extend the same input are joined to one that does. -/
theorem TreeOver.extends_mergeOutputs {v l r : Value} (h : TreeOver leaf v) (hl : Extends l v)
    (hr : Extends r v) : Extends (mergeOutputs l r) v := by
  cases hl with
  | leaf noItems noEntries =>
    cases hr with
    | leaf =>
      rw [h.mergeOutputs_self]
      exact .leaf noItems noEntries
    | list => simp [items?] at noItems
    | dict => simp [entries?] at noEntries
  | list each => exact .list each
  | @dict lefts entries more keys _ new =>
    cases hr with
    | leaf _ noEntries => simp [entries?] at noEntries
    | @dict rights _ others keys' each' new' =>
      have hnew : ∀ e ∈ others, Entries.hasAlike rights e.1 = false := by
        intro e he
        rw [Entries.hasAlike_congr keys']
        exact new' e he
      rw [mergeOutputs, Entries.union_of_keys_eq more (keys.trans keys'.symm) (keys' ▸ h.keys) hnew]
      refine .dict keys' each' fun e he => ?_
      rcases Entries.mem_keys_union (List.mem_map_of_mem he) with hmem | hmem
      · obtain ⟨f, hf, heq⟩ := List.mem_map.mp hmem
        exact heq ▸ new f hf
      · obtain ⟨f, hf, heq⟩ := List.mem_map.mp hmem
        exact heq ▸ new' f hf

end Value

end Schemata
