import Schemata.Pattern.Reader
import Schemata.Proofs.Schema.Keeping
import Schemata.Proofs.Validator.Output

/-!
# `Schemata.Proofs.Schema.Defaults` — defaults fill in, and nothing else does

A validator has a default inside only if a sub-schema has one. So the output of validation extends the input at
every depth, and where no sub-schema has a default it is the input.

## Contents
- **Phases.** The defaults in what the slots and the refinements of a schema hold.
- **Compilation.** `compile_defaultsAre` and `compile_defaultFree`, and `output_extends_input` on whole validations.
-/

namespace Schemata

open Validator Value

/-! ## Phases -/

section

variable {good : Value → Prop}

theorem defaultsAre_leaf {vd : Validator} (h : vd.isLeaf = true) : DefaultsAre good vd := by
  refine .intro ?_ ?_
  · rintro inner value rfl
    cases h
  · intro c hc
    cases vd with
    | any | never | string | number | boolean | null | literal | enumeration | file => cases hc
    | _ => cases h

/-- No rule of the first phase makes a default. -/
theorem defaultsAre_slotInvariant : SlotInvariant { sub := DefaultsAre good } fun _ => DefaultsAre good where
  default := by
    intro kind vd h
    cases kind with
    | array => exact Option.some.inj h ▸ .intro (by simp) (List.forall_mem_singleton.mpr (defaultsAre_leaf rfl))
    | object => exact Option.some.inj h ▸ .intro (by simp) (List.forall_mem_nil _)
    | tuple => cases h
    | file => cases h
    | _ => exact Option.some.inj h ▸ defaultsAre_leaf rfl
  literal := by
    intro kind members _ _
    unfold literalValidator
    split <;> exact defaultsAre_leaf rfl
  refined := fun _ _ _ _ _ _ h => .intro (by simp) (List.forall_mem_singleton.mpr h)
  sized := fun _ _ _ _ _ _ _ _ h => .intro (by simp) (List.forall_mem_singleton.mpr h)
  both := fun _ _ _ hleft hright =>
    .intro (by simp) (List.forall_mem_cons.mpr ⟨hleft, List.forall_mem_singleton.mpr hright⟩)
  file := fun _ _ _ => defaultsAre_leaf rfl
  passes := defaultsAre_leaf rfl
  array := fun _ h => .intro (by simp) (List.forall_mem_singleton.mpr h)
  arrayElement := fun _ _ _ h _ => .intro (by simp) (List.forall_mem_singleton.mpr h)
  arrayBounds := fun _ _ _ _ h => .intro (by simp) fun _ hc => h.part hc
  tuple := fun _ rest _ hitems hrest _ => .intro (by simp) <| List.forall_mem_append.mpr
    ⟨hitems, fun c hc => hrest c (Option.mem_toList.mp hc)⟩
  object := by
    intro fields additional _ hfields hadditional
    exact .intro (by simp) (List.forall_mem_append.mpr
      ⟨List.forall_mem_map.mpr hfields, Additional.forall_mem_validator hadditional⟩)
  objectBounds := fun _ _ _ _ _ h => .intro (by simp) fun _ hc => h.part hc

/-- The only default that a refinement makes is that of the schema. -/
theorem defaultsAre_refinementInvariant {schema : Entries}
    (hdefault : ∀ value, Entries.get? schema "default" = some value → good value) :
    RefinementInvariant schema (DefaultsAre good) where
  any := defaultsAre_leaf rfl
  never := defaultsAre_leaf rfl
  refined := fun _ _ _ _ _ h => .intro (by simp) (List.forall_mem_singleton.mpr h)
  both := fun _ _ hleft hright =>
    .intro (by simp) (List.forall_mem_cons.mpr ⟨hleft, List.forall_mem_singleton.mpr hright⟩)
  union := fun _ _ h _ => .intro (by simp) h
  defaulted := by
    intro vd value hget _ h
    refine .intro ?_ (List.forall_mem_singleton.mpr h)
    rintro _ _ ⟨⟩
    exact hdefault value hget
  described := fun _ _ h => .intro (by simp) (List.forall_mem_singleton.mpr h)

end

/-! ## Compilation -/

theorem keepsNode_defaultsAre [Pattern.Engine] {good : Value → Prop} {schema : Entries}
    (hdefault : ∀ value, Entries.get? schema "default" = some value → good value) : KeepsNode (DefaultsAre good) schema :=
  ⟨⟨_, _, defaultsAre_slotInvariant, fun _ hsub => .of_sub (fun _ _ => trivial) hsub, fun _ _ hvd => hvd⟩,
    defaultsAre_refinementInvariant hdefault⟩

/-- **The defaults of a validator are those of sub-schemas.** -/
theorem compile_defaultsAre [Pattern.Engine] {good : Value → Prop} {schema : Value} {vd : Validator}
    (h : compile schema = .ok vd)
    (hschema : Everywhere (fun entries => ∀ value, Entries.get? entries "default" = some value → good value) schema) :
    DefaultsAre good vd :=
  compile_keeps h (defaultsAre_leaf rfl) (defaultsAre_leaf rfl) (hschema.mono fun _ => keepsNode_defaultsAre)

/-- **The validator of a schema without defaults has none.** -/
theorem compile_defaultFree [Pattern.Engine] {schema : Value} {vd : Validator} (h : compile schema = .ok vd)
    (hschema : NoDefaults schema) : DefaultFree vd :=
  compile_defaultsAre h (hschema.mono fun entries hnone value hget => by
    rw [Entries.has_eq_false_iff.mp hnone] at hget
    cases hget)

/-- **Output extends input.** What validation returns for an accepted value is the value with members filled in at
any depth, and where no sub-schema has a default it is the value itself. -/
theorem output_extends_input [Pattern.Engine] {schema v o : Value} {vd : Validator} (hcompile : compile schema = .ok vd)
    (hv : v.IsJson) (h : vd.validate v = .ok (.ok o)) : Extends o v ∧ (NoDefaults schema → o = v) := by
  obtain ⟨r, hr, hok, rfl⟩ := validate_eq_ok_iff.mp h
  have hkept := (answers_kept vd (fun hnone => (compile_defaultFree hcompile hnone).unfilling) v [] hv.present).meets r hr hok
  exact ⟨hkept.extension, hkept.same⟩

attribute [local instance] Pattern.engine

/-- An object with one member, into which the default of another is filled. -/
theorem output_extends_input_filled :
    let schema := Value.dict [(.string "type", .string "object"), (.string "properties", .dict
      [(.string "a", .dict [(.string "type", .string "null")]),
        (.string "b", .dict [(.string "type", .string "boolean"), (.string "default", .bool true)])])]
    let v := Value.dict [(.string "a", .null)]
    let o := Value.dict [(.string "a", .null), (.string "b", .bool true)]
    ∃ vd, compile schema = .ok vd ∧ vd.validate v = .ok (.ok o) ∧ Extends o v ∧ (NoDefaults schema → o = v) := by
  intro schema v o
  have hcompile : compile schema = .ok (.object [.mk (.string "a") false .null,
      .mk (.string "b") false (.defaulted .boolean (.bool true))] .passthrough {}) := by
    with_unfolding_all rfl
  have hv : v.IsJson := .dict ⟨by simp, by simp⟩ (List.forall_mem_singleton.mpr (.leaf rfl rfl rfl))
  have hvalidate : Validator.validate (.object [.mk (.string "a") false .null,
      .mk (.string "b") false (.defaulted .boolean (.bool true))] .passthrough {}) v = .ok (.ok o) := by
    with_unfolding_all rfl
  exact ⟨_, hcompile, hvalidate, output_extends_input hcompile hv hvalidate⟩

end Schemata
