import Schemata.Proofs.Schema.Keeping
import Schemata.Proofs.Schema.Kinds
import Schemata.Proofs.Validator.Demands

/-!
# `Schemata.Proofs.Schema.Demands` — what a schema supplies for its validators

A mapping of keywords meets demands if the things that it names do. Then the validator of a schema whose mappings all
meet them meets them throughout, for compilation puts nothing else into validators.

## Contents
- **Schemas.** `Demands.Coherent` and `Demands.MetBy`.
- **Phases.** `demands_slotInvariant` and `demands_refinementInvariant`.
- **Compilation.** `compile_meets`.
-/

namespace Schemata

open Validator

/-! ## Schemas -/

/-- Demands that allow what compilation does by itself. -/
structure Demands.Coherent (demands : Demands) : Prop where
  closed : ∀ kind test, demands.condition kind test → test.validators = []
  sized : ∀ kind relation limit, isComposite kind = true → demands.limit limit →
    demands.condition kind (.size relation limit)
  integral : demands.condition .number .integral
  zero : demands.limit (.int 0)
  noNames : demands.names []

/-- A mapping of keywords that names only what is demanded. -/
structure Demands.MetBy [Pattern.Engine] (demands : Demands) (schema : Entries) : Prop where
  literal : ∀ w ∈ literals schema, demands.literal w
  condition : ∀ rule kind test? test, KindRule.condition? rule = some (kind, test?) → test? schema = some test →
    demands.condition kind test
  anyCondition : ∀ holds test, SchemaCondition schema holds test → demands.anyCondition test
  limit : ∀ keyword, (keyword, KeywordShape.count) ∈ keywordShapes → ∀ limit,
    Entries.given? schema keyword = some limit → demands.limit limit
  names : demands.names (fieldNames schema)
  default : ∀ value, Entries.get? schema "default" = some value → demands.default value

namespace Demands

variable {demands : Demands}

/-- What meets demands throughout. -/
abbrev Hold (demands : Demands) (vd : Validator) : Prop := Throughout (Meets demands) vd

/-- What a mapping of keywords supplies for validators that meet demands. -/
def supply (demands : Demands) : Supply where
  literal := demands.literal
  condition := demands.condition
  limit := demands.limit
  names := demands.names
  sub := demands.Hold

theorem Coherent.supplies [Pattern.Engine] (h : demands.Coherent) {schema : Entries} (hschema : demands.MetBy schema)
    {convert : Value → Except CompileError Validator}
    (hsub : ∀ s ∈ subSchemas schema, ∀ c, convert s = .ok c → demands.Hold c) :
    Supplies convert schema demands.supply where
  literal := hschema.literal
  condition := hschema.condition
  integral := h.integral
  limit := hschema.limit
  zero := h.zero
  names := hschema.names
  mediaTypes := fun _ _ => trivial
  sub := hsub

/-! ## Phases -/

theorem Hold.both {left right : Validator} (hleft : demands.Hold left) (hright : demands.Hold right) :
    demands.Hold (.both left right) :=
  .intro trivial (List.forall_mem_cons.mpr ⟨hleft, List.forall_mem_singleton.mpr hright⟩)

theorem each_of_limits {bounds : Bounds} (h : ∀ limit ∈ bounds.limits, demands.limit limit) :
    bounds.Each demands.limit :=
  ⟨(Bounds.forall_mem_limits.mp h).1, (Bounds.forall_mem_limits.mp h).2⟩

/-- **Validators in slots meet demands**, and refuse the values of other kinds. -/
theorem demands_slotInvariant (hdemands : demands.Coherent) : SlotInvariant demands.supply fun kind vd =>
    demands.Hold vd ∧ RefusesOthers False kind vd := by
  have hforeign : SlotInvariant { literal := fun w => False → w.isWritable = true } (RefusesOthers False) :=
    foreign_refused
  have hrefined : ∀ {kind : Kind} {vd : Validator} {test : Test} (message : String), demands.condition kind test →
      demands.Hold vd → RefusesOthers False kind vd → demands.Hold (.refined vd test message) := by
    intro kind vd test message htest hvd hrefuses
    refine .intro (.inr ⟨kind, yields_of_refuses fun v path hv => ?_, htest⟩) ?_
    · exact hrefuses.refuses hv path
    · show ∀ c ∈ vd :: test.validators, demands.Hold c
      rw [hdemands.closed kind test htest]
      exact List.forall_mem_singleton.mpr hvd
  -- a condition is put on a kind of outputs, so the invariant says besides that values of other kinds are refused
  exact {
    default := by
      intro kind vd h
      refine ⟨?_, hforeign.default kind vd h⟩
      cases kind with
      | array => exact Option.some.inj h ▸ .intro .none (List.forall_mem_singleton.mpr (Throughout.leaf rfl trivial))
      | object => exact Option.some.inj h ▸ .intro ⟨.none, hdemands.noNames⟩ (List.forall_mem_nil _)
      | tuple | file => cases h
      | _ => exact Option.some.inj h ▸ .leaf rfl trivial
    literal := by
      intro kind members hne h
      refine ⟨?_, hforeign.literal kind members hne fun w hw => ⟨(h w hw).1, False.elim⟩⟩
      unfold literalValidator
      split
      · exact .leaf rfl trivial
      · exact .leaf rfl (h _ List.mem_cons_self).2
      · exact .leaf rfl fun w hw => (h w hw).2
    refined := fun kind vd test message htest hmessage h =>
      ⟨hrefined message htest h.1 h.2, hforeign.refined kind vd test message trivial hmessage h.2⟩
    sized := fun kind vd relation limit message hkind hlimit hmessage h =>
      ⟨hrefined message (hdemands.sized kind relation limit hkind hlimit) h.1 h.2,
        hforeign.sized kind vd relation limit message hkind trivial hmessage h.2⟩
    both := fun kind left right hleft hright =>
      ⟨hleft.1.both hright.1, hforeign.both kind left right hleft.2 hright.2⟩
    file := fun limits h _ =>
      ⟨.leaf rfl (each_of_limits h), hforeign.file limits (fun _ _ => trivial) fun _ _ => trivial⟩
    passes := Throughout.leaf rfl trivial
    array := fun element h => ⟨.intro .none (List.forall_mem_singleton.mpr h), hforeign.array element trivial⟩
    arrayElement := fun old element bounds h hold =>
      ⟨.intro hold.1.whole (List.forall_mem_singleton.mpr h), hforeign.arrayElement old element bounds trivial hold.2⟩
    arrayBounds := fun element old new h hold =>
      ⟨.intro (hold.1.whole.replace (each_of_limits h)) fun _ hc => hold.1.part hc,
        hforeign.arrayBounds element old new (fun _ _ => trivial) hold.2⟩
    tuple := fun items rest bounds hitems hrest h =>
      ⟨.intro (each_of_limits h) (List.forall_mem_append.mpr ⟨hitems, fun c hc => hrest c (Option.mem_toList.mp hc)⟩),
        hforeign.tuple items rest bounds (fun _ _ => trivial) (fun _ _ => trivial) fun _ _ => trivial⟩
    object := fun fields additional hnames hfields hadditional =>
      ⟨.intro ⟨.none, hnames⟩ (List.forall_mem_append.mpr
        ⟨List.forall_mem_map.mpr hfields, Additional.forall_mem_validator hadditional⟩),
        hforeign.object fields additional trivial (fun _ _ => trivial) fun _ _ => trivial⟩
    objectBounds := fun fields additional old new h hold =>
      ⟨.intro ⟨hold.1.whole.1.replace (each_of_limits h), hold.1.whole.2⟩ fun _ hc => hold.1.part hc,
        hforeign.objectBounds fields additional old new (fun _ _ => trivial) hold.2⟩ }

/-- **Refinements of validators that meet demands** meet them. -/
theorem demands_refinementInvariant [Pattern.Engine] {schema : Entries} (hschema : demands.MetBy schema) :
    RefinementInvariant schema demands.Hold where
  any := .leaf rfl trivial
  never := .leaf rfl trivial
  refined := fun _ test _ htest _ hvd =>
    .intro (.inl (hschema.anyCondition _ test htest)) (List.forall_mem_cons.mpr ⟨hvd, htest.forall_validators⟩)
  both := fun _ _ hleft hright => hleft.both hright
  union := fun _ _ h _ => .intro trivial h
  defaulted := fun _ value hget _ hvd => .intro (hschema.default value hget) (List.forall_mem_singleton.mpr hvd)
  described := fun _ _ h => .intro trivial (List.forall_mem_singleton.mpr h)

end Demands

/-! ## Compilation -/

theorem Demands.MetBy.keepsNode [Pattern.Engine] {demands : Demands} {schema : Entries} (hschema : demands.MetBy schema)
    (hdemands : demands.Coherent) : KeepsNode demands.Hold schema where
  slots := ⟨_, _, demands_slotInvariant hdemands, fun _ hsub => hdemands.supplies hschema hsub, fun _ _ hvd => hvd.1⟩
  refinements := demands_refinementInvariant hschema

/-- **The validator of a schema meets the demands that its mappings of keywords meet.** -/
theorem compile_meets [Pattern.Engine] {demands : Demands} (hdemands : demands.Coherent) {schema : Value} {vd : Validator}
    (h : compile schema = .ok vd) (hschema : Everywhere demands.MetBy schema) : demands.Hold vd :=
  compile_keeps h (.leaf rfl trivial) (.leaf rfl trivial) (hschema.mono fun _ hnode => hnode.keepsNode hdemands)

end Schemata
