import Mathlib.Data.List.Nodup
import Schemata.Pattern.Reader
import Schemata.Proofs.Schema.Arrays
import Schemata.Proofs.Schema.Unfolding
import Schemata.Proofs.Validator.Choice

/-!
# `Schemata.Proofs.Schema.Dispatch` — unions by kind

When several kinds are admitted, the first phase joins their validators into a union with a tag for each, and a value
is checked by the option for its kind alone. Nothing is lost by that: the options for other kinds refuse the value, and
there is at most one option for a kind, since a schema with positional items has tuples instead of arrays.

## Contents
- **First phase.** `baseValidator`, what the first phase makes of a schema, and `compile_around`.
- **Tags.** `tuple_or_array`, and the tags that admit a kind.
- **Dispatch.** `Dispatches`, `check_assemble` and `union_dispatch`.
- **Writing.** `union_dispatch_unwritable`: a literal that cannot be written refuses nothing.
-/

namespace Schemata

open Validator

/-! ## First phase -/

/-- The validator that the first phase makes of a mapping of keywords. -/
def baseValidator [Pattern.Engine] (schema : Entries) : Except CompileError Validator := do
  let slots ← KindRule.runAll (fun _ => .ok ()) compile schema KindRule.all .initial
  return slots.assemble schema

/-- The second phase refines what the first one has made. -/
theorem compile_dict_base [Pattern.Engine] (schema : Entries) :
    compile (.dict schema) = baseValidator schema >>= Refinement.runAll (fun _ => .ok ()) compile schema Refinement.all := by
  rw [compile_dict, compileNode, baseValidator, bind_assoc]
  exact bind_congr fun slots => (pure_bind _ _).symm

/-- **A schema of which one rule compiles a part** is compiled as that part is, if what the rules around it and the second
phase do is the same for any result. -/
theorem compile_around [Pattern.Engine] {α : Type} {schema : Entries} {earlier later : List KindRule} {rule : KindRule}
    (slots : Admissibility) {x : Except CompileError α} (steps : α → List Step) {made : α → Validator}
    (hall : KindRule.all = earlier ++ rule :: later)
    (hearlier : KindRule.runAll (fun _ => .ok ()) compile schema earlier .initial = .ok slots)
    (hrule : rule.steps (fun _ => .ok ()) compile slots schema = x >>= fun a => .ok (steps a))
    (hlater : ∀ a, KindRule.runAll (fun _ => .ok ()) compile schema later (slots.run (steps a)) = .ok (slots.run (steps a)))
    (hmade : ∀ a, Refinement.runAll (fun _ => .ok ()) compile schema Refinement.all ((slots.run (steps a)).assemble schema) =
      .ok (made a)) :
    compile (.dict schema) = x >>= fun a => .ok (made a) := by
  rw [compile_dict_base, baseValidator, hall, KindRule.runAll_around hearlier hrule hlater, bind_assoc, bind_assoc]
  exact bind_congr hmade

/-- **A validator in a slot is no union**, and so it does not say that no option fits. -/
theorem undivided_slotInvariant : SlotInvariant {} fun _ vd =>
    (∀ options tags, vd ≠ .union options tags) ∧ Undivided vd where
  default := by
    intro kind vd h
    cases kind with
    | tuple | file => cases h
    | array | object =>
      obtain rfl := Option.some.inj h
      exact ⟨nofun, undivided_structure rfl⟩
    | _ =>
      obtain rfl := Option.some.inj h
      exact ⟨nofun, undivided_leaf rfl⟩
  literal := by
    intro kind members _ _
    unfold literalValidator
    split <;> exact ⟨nofun, undivided_leaf rfl⟩
  refined := fun _ _ test message _ _ h => ⟨nofun, h.2.refined test message⟩
  sized := fun _ _ _ _ message _ _ _ h => ⟨nofun, h.2.refined _ message⟩
  both := fun _ _ _ hleft hright => ⟨nofun, hleft.2.both hright.2⟩
  file := fun _ _ _ => ⟨nofun, undivided_leaf rfl⟩
  passes := trivial
  array := fun _ _ => ⟨nofun, undivided_structure rfl⟩
  arrayElement := fun _ _ _ _ _ => ⟨nofun, undivided_structure rfl⟩
  arrayBounds := fun _ _ _ _ _ => ⟨nofun, undivided_structure rfl⟩
  tuple := fun _ _ _ _ _ _ => ⟨nofun, undivided_structure rfl⟩
  object := fun _ _ _ _ _ => ⟨nofun, undivided_structure rfl⟩
  objectBounds := fun _ _ _ _ _ _ => ⟨nofun, undivided_structure rfl⟩

/-! ## Tags -/

section

variable {convert : Value → Except CompileError Validator} {schema : Entries}

/-- Positional items disable arrays or leave tuples alone. -/
theorem tupleSteps_tuple (slots : Admissibility) :
    Answers False (tupleSteps (fun _ => .ok ()) convert slots schema) fun steps =>
      slots.run steps .tuple = slots .tuple ∨ (slots.run steps .array).isDisabled = true := by
  refine answers_tupleSteps.mono fun steps hsteps => ?_
  cases hsteps with
  | single | refused => exact .inl rfl
  | tuple | impossible => exact .inr rfl

/-- **Arrays and tuples do not both speak** after all rules: the rules of arrays start with empty slots. -/
theorem tuple_or_array [Pattern.Engine] :
    Answers False (KindRule.runAll (fun _ => .ok ()) convert schema KindRule.all .initial) fun slots =>
      slots.admitted? .tuple = none ∨ slots.admitted? .array = none := by
  have hsplit : KindRule.all = (.const :: KindRule.opening) ++ (.tuple :: ([.minItems, .maxItems, .items] ++ KindRule.ofObjects)) :=
    rfl
  rw [hsplit, KindRule.runAll_append]
  refine .bind (openedArray_opening (v := .list []) rfl) fun slots hslots => ?_
  have hempty : slots.admitted? .tuple = none := by
    have htuple := hslots.tuple
    unfold Admissibility.admitted? Admissibility.current?
    split at htuple <;> rw [htuple] <;> rfl
  rw [KindRule.runAll]
  refine .bind (tupleSteps_tuple slots) fun steps hsteps => ?_
  rcases hsteps with hleft | hdisabled
  · have hkinds : ∀ rule ∈ [.minItems, .maxItems, .items] ++ KindRule.ofObjects, Kind.tuple ∉ rule.kinds := by decide
    refine (KindRule.runAll_other hkinds _).mono fun slots' hslots' => .inl ?_
    rw [Admissibility.admitted?_congr (hslots'.trans hleft), hempty]
  · refine (KindRule.runAll_isDisabled hdisabled).mono fun slots' hslots' => .inr ?_
    exact if_pos hslots'

end

theorem Kind.name_injective : Function.Injective Kind.name := by
  intro kind other h
  cases kind <;> cases other <;> first | rfl | simp [Kind.name] at h

/-- The kinds whose tags admit a kind of values: those of lists have tuples besides. -/
theorem tagAdmits_name (tag kind : Kind) :
    tagAdmits tag.name (some kind) = if tag = .tuple then decide (kind = .array) else decide (tag = kind) := by
  cases tag <;> cases kind <;> rfl

theorem eq_of_tagAdmits {tag other : Kind} {kind : Option Kind} (h : tagAdmits tag.name kind = true)
    (hother : tagAdmits other.name kind = true) :
    tag = other ∨ (tag = .array ∧ other = .tuple) ∨ (tag = .tuple ∧ other = .array) := by
  cases kind with
  | none => cases h
  | some kind =>
    rw [tagAdmits_name] at h hother
    cases tag <;> cases other <;> simp_all

/-! ## Dispatch -/

/-- How a union by kind treats a value at a place. Under the condition `sure`, validators answer that do not have to
look at the value. -/
structure Dispatches (sure : Prop) (options : List Validator) (tags : List String) (v : Value) (path : Pointer) :
    Prop where
  /-- Every option has its tag. -/
  length : options.length = tags.length
  /-- Arrays and tuples are never options of one union. -/
  arrayOrTuple : ¬ ("array" ∈ tags ∧ "tuple" ∈ tags)
  /-- At most one tag admits the kind of the value. -/
  unique : (tags.filter fun tag => tagAdmits tag v.kind).length ≤ 1
  /-- The options for other kinds refuse the value. -/
  others : ∀ o ∈ options.zip tags, tagAdmits o.2 v.kind = false → Answers sure (o.1.check v path) fun r => r.ok = false
  /-- What some option accepts, the union accepts with the same output. -/
  complete : ∀ w, (union options []).check v path = .ok (.accept w) → (union options tags).check v path = .ok (.accept w)
  /-- What the union accepts, the options accept with the same output without their tags. -/
  sound : ∀ w, (union options tags).check v path = .ok (.accept w) →
    Answers sure ((union options []).check v path) (· = .accept w)
  /-- A value is refused for its kind or for the reasons of the option for its kind, and not because there is no
  option for it. -/
  refused : ∀ r, (union options tags).check v path = .ok r → r.ok = false →
    (∀ issue ∈ r.issues, issue.path = path → issue.cause ≠ .noOption) ∧
      ((∀ tag ∈ tags, tagAdmits tag v.kind = false) ∧ r.issues = [⟨path, wrongType (" | ".intercalate tags) v⟩] ∨
        ∃ o ∈ options.zip tags, tagAdmits o.2 v.kind = true ∧
          ∃ r', o.1.check v path = .ok r' ∧ r'.ok = false ∧ r.issues = r'.issues)

section

variable {sure : Prop} {options : List (Kind × Validator)} {v : Value} {path : Pointer}

theorem tried_tagged (hne : options ≠ []) (hv : v ≠ .absent) :
    tried (options.map Prod.snd) (options.map fun o => o.1.name) v =
      (options.filter fun o => tagAdmits o.1.name v.kind).map Prod.snd := by
  rw [tried, flags, goesByTags_of_ne (by simpa using hne) hv, if_pos rfl, List.map_map]
  exact Decides.admittedOptions_map options _

theorem tried_untagged : tried (options.map Prod.snd) [] v = options.map Prod.snd := by
  rw [tried, flags, goesByTags, if_neg (by simp), List.map_map]
  exact (Decides.admittedOptions_map options fun _ => true).trans (by simp)

variable (hkinds : (options.map Prod.fst).Nodup)
  (hapart : ∀ o ∈ options, ∀ o' ∈ options, o.1 = .array → o'.1 ≠ .tuple)
include hkinds hapart

/-- An option for the kind of a value is the only one. -/
theorem filter_eq_singleton {o : Kind × Validator} (ho : o ∈ options) (htag : tagAdmits o.1.name v.kind = true) :
    (options.filter fun o => tagAdmits o.1.name v.kind) = [o] := by
  have hsame : ∀ o' ∈ options.filter fun o => tagAdmits o.1.name v.kind, o' = o := by
    intro o' hmem
    obtain ⟨ho', htag'⟩ := List.mem_filter.mp hmem
    refine List.inj_on_of_nodup_map hkinds ho' ho ?_
    rcases eq_of_tagAdmits htag' htag with heq | ⟨harray, htuple⟩ | ⟨htuple, harray⟩
    · exact heq
    · exact (hapart o' ho' o ho harray htuple).elim
    · exact (hapart o ho o' ho' harray htuple).elim
  have hreplicate := List.eq_replicate_of_mem hsame
  have hmem : o ∈ options.filter fun o => tagAdmits o.1.name v.kind := List.mem_filter.mpr ⟨ho, htag⟩
  have hle : (options.filter fun o => tagAdmits o.1.name v.kind).length ≤ 1 := by
    have hnodup := (List.Nodup.of_map _ hkinds).filter fun o => tagAdmits o.1.name v.kind
    rw [hreplicate] at hnodup
    exact List.nodup_replicate.mp hnodup
  have hpos := List.length_pos_of_mem hmem
  rw [hreplicate, show (options.filter fun o => tagAdmits o.1.name v.kind).length = 1 by omega]
  rfl

/-- At most one tag admits the kind of a value. -/
theorem length_filter_tags : ((options.map fun o => o.1.name).filter fun tag => tagAdmits tag v.kind).length ≤ 1 := by
  rw [List.filter_map, List.length_map]
  by_cases hsome : ∃ o ∈ options, tagAdmits o.1.name v.kind = true
  · obtain ⟨o, ho, htag⟩ := hsome
    exact Nat.le_of_eq (congrArg List.length (filter_eq_singleton hkinds hapart ho htag))
  · have hnone := List.filter_eq_nil_iff.mpr fun o ho htag => hsome ⟨o, ho, htag⟩
    exact Nat.le_trans (Nat.le_of_eq (congrArg List.length hnone)) (Nat.zero_le 1)

/-- **A value goes to the option for its kind.** -/
theorem check_tagged {o : Kind × Validator} (ho : o ∈ options) (htag : tagAdmits o.1.name v.kind = true) (hv : v ≠ .absent) :
    (union (options.map Prod.snd) (options.map fun o => o.1.name)).check v path =
      (o.2.check v path).map fun r => if r.ok then .accept r.output else ⟨v, r.issues⟩ := by
  refine check_union_single ?_
  rw [tried_tagged (List.ne_nil_of_mem ho) hv, filter_eq_singleton hkinds hapart ho htag]
  rfl

omit hkinds hapart in
/-- A value without an option for its kind is refused for its kind. -/
theorem check_untagged (hne : options ≠ []) (hv : v ≠ .absent) (htags : ∀ o ∈ options, tagAdmits o.1.name v.kind = false) :
    (union (options.map Prod.snd) (options.map fun o => o.1.name)).check v path =
      .ok (.reject v path (wrongType (" | ".intercalate (options.map fun o => o.1.name)) v)) := by
  refine check_union_none (goesByTags_of_ne (by simpa using hne) hv) ?_
  rw [tried_tagged hne hv, List.filter_eq_nil_iff.mpr fun o ho => by simp [htags o ho]]
  rfl

variable (hforeign : ∀ o ∈ options, RefusesOthers sure o.1 o.2) (hundivided : ∀ o ∈ options, Undivided o.2)
  (hne : options ≠ []) (hv : v ≠ .absent)
include hforeign hv

/-- What some option accepts, the union with tags accepts with the same output. -/
theorem accept_tagged {w : Value} (h : (union (options.map Prod.snd) []).check v path = .ok (.accept w)) :
    (union (options.map Prod.snd) (options.map fun o => o.1.name)).check v path = .ok (.accept w) := by
  have hall : Answers False ((union (options.map Prod.snd) []).check v path) _ :=
    answers_union fun c _ => (.of_meets fun r hr => hr : Answers False (c.check v path) fun r => c.check v path = .ok r)
  rcases hall.meets _ h with ⟨c, hc, r, hr, hok, hout⟩ | ⟨_, _, _, hout, _⟩
  · rw [tried_untagged] at hc
    obtain ⟨o, ho, rfl⟩ := List.mem_map.mp hc
    have htag : tagAdmits o.1.name v.kind = true := by
      by_contra htag
      rw [((hforeign o ho).refuses (Bool.eq_false_iff.mpr htag) path).meets r hr] at hok
      cases hok
    rw [check_tagged hkinds hapart ho htag hv, hr, hout]
    exact congrArg Except.ok (if_pos hok)
  · cases hout

include hne

/-- What the union with tags accepts, the options accept without them. -/
theorem accept_untagged {w : Value}
    (h : (union (options.map Prod.snd) (options.map fun o => o.1.name)).check v path = .ok (.accept w)) :
    Answers sure ((union (options.map Prod.snd) []).check v path) (· = .accept w) := by
  by_cases hsome : ∃ o ∈ options, tagAdmits o.1.name v.kind = true
  · obtain ⟨o, ho, htag⟩ := hsome
    rw [check_tagged hkinds hapart ho htag hv] at h
    obtain ⟨r, hr, hreport⟩ := exists_of_map_eq_ok h
    have hok : r.ok = true := by
      by_contra hok
      rw [if_neg hok] at hreport
      exact hok (Report.ok_iff.mpr (congrArg Report.issues hreport))
    rw [if_pos hok] at hreport
    have hmem : o.2 ∈ tried (options.map Prod.snd) [] v := by
      rw [tried_untagged]
      exact List.mem_map_of_mem ho
    refine hreport ▸ answers_union_only hmem hr hok ?_
    rw [tried_untagged]
    refine List.forall_mem_map.mpr fun o' ho' => ?_
    by_cases htag' : tagAdmits o'.1.name v.kind = true
    · have hsame : o' ∈ [o] := filter_eq_singleton hkinds hapart ho htag ▸ List.mem_filter.mpr ⟨ho', htag'⟩
      exact .inl (List.mem_singleton.mp hsame ▸ hr)
    · exact .inr ((hforeign o' ho').refuses (Bool.eq_false_iff.mpr htag') path)
  · rw [check_untagged hne hv fun o ho => Bool.eq_false_iff.mpr fun htag => hsome ⟨o, ho, htag⟩] at h
    cases h

include hundivided

omit hforeign in
/-- What the union with tags refuses has no option for its kind, or is refused by that option. -/
theorem refuse_tagged {r : Report}
    (h : (union (options.map Prod.snd) (options.map fun o => o.1.name)).check v path = .ok r) (hrefused : r.ok = false) :
    (∀ issue ∈ r.issues, issue.path = path → issue.cause ≠ .noOption) ∧
      ((∀ o ∈ options, tagAdmits o.1.name v.kind = false) ∧
          r.issues = [⟨path, wrongType (" | ".intercalate (options.map fun o => o.1.name)) v⟩] ∨
        ∃ o ∈ options, tagAdmits o.1.name v.kind = true ∧
          ∃ r', o.2.check v path = .ok r' ∧ r'.ok = false ∧ r.issues = r'.issues) := by
  by_cases hsome : ∃ o ∈ options, tagAdmits o.1.name v.kind = true
  · obtain ⟨o, ho, htag⟩ := hsome
    rw [check_tagged hkinds hapart ho htag hv] at h
    obtain ⟨r', hr', hreport⟩ := exists_of_map_eq_ok h
    have hok : r'.ok = false := by
      by_contra hok
      rw [Bool.not_eq_false] at hok
      rw [← hreport, if_pos hok] at hrefused
      cases hrefused
    rw [if_neg (by rw [hok]; decide)] at hreport
    obtain rfl := hreport
    exact ⟨((hundivided o ho v path).meets r' hr').cause_ne, .inr ⟨o, ho, htag, r', hr', hok, rfl⟩⟩
  · have htags : ∀ o ∈ options, tagAdmits o.1.name v.kind = false := fun o ho =>
      Bool.eq_false_iff.mpr fun htag => hsome ⟨o, ho, htag⟩
    rw [check_untagged hne hv htags] at h
    obtain rfl := Except.ok.inj h
    exact ⟨List.forall_mem_singleton.mpr fun _ => nofun, .inl ⟨htags, rfl⟩⟩

/-- **Options that refuse other kinds** are dispatched by their tags. -/
theorem dispatches_of_options (path : Pointer) :
    Dispatches sure (options.map Prod.snd) (options.map fun o => o.1.name) v path := by
  have hzip : (options.map Prod.snd).zip (options.map fun o => o.1.name) = options.map fun o => (o.2, o.1.name) :=
    List.zip_map' ..
  refine ⟨by simp, ?arrayOrTuple, length_filter_tags hkinds hapart, ?others,
    fun w => accept_tagged hkinds hapart hforeign hv, fun w => accept_untagged hkinds hapart hforeign hne hv, ?refused⟩
  case arrayOrTuple =>
    rintro ⟨harray, htuple⟩
    obtain ⟨o, ho, hname⟩ := List.mem_map.mp harray
    obtain ⟨o', ho', hname'⟩ := List.mem_map.mp htuple
    exact hapart o ho o' ho' (Kind.name_injective hname) (Kind.name_injective hname')
  case others =>
    rw [hzip]
    exact List.forall_mem_map.mpr fun o ho htag => (hforeign o ho).refuses htag path
  case refused =>
    intro r hr hrefused
    obtain ⟨hcause, ⟨htags, hissues⟩ | ⟨o, ho, hown⟩⟩ := refuse_tagged hkinds hapart hundivided hne hv hr hrefused
    · exact ⟨hcause, .inl ⟨List.forall_mem_map.mpr htags, hissues⟩⟩
    · rw [hzip]
      exact ⟨hcause, .inr ⟨(o.2, o.1.name), List.mem_map_of_mem ho, hown⟩⟩

end

/-- The options of a union are the validators of different admitted kinds. -/
theorem mem_validators {slots : Admissibility} {o : Kind × Validator} (h : o ∈ slots.validators) :
    slots.admitted? o.1 = some o.2 := by
  rw [Admissibility.validators_eq] at h
  obtain ⟨kind, _, hvd⟩ := List.mem_filterMap.mp h
  obtain ⟨vd, hadmitted, rfl⟩ := Option.map_eq_some_iff.mp hvd
  exact hadmitted

theorem mem_validators_of_admitted {slots : Admissibility} {kind : Kind} {vd : Validator} (h : slots.admitted? kind = some vd) :
    (kind, vd) ∈ slots.validators := by
  rw [Admissibility.validators_eq]
  exact List.mem_filterMap.mpr ⟨kind, by cases kind <;> decide, by rw [h]; rfl⟩

theorem nodup_kinds (slots : Admissibility) : (slots.validators.map Prod.fst).Nodup := by
  rw [Admissibility.validators_eq, List.Nodup, List.pairwise_map]
  refine List.Pairwise.filterMap _ ?_ (show Kind.all.Pairwise (· ≠ ·) by decide)
  intro kind kind' hne o ho o' ho'
  obtain ⟨vd, _, rfl⟩ := Option.map_eq_some_iff.mp ho
  obtain ⟨vd', _, rfl⟩ := Option.map_eq_some_iff.mp ho'
  exact hne

/-- Arrays and tuples are not admitted together. -/
theorem validators_apart [Pattern.Engine] {convert : Value → Except CompileError Validator} {schema : Entries} :
    Answers False (KindRule.runAll (fun _ => .ok ()) convert schema KindRule.all .initial) fun slots =>
      ∀ o ∈ slots.validators, ∀ o' ∈ slots.validators, o.1 = .array → o'.1 ≠ .tuple := by
  refine tuple_or_array.mono fun slots hnone o ho o' ho' harray htuple => ?_
  have hsome := mem_validators ho
  have hsome' := mem_validators ho'
  rw [harray] at hsome
  rw [htuple] at hsome'
  rcases hnone with hnone | hnone
  · rw [hnone] at hsome'
    cases hsome'
  · rw [hnone] at hsome
    cases hsome

/-- **What is joined of the slots leaves a value to the validator of its kind**, but for the output of what is refused. -/
theorem check_assemble {slots : Admissibility}
    (hapart : ∀ o ∈ slots.validators, ∀ o' ∈ slots.validators, o.1 = .array → o'.1 ≠ .tuple) {schema : Entries}
    (hconstraints : hasConstraints schema = true) {o : Kind × Validator} (ho : o ∈ slots.validators) {v : Value}
    (hv : v ≠ .absent) (htag : tagAdmits o.1.name v.kind = true) (path : Pointer) :
    (slots.assemble schema).check v path = o.2.check v path ∨ (slots.assemble schema).check v path =
      (o.2.check v path).map fun r => if r.ok then .accept r.output else ⟨v, r.issues⟩ := by
  unfold Admissibility.assemble
  split
  next hnil => exact (List.not_mem_nil (hnil ▸ ho)).elim
  next kind vd hone =>
    obtain rfl := List.mem_singleton.mp (hone ▸ ho)
    exact .inl rfl
  next =>
    rw [if_pos hconstraints]
    exact .inr (check_tagged (nodup_kinds slots) hapart ho htag hv)

/-- What is joined of the slots refuses a value for whose kind there is no validator. -/
theorem refused_assemble {sure : Prop} {slots : Admissibility} (hforeign : slots.Keep (RefusesOthers sure)) {schema : Entries}
    (hconstraints : hasConstraints schema = true) {v : Value}
    (hnone : ∀ o ∈ slots.validators, tagAdmits o.1.name v.kind = false) (path : Pointer) :
    Answers False ((slots.assemble schema).check v path) fun r => r.ok = false := by
  have hrefuses : ∀ o ∈ slots.validators, Answers False (o.2.check v path) fun r => r.ok = false := fun o ho =>
    ((validators_keep foreign_refused hforeign ho).refuses (hnone o ho) path).weaken
  unfold Admissibility.assemble
  split
  · exact .ok rfl
  next kind vd hone => exact hrefuses (kind, vd) (hone ▸ List.mem_singleton_self _)
  next =>
    rw [if_pos hconstraints]
    have hoptions : ∀ c ∈ slots.validators.map Prod.snd, Answers False (c.check v path) fun r => r.ok = false :=
      List.forall_mem_map.mpr hrefuses
    refine (answers_union fun c hc => hoptions c (mem_of_mem_tried hc)).mono ?_
    rintro out (⟨c, _, r, hr, hok, _⟩ | ⟨_, _, _, hout, _⟩)
    · rw [hr] at hok
      cases hok
    · exact hout

/-- **Dispatch by kind loses nothing.** If the first phase makes a union by kind of a schema, then every value that is
there is dispatched to the only option that may accept it. Options for other kinds refuse the value without looking
at it, unless they have to write a literal with too many digits. -/
theorem union_dispatch [Pattern.Engine] {schema : Entries} {options : List Validator} {tags : List String}
    (hbase : baseValidator schema = .ok (.union options tags)) {v : Value} (hv : v ≠ .absent) (path : Pointer) :
    Dispatches ((Value.dict schema).isWritable = true) options tags v path := by
  obtain ⟨slots, hslots, hassemble⟩ := exists_of_bind_eq_ok hbase
  have hforeign : slots.Keep (RefusesOthers ((Value.dict schema).isWritable = true)) :=
    (slots_keep foreign_refused (.of_sub (fun w hw hwritable => isWritable_of_mem_literals hwritable hw)
      fun _ _ _ _ => trivial) KindRule.all .initial).meets slots hslots
  have hundivided := (slots_keep undivided_slotInvariant (.of_sub (fun _ _ => trivial) fun _ _ _ _ => trivial)
    KindRule.all .initial).meets slots hslots
  have hapart : ∀ o ∈ slots.validators, ∀ o' ∈ slots.validators, o.1 = .array → o'.1 ≠ .tuple := by
    intro o ho o' ho' harray htuple
    have hsome := mem_validators ho
    have hsome' := mem_validators ho'
    rw [harray] at hsome
    rw [htuple] at hsome'
    rcases tuple_or_array.meets slots hslots with hnone | hnone
    · rw [hnone] at hsome'
      cases hsome'
    · rw [hnone] at hsome
      cases hsome
  have hunion : slots.assemble schema = .union options tags := Except.ok.inj hassemble
  unfold Admissibility.assemble at hunion
  -- a single validator is none that was made of options
  split at hunion
  · cases hunion
  next kind vd hone =>
    have hmem : (kind, vd) ∈ slots.validators := hone ▸ List.mem_cons_self
    exact ((validators_keep undivided_slotInvariant hundivided hmem).1 _ _ hunion).elim
  next hne _ =>
    split at hunion
    · obtain ⟨rfl, rfl⟩ := Validator.union.inj hunion
      exact dispatches_of_options (nodup_kinds slots) hapart
        (fun o ho => validators_keep foreign_refused hforeign ho)
        (fun o ho => (validators_keep undivided_slotInvariant hundivided ho).2) hne hv path
    · cases hunion

attribute [local instance] Pattern.engine

/-- Texts beside lists with one item: a list goes to the tuple, whose issues are reported. -/
theorem union_dispatch_tuple :
    let schema : Entries := [(.string "type", .list [.string "string", .string "array"]), (.string "items", .list [.bool false])]
    let tuple := Validator.tuple [.never] none {}
    let v := Value.list [.null]
    baseValidator schema = .ok (.union [.string, tuple] ["string", "tuple"]) ∧ v ≠ .absent ∧
      Dispatches ((Value.dict schema).isWritable = true) [.string, tuple] ["string", "tuple"] v [] := by
  intro schema tuple v
  have hbase : baseValidator schema = .ok (.union [.string, tuple] ["string", "tuple"]) := by with_unfolding_all rfl
  have hv : v ≠ .absent := nofun
  exact ⟨hbase, hv, union_dispatch hbase hv []⟩

/-! ## Writing -/

/-- A number or truth: the first phase makes an option of each. -/
theorem base_numberOrTruth (n : Int) :
    baseValidator [(.string "enum", .list [.int n, .bool true])] =
      .ok (.union [.literal (.int n), .literal (.bool true)] ["number", "boolean"]) := by
  with_unfolding_all rfl

/-- A number that cannot be written does not refuse a truth value. -/
theorem check_long {n : Int} (h : Value.isWritableInt n = false) :
    (Validator.literal (.int n)).check (.bool true) [] = .error .noValue := by
  have hdiffers : (Value.bool true).equal (.int n) = false := by with_unfolding_all rfl
  have hquoted : (Value.int n).quoted? = .error .noValue := by
    rw [Value.quoted?, Value.isWritable, h]
    rfl
  rw [check_literal (show Value.bool true ≠ .absent by simp), hdiffers, hquoted]
  rfl

/-- A number with too many digits beside a truth value: the option for numbers does not refuse the truth value, since it
cannot write its literal, and a union without tags gives no answer where the dispatch accepts. -/
theorem union_dispatch_unwritable :
    let schema : Entries := [(.string "enum", .list [.int (10 ^ Value.digitLimit), .bool true])]
    let long := Validator.literal (.int (10 ^ Value.digitLimit))
    let truth := Validator.literal (.bool true)
    baseValidator schema = .ok (.union [long, truth] ["number", "boolean"]) ∧
      tagAdmits "number" (Value.bool true).kind = false ∧ long.check (.bool true) [] = .error .noValue ∧
        (Validator.union [long, truth] ["number", "boolean"]).check (.bool true) [] = .ok (.accept (.bool true)) ∧
          (Validator.union [long, truth] []).check (.bool true) [] = .error .noValue := by
  intro schema long truth
  have htruth : truth.check (.bool true) [] = .ok (.accept (.bool true)) := by with_unfolding_all rfl
  have hlong : long.check (.bool true) [] = .error .noValue := check_long Value.isWritableInt_pow
  refine ⟨base_numberOrTruth _, rfl, hlong, ?_, ?_⟩
  · rw [check_union_single (show tried [long, truth] ["number", "boolean"] (.bool true) = [truth] from rfl), htruth]
    rfl
  · rw [check_union]
    show ((long.check (.bool true) [] >>= _) >>= _) = _
    rw [hlong]
    rfl

end Schemata
