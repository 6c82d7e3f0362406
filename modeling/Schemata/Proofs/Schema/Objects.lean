import Schemata.Proofs.Schema.Composites

/-!
# `Schemata.Proofs.Schema.Objects` — the first phase on mappings

The slot of objects takes a field for every property and for every required key, a policy for undeclared members,
and bounds on the number of members. What it says is what these keywords say; members that `patternProperties` is
about pass here and are left to the second phase.

## Contents
- **Fields.** `addRequired_eq`, `find?_addRequired` and `all_required`, the fields of required keys.
- **Members.** `memberRead`, `ObjectReads`, and `BuiltObject`, what is built from the keywords.
- **Objects.** `holdsObject_all`, the slot of objects, and `says_object`.
-/

namespace Schemata

open Value

/-! ## Fields -/

namespace Field

theorem find?_cons (f : Field) (fields : List Field) (key : String) :
    find? (f :: fields) (.string key) = if f.name.isText key then some f else find? fields (.string key) := by
  unfold find?
  rw [List.find?_cons, alike_string_right]
  cases f.name.isText key <;> rfl

theorem find?_append (fields more : List Field) (key : Value) :
    find? (fields ++ more) key = (find? fields key).or (find? more key) :=
  List.find?_append

theorem declares_eq (fields : List Field) (key : Value) : declares fields key = (find? fields key).isSome := by
  unfold declares find?
  rw [Bool.eq_iff_iff, List.any_eq_true, List.find?_isSome]

/-- The field of a required key that is not declared. -/
def ofRequired (key : String) : Field := .mk (.string key) true .any

/-- **The field of a key** is the declared one, or else that of a required key. -/
theorem find?_addRequired (fields : List Field) (required : List String) (key : String) :
    find? (addRequired fields required) (.string key) =
      (find? fields (.string key)).or (if required.contains key then some (ofRequired key) else none) := by
  unfold addRequired
  induction required generalizing fields with
  | nil => simp
  | cons name names ih =>
    rw [List.foldl_cons, ih, List.contains_cons]
    by_cases hname : key = name
    · subst hname
      rw [beq_self_eq_true, Bool.true_or, if_pos rfl, declares_eq]
      cases hfind : find? fields (.string key) with
      | some f => simp [hfind]
      | none =>
        rw [if_neg (by simp), find?_append, hfind, find?_cons]
        simp [Field.name, ofRequired]
    · rw [beq_false_of_ne hname, Bool.false_or]
      split
      · rfl
      · have hother : find? [.mk (.string name) true .any] (.string key) = none := by
          rw [find?_cons]
          simp [Field.name, Ne.symm hname, find?]
        rw [find?_append, hother, Option.or_none]

theorem declares_ofRequired (fields : List Field) (name other : String) :
    declares (fields ++ [ofRequired name]) (.string other) = (other == name || declares fields (.string other)) := by
  have hname : (ofRequired name).name.alike (.string other) = (other == name) := by
    rw [alike_string_right, BEq.comm]
    rfl
  rw [declares, declares, List.any_append, List.any_cons, List.any_nil, Bool.or_false, hname, Bool.or_comm]

/-- **Fields of required keys that are not declared** are added behind the others, each once. -/
theorem addRequired_eq (fields : List Field) (required : List String) : addRequired fields required =
    fields ++ ((required.filter fun name => !declares fields (.string name)).eraseDups).map ofRequired := by
  unfold addRequired
  induction required generalizing fields with
  | nil => simp
  | cons name names ih =>
    rw [List.foldl_cons, ih]
    by_cases hdeclared : declares fields (.string name) = true
    · rw [if_pos hdeclared, List.filter_cons_of_neg (by simp [hdeclared])]
    · -- from now on the name is declared, so it is not added again
      have hdeclares := declares_ofRequired fields name
      unfold ofRequired at hdeclares
      rw [if_neg hdeclared, List.filter_cons_of_pos (by simp [hdeclared]), List.eraseDups_cons, List.filter_filter,
        List.map_cons, List.append_assoc, List.singleton_append]
      simp only [hdeclares, Bool.not_or]
      rfl

/-- A field is a declared one, or that of a required key that is not declared. -/
theorem mem_addRequired {fields : List Field} {required : List String} {f : Field} (h : f ∈ addRequired fields required) :
    f ∈ fields ∨ ∃ key ∈ required, f = ofRequired key ∧ declares fields (.string key) = false := by
  rw [addRequired_eq] at h
  rcases List.mem_append.mp h with hfields | hrequired
  · exact .inl hfields
  · obtain ⟨key, hkey, rfl⟩ := List.mem_map.mp hrequired
    obtain ⟨hmem, hdeclares⟩ := List.mem_filter.mp (List.mem_eraseDups.mp hkey)
    exact .inr ⟨key, hmem, rfl, Bool.not_eq_true' _ ▸ hdeclares⟩

/-- The declared fields stay. -/
theorem subset_addRequired (fields : List Field) (required : List String) : fields ⊆ addRequired fields required := by
  rw [addRequired_eq]
  exact List.subset_append_left _ _

/-- **The required fields have members** if the required keys are there. -/
theorem all_required {fields : List Field} {required : List String} (members : Entries)
    (h : ∀ f ∈ fields, f.required = required.any fun key => f.name.isText key) :
    ((addRequired fields required).all fun f => !f.required || Entries.hasAlike members f.name) =
      required.all (Entries.has members) := by
  have hflags : ∀ f ∈ addRequired fields required, f.required = required.any fun key => f.name.isText key := by
    intro f hf
    rcases mem_addRequired hf with hf | ⟨key, hkey, rfl, _⟩
    · exact h f hf
    · exact (List.any_eq_true.mpr ⟨key, hkey, by simp [ofRequired, Field.name]⟩).symm
  rw [Bool.eq_iff_iff, List.all_eq_true, List.all_eq_true]
  constructor
  -- every required key has a field, and that field is required
  · intro hall key hkey
    obtain ⟨f, hf⟩ : ∃ f, find? (addRequired fields required) (.string key) = some f := by
      rw [find?_addRequired, if_pos (by simpa using hkey)]
      cases find? fields (.string key) <;> exact ⟨_, rfl⟩
    have hname : f.name = .string key := by
      have halike := List.find?_some (p := fun f : Field => f.name.alike (.string key)) hf
      rw [alike_string_right] at halike
      exact isText_iff.mp halike
    have hmem := List.mem_of_find?_eq_some hf
    have hrequired : f.required = true := by
      rw [hflags f hmem]
      exact List.any_eq_true.mpr ⟨key, hkey, by rw [hname]; simp⟩
    have hmember := hall f hmem
    rwa [hrequired, Bool.not_true, Bool.false_or, hname, Entries.hasAlike_string] at hmember
  -- a required field is one of a required key
  · intro hall f hf
    cases hrequired : f.required with
    | false => rfl
    | true =>
      rw [hflags f hf] at hrequired
      obtain ⟨key, hkey, htext⟩ := List.any_eq_true.mp hrequired
      rw [isText_iff.mp htext, Entries.hasAlike_string, hall key hkey]
      rfl

end Field

/-! ## Members -/

/-- What the first phase makes of the keywords for a member that is not declared. -/
def undeclaredRead [Pattern.Engine] (schema : Entries) (w : Value) : Bool :=
  Entries.has schema "patternProperties" || additionalSatisfied satisfied schema w

/-- What the first phase makes of the keywords for a member. -/
def memberRead [Pattern.Engine] (schema : Entries) (key : String) (w : Value) : Bool :=
  match Entries.get? (mappedSchemas schema "properties") key with
  | some property => satisfied property w
  | none => (requiredNames schema).contains key || undeclaredRead schema w

/-- What the fields and the policy of an object have to be for what a schema says about members. -/
structure ObjectReads [Pattern.Engine] (sure : Prop) (schema : Entries) (fields : List Field)
    (additional : Additional) : Prop where
  member : ∀ (key : String) (w : Value), w.IsJson → (sure → w.isWritable = true) →
    Decides.ofMember sure fields additional (.string key, w) (memberRead schema key w)
  absent : ∀ f ∈ fields, ∃ b, Decides sure f.validator .absent b
  required : ∀ members, (fields.all fun f => !f.required || Entries.hasAlike members f.name) =
    (requiredNames schema).all (Entries.has members)

section

variable {sure : Prop} {schema : Entries} {convert : Value → Except CompileError Validator}

/-- The fields of properties, each beside its property. -/
theorem answers_propertyFields (required : List String) (properties : Entries) :
    Answers False (propertyFields convert required properties) fun fields =>
      ∃ done, Visits properties (fun e c => convert e.2 = .ok c) done ∧
        fields = done.map fun d => .mk d.1.1 (required.any fun key => d.1.1.isText key) d.2 := by
  induction properties with
  | nil => exact .pure ⟨[], .nil, rfl⟩
  | cons e es ih =>
    rw [propertyFields]
    refine .bind (.of_meets fun c hc => hc) fun c hc => .bind ih ?_
    rintro _ ⟨done, hdone, rfl⟩
    exact .pure ⟨(e, c) :: done, .cons hc hdone, rfl⟩

theorem find?_propertyFields (required : List String) (done : List ((Value × Value) × Validator)) (key : String) :
    Field.find? (done.map fun d => Field.mk d.1.1 (required.any fun key => d.1.1.isText key) d.2) (.string key) =
      (done.find? fun d => d.1.1.isText key).map fun d => .mk d.1.1 (required.any fun key => d.1.1.isText key) d.2 := by
  induction done with
  | nil => rfl
  | cons d ds ih =>
    rw [List.map_cons, Field.find?_cons, List.find?_cons, ih]
    show (if d.1.1.isText key = true then _ else _) = _
    cases d.1.1.isText key <;> rfl

theorem get?_map_fst (done : List ((Value × Value) × Validator)) (key : String) :
    Entries.get? (done.map Prod.fst) key = (done.find? fun d => d.1.1.isText key).map fun d => d.1.2 := by
  unfold Entries.get?
  rw [List.find?_map, Option.map_map]
  rfl

/-- The policy for undeclared members. -/
theorem answers_additionalPolicy [Pattern.Engine]
    (hsub : ∀ s ∈ subSchemas schema, ∀ c, convert s = .ok c → Faithful sure s c) (hshapes : HasShapes schema) :
    Answers False (additionalPolicy convert schema) fun additional => ∀ w : Value, w.IsJson →
      (sure → w.isWritable = true) → Decides.ofAdditional sure additional w (undeclaredRead schema w) := by
  unfold additionalPolicy undeclaredRead additionalSatisfied
  cases Entries.has schema "patternProperties" with
  | true => exact .pure fun w _ _ => rfl
  | false =>
    rw [if_neg (by decide)]
    match hget : Entries.get? schema "additionalProperties" with
    | none => exact .pure fun w _ _ => rfl
    | some (.bool true) => exact .pure fun w _ _ => rfl
    | some (.bool false) => exact .pure fun w _ _ => rfl
    | some (.dict entries) =>
      have hmem : Value.dict entries ∈ subSchemas schema :=
        mem_subSchemas .schema hget (by decide) (List.mem_singleton.mpr rfl)
      exact .bind (.of_meets (hsub _ hmem)) fun c hc => .pure fun w hw hwritable => hc.decides w hw hwritable
    | some .absent | some .null | some (.int _) | some (.float _) | some (.string _) | some (.list _) | some (.tuple _)
    | some (.set _) | some (.file _) | some (.date _) | some (.timestamp _) =>
      cases hshapes.admits .schema hget (by decide)

/-- The fields and the policy that the keywords for members make. -/
structure BuiltObject (convert : Value → Except CompileError Validator) (schema : Entries) (fields : List Field)
    (additional : Additional) : Prop where
  fields : ∃ done, Visits (mappedSchemas schema "properties") (fun e c => convert e.2 = .ok c) done ∧
    fields = addRequired (done.map fun d => .mk d.1.1 ((requiredNames schema).any fun key => d.1.1.isText key) d.2)
      (requiredNames schema)
  policy : additionalPolicy convert schema = .ok additional

/-- Without these keywords there are no fields, and every member passes. -/
theorem builtObject_none (h : Entries.hasAny schema ["properties", "required", "additionalProperties"] = false) :
    BuiltObject convert schema [] .passthrough := by
  have hnone : ∀ keyword ∈ ["properties", "required", "additionalProperties"], Entries.get? schema keyword = none :=
    fun keyword hmem => Entries.has_eq_false_iff.mp (by simpa using List.any_eq_false.mp h keyword hmem)
  have hproperties : mappedSchemas schema "properties" = [] := by rw [mappedSchemas, hnone _ (by decide)]; rfl
  have hrequired : requiredNames schema = [] := by rw [requiredNames, hnone _ (by decide)]
  refine ⟨⟨[], by rw [hproperties]; exact .nil, by rw [hrequired]; rfl⟩, ?_⟩
  rw [additionalPolicy, hnone "additionalProperties" (by decide), ite_self]
  rfl

/-- **What is built from the keywords for members** does what they say. -/
theorem BuiltObject.reads [Pattern.Engine] {fields : List Field} {additional : Additional}
    (h : BuiltObject convert schema fields additional)
    (hsub : ∀ s ∈ subSchemas schema, ∀ c, convert s = .ok c → Faithful sure s c) (hshapes : HasShapes schema) :
    ObjectReads sure schema fields additional := by
  obtain ⟨⟨done, hdone, rfl⟩, hpolicy⟩ := h
  have hfaithful : ∀ d ∈ done, Faithful sure d.1.2 d.2 := fun d hd =>
    hsub _ (mem_of_mem_mappedSchemas (by decide) (hdone.mem hd)) _ (hdone.fits d hd)
  have hadditional := (answers_additionalPolicy hsub hshapes).meets additional hpolicy
  constructor
  · intro key w hw hwritable
    unfold Decides.ofMember memberRead
    rw [Field.find?_addRequired, find?_propertyFields, ← hdone.args, get?_map_fst]
    cases hfind : done.find? fun d => d.1.1.isText key with
    | some d => exact (hfaithful d (List.mem_of_find?_eq_some hfind)).decides w hw hwritable
    | none =>
      cases (requiredNames schema).contains key with
      | true => exact .accept fun path => rfl
      | false => exact hadditional w hw hwritable
  · intro f hf
    rcases Field.mem_addRequired hf with hf | ⟨key, hkey, rfl, _⟩
    · obtain ⟨d, hd, rfl⟩ := List.mem_map.mp hf
      exact (hfaithful d hd).absent
    · exact ⟨true, .accept fun path => rfl⟩
  · exact fun members => Field.all_required members (List.forall_mem_map.mpr fun _ _ => rfl)

/-! ## Objects -/

variable {slots : Admissibility} {b : Bool}

/-- An object, if mappings are admitted. -/
def HoldsObject (slots : Admissibility) (fields : List Field) (additional : Additional) (bounds : Bounds) (b : Bool) :
    Prop :=
  slots.admitted? .object = if b then some (.object fields additional bounds) else none

theorem HoldsObject.update {fields fields' : List Field} {additional additional' : Additional}
    {bounds bounds' : Bounds} (h : HoldsObject slots fields additional bounds b)
    {build : Validator → Validator} (hbuild : build (.object fields additional bounds) = .object fields' additional' bounds') :
    HoldsObject (slots.run [.update .object build]) fields' additional' bounds' b := by
  unfold HoldsObject at h ⊢
  rw [Admissibility.admitted?_run rfl, List.foldl_cons, List.foldl_nil, Step.act, if_pos rfl, h, ← hbuild]
  cases b <;> rfl

/-- The bounds on the number of members, one keyword after the other. -/
theorem HoldsObject.memberBounds [Pattern.Engine] {fields : List Field} {additional : Additional}
    (h : HoldsObject slots fields additional {} b) :
    Answers False (KindRule.runAll (fun _ => .ok ()) convert schema [.maxProperties, .minProperties] slots) fun slots =>
      HoldsObject slots fields additional (givenBounds schema "minProperties" "maxProperties") b := by
  have hmost : HoldsObject (slots.run (memberBoundSteps schema "maxProperties" fun limit => ⟨none, some limit⟩)) fields
      additional ⟨none, Entries.given? schema "maxProperties"⟩ b := by
    unfold memberBoundSteps
    cases Entries.given? schema "maxProperties" with
    | none => exact h
    | some limit => exact h.update rfl
  refine .ok ?_
  show HoldsObject (Admissibility.run _ (memberBoundSteps schema "minProperties" fun limit => ⟨some limit, none⟩))
    _ _ _ _
  unfold memberBoundSteps givenBounds
  cases Entries.given? schema "minProperties" with
  | none => exact hmost
  | some limit => exact hmost.update (by cases Entries.given? schema "maxProperties" <;> rfl)

/-- What `properties`, `required` and `additionalProperties` make of the slot of objects. -/
theorem holds_propertiesSteps (h : HoldsObject slots [] .passthrough {} b) :
    Answers False (propertiesSteps convert slots schema) fun steps => ∃ fields additional,
      HoldsObject (slots.run steps) fields additional {} b ∧ (b = true → BuiltObject convert schema fields additional) := by
  have hdisabled : (slots .object).isDisabled = !b := by
    rw [Admissibility.isDisabled_eq rfl, h]
    cases b <;> rfl
  refine answers_propertiesSteps.mono fun steps hsteps => ?_
  cases hsteps with
  | refused disabled =>
    refine ⟨[], .passthrough, h, fun hb => ?_⟩
    rw [hdisabled, hb] at disabled
    cases disabled
  | nothing _ unread =>
    -- without any of the keywords the rule does nothing, and every member passes
    exact ⟨[], .passthrough, h, fun _ => builtObject_none unread⟩
  | @built _ additional _ _ each others =>
    obtain ⟨done, hdone, rfl⟩ := (answers_propertyFields _ _).meets _ each
    exact ⟨_, additional, h.update rfl, fun _ => ⟨⟨done, hdone, rfl⟩, others⟩⟩

/-- **The slot of objects** after all rules. -/
theorem holdsObject_all [Pattern.Engine] {v : Value} (hkind : v.kind = some .object) :
    Answers False (KindRule.runAll (fun _ => .ok ()) convert schema KindRule.all .initial) fun slots =>
      ∃ fields additional, HoldsObject slots fields additional (givenBounds schema "minProperties" "maxProperties")
        (kindKept schema v) ∧ (kindKept schema v = true → BuiltObject convert schema fields additional) := by
  have harrays : ∀ rule ∈ KindRule.ofArrays, Kind.object ∉ rule.kinds := by decide
  -- first whether mappings are admitted at all; the rules of arrays leave their slot alone
  rw [KindRule.all_eq, ← List.cons_append, KindRule.runAll_append]
  refine .bind (opened_opening rfl hkind rfl) fun slots hopened => ?_
  rw [KindRule.runAll_append]
  refine .bind (KindRule.runAll_other harrays slots) fun slots' hsame => ?_
  have hobject : HoldsObject slots' [] .passthrough {} (kindKept schema v) :=
    (Admissibility.admitted?_congr hsame).trans hopened
  rw [KindRule.ofObjects, KindRule.runAll]
  refine .bind (holds_propertiesSteps hobject) ?_
  rintro steps ⟨fields, additional, hholds, hbuilt⟩
  exact hholds.memberBounds.mono fun slots'' hbounded => ⟨fields, additional, hbounded, hbuilt⟩

/-- **What the slot of objects says** after all rules. -/
theorem says_object [Pattern.Engine] {members : Entries}
    (hsub : ∀ s ∈ subSchemas schema, ∀ c, convert s = .ok c → Faithful sure s c) (hshapes : HasShapes schema)
    (hschema : sure → (Value.dict schema).isWritable = true) (hjson : (Value.dict members).IsJson)
    (hwritable : sure → (Value.dict members).isWritable = true) :
    Answers False (KindRule.runAll (fun _ => .ok ()) convert schema KindRule.all .initial) fun slots =>
      Says sure slots (.dict members) .object (kindKept schema (.dict members) &&
        (countWithin schema "minProperties" "maxProperties" members.length &&
          (members.all fun e => memberRead schema e.1.plain e.2) &&
          (requiredNames schema).all (Entries.has members))) := by
  refine (holdsObject_all (v := .dict members) rfl).mono ?_
  rintro slots ⟨fields, additional, hbounded, hbuilt⟩
  rw [Says, show slots.admitted? .object = _ from hbounded]
  cases hkept : kindKept schema (.dict members) with
  | false => exact Bool.false_and _
  | true =>
    have hobject := (hbuilt hkept).reads hsub hshapes
    have hbounds : (givenBounds schema "minProperties" "maxProperties").AreCounts sure :=
      givenBounds_areCounts hshapes (by decide) (by decide) hschema
    have hmembers : ∀ e ∈ members, Decides.ofMember sure fields additional e (memberRead schema e.1.plain e.2) := by
      rintro ⟨k, w⟩ he
      obtain ⟨key, rfl⟩ := hjson.key he
      exact hobject.member key w (hjson.member he) fun hsure => Value.isWritable_member (hwritable hsure) he
    have hdecides := Decides.object hbounds hmembers hobject.absent
    rw [givenBounds_allow hshapes (by decide) (by decide), hobject.required] at hdecides
    rw [Bool.true_and]
    exact hdecides

end

end Schemata
