import Schemata.Pattern.Reader
import Schemata.Proofs.Schema.Policies
import Schemata.Proofs.Schema.Refinements
import Schemata.Proofs.Schema.Regular

/-!
# `Schemata.Proofs.Schema.PlainKeys` — what is left where required names are plain keys

Where a schema without `type` requires `__proto__`, what the first phase has made of it is dropped, and mappings are asked
for their required keys instead. The second phase goes on as it would have done. So such a schema says what its required
keys and the keywords of the second phase say, and the keywords of the first phase say nothing. Without `required` the
first phase counts again.

## Contents
- **Decisions.** `accepted`: a schema without defaults decides what its validator accepts.
- **Keys.** `requiredPresent`, and `decides_hasKeys`.
- **Second phase.** `clausesAccepted`, which is added to whatever the first phase or the required keys say.
- **Without a keyword.** A node of a schema that has lost a keyword, and the first phase without `required`.
- **Plain keys.** `plain_keys`, and `plain_keys_unread`, where a constant is not read.
-/

namespace Schemata

open Value Validator

/-! ## Decisions -/

/-- Whether the validator of a schema accepts a value. -/
def accepted [Pattern.Engine] (schema v : Value) : Bool :=
  match compile schema with
  | .ok vd => isTrue (vd.accepts v)
  | .error _ => false

section

variable {sure : Prop} {v : Value} {vd : Validator}

/-- A validator that fills nothing in decides what it accepts, if it answers. -/
theorem decides_accepts (hunfilling : Unfilling vd) (hv : v.TreeOver (· ≠ .absent))
    (hanswers : Answers sure (vd.check v []) fun _ => True) : Decides sure vd v (isTrue (vd.accepts v)) := by
  intro path
  have hkept := answers_kept vd (fun _ : True => hunfilling) v [] hv
  -- the place is in the issues only, so the answer at the root is the answer at any place
  rw [check_at path, accepts]
  cases hcheck : vd.check v [] with
  | error e =>
    refine .error fun hsure => ?_
    obtain ⟨r, hr⟩ := hanswers.returns hsure
    rw [hcheck] at hr
    cases hr
  | ok r => exact .ok ⟨Report.ok_under r, fun hok => (hkept.meets r hcheck hok).same trivial⟩

/-- A regular validator without defaults decides what it accepts, where integers can be written. -/
theorem decides_regular (hfree : DefaultFree vd) (hregular : sure → Throughout (IsRegular True False) vd) (hv : v.IsJson)
    (hwritable : sure → v.isWritable = true) : Decides sure vd v (isTrue (vd.accepts v)) := by
  refine decides_accepts hfree.unfilling hv.present ⟨fun _ _ => trivial, fun hsure => ?_⟩
  exact (answers_regular (hregular hsure) v [] (hwritable hsure)).returns trivial

/-- **A schema without defaults decides what its validator accepts.** -/
theorem decides_accepted [Pattern.Engine] {schema : Value} (hcompile : compile schema = .ok vd)
    (hshapes : Everywhere HasShapes schema) (hdefaults : NoDefaults schema) (hschema : sure → schema.isWritable = true) :
    DecidesJson accepted sure schema vd := by
  intro w hw hwritable
  rw [accepted, hcompile]
  refine decides_regular (compile_defaultFree hcompile hdefaults) (fun hsure => ?_) hw hwritable
  exact compile_regular hcompile hshapes (fun _ => hschema hsure) False.elim

/-- Annotations leave what is decided about values that are there. -/
theorem Annotated.decides {schema : Entries} {core : Validator} (h : Annotated schema core vd) (hv : v ≠ .absent) {b : Bool}
    (hcore : Decides sure core v b) : Decides sure vd v b := fun path =>
  h.check_present hv path ▸ hcore path

end

/-! ## Keys -/

/-- Whether a mapping has all the names that are required; other values need not. -/
def requiredPresent (schema : Entries) (v : Value) : Bool :=
  match v with
  | .dict members => (requiredNames schema).all (Entries.has members)
  | _ => true

section

variable {sure : Prop} {schema : Entries}

theorem exists_texts {items : List Value} (h : items.all isString = true) :
    ∃ texts : List String, items = texts.map .string := by
  induction items with
  | nil => exact ⟨[], rfl⟩
  | cons w ws ih =>
    obtain ⟨hfirst, hrest⟩ := Bool.and_eq_true_iff.mp h
    obtain ⟨texts, rfl⟩ := ih hrest
    cases w with
    | string s => exact ⟨s :: texts, rfl⟩
    | _ => cases hfirst

/-- Plain keys are made of all the names that are required. -/
theorem protoRequired?_eq (hshapes : HasShapes schema) (hproto : requiresProto schema = true) : protoRequired? schema =
    some (.refined .any (.hasKeys ((requiredNames schema).map .string)) "Missing required properties") := by
  obtain ⟨huntyped, hmem⟩ := Bool.and_eq_true_iff.mp hproto
  unfold protoRequired?
  unfold requiredNames at hmem ⊢
  cases hget : Entries.get? schema "required" with
  | none =>
    rw [hget] at hmem
    cases hmem
  | some w =>
    have htexts : w.isListOf isString = true := hshapes.admits .texts hget (by decide)
    cases w with
    | list names =>
      obtain ⟨texts, rfl⟩ := exists_texts htexts
      have hnames : (texts.map Value.string).filterMap Value.text? = texts := by
        rw [List.filterMap_map]
        exact List.filterMap_some
      rw [hget] at hmem
      dsimp only at hmem ⊢
      rw [hnames] at hmem ⊢
      have hany : ((texts.map Value.string).any fun name => name.isText "__proto__") = true :=
        List.any_eq_true.mpr ⟨_, List.mem_map_of_mem (List.contains_iff_mem.mp hmem), isText_iff.mpr rfl⟩
      rw [hany, huntyped]
      rfl
    | _ => cases htexts

/-- **Plain keys** let everything pass but mappings without one of the names. -/
theorem decides_hasKeys (v : Value) (message : String) : Decides sure
    (.refined .any (.hasKeys ((requiredNames schema).map .string)) message) v (requiredPresent schema v) := by
  have hany : Decides sure .any v true := .accept fun _ => rfl
  refine hany.refined (fun _ => ?_) message
  cases v with
  | dict members =>
    let present : Value → Except Fault Bool := fun key =>
      if isKey key then pure (Entries.hasAlike members key) else throw Fault.unsupported
    have hkeys : ∀ key ∈ (requiredNames schema).map Value.string,
        Answers sure (present key) (· = Entries.hasAlike members key) := by
      intro key hkey
      obtain ⟨name, _, rfl⟩ := List.mem_map.mp hkey
      exact .pure rfl
    refine (answers_allSatisfy _ hkeys).mono ?_
    rintro _ rfl
    rw [List.all_map]
    exact List.all_congr rfl fun name => Entries.hasAlike_string members name
  | _ => exact .pure rfl

end

/-! ## Second phase -/

/-- What the second phase asks, apart from plain keys, where sub-schemas are judged by their validators. -/
def clausesAccepted [Pattern.Engine] (schema : Entries) (v : Value) : Bool :=
  Refinement.constraints.all fun refinement => refinement.clause accepted (fun s => accepted s v) schema v

/-- The refinements after the one for plain keys. -/
def Refinement.layers : List Refinement := Refinement.constraints.tail

section

variable [Pattern.Engine] {sure : Prop} {schema : Entries} {v : Value}

/-- **The second phase adds its clauses** to what has been said before it. -/
theorem decides_layers (hshapes : Everywhere HasShapes (.dict schema)) (hdefaults : NoDefaults (.dict schema))
    (hschema : sure → (Value.dict schema).isWritable = true) (hv : v.IsJson) (hwritable : sure → v.isWritable = true)
    {base : Validator} {b : Bool} (hbase : Decides sure base v b) :
    Answers False (Refinement.runAll (fun _ => .ok ()) compile schema Refinement.layers base) fun core =>
      Decides sure core v (b && clausesAccepted schema v) := by
  have hsub : ∀ s ∈ subSchemas schema, ∀ c, compile s = .ok c → DecidesJson accepted sure s c := fun s hs c hc =>
    decides_accepted hc (hshapes.inside hs) (hdefaults.inside hs) fun hsure => isWritable_of_mem_subSchemas (hschema hsure) hs
  have hjudged := judged_json hsub hshapes.here hv hwritable
  have hdefault : Entries.get? schema "default" = none := Entries.has_eq_false_iff.mp hdefaults.here
  exact decides_refinements hjudged hdefault hbase Refinement.layers fun hmem => absurd hmem (by decide)

/-- The refinements after the one for plain keys end alike, whatever they are put around. -/
theorem layers_return {base core : Validator}
    (h : Refinement.runAll (fun _ => .ok ()) compile schema Refinement.layers base = .ok core) (other : Validator) :
    ∃ core', Refinement.runAll (fun _ => .ok ()) compile schema Refinement.layers other = .ok core' := by
  have hpairs : ∀ role : Role, ∀ s ∈ role.schemas schema, Follows (compile s) (compile s) fun _ _ => True :=
    fun _ _ _ c hc => ⟨c, hc, trivial⟩
  obtain ⟨core', hcore', _⟩ := follows_constraints hpairs (fun _ _ => True) (List.tail_subset Refinement.constraints)
    (fun _ _ _ _ _ _ _ _ => trivial) base other trivial core h
  exact ⟨core', hcore'⟩

/-- Where required names are plain keys, the first phase is dropped. -/
theorem coreValidator_proto (hshapes : HasShapes schema) (hproto : requiresProto schema = true) :
    coreValidator schema = baseValidator schema >>= fun _ => Refinement.runAll (fun _ => .ok ()) compile schema
      Refinement.layers (.refined .any (.hasKeys ((requiredNames schema).map .string)) "Missing required properties") := by
  refine bind_congr fun base => ?_
  show Refinement.runAll (fun _ => .ok ()) compile schema Refinement.layers ((protoRequired? schema).getD base) = _
  rw [protoRequired?_eq hshapes hproto]
  rfl

/-- Where no names are required, nothing is dropped. -/
theorem coreValidator_free (hrequired : Entries.get? schema "required" = none) : coreValidator schema =
    baseValidator schema >>= Refinement.runAll (fun _ => .ok ()) compile schema Refinement.layers := by
  refine bind_congr fun base => ?_
  have hproto : protoRequired? schema = none := by rw [protoRequired?, hrequired]
  show Refinement.runAll (fun _ => .ok ()) compile schema Refinement.layers ((protoRequired? schema).getD base) = _
  rw [hproto]
  rfl

end

/-! ## Without a keyword -/

section

variable {schema : Entries} {keyword : String}

theorem get?_of_without {other : String} {w : Value} (h : Entries.get? (schema.without keyword) other = some w) :
    Entries.get? schema other = some w := by
  by_cases heq : other = keyword
  · subst heq
    rw [Entries.get?_without_self] at h
    cases h
  · rwa [Entries.get?_without heq] at h

theorem HasShapes.without (h : HasShapes schema) : HasShapes (schema.without keyword) :=
  fun k hk w hget => h k hk w (get?_of_without hget)

/-- A schema without a keyword has no other sub-schemas. -/
theorem mem_subSchemas_of_without {s : Value} (hs : s ∈ subSchemas (schema.without keyword)) : s ∈ subSchemas schema := by
  obtain ⟨⟨other, shape⟩, hk, hs⟩ := List.mem_flatMap.mp hs
  dsimp only at hs
  cases hget : Entries.get? (schema.without keyword) other with
  | none =>
    rw [hget] at hs
    cases hs
  | some w =>
    rw [hget] at hs
    exact mem_subSchemas shape (get?_of_without hget) hk hs

theorem isWritable_without (h : (Value.dict schema).isWritable = true) :
    (Value.dict (schema.without keyword)).isWritable = true :=
  isWritable_dict.mpr fun e he => isWritable_dict.mp h e (List.mem_of_mem_filter he)

/-- What the first phase leaves has a property that compilation keeps. -/
theorem KeepsNode.base [Pattern.Engine] {holds : Validator → Prop} (hnode : KeepsNode holds schema)
    (hsub : ∀ s ∈ subSchemas schema, ∀ c, compile s = .ok c → holds c) : Answers False (baseValidator schema) holds :=
  .bind (hnode.assembled hsub) fun _ hslots => .pure hslots

/-- **The first phase without a keyword decides what it accepts.** -/
theorem decides_base_without [Pattern.Engine] {sure : Prop} (hshapes : Everywhere HasShapes (.dict schema))
    (hdefaults : NoDefaults (.dict schema)) (hschema : sure → (Value.dict schema).isWritable = true) {v : Value}
    (hv : v.IsJson) (hwritable : sure → v.isWritable = true) :
    Answers False (baseValidator (schema.without keyword)) fun base => Decides sure base v (isTrue (base.accepts v)) := by
  have hdefault : ∀ value, Entries.get? (schema.without keyword) "default" ≠ some value := fun value hget => by
    have hsome := get?_of_without hget
    rw [Entries.has_eq_false_iff.mp hdefaults.here] at hsome
    cases hsome
  have hfree : Answers False (baseValidator (schema.without keyword)) DefaultFree :=
    (keepsNode_defaultsAre fun value hget => hdefault value hget).base fun s hs c hc =>
      compile_defaultFree hc (hdefaults.inside (mem_subSchemas_of_without hs))
  have hregular : sure → Answers False (baseValidator (schema.without keyword)) (Throughout (IsRegular True False)) := by
    intro hsure
    have hhere : HasShapes (schema.without keyword) := hshapes.here.without
    have hmet := Demands.regular_metBy hhere (fun _ : True => isWritable_without (hschema hsure)) False.elim
    refine (hmet.keepsNode Demands.regular_coherent).base fun s hs c hc => ?_
    have hs := mem_subSchemas_of_without hs
    exact compile_regular hc (hshapes.inside hs) (fun _ => isWritable_of_mem_subSchemas (hschema hsure) hs) False.elim
  exact .of_meets fun base hbase =>
    decides_regular (hfree.meets base hbase) (fun hsure => (hregular hsure).meets base hbase) hv hwritable

/-- What is required is of no matter to whether the first phase ends. -/
theorem baseValidator_without_required [Pattern.Engine] {base : Validator} (h : baseValidator schema = .ok base) :
    ∃ base', baseValidator (schema.without "required") = .ok base' := by
  have hpolicy : additionalPolicy compile (schema.without "required") =
      additionalPolicy (m := Except CompileError) compile schema :=
    additionalPolicy_readsAs keepsForm_id (without_readsAs (by decide)) (without_readsAs (by decide))
  have hpolicies : Lockstep (fun _ _ => True) (additionalPolicy (m := Except CompileError) compile schema)
      (additionalPolicy compile (schema.without "required")) :=
    hpolicy ▸ (Lockstep.self _).mono fun _ _ _ => trivial
  have hreads : ∀ keyword, keyword ∉ ["required", "patternProperties"] →
      Entries.get? (schema.without "required") keyword = Entries.get? schema keyword := fun keyword hkeyword =>
    Entries.get?_without (fun heq => hkeyword (by simp [heq])) schema
  have hinitial : SameButObjects .initial .initial := ⟨fun _ _ => rfl, rfl⟩
  obtain ⟨slots, hslots, _⟩ := exists_of_bind_eq_ok h
  obtain ⟨slots', hslots', _⟩ := (runAll_sameButObjects hreads hpolicies KindRule.all hinitial).exists_of_ok hslots
  refine ⟨slots'.assemble (schema.without "required"), ?_⟩
  rw [baseValidator, hslots']
  rfl

end

/-! ## Plain keys -/

/-- **Required names as plain keys.** A schema without `type` and without defaults that requires `__proto__` accepts the
values of JSON that have the required keys and satisfy the keywords of the second phase. The schema without `required`
compiles as well, and accepts what its first phase accepts and the keywords of the second phase let through. So where
the first phase accepts a value, the requirement is all that is between the two. Numbers with very many digits can be
compared but not written, so with them there may be no answer. -/
theorem plain_keys [Pattern.Engine] {schema : Entries} {v : Value} {vd : Validator}
    (hcompile : compile (.dict schema) = .ok vd) (hschema : WellFormed (.dict schema))
    (hdefaults : NoDefaults (.dict schema)) (hproto : requiresProto schema = true) (hv : v.IsJson) :
    let sure := (Value.dict schema).isWritable = true ∧ v.isWritable = true
    Answers sure (vd.accepts v) (· = (requiredPresent schema v && clausesAccepted schema v)) ∧
      ∃ base rest, baseValidator (schema.without "required") = .ok base ∧
        compile (.dict (schema.without "required")) = .ok rest ∧ Answers sure (base.accepts v) (fun _ => True) ∧
        Answers sure (rest.accepts v) (· = (isTrue (base.accepts v) && clausesAccepted schema v)) ∧
        (base.accepts v = .ok true → ∀ b b', vd.accepts v = .ok b → rest.accepts v = .ok b' →
          b = (requiredPresent schema v && b')) := by
  intro sure
  have hshapes := hschema.shapes
  have haccepts : ∀ {vd : Validator} {b : Bool}, Decides sure vd v b → Answers sure (vd.accepts v) (· = b) :=
    fun h => .map (h []) fun _ hr => hr.1
  have hlayers : ∀ {base core : Validator} {b : Bool}, Decides sure base v b →
      Refinement.runAll (fun _ => .ok ()) compile schema Refinement.layers base = .ok core →
        Decides sure core v (b && clausesAccepted schema v) := fun hbase hrun =>
    (decides_layers hshapes hdefaults And.left hv And.right hbase).meets _ hrun
  obtain ⟨core, hcore, hannotated⟩ := compile_annotated hcompile
  rw [coreValidator_proto hshapes.here hproto] at hcore
  obtain ⟨dropped, hdropped, hrun⟩ := exists_of_bind_eq_ok hcore
  have hkeys := haccepts (hannotated.decides hv.ne_absent (hlayers (decides_hasKeys v _) hrun))
  obtain ⟨base, hbase⟩ := baseValidator_without_required hdropped
  have hdecided : Decides sure base v (isTrue (base.accepts v)) :=
    (decides_base_without hshapes hdefaults And.left hv And.right).meets base hbase
  -- the second phase does not read `required`, so it puts the same layers around what the first phase leaves
  have hsame : ∀ inner, Refinement.runAll (fun _ => .ok ()) compile (schema.without "required") Refinement.layers inner =
      Refinement.runAll (fun _ => .ok ()) compile schema Refinement.layers inner := fun inner =>
    Refinement.runAll_readsAs keepsForm_id _ inner fun refinement hrefinement keyword hkeyword =>
      without_readsAs (by revert keyword; revert refinement; decide)
  obtain ⟨core', hrun'⟩ := layers_return hrun base
  have hcore' : coreValidator (schema.without "required") = .ok core' := by
    rw [coreValidator_free (Entries.get?_without_self schema "required"), hbase, ← hrun', ← hsame]
    rfl
  have hdefault' : Entries.get? (schema.without "required") "default" = none := by
    rw [Entries.get?_without (by decide)]
    exact Entries.has_eq_false_iff.mp hdefaults.here
  obtain ⟨rest, hrest⟩ := compile_of_core hcore' hdefault'
  obtain ⟨_, hcore₂, hannotated'⟩ := compile_annotated hrest
  obtain rfl := Except.ok.inj (hcore'.symm.trans hcore₂)
  have hfree := haccepts (hannotated'.decides hv.ne_absent (hlayers hdecided hrun'))
  refine ⟨hkeys, base, rest, hbase, hrest, (haccepts hdecided).mono fun _ _ => trivial, hfree, fun hfirst b b' hb hb' => ?_⟩
  rw [hkeys.meets b hb, hfree.meets b' hb', hfirst]
  rfl

attribute [local instance] Pattern.engine

/-- A required key beside a keyword of the second phase, and a mapping that has the key. -/
theorem plain_keys_not_null :
    let schema : Entries := [(.string "required", .list [.string "__proto__"]),
      (.string "not", .dict [(.string "type", .string "null")])]
    let v := Value.dict [(.string "__proto__", .bool true)]
    requiresProto schema = true ∧ v.IsJson ∧ ∃ vd rest, compile (.dict schema) = .ok vd ∧
      compile (.dict (schema.without "required")) = .ok rest ∧ vd.accepts v = .ok true ∧ rest.accepts v = .ok true := by
  intro schema v
  have hcompile : compile (.dict schema) = .ok (.refined (.refined .any (.hasKeys [.string "__proto__"])
      "Missing required properties") (.rejectedBy .null) "Value must not match the negated schema") := by
    with_unfolding_all rfl
  have hinside : ∀ {holds : Entries → Prop}, holds schema → holds [(.string "type", .string "null")] →
      Everywhere holds (.dict schema) := fun hhere hnull =>
    .mapping hhere (List.forall_mem_singleton.mpr (.mapping hnull (List.forall_mem_nil _)))
  have hschema : WellFormed (.dict schema) := ⟨rfl, hinside (hasShapes_iff.mpr rfl) (hasShapes_iff.mpr rfl)⟩
  have hv : v.IsJson := .dict ⟨by simp, by simp⟩ (List.forall_mem_singleton.mpr (.leaf rfl rfl rfl))
  have hclauses : clausesAccepted schema v = true := by with_unfolding_all rfl
  obtain ⟨hkeys, base, rest, hbase, hrest, hfirst, hfree, -⟩ :=
    plain_keys hcompile hschema (hinside rfl rfl) rfl hv
  obtain ⟨b, hb, rfl⟩ := hkeys.answer ⟨rfl, rfl⟩
  obtain ⟨b', hb', rfl⟩ := hfree.answer ⟨rfl, rfl⟩
  have haccepts : base.accepts v = .ok true := by
    obtain rfl := Except.ok.inj (hbase.symm.trans (by with_unfolding_all rfl : baseValidator _ = .ok everyKind))
    with_unfolding_all rfl
  rw [hclauses, haccepts] at hb'
  rw [hclauses] at hb
  exact ⟨rfl, hv, _, rest, hcompile, hrest, hb, hb'⟩

/-- **A constant beside a required key** is not read, if it is no list and no mapping. -/
theorem plain_keys_unread :
    let schema : Entries := [(.string "required", .list [.string "__proto__"]), (.string "const", .string "a")]
    let v := Value.string "b"
    WellFormed (.dict schema) ∧ NoDefaults (.dict schema) ∧ requiresProto schema = true ∧ v.IsJson ∧
      requiredPresent schema v = true ∧ ∃ vd rest, compile (.dict schema) = .ok vd ∧
        compile (.dict (schema.without "required")) = .ok rest ∧ vd.accepts v = .ok true ∧ rest.accepts v = .ok false := by
  intro schema v
  have heach : ∀ {holds : Entries → Prop}, holds schema → Everywhere holds (.dict schema) := fun hhere =>
    .mapping hhere (List.forall_mem_nil _)
  refine ⟨⟨rfl, heach (hasShapes_iff.mpr rfl)⟩, heach rfl, rfl, .leaf rfl rfl rfl, rfl, ?_⟩
  have hcompile : compile (.dict schema) =
      .ok (.refined .any (.hasKeys [.string "__proto__"]) "Missing required properties") := by with_unfolding_all rfl
  have hrest : compile (.dict (schema.without "required")) = .ok (.literal (.string "a")) := by with_unfolding_all rfl
  exact ⟨_, _, hcompile, hrest, rfl, by with_unfolding_all rfl⟩

end Schemata
