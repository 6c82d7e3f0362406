import Schemata.Pattern.Reader
import Schemata.Proofs.Schema.Absence
import Schemata.Proofs.Schema.Objects

/-!
# `Schemata.Proofs.Schema.Filling` — what becomes of properties that are missing

A validator of objects asks the validator of every property without a member for the absent value. So a property is
filled in with the default of its schema, and a required one is missing if its schema has none.

## Contents
- **Fields.** The field of a property, and `gives_iff_standsIn`.
- **Objects.** `FillsProperties`, and `BuiltObject.fillsProperties`.
- **Schemas.** `absent_settled`, and branches that fill in properties of their own.
-/

namespace Schemata

open Value Validator

/-! ## Fields -/

section

variable [Pattern.Engine] {schema : Value} {vd : Validator}

/-- At most one value stands in for the absent one. -/
theorem StandsIn.unique {value other : Value} (h : StandsIn schema value) (hother : StandsIn schema other) : other = value := by
  have hconstraints : ∀ {entries : Entries} {w : Value}, Entries.get? entries "default" = some w →
      hasConstraints entries = false → False := by
    intro entries w hgiven hnothing
    rw [get?_of_not_hasConstraints hnothing (by decide)] at hgiven
    cases hgiven
  cases h with
  | truth => cases hother; rfl
  | unconstrained nothing =>
    cases hother with
    | unconstrained _ => rfl
    | default given _ _ => exact (hconstraints given nothing).elim
  | default given _ _ =>
    cases hother with
    | unconstrained nothing => exact (hconstraints given nothing).elim
    | default given' _ _ => exact Option.some.inj (given'.symm.trans given)

/-- **A field gives what stands in for the absent value**, if that is there. -/
theorem gives_iff_standsIn (hcompile : compile schema = .ok vd) (hordinary : IsOrdinary schema) {path : Pointer} {r : Report}
    (hr : vd.check .absent path = .ok r) (value : Value) :
    Field.gives r = true ∧ r.output = value ↔ StandsIn schema value ∧ value ≠ .absent := by
  rw [Field.gives_iff]
  rcases check_absent hcompile hordinary with ⟨w, hw, hcheck⟩ | ⟨hnone, hrefuses⟩
  · obtain rfl := Except.ok.inj ((hcheck path).symm.trans hr)
    constructor
    · rintro ⟨⟨_, hpresent⟩, rfl⟩
      exact ⟨hw, hpresent⟩
    · rintro ⟨hvalue, hpresent⟩
      obtain rfl := hw.unique hvalue
      exact ⟨⟨rfl, hpresent⟩, rfl⟩
  · constructor
    · rintro ⟨⟨hok, _⟩, _⟩
      rw [(hrefuses path).meets r hr] at hok
      cases hok
    · rintro ⟨hvalue, _⟩
      exact (hnone value hvalue).elim

end

namespace BuiltObject

variable {schema : Entries} {fields : List Field} {additional : Additional} {name : String} {s : Value}

/-- **The field of a property**, which is the only one of that name. -/
theorem field [Pattern.Engine] (h : BuiltObject compile schema fields additional)
    (hnames : ((mappedSchemas schema "properties").map Prod.fst).Nodup)
    (hdeclared : (.string name, s) ∈ mappedSchemas schema "properties") :
    ∃ c, compile s = .ok c ∧ Field.mk (.string name) ((requiredNames schema).contains name) c ∈ fields ∧
      ∀ f ∈ fields, f.name = .string name → f = .mk (.string name) ((requiredNames schema).contains name) c := by
  obtain ⟨⟨done, hdone, rfl⟩, _⟩ := h
  obtain ⟨c, hc⟩ := hdone.exists_of_mem hdeclared
  have hrequired : ((requiredNames schema).any fun key => (Value.string name).isText key) = (requiredNames schema).contains name := by
    rw [List.contains_eq_any_beq]
    exact congrArg _ (funext fun key => isText_string key name)
  refine ⟨c, hdone.fits _ hc, Field.subset_addRequired _ _ (List.mem_map.mpr ⟨_, hc, by rw [hrequired]⟩), fun f hf hname => ?_⟩
  rcases Field.mem_addRequired hf with hf | ⟨key, _, rfl, hundeclared⟩
  · obtain ⟨d, hd, rfl⟩ := List.mem_map.mp hf
    have hkeys : (done.map fun d => d.1.1).Nodup := by
      rw [← hdone.args, List.map_map] at hnames
      exact hnames
    obtain rfl : d = ((.string name, s), c) := List.inj_on_of_nodup_map hkeys hd hc hname
    rw [hrequired]
  -- a required key of that name would not have got a field of its own
  · have hsame : key = name := by simpa [Field.ofRequired, Field.name] using hname
    have hfalse := List.any_eq_false.mp hundeclared _ (List.mem_map_of_mem hc)
    simp [Field.name, hsame, alike_string_right] at hfalse

/-- Only texts are required. -/
theorem text_of_required [Pattern.Engine] (h : BuiltObject compile schema fields additional) {f : Field} (hf : f ∈ fields)
    (hrequired : f.required = true) : ∃ key, f.name = .string key := by
  obtain ⟨⟨done, hdone, rfl⟩, _⟩ := h
  rcases Field.mem_addRequired hf with hf | ⟨key, _, rfl, _⟩
  · obtain ⟨d, hd, rfl⟩ := List.mem_map.mp hf
    obtain ⟨key, _, htext⟩ := List.any_eq_true.mp hrequired
    exact ⟨key, isText_iff.mp htext⟩
  · exact ⟨key, rfl⟩

end BuiltObject

/-! ## Objects -/

/-- How a validator treats the properties of a schema that a mapping lacks: the output has what stands in for the
absent value, and a required one is reported as missing if nothing does. -/
def FillsProperties [Pattern.Engine] (schema : Entries) (vd : Validator) : Prop :=
  ∀ (members : Entries) (path : Pointer) (r : Report), (Value.dict members).IsJson → vd.check (.dict members) path = .ok r →
    ∀ (name : String) (s : Value), (.string name, s) ∈ mappedSchemas schema "properties" → Entries.has members name = false →
      (r.ok = true → ∃ outputs, r.output = .dict outputs ∧
        ∀ value, Entries.get? outputs name = some value ↔ StandsIn s value ∧ value ≠ .absent) ∧
      (⟨path ++ [name], .missingMember name⟩ ∈ r.issues ↔
        (requiredNames schema).contains name = true ∧ ∀ value, StandsIn s value → value = .absent)

section

variable {schema : Entries}

/-- The value under a key, if there is only one. -/
theorem get?_eq_some_iff {entries : Entries} {name : String} (only : Value)
    (h : ∀ w, (Value.string name, w) ∈ entries → w = only) (value : Value) :
    Entries.get? entries name = some value ↔ (Value.string name, only) ∈ entries ∧ only = value := by
  constructor
  · intro hget
    have hmem := Entries.mem_of_get? hget
    obtain rfl := h value hmem
    exact ⟨hmem, rfl⟩
  · rintro ⟨hmem, rfl⟩
    cases hget : Entries.get? entries name with
    | some w => rw [h w (Entries.mem_of_get? hget)]
    | none =>
      have hnone := List.find?_eq_none.mp (Option.map_eq_none_iff.mp hget) _ hmem
      simp at hnone

/-- A mapping without a key has no member of that key. -/
theorem ne_of_has_eq_false {members : Entries} {name : String} (hjson : (Value.dict members).IsJson)
    (hlacks : Entries.has members name = false) : ∀ e ∈ members, e.1 ≠ .string name := by
  intro e he hname
  have hget := Entries.get?_of_mem hjson.keys (show (.string name, e.2) ∈ members from hname ▸ he)
  rw [Entries.has_eq_false_iff.mp hlacks] at hget
  cases hget

/-- **What comes of the only field of a name** that has no member: it is filled in if it gives something, and is missing
if it is required and gives nothing. -/
theorem report_of_field {fields : List Field} {members : Entries} {path : Pointer} {gone : List (Field × Report)}
    (hgone : Visits (Field.absent fields members)
      (fun f r => f.validator.check .absent (path ++ [f.name.plain]) = .ok r) gone)
    {name : String} {required : Bool} {c : Validator} (hfield : .mk (.string name) required c ∈ fields)
    (honly : ∀ f ∈ fields, f.name = .string name → f = .mk (.string name) required c)
    (htexts : ∀ f ∈ fields, f.required = true → ∃ key, f.name = .string key) (hlacks : Entries.has members name = false) :
    ∃ own, c.check .absent (path ++ [name]) = .ok own ∧
      (∀ w, (.string name, w) ∈ gone.filterMap Field.filled? ↔ Field.gives own = true ∧ own.output = w) ∧
      (⟨path ++ [name], .missingMember name⟩ ∈ gone.filterMap (Field.missing? path) ↔
        required = true ∧ Field.gives own = false) := by
  have habsent : Field.mk (.string name) required c ∈ Field.absent fields members := by
    refine List.mem_filter.mpr ⟨hfield, ?_⟩
    rw [show (Field.mk (.string name) required c).name = .string name from rfl, Entries.hasAlike_string, hlacks]
    rfl
  obtain ⟨own, hown⟩ := hgone.exists_of_mem habsent
  have hcheck : c.check .absent (path ++ [name]) = .ok own := hgone.fits _ hown
  -- all that is known of the name comes from this one report
  have hsame : ∀ d ∈ gone, d.1.name = .string name → d = (.mk (.string name) required c, own) := by
    rintro ⟨f, r⟩ hd hname
    obtain rfl := honly f (List.mem_of_mem_filter (hgone.mem hd)) hname
    have hr : c.check .absent (path ++ [name]) = .ok r := hgone.fits _ hd
    rw [Except.ok.inj (hcheck.symm.trans hr)]
  refine ⟨own, hcheck, fun w => ⟨fun hw => ?_, ?_⟩, ⟨fun hissue => ?_, ?_⟩⟩
  · obtain ⟨d, hd, heq, hok, hpresent⟩ := mem_filled hw
    obtain rfl := hsame d hd (Prod.mk.inj heq).1.symm
    exact ⟨Field.gives_iff.mpr ⟨hok, hpresent⟩, (Prod.mk.inj heq).2.symm⟩
  · rintro ⟨hgive, rfl⟩
    exact List.mem_filterMap.mpr ⟨_, hown, if_pos hgive⟩
  · obtain ⟨⟨f, r⟩, hd, hmissing⟩ := List.mem_filterMap.mp hissue
    unfold Field.missing? at hmissing
    split at hmissing
    next hcondition =>
      obtain ⟨hgive, hrequired⟩ := Bool.and_eq_true_iff.mp hcondition
      obtain ⟨key, hname⟩ := htexts f (List.mem_of_mem_filter (hgone.mem hd)) hrequired
      have hkey : key = name := by
        have hplace := congrArg Issue.path (Option.some.inj hmissing)
        rw [hname] at hplace
        simpa [Value.plain] using hplace
      obtain ⟨rfl, rfl⟩ := Prod.mk.inj (hsame _ hd (hname.trans (congrArg Value.string hkey)))
      exact ⟨hrequired, by simpa using hgive⟩
    next => cases hmissing
  · rintro ⟨rfl, hgive⟩
    exact List.mem_filterMap.mpr ⟨_, hown, if_pos (Bool.and_eq_true_iff.mpr ⟨by rw [hgive]; rfl, rfl⟩)⟩

/-- **An object fills in the properties of its schema**, each of an ordinary schema of its own. -/
theorem BuiltObject.fillsProperties [Pattern.Engine] {fields : List Field} {additional : Additional}
    (h : BuiltObject compile schema fields additional)
    (hnames : ((mappedSchemas schema "properties").map Prod.fst).Nodup)
    (hordinary : ∀ e ∈ mappedSchemas schema "properties", IsOrdinary e.2) (bounds : Bounds) :
    FillsProperties schema (.object fields additional bounds) := by
  intro members path r hjson hr name s hdeclared hlacks
  obtain ⟨c, hc, hfield, honly⟩ := h.field hnames hdeclared
  have hkeys := ne_of_has_eq_false hjson hlacks
  have hobject : Answers False ((Validator.object fields additional bounds).check (.dict members) path) _ :=
    answers_object (memberCountIssues_at _ _ _)
      (fun e _ f _ => answers_below f.validator e.2 (path ++ [e.1.plain]))
      (fun e _ _ c _ => answers_below c e.2 (path ++ [e.1.plain]))
      fun f _ => (.of_meets fun r hr => hr : Answers False (f.validator.check .absent (path ++ [f.name.plain]))
        fun r => f.validator.check .absent (path ++ [f.name.plain]) = .ok r)
  obtain ⟨counts, done, gone, hcounts, hdone, hgone, rfl⟩ := hobject.meets r hr
  obtain ⟨own, hcheck, hfilled, hmissing⟩ := report_of_field hgone hfield honly (fun _ => h.text_of_required) hlacks
  have hgives := gives_iff_standsIn hc (hordinary _ hdeclared) hcheck
  constructor
  -- the members that are there have other keys
  · have hmem : ∀ w, (.string name, w) ∈ done.filterMap keptEntry ++ gone.filterMap Field.filled? ↔
        Field.gives own = true ∧ own.output = w := by
      intro w
      rw [List.mem_append, ← hfilled w]
      refine or_iff_right fun hw => ?_
      obtain ⟨d, hd, hkept⟩ := List.mem_filterMap.mp hw
      obtain ⟨o, _, heq⟩ := Option.map_eq_some_iff.mp hkept
      exact hkeys d.1 (hdone.mem hd) (Prod.mk.inj heq).1
    refine fun _ => ⟨_, rfl, fun value => ?_⟩
    rw [get?_eq_some_iff own.output fun w hw => ((hmem w).mp hw).2.symm, hmem, ← hgives value]
    exact and_congr_left fun _ => and_iff_left rfl
  -- so the issues of counts and members are about other places
  · have hplace : ⟨path ++ [name], .missingMember name⟩ ∉ counts ++ done.flatMap (·.2.2) := by
      intro hissue
      rcases List.mem_append.mp hissue with hissue | hissue
      · simpa using (hcounts _ hissue).1
      · obtain ⟨e, he, hprefix⟩ := hdone.members_below _ hissue
        obtain ⟨key, hkey⟩ := hjson.key he
        have hplain : e.1.plain = name := by simpa using (List.prefix_append_right_inj path).mp hprefix
        rw [hkey] at hplain
        exact hkeys e he (hkey.trans (congrArg Value.string hplain))
    rw [List.mem_append, or_iff_right hplace, hmissing]
    refine and_congr_right fun _ => ⟨fun hgive value hvalue => ?_, fun hnone => Bool.eq_false_iff.mpr fun hgive => ?_⟩
    · by_contra hpresent
      rw [((hgives value).mpr ⟨hvalue, hpresent⟩).1] at hgive
      cases hgive
    · obtain ⟨hvalue, hpresent⟩ := (hgives _).mp ⟨hgive, rfl⟩
      exact hpresent (hnone _ hvalue)

/-- It is enough that another validator fills in the properties, if it reports the same members as missing and has the
same output where the value is accepted. -/
theorem FillsProperties.of_check [Pattern.Engine] {vd other : Validator} (h : FillsProperties schema other)
    (hcheck : ∀ members path r, (Value.dict members).IsJson → vd.check (.dict members) path = .ok r →
      ∃ r', other.check (.dict members) path = .ok r' ∧ (r.ok = true → r'.ok = true ∧ r.output = r'.output) ∧
        ∀ place name, (⟨place, .missingMember name⟩ : Issue) ∈ r.issues ↔ ⟨place, .missingMember name⟩ ∈ r'.issues) :
    FillsProperties schema vd := by
  intro members path r hjson hr name s hdeclared hlacks
  obtain ⟨r', hr', hok, hissues⟩ := hcheck members path r hjson hr
  obtain ⟨hfilled, hmissing⟩ := h members path r' hjson hr' name s hdeclared hlacks
  refine ⟨fun haccepted => ?_, (hissues _ _).trans hmissing⟩
  obtain ⟨haccepted', houtput⟩ := hok haccepted
  rw [houtput]
  exact hfilled haccepted'

variable (hnames : ((mappedSchemas schema "properties").map Prod.fst).Nodup)
  (hordinary : ∀ e ∈ mappedSchemas schema "properties", IsOrdinary e.2)

/-- A schema with properties says something. -/
theorem hasConstraints_of_property {e : Value × Value} (h : e ∈ mappedSchemas schema "properties") :
    hasConstraints schema = true := by
  by_contra hnothing
  rw [mappedSchemas, get?_of_not_hasConstraints (Bool.eq_false_iff.mpr hnothing) (by decide)] at h
  cases h

include hnames hordinary in
/-- **The first phase fills in properties**, if it admits mappings. -/
theorem baseValidator_fillsProperties [Pattern.Engine] {base : Validator} (hbase : baseValidator schema = .ok base)
    (hadmits : kindKept schema (.dict []) = true) : FillsProperties schema base := by
  obtain ⟨slots, hslots, hassemble⟩ := exists_of_bind_eq_ok hbase
  obtain rfl : slots.assemble schema = base := Except.ok.inj hassemble
  obtain ⟨fields, additional, hholds, hbuilt⟩ := (holdsObject_all (v := .dict []) rfl).meets slots hslots
  rw [HoldsObject, hadmits, if_pos rfl] at hholds
  have hobject := (hbuilt hadmits).fillsProperties hnames hordinary (givenBounds schema "minProperties" "maxProperties")
  intro members path r hjson hr name s hdeclared
  have hcheck := check_assemble (validators_apart.meets slots hslots) (hasConstraints_of_property hdeclared)
    (mem_validators_of_admitted hholds) (v := .dict members) nofun rfl path
  rcases hcheck with hcheck | hcheck
  · exact hobject members path r hjson (hcheck.symm.trans hr) name s hdeclared
  · rw [hcheck] at hr
    obtain ⟨r', hr', rfl⟩ := exists_of_map_eq_ok hr
    have hown := hobject members path r' hjson hr' name s hdeclared
    cases hok : r'.ok with
    | true =>
      rw [if_pos rfl]
      rw [hok, Report.ok_iff.mp hok] at hown
      exact hown
    | false =>
      rw [if_neg (by decide)]
      refine fun hlacks => ⟨fun haccepted => ?_, (hown hlacks).2⟩
      rw [show (Report.mk (.dict members) r'.issues).ok = r'.ok from rfl, hok] at haccepted
      cases haccepted

/-- A condition does not change what is filled in, or reported as missing. -/
theorem FillsProperties.refined [Pattern.Engine] {inner : Validator} (h : FillsProperties schema inner) (test : Test)
    (message : String) :
    FillsProperties schema (.refined inner test message) := by
  refine h.of_check fun members path r _ hr => ?_
  have hrefined : Answers False ((Validator.refined inner test message).check (.dict members) path) _ :=
    answers_refined (.of_meets fun r hr => hr : Answers False (inner.check (.dict members) path)
      fun r => inner.check (.dict members) path = .ok r) fun r _ _ => .trivial (test.holds r.output)
  obtain ⟨r', hr', ⟨_, rfl⟩ | ⟨_, _, rfl⟩ | ⟨hok, _, rfl⟩⟩ := hrefined.meets r hr
  · exact ⟨_, hr', fun haccepted => ⟨haccepted, rfl⟩, fun _ _ => Iff.rfl⟩
  · exact ⟨_, hr', fun haccepted => ⟨haccepted, rfl⟩, fun _ _ => Iff.rfl⟩
  · refine ⟨r', hr', nofun, fun place name => ?_⟩
    rw [Report.ok_iff.mp hok]
    simp [Report.reject]

include hnames hordinary in
/-- **A schema without branches fills in its properties.** -/
theorem compile_fillsProperties [Pattern.Engine] {vd : Validator} (hcompile : compile (.dict schema) = .ok vd)
    (hproto : requiresProto schema = false) (hbranches : Role.branch.schemas schema = [])
    (hadmits : kindKept schema (.dict []) = true) : FillsProperties schema vd := by
  obtain ⟨core, hcore, hannotated⟩ := compile_annotated hcompile
  obtain ⟨base, hbase, hcore⟩ := exists_of_bind_eq_ok hcore
  have hinside : ∀ role : Role, ∀ s ∈ role.schemas schema, ∀ c : Validator, compile s = .ok c → role ≠ .branch := by
    rintro role s hs _ _ rfl
    rw [hbranches] at hs
    cases hs
  have hfills : Answers False (Refinement.runAll (fun _ => .ok ()) compile schema Refinement.constraints base)
      (FillsProperties schema) := by
    refine constraints_keep hinside (fun hpaired vd hvd => ?_) (baseValidator_fillsProperties hnames hordinary hbase hadmits)
    cases hpaired with
    | protoRequired proto =>
      rw [protoRequired?_eq_none hproto] at proto
      cases proto
    | allOf each =>
      cases each with
      | nil => exact hvd
      | cons hfirst _ => exact (hfirst rfl).elim
    | someOf some each =>
      cases each with
      | nil => exact (some rfl).elim
      | cons hfirst _ => exact (hfirst rfl).elim
    | _ => exact hvd.refined _ _
  refine (hfills.meets core hcore).of_check fun members path r _ hr => ⟨r, ?_, fun hok => ⟨hok, rfl⟩, fun _ _ => Iff.rfl⟩
  exact (hannotated.check_present (v := .dict members) nofun path).symm.trans hr

end

/-! ## Schemas -/

/-- **What stands in for the absent value.** A schema accepts the absent value if it is true or says nothing, and then
leaves it alone, or if the rest of it accepts its default, which is the output and is accepted itself. So the first
phase fills in exactly the missing properties whose schemas have such a default, and reports those as missing that are
required and have none; and so does the whole schema if it has no branches. -/
theorem absent_settled [Pattern.Engine] {schema : Value} {vd : Validator} (hcompile : compile schema = .ok vd) :
    (IsOrdinary schema →
      (∀ value, vd.validate .absent = .ok (.ok value) ↔ StandsIn schema value) ∧
      ∀ value, StandsIn schema value → value ≠ .absent → ∃ output, vd.validate value = .ok (.ok output)) ∧
    ∀ entries, schema = .dict entries → kindKept entries (.dict []) = true →
      ((mappedSchemas entries "properties").map Prod.fst).Nodup →
      (∀ e ∈ mappedSchemas entries "properties", IsOrdinary e.2) →
      (∀ base, baseValidator entries = .ok base → FillsProperties entries base) ∧
      (requiresProto entries = false → Role.branch.schemas entries = [] → FillsProperties entries vd) := by
  refine ⟨fun hordinary => ⟨fun value => ?_, fun value hstands hpresent => ?_⟩, ?_⟩
  · rcases check_absent hcompile hordinary with ⟨w, hw, hcheck⟩ | ⟨hnone, hrefuses⟩
    · rw [validate, hcheck]
      constructor
      · intro heq
        obtain rfl : w = value := Except.ok.inj (Except.ok.inj heq)
        exact hw
      · intro hvalue
        rw [hw.unique hvalue]
        rfl
    · refine ⟨fun heq => ?_, fun hvalue => (hnone value hvalue).elim⟩
      obtain ⟨r, hr, houtcome⟩ := exists_of_map_eq_ok heq
      rw [Report.outcome, (hrefuses []).meets r hr] at houtcome
      cases houtcome
  · cases hstands with
    | truth => exact (hpresent rfl).elim
    | unconstrained _ => exact (hpresent rfl).elim
    | default given compiled accepted =>
      obtain ⟨core, hcore, hannotated⟩ := compile_annotated hcompile
      obtain ⟨hdefault, _⟩ := hordinary.of_mapping
      rw [accepts_rest hcore (hdefault _ given) compiled, accepts] at accepted
      obtain ⟨r, hr, hok⟩ := exists_of_map_eq_ok accepted
      refine ⟨r.output, ?_⟩
      rw [validate, hannotated.check_present hpresent, hr]
      show Except.ok r.outcome = _
      rw [Report.outcome, hok]
      rfl
  · rintro entries rfl hadmits hnames hordinary
    exact ⟨fun base hbase => baseValidator_fillsProperties hnames hordinary hbase hadmits,
      fun hproto hbranches => compile_fillsProperties hnames hordinary hcompile hproto hbranches hadmits⟩

attribute [local instance] Pattern.engine

/-- A property with a default, and a required one without. -/
theorem absent_settled_properties :
    let filled := Value.dict [(.string "type", .string "integer"), (.string "default", .int 80)]
    let entries : Entries := [(.string "properties", .dict [(.string "port", filled), (.string "host", .bool true)]),
      (.string "required", .list [.string "host"])]
    ∃ vd, compile (.dict entries) = .ok vd ∧ (∀ value, vd.validate .absent = .ok (.ok value) ↔ StandsIn (.dict entries) value) ∧
      FillsProperties entries vd ∧ StandsIn filled (.int 80) ∧ ∀ value, StandsIn (.bool true) value → value = .absent := by
  intro filled entries
  obtain ⟨vd, hcompile⟩ : ∃ vd, compile (.dict entries) = .ok vd := ⟨_, by with_unfolding_all rfl⟩
  obtain ⟨rest, hrest⟩ : ∃ rest, compile (.dict [(.string "type", .string "integer")]) = .ok rest := ⟨_, by with_unfolding_all rfl⟩
  have hordinary : ∀ e ∈ mappedSchemas entries "properties", IsOrdinary e.2 := by
    refine List.forall_mem_cons.mpr ⟨.mapping (fun value h => ?_) rfl, List.forall_mem_singleton.mpr (.other rfl)⟩
    obtain rfl : Value.int 80 = value := Option.some.inj h
    exact .leaf rfl rfl rfl
  have hnames : ((mappedSchemas entries "properties").map Prod.fst).Nodup := by
    show [Value.string "port", .string "host"].Nodup
    simp
  obtain ⟨habsent, hfills⟩ := absent_settled hcompile
  refine ⟨vd, hcompile, (habsent (.mapping nofun rfl)).1, (hfills entries rfl rfl hnames hordinary).2 rfl rfl, ?_, ?_⟩
  · refine .default rfl hrest ?_
    obtain rfl : _ = rest := Except.ok.inj ((by with_unfolding_all rfl : compile _ = .ok _).symm.trans hrest)
    with_unfolding_all rfl
  · rintro value ⟨⟩
    rfl

/-- A branch fills in a property whose own schema has no default. -/
theorem absent_filled_by_branch :
    let branch := Value.dict [(.string "type", .string "object"),
      (.string "properties", .dict [(.string "a", .dict [(.string "default", .int 1)])])]
    let schema := Value.dict [(.string "type", .string "object"),
      (.string "properties", .dict [(.string "a", .bool true)]), (.string "allOf", .list [branch])]
    IsOrdinary (.bool true) ∧ (∀ value, StandsIn (.bool true) value → value = .absent) ∧
      ∃ vd, compile schema = .ok vd ∧ vd.validate (.dict []) = .ok (.ok (.dict [(.string "a", .int 1)])) := by
  intro branch schema
  have hcompile : compile schema = .ok (.both (.object [.mk (.string "a") false .any] .passthrough {})
      (.object [.mk (.string "a") false (.defaulted everyKind (.int 1))] .passthrough {})) := by with_unfolding_all rfl
  refine ⟨.other rfl, ?_, _, hcompile, rfl⟩
  rintro value ⟨⟩
  rfl

end Schemata
