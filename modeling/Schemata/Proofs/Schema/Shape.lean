import Schemata.Pattern.Reader
import Schemata.Proofs.Schema.Dispatch
import Schemata.Proofs.Schema.Readings
import Schemata.Proofs.Schema.Regular
import Schemata.Proofs.Validator.Passing
import Schemata.Proofs.Value.Keys

/-!
# `Schemata.Proofs.Schema.Shape` — the properties of an object, compiled one by one

An object schema with properties is compiled to one validator, and its shape to a validator for each property. Nothing is
required, so the object accepts a mapping if the parts of the shape accept the members of their names. Their outputs take
the place of the members, and behind them stands what the parts make of the absent value. To know that, the object asks
each part that has no member. A part that ends in a fault there takes the whole object with it.

## Contents
- **Compilation.** `objectOf`, and both ways of compiling its properties.
- **Names without a member.** `lacking` and `filling?`, with `checkAbsent_optionalFields` on the loop over the fields.
- **Members.** `Replaced`, with `checkOptional_eq_ok_iff` on the loop over the members.
- **Objects.** `AgreesOn` and `agreesOn_optionalFields`.
- **Agreement.** `shape_agrees`, with `shape_unanswered` for a part that ends in a fault.
-/

namespace Schemata

open Value Validator

/-! ## Compilation -/

/-- The schema of objects with some properties. -/
def objectOf (properties : Entries) : Entries :=
  [(.string "type", .string "object"), (.string "properties", .dict properties)]

/-- The field of a part of a shape; its member may be left out. -/
def optionalField (part : Value × Validator) : Field := .mk part.1 false part.2

/-- Properties are compiled one by one to fields. -/
theorem propertyFields_eq [Pattern.Engine] (properties : Entries) :
    propertyFields (m := Except CompileError) compile [] properties =
      properties.mapM (fun e => (compile e.2).map fun c => (e.1, c)) >>= fun parts => .ok (parts.map optionalField) := by
  induction properties with
  | nil => rfl
  | cons e rest ih =>
    rw [propertyFields, ih, List.mapM_cons]
    cases compile e.2 with
    | error fault => rfl
    | ok c => cases List.mapM (m := Except CompileError) (fun e => (compile e.2).map fun c => (e.1, c)) rest <;> rfl

/-- Without null, the entries of a shape are those of the mapping. -/
theorem shapeEntries_eq [Pattern.Engine] {properties : Entries} (hschemas : ∀ e ∈ properties, e.2 ≠ .null) :
    shapeEntries properties = properties.mapM fun e => (compile e.2).map fun c => (e.1, c) := by
  induction properties with
  | nil => rfl
  | cons e rest ih =>
    obtain ⟨name, schema⟩ := e
    obtain ⟨hschema, hrest⟩ := List.forall_mem_cons.mp hschemas
    have hstep : shapeEntries ((name, schema) :: rest) =
        compile schema >>= fun c => shapeEntries rest >>= fun parts => .ok ((name, c) :: parts) := by
      cases schema with
      | null => exact absurd rfl hschema
      | _ => rfl
    rw [hstep, ih hrest, List.mapM_cons]
    cases compile schema <;> rfl

/-- **An object with properties** is compiled to their fields. -/
theorem compile_objectOf [Pattern.Engine] (properties : Entries) :
    compile (.dict (objectOf properties)) =
      propertyFields compile [] properties >>= fun fields => .ok (.object fields .passthrough {}) := by
  -- only the rule of properties compiles their schemas; what the rules around it do is the same for any fields
  let earlier := KindRule.all.take 19
  let later := KindRule.all.drop 20
  let slots : Admissibility := Admissibility.initial.apply (.disableAllExcept [.object])
  let steps := fun fields => [Step.update .object (joinObject (.object fields .passthrough {}))]
  have hall : KindRule.all = earlier ++ .properties :: later := rfl
  refine compile_around slots steps hall ?earlier ?properties ?later ?made
  case earlier => with_unfolding_all rfl
  case properties => with_unfolding_all rfl
  case later =>
    intro fields
    with_unfolding_all rfl
  case made =>
    intro fields
    with_unfolding_all rfl

/-! ## Names without a member -/

/-- The parts of a shape that have no member. -/
def lacking (parts : List (Value × Validator)) (members : Entries) : List (Value × Validator) :=
  parts.filter fun part => !Entries.hasAlike members part.1

/-- The member that a part fills in: what it makes of the absent value, if it accepts that and gives something. -/
def filling? (part : Value × Validator) : Option (Value × Value) :=
  match part.2.check .absent [] with
  | .ok r => if Field.gives r then some (part.1, r.output) else none
  | .error _ => none

/-- A field fills in what its part does, wherever it is asked. -/
theorem filled?_optionalField {part : Value × Validator} {r : Report} {place : Pointer}
    (h : part.2.check .absent place = .ok r) : Field.filled? (optionalField part, r) = filling? part := by
  rw [check_at place] at h
  obtain ⟨own, hown, rfl⟩ := exists_of_map_eq_ok h
  have hgives : Field.gives (own.under place) = Field.gives own := by
    rw [Field.gives, Report.ok_under]
    rfl
  rw [Field.filled?, filling?, hown, hgives]
  rfl

/-- **Fields without a member** are asked for the absent value, and fill in what their parts do. -/
theorem checkAbsent_optionalFields (parts : List (Value × Validator)) (members : Entries) :
    Field.checkAbsent (m := Except Fault) (fun f => .ok f.size?) (parts.map optionalField) members [] =
      (lacking parts members).mapM (fun part => part.2.check .absent [part.1.plain]) >>= fun _ =>
        .ok ((lacking parts members).filterMap filling?, []) := by
  induction parts with
  | nil => rfl
  | cons part rest ih =>
    show (if Entries.hasAlike members part.1 then Field.checkAbsent (m := Except Fault) _ (rest.map optionalField) members []
      else part.2.check .absent [part.1.plain] >>= fun r =>
        Field.checkAbsent _ (rest.map optionalField) members [] >>= fun out =>
          if Field.gives r then .ok ((part.1, r.output) :: out.1, out.2) else .ok (out.1, out.2)) = _
    cases hhas : Entries.hasAlike members part.1 with
    | true =>
      have hlacking : lacking (part :: rest) members = lacking rest members := List.filter_cons_of_neg (by simp [hhas])
      rw [if_pos rfl, hlacking, ih]
    | false =>
      have hlacking : lacking (part :: rest) members = part :: lacking rest members :=
        List.filter_cons_of_pos (by simp [hhas])
      rw [if_neg (by decide), hlacking, List.mapM_cons, ih, bind_assoc]
      cases hcheck : part.2.check .absent [part.1.plain] with
      | error fault => rfl
      | ok r =>
        have hfilled : filling? part = if Field.gives r then some (part.1, r.output) else none :=
          (filled?_optionalField hcheck).symm
        cases List.mapM (m := Except Fault) (fun part => part.2.check .absent [part.1.plain]) (lacking rest members) with
        | error fault => rfl
        | ok reports =>
          show (if Field.gives r then _ else _) = Except.ok ((part :: lacking rest members).filterMap filling?, [])
          cases hgives : Field.gives r with
          | true =>
            rw [hgives, if_pos rfl] at hfilled
            rw [List.filterMap_cons_some hfilled, if_pos rfl]
          | false =>
            rw [hgives, if_neg (by decide)] at hfilled
            rw [List.filterMap_cons_none hfilled, if_neg (by decide)]

/-! ## Members -/

/-- How an object of optional fields checks a member. -/
def checkOptional (parts : List (Value × Validator)) (key item : Value) : Except Fault (Option Value × List Issue) := do
  match (← Field.checkMember (fun f => .ok f.size?) (parts.map optionalField) key item [key.plain]) with
  | some r => return (some r.output, r.issues)
  | none => Additional.passthrough.checkMember (fun f => .ok f.size?) key item [key.plain]

/-- A member with its value replaced by the output of the part of its name, if there is one. -/
structure Replaced (parts : List (Value × Validator)) (e e' : Value × Value) : Prop where
  key : e'.1 = e.1
  declared : ∀ part ∈ parts, part.1 = e.1 → part.2.validate e.2 = .ok (.ok e'.2)
  other : e.1 ∉ parts.map Prod.fst → e'.2 = e.2

theorem replaced_other_iff {parts : List (Value × Validator)} {e : Value × Value} {w : Value}
    (hkey : e.1 ∉ parts.map Prod.fst) : Replaced parts e (e.1, w) ↔ w = e.2 :=
  ⟨fun h => h.other hkey, fun h => ⟨rfl, fun _ hpart hname => absurd (hname ▸ List.mem_map_of_mem hpart) hkey, fun _ => h⟩⟩

section

variable {parts : List (Value × Validator)} (hnames : DistinctTexts (parts.map Prod.fst))

include hnames in
theorem replaced_declared_iff {part : Value × Validator} (hpart : part ∈ parts) {e : Value × Value} (hname : part.1 = e.1)
    {w : Value} : Replaced parts e (e.1, w) ↔ part.2.validate e.2 = .ok (.ok w) := by
  refine ⟨fun h => h.declared part hpart hname, fun h => ⟨rfl, fun other hother hsame => ?_, fun hkey => ?_⟩⟩
  · rw [List.inj_on_of_nodup_map hnames.distinct hother hpart (hsame.trans hname.symm)]
    exact h
  · exact absurd (hname ▸ List.mem_map_of_mem hpart) hkey

include hnames in
/-- The name of a part has its field. -/
theorem find?_optionalField {part : Value × Validator} (hpart : part ∈ parts) :
    Field.find? (parts.map optionalField) part.1 = some (optionalField part) := by
  cases hfind : Field.find? (parts.map optionalField) part.1 with
  | none =>
    have hself := List.find?_eq_none.mp hfind (optionalField part) (List.mem_map_of_mem hpart)
    exact absurd (hnames.alike_self (List.mem_map_of_mem hpart)) hself
  | some f =>
    obtain ⟨other, hother, rfl⟩ := List.mem_map.mp (List.mem_of_find?_eq_some hfind)
    have halike : other.1.alike part.1 = true := List.find?_some (p := fun f : Field => f.name.alike part.1) hfind
    have hname := hnames.eq_of_alike (List.mem_map_of_mem hother) halike
    rw [List.inj_on_of_nodup_map hnames.distinct hpart hother hname]

include hnames in
/-- Other keys have no field. -/
theorem find?_optionalField_none {key : Value} (hkey : key ∉ parts.map Prod.fst) :
    Field.find? (parts.map optionalField) key = none := by
  refine List.find?_eq_none.mpr fun f hf halike => hkey ?_
  obtain ⟨part, hpart, rfl⟩ := List.mem_map.mp hf
  rw [hnames.eq_of_alike (List.mem_map_of_mem hpart) halike]
  exact List.mem_map_of_mem hpart

include hnames in
/-- **A member without issues** is one that is replaced. -/
theorem checkOptional_eq_ok_iff (e : Value × Value) (o : Option Value) :
    checkOptional parts e.1 e.2 = .ok (o, []) ↔ ∃ w, o = some w ∧ Replaced parts e (e.1, w) := by
  rw [checkOptional, checkMember_eq]
  by_cases hkey : e.1 ∈ parts.map Prod.fst
  · obtain ⟨part, hpart, hname⟩ := List.mem_map.mp hkey
    have hfield := find?_optionalField hnames hpart
    rw [hname] at hfield
    simp only [hfield, replaced_declared_iff hnames hpart hname, validate_at [e.1.plain]]
    show (part.2.check e.2 [e.1.plain]).map some >>= _ = _ ↔ _
    cases part.2.check e.2 [e.1.plain] with
    | error fault => simp [Except.map, bind, Except.bind]
    | ok r =>
      constructor
      · intro h
        obtain ⟨rfl, hissues⟩ := Prod.mk.inj (Except.ok.inj h)
        exact ⟨r.output, rfl, r, rfl, Report.ok_iff.mpr hissues, rfl⟩
      · rintro ⟨w, rfl, own, hown, hok, rfl⟩
        obtain rfl := Except.ok.inj hown
        exact congrArg Except.ok (Prod.ext rfl (Report.ok_iff.mp hok))
  · simp only [find?_optionalField_none hnames hkey, replaced_other_iff hkey]
    constructor
    · intro h
      obtain ⟨rfl, -⟩ := Prod.mk.inj (Except.ok.inj h)
      exact ⟨e.2, rfl, rfl⟩
    · rintro ⟨w, rfl, rfl⟩
      rfl

include hnames in
/-- Members can be replaced exactly if the parts of their names accept them. -/
theorem exists_replaced_iff {members : Entries} :
    (∃ replaced, List.Forall₂ (Replaced parts) members replaced) ↔
      ∀ part ∈ parts, ∀ e ∈ members, e.1 = part.1 → part.2.Passes e.2 := by
  rw [exists_forall₂_iff]
  constructor
  · intro h part hpart e he hname
    obtain ⟨e', he'⟩ := h e he
    exact passes_iff_validate.mpr ⟨e'.2, he'.declared part hpart hname.symm⟩
  · intro h e he
    by_cases hkey : e.1 ∈ parts.map Prod.fst
    · obtain ⟨part, hpart, hname⟩ := List.mem_map.mp hkey
      obtain ⟨w, hw⟩ := passes_iff_validate.mp (h part hpart e he hname.symm)
      exact ⟨(e.1, w), (replaced_declared_iff hnames hpart hname).mpr hw⟩
    · exact ⟨(e.1, e.2), (replaced_other_iff hkey).mpr rfl⟩

end

/-! ## Objects -/

section

variable {parts : List (Value × Validator)} (hnames : DistinctTexts (parts.map Prod.fst))

include hnames in
/-- **An object of optional fields** replaces the members that are there and fills in those that are not. -/
theorem validate_optionalFields_iff {members : Entries} {w : Value} :
    (object (parts.map optionalField) .passthrough {}).validate (.dict members) = .ok (.ok w) ↔
      (∀ part ∈ lacking parts members, ∃ outcome, part.2.validate .absent = .ok outcome) ∧
        ∃ replaced, List.Forall₂ (Replaced parts) members replaced ∧
          w = .dict (replaced ++ (lacking parts members).filterMap filling?) := by
  have hasked : (∀ part ∈ lacking parts members, ∃ outcome, part.2.validate .absent = .ok outcome) ↔
      ∃ reports, (lacking parts members).mapM (fun part => part.2.check .absent [part.1.plain]) = .ok reports := by
    simp only [mapM_eq_ok_iff, exists_forall₂_iff, exists_check_iff]
  have hpresent : ∀ out, checkEntries (checkOptional parts) members = .ok (out, []) ↔
      List.Forall₂ (Replaced parts) members out := fun out =>
    checkEntries_eq_ok_iff (fun e e' h => h.key) (checkOptional_eq_ok_iff hnames)
  rw [validate_eq_ok_iff, hasked]
  show (∃ r, (checkEntries (checkOptional parts) members >>= fun out =>
    Field.checkAbsent (m := Except Fault) (fun f => .ok f.size?) (parts.map optionalField) members [] >>= fun gone =>
      Except.ok (Report.mk (.dict (out.1 ++ gone.1)) ([] ++ out.2 ++ gone.2))) = .ok r ∧ r.ok = true ∧ r.output = w) ↔ _
  rw [checkAbsent_optionalFields]
  constructor
  · rintro ⟨r, hr, hok, rfl⟩
    obtain ⟨⟨replaced, issues⟩, hout, hr⟩ := exists_of_bind_eq_ok hr
    obtain ⟨gone, hgone, hr⟩ := exists_of_bind_eq_ok hr
    obtain ⟨reports, hreports, hgone⟩ := exists_of_bind_eq_ok hgone
    obtain rfl := Except.ok.inj hgone
    obtain rfl := Except.ok.inj hr
    obtain rfl : issues = [] := by simpa using Report.ok_iff.mp hok
    exact ⟨⟨reports, hreports⟩, replaced, (hpresent _).mp hout, rfl⟩
  · rintro ⟨⟨reports, hreports⟩, replaced, hreplaced, rfl⟩
    rw [(hpresent _).mpr hreplaced, hreports]
    exact ⟨_, rfl, rfl, rfl⟩

/-- An object validator agrees with a shape on a mapping. It accepts the mapping if the parts accept the members of their
names and answer on the absent value where there are none, and the output is made of what the parts give back. -/
structure AgreesOn (parts : List (Value × Validator)) (vd : Validator) (members : Entries) : Prop where
  passes : vd.Passes (.dict members) ↔
    (∀ part ∈ parts, ∀ e ∈ members, e.1 = part.1 → part.2.Passes e.2) ∧
      ∀ part ∈ lacking parts members, ∃ outcome, part.2.validate .absent = .ok outcome
  output : ∀ w, vd.validate (.dict members) = .ok (.ok w) → ∃ replaced, List.Forall₂ (Replaced parts) members replaced ∧
    w = .dict (replaced ++ (lacking parts members).filterMap filling?)

include hnames in
/-- An object of optional fields agrees with the shape of their parts. -/
theorem agreesOn_optionalFields (members : Entries) :
    AgreesOn parts (.object (parts.map optionalField) .passthrough {}) members where
  passes := by
    rw [passes_iff_validate, ← exists_replaced_iff hnames]
    simp only [validate_optionalFields_iff hnames]
    constructor
    · rintro ⟨_, hasked, replaced, hreplaced, _⟩
      exact ⟨⟨replaced, hreplaced⟩, hasked⟩
    · rintro ⟨⟨replaced, hreplaced⟩, hasked⟩
      exact ⟨_, hasked, replaced, hreplaced, rfl⟩
  output := fun w hw => ((validate_optionalFields_iff hnames).mp hw).2

end

/-! ## Agreement -/

/-- A part whose schema is well-formed answers on the absent value. -/
theorem exists_validate_absent [Pattern.Engine] {schema : Value} {c : Validator} (hcompile : compile schema = .ok c)
    (hschema : WellFormed schema) (hwritable : schema.isWritable = true) : ∃ outcome, c.validate .absent = .ok outcome := by
  have hregular : Throughout (IsRegular True False) c :=
    compile_regular hcompile hschema.shapes (fun _ => hwritable) False.elim
  obtain ⟨r, hr, _⟩ := (answers_regular hregular .absent [] rfl).answer trivial
  exact (exists_check_iff []).mp ⟨r, hr⟩

/-- **The shape agrees with the compiled object.** Both compile the schemas of the properties, one after the other, and fail
alike. The object accepts a mapping exactly if the parts of the shape accept the members of their names and none of the
others ends in a fault on the absent value. Then the output has the outputs of the parts in the place of the members, and
behind them, in the order of the properties, what the other parts make of the absent value. No part of a well-formed schema
ends in a fault. -/
theorem shape_agrees [Pattern.Engine] {properties : Entries} (hnames : DistinctTexts (properties.map Prod.fst))
    (hschemas : ∀ e ∈ properties, e.2 ≠ .null) :
    Lockstep (fun parts vd =>
        List.Forall₂ (fun e part => part.1 = e.1 ∧ compile e.2 = .ok part.2) properties parts ∧
        (∀ members, AgreesOn parts vd members) ∧
        ((∀ e ∈ properties, WellFormed e.2 ∧ e.2.isWritable = true) → ∀ members : Entries,
          vd.Passes (.dict members) ↔ ∀ part ∈ parts, ∀ e ∈ members, e.1 = part.1 → part.2.Passes e.2))
      (shape (.dict [(.string "properties", .dict properties)])) (compile (.dict (objectOf properties))) := by
  have hshape : shape (.dict [(.string "properties", .dict properties)]) =
      properties.mapM fun e => (compile e.2).map fun c => (e.1, c) := shapeEntries_eq hschemas
  rw [hshape, compile_objectOf, propertyFields_eq, bind_assoc]
  cases hparts : properties.mapM (m := Except CompileError) fun e => (compile e.2).map fun c => (e.1, c) with
  | error fault => exact .error fault
  | ok parts =>
    have heach : List.Forall₂ (fun e part => part.1 = e.1 ∧ compile e.2 = .ok part.2) properties parts := by
      refine (mapM_eq_ok_iff.mp hparts).imp fun e part hpart => ?_
      obtain ⟨c, hc, rfl⟩ := exists_of_map_eq_ok hpart
      exact ⟨rfl, hc⟩
    have hsame : properties.map Prod.fst = parts.map Prod.fst := by
      rw [← List.forall₂_eq_eq_eq, List.forall₂_map_left_iff, List.forall₂_map_right_iff]
      exact heach.imp fun e part h => h.1.symm
    have hagrees := agreesOn_optionalFields (hsame ▸ hnames)
    refine .ok ⟨heach, hagrees, fun hformed members => (hagrees members).passes.trans (and_iff_left fun part hpart => ?_)⟩
    have hmem := (List.forall₂_and_left properties parts).mpr ⟨fun e he => he, heach⟩
    have hanswers : ∀ part ∈ parts, ∃ outcome, part.2.validate .absent = .ok outcome := by
      refine forall_of_forall₂ hmem.flip fun part e h => ?_
      obtain ⟨he, _, hcompile⟩ := h
      exact exists_validate_absent hcompile (hformed e he).1 (hformed e he).2
    exact hanswers part (List.mem_of_mem_filter hpart)

attribute [local instance] Pattern.engine

/-- A member is replaced by itself, another one passes, and one that is not there is filled in. -/
theorem shape_agrees_filled :
    let properties : Entries := [(.string "port", .dict [(.string "type", .string "integer"), (.string "default", .int 80)]),
      (.string "host", .dict [(.string "type", .string "string")])]
    let members : Entries := [(.string "path", .null), (.string "host", .string "a")]
    DistinctTexts (properties.map Prod.fst) ∧ (∀ e ∈ properties, e.2 ≠ .null) ∧
      ∃ parts vd, shape (.dict [(.string "properties", .dict properties)]) = .ok parts ∧
        compile (.dict (objectOf properties)) = .ok vd ∧ vd.Passes (.dict members) ∧
        ∀ w, vd.validate (.dict members) = .ok (.ok w) → w = .dict (members ++ [(.string "port", .int 80)]) := by
  intro properties members
  have hnames : DistinctTexts (properties.map Prod.fst) := ⟨by simp [properties], by simp [properties]⟩
  have hschemas : ∀ e ∈ properties, e.2 ≠ .null := by simp [properties]
  let whole := Validator.refined .number .integral "Expected integer, received float"
  let port := (Value.string "port", Validator.defaulted whole (.int 80))
  let host := (Value.string "host", Validator.string)
  have hshape : shape (.dict [(.string "properties", .dict properties)]) = .ok [port, host] := by with_unfolding_all rfl
  obtain ⟨vd, hvd, _, hagrees, _⟩ := (shape_agrees hnames hschemas).exists_of_ok hshape
  have hlacking : lacking [port, host] members = [port] := by with_unfolding_all rfl
  have hhost : Validator.string.validate (.string "a") = .ok (.ok (.string "a")) := rfl
  have hpasses : Validator.string.Passes (.string "a") := passes_iff_validate.mpr ⟨_, hhost⟩
  refine ⟨hnames, hschemas, _, vd, hshape, hvd, (hagrees members).passes.mpr ⟨?_, ?_⟩, fun w hw => ?_⟩
  · simpa [port, host, members] using hpasses
  · rw [hlacking]
    exact List.forall_mem_singleton.mpr ⟨_, rfl⟩
  · obtain ⟨replaced, hreplaced, rfl⟩ := (hagrees members).output w hw
    obtain ⟨path, _, hpath, hrest, rfl⟩ := List.forall₂_cons_left_iff.mp hreplaced
    obtain ⟨name, _, hname, hnil, rfl⟩ := List.forall₂_cons_left_iff.mp hrest
    obtain rfl := List.forall₂_nil_left_iff.mp hnil
    have hpathValue : path = (.string "path", .null) := Prod.ext hpath.key (hpath.other (by simp [port, host]))
    have hnameValue : name = (.string "host", .string "a") := by
      refine Prod.ext hname.key ?_
      have hvalue := hname.declared host (by simp) rfl
      exact (Except.ok.inj (Except.ok.inj (hhost.symm.trans hvalue))).symm
    rw [hlacking, hpathValue, hnameValue]
    with_unfolding_all rfl

/-- **A part that ends in a fault on the absent value** takes the object with it, which then refuses no member and accepts
nothing. Its schema is compiled, but it compares a count with a text. -/
theorem shape_unanswered :
    let faulting := Value.dict [(.string "required", .list [.string "__proto__"]),
      (.string "allOf", .list [.dict [(.string "default", .list [.int 1])]]), (.string "contains", .bool true),
      (.string "minContains", .string "a")]
    let properties : Entries := [(.string "a", faulting)]
    ∃ c, shape (.dict [(.string "properties", .dict properties)]) = .ok [(.string "a", c)] ∧
      compile (.dict (objectOf properties)) = .ok (.object [.mk (.string "a") false c] .passthrough {}) ∧
      (Validator.object [.mk (.string "a") false c] .passthrough {}).validate (.dict []) = .error .unsupported := by
  intro faulting properties
  refine ⟨_, by with_unfolding_all rfl, by with_unfolding_all rfl, by with_unfolding_all rfl⟩

end Schemata
