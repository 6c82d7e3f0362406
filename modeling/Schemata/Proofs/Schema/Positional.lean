import Schemata.Pattern.Reader
import Schemata.Proofs.Schema.Defaults
import Schemata.Proofs.Schema.Silence
import Schemata.Proofs.Validator.Passing

/-!
# `Schemata.Proofs.Schema.Positional` — positional items in two spellings

A list of schemas under `items` makes a tuple, which puts the outputs of its parts together. The same list under
`prefixItems`, with nothing allowed beyond, makes a condition on any list. The condition asks the parts whether they
accept their items and keeps none of what they give back. So both spellings accept the same lists of the right length,
and the outputs differ where a part fills something in.

## Contents
- **Traversals.** `checkPositional_iff`, for places that do not matter, and `validate_tuple_iff`.
- **Conditions.** `validate_positions_iff`.
- **Spellings.** `listedItems` and `prefixedItems`, and what they are compiled to.
- **Agreement.** `positional_spellings`, and `positional_spellings_fill`, where the outputs differ.
-/

namespace Schemata

open Validator

/-! ## Traversals -/

namespace Validator

variable {parts : List Validator} {items : List Value}

/-- **Positional items have no issues** if every part accepts its item, and then the outputs are those of the parts. -/
theorem checkPositional_iff (parts : List Validator) (items : List Value) (i : Nat) (path : Pointer) (outputs : List Value) :
    Validator.checkPositional (m := Except Fault) (fun f => .ok f.size?) parts i items path = .ok (outputs, []) ↔
      List.Forall₂ (fun p o => p.1.validate p.2 = .ok (.ok o)) (parts.zip items) outputs := by
  -- the place of an item is in its issues only, so the induction is over all numbers to start from
  induction parts generalizing i items outputs with
  | nil =>
    rw [List.zip_nil_left, List.forall₂_nil_left_iff]
    exact ⟨fun h => (Prod.mk.inj (Except.ok.inj h)).1.symm, fun h => by rw [h]; rfl⟩
  | cons c cs ih =>
    cases items with
    | nil =>
      rw [List.zip_nil_right, List.forall₂_nil_left_iff]
      exact ⟨fun h => (Prod.mk.inj (Except.ok.inj h)).1.symm, fun h => by rw [h]; rfl⟩
    | cons v vs =>
      rw [List.zip_cons_cons, List.forall₂_cons_left_iff]
      show (c.check v (path ++ [toString i]) >>= fun r => Validator.checkPositional (fun f => .ok f.size?) cs (i + 1) vs path >>=
        fun out => Except.ok (r.output :: out.1, r.issues ++ out.2)) = _ ↔ _
      constructor
      · intro h
        obtain ⟨r, hr, h⟩ := exists_of_bind_eq_ok h
        obtain ⟨out, hout, h⟩ := exists_of_bind_eq_ok h
        obtain ⟨rfl, hissues⟩ := Prod.mk.inj (Except.ok.inj h)
        obtain ⟨hnone, hrest⟩ := List.append_eq_nil_iff.mp hissues
        have hok : r.ok = true := Report.ok_iff.mpr hnone
        obtain ⟨rest, issues⟩ := out
        obtain rfl : issues = [] := hrest
        exact ⟨r.output, rest, (validate_at _).mpr ⟨r, hr, hok, rfl⟩, (ih vs (i + 1) rest).mp hout, rfl⟩
      · rintro ⟨o, rest, hfirst, hrest, rfl⟩
        obtain ⟨r, hr, hok, rfl⟩ := (validate_at (path ++ [toString i])).mp hfirst
        rw [hr, (ih vs (i + 1) rest).mpr hrest]
        show Except.ok (r.output :: rest, r.issues ++ []) = _
        rw [Report.ok_iff.mp hok]
        rfl

/-- **A tuple puts the outputs of its parts together.** -/
theorem validate_tuple_iff (hlength : items.length = parts.length) {w : Value} :
    (tuple parts none {}).validate (.list items) = .ok (.ok w) ↔
      ∃ outputs, w = .list outputs ∧
        List.Forall₂ (fun p o => p.1.validate p.2 = .ok (.ok o)) (parts.zip items) outputs := by
  have hcheck : (tuple parts none {}).check (.list items) [] =
      (Validator.checkPositional (fun f => .ok f.size?) parts 0 items [] >>= fun out =>
        Except.ok ⟨.list (out.1 ++ []), [] ++ out.2 ++ []⟩) := by
    rw [check_tuple]
    dsimp only
    rw [if_neg (by simp [hlength]), if_neg (by simp [hlength]), if_neg (by simp [hlength])]
    rfl
  rw [validate_eq_ok_iff, hcheck]
  constructor
  · rintro ⟨r, hr, hok, rfl⟩
    obtain ⟨⟨outputs, issues⟩, hout, h⟩ := exists_of_bind_eq_ok hr
    obtain rfl := Except.ok.inj h
    obtain rfl : issues = [] := by simpa using Report.ok_iff.mp hok
    exact ⟨outputs, by rw [List.append_nil], (checkPositional_iff _ _ _ _ _).mp hout⟩
  · rintro ⟨outputs, rfl, houtputs⟩
    rw [(checkPositional_iff parts items 0 [] outputs).mpr houtputs]
    exact ⟨_, rfl, rfl, by rw [List.append_nil]⟩

theorem passes_tuple (hlength : items.length = parts.length) :
    (tuple parts none {}).Passes (.list items) ↔ ∀ p ∈ parts.zip items, p.1.Passes p.2 := by
  simp only [passes_iff_validate, validate_tuple_iff hlength]
  rw [← exists_forall₂_iff]
  constructor
  · rintro ⟨_, outputs, _, houtputs⟩
    exact ⟨outputs, houtputs⟩
  · rintro ⟨outputs, houtputs⟩
    exact ⟨_, outputs, rfl, houtputs⟩

/-! ## Conditions -/

/-- **A condition on positional items gives the list back** as it is. -/
theorem validate_positions_iff (hlength : items.length = parts.length) (message : String) {w : Value} :
    (refined (array .any {}) (.positions parts .strict) message).validate (.list items) = .ok (.ok w) ↔
      w = .list items ∧ ∀ p ∈ parts.zip items, p.1.Passes p.2 := by
  have hholds : (Test.positions parts .strict).holds (.list items) =
      allSatisfy (fun p : Validator × Value => p.1.accepts p.2) (parts.zip items) := by
    rw [Test.holds_positions, List.drop_eq_nil_of_le (Nat.le_of_eq hlength)]
    cases allSatisfy (m := Except Fault) (fun p : Validator × Value => p.1.accepts p.2) (parts.zip items) with
    | error e => rfl
    | ok b => cases b <;> rfl
  have hcheck : (refined (array .any {}) (.positions parts .strict) message).check (.list items) [] =
      (allSatisfy (fun p : Validator × Value => p.1.accepts p.2) (parts.zip items) >>= fun holds =>
        Except.ok (if holds then .accept (.list items) else .reject (.list items) [] (.refinement message))) := by
    show ((array .any {}).check (.list items) [] >>= _) = _
    rw [check_anyItems]
    show ((Test.positions parts .strict).holds (.list items) >>= _) = _
    rw [hholds]
    refine bind_congr fun holds => ?_
    cases holds <;> rfl
  have hpasses : (∀ p ∈ parts.zip items, p.1.Passes p.2) ↔
      allSatisfy (fun p : Validator × Value => p.1.accepts p.2) (parts.zip items) = .ok true := allSatisfy_eq_true.symm
  rw [validate_eq_ok_iff, hcheck, hpasses]
  cases allSatisfy (m := Except Fault) (fun p : Validator × Value => p.1.accepts p.2) (parts.zip items) with
  | error e => simp [bind, Except.bind]
  | ok holds =>
    constructor
    · rintro ⟨r, hr, hok, rfl⟩
      obtain rfl := Except.ok.inj hr
      cases holds with
      | true => exact ⟨rfl, rfl⟩
      | false => cases hok
    · rintro ⟨rfl, hholds⟩
      obtain rfl := Except.ok.inj hholds
      exact ⟨_, rfl, rfl, rfl⟩

end Validator

/-! ## Spellings -/

/-- Positional items as a list under `items`. -/
def listedItems (schemas : List Value) : Entries := [(.string "type", .string "array"), (.string "items", .list schemas)]

/-- Positional items under `prefixItems`, with nothing allowed beyond. -/
def prefixedItems (schemas : List Value) : Entries :=
  [(.string "type", .string "array"), (.string "prefixItems", .list schemas), (.string "items", .bool false)]

theorem compile_listedItems [Pattern.Engine] (schemas : List Value) :
    compile (.dict (listedItems schemas)) = schemas.mapM compile >>= fun parts => .ok (.tuple parts none {}) := by
  -- only the rule of tuples compiles the parts; what the rules around it do is the same for any parts
  let earlier := KindRule.all.take 15
  let later := KindRule.all.drop 16
  let slots : Admissibility := Admissibility.initial.apply (.disableAllExcept [.array, .tuple])
  let steps := fun parts => [Step.set .tuple (.tuple parts none {}), .disable .array]
  have hall : KindRule.all = earlier ++ .tuple :: later := rfl
  refine compile_around slots steps hall ?earlier ?tuple ?later ?made
  case earlier => with_unfolding_all rfl
  case tuple => with_unfolding_all rfl
  case later =>
    intro parts
    with_unfolding_all rfl
  case made =>
    intro parts
    with_unfolding_all rfl

theorem compile_prefixedItems [Pattern.Engine] (schemas : List Value) :
    compile (.dict (prefixedItems schemas)) = schemas.mapM compile >>= fun parts =>
      .ok (.refined (.array .any {}) (.positions parts .strict) "Array does not match prefixItems") := by
  -- the first phase knows nothing of `prefixItems`, and in the second only one refinement compiles the parts
  let earlier : List Refinement := Refinement.all.take 6
  let later : List Refinement := Refinement.all.drop 7
  have hall : Refinement.all = earlier ++ .prefixItems :: later := rfl
  have hbase : baseValidator (prefixedItems schemas) = .ok (.array .any {}) := by with_unfolding_all rfl
  have hearlier : Refinement.runAll (m := Except CompileError) (fun _ => .ok ()) compile (prefixedItems schemas) earlier
      (.array .any {}) = .ok (.array .any {}) := by with_unfolding_all rfl
  have hprefix : Refinement.apply? (m := Except CompileError) (fun _ => .ok ()) compile .prefixItems (.array .any {})
      (prefixedItems schemas) = schemas.mapM compile >>= fun parts =>
        .ok (some (.refined (.array .any {}) (.positions parts .strict) "Array does not match prefixItems")) := by
    with_unfolding_all rfl
  have hlater : ∀ vd, Refinement.runAll (m := Except CompileError) (fun _ => .ok ()) compile (prefixedItems schemas) later vd =
      .ok vd := fun vd => by with_unfolding_all rfl
  rw [compile_dict_base, hbase]
  show Refinement.runAll (m := Except CompileError) (fun _ => .ok ()) compile (prefixedItems schemas) Refinement.all _ = _
  rw [hall, Refinement.runAll_append, hearlier]
  show Refinement.runAll (m := Except CompileError) (fun _ => .ok ()) compile (prefixedItems schemas) (.prefixItems :: later) _ = _
  rw [Refinement.runAll, hprefix, bind_assoc]
  exact bind_congr fun parts => hlater _

/-! ## Agreement -/

section

variable {parts : List Validator} {items outputs : List Value}

/-- The outputs of the parts are the items if every part gives its item back. -/
theorem outputs_eq_items_iff (hlength : items.length = parts.length)
    (houtputs : List.Forall₂ (fun p o => p.1.validate p.2 = .ok (.ok o)) (parts.zip items) outputs) :
    outputs = items ↔ ∀ p ∈ parts.zip items, p.1.validate p.2 = .ok (.ok p.2) := by
  have hitems : items = (parts.zip items).map Prod.snd := (List.map_snd_zip (Nat.le_of_eq hlength)).symm
  have hkept : List.Forall₂ (fun p o => p.1.validate p.2 = .ok (.ok o)) (parts.zip items) items ↔
      ∀ p ∈ parts.zip items, p.1.validate p.2 = .ok (.ok p.2) := by
    conv_lhs => rw [hitems]
    rw [List.forall₂_map_right_iff, ← hitems, List.forall₂_same]
  constructor
  · rintro rfl
    exact hkept.mp houtputs
  · intro hall
    -- a validator has one answer, so these are the outputs
    have hunique : Relator.RightUnique fun (p : Validator × Value) o => p.1.validate p.2 = .ok (.ok o) :=
      fun p o o' ho ho' => Except.ok.inj (Except.ok.inj (ho.symm.trans ho'))
    exact List.right_unique_forall₂' hunique houtputs (hkept.mpr hall)

/-- A part without defaults gives back what it accepts. -/
theorem validate_of_noDefaults [Pattern.Engine] {schema v o : Value} {c : Validator} (h : compile schema = .ok c)
    (hfree : NoDefaults schema) (hv : v.TreeOver (· ≠ .absent)) (ho : c.validate v = .ok (.ok o)) :
    c.validate v = .ok (.ok v) := by
  obtain ⟨r, hr, hok, rfl⟩ := validate_eq_ok_iff.mp ho
  have hkept := (answers_kept c (fun _ : True => (compile_defaultFree h hfree).unfilling) v [] hv).meets r hr hok
  rwa [hkept.same trivial] at ho

end

/-- **Both spellings of positional items accept the same lists of the right length.** They fail to compile alike. The
output of the list under `items` is made of the outputs of its parts, and `prefixItems` gives the list back as it is. So
the outputs are the same exactly if every part gives its item back, as it does if its schema has no defaults. -/
theorem positional_spellings [Pattern.Engine] (schemas : List Value) :
    Lockstep (fun vd vd' => ∃ parts, List.Forall₂ (fun s c => compile s = .ok c) schemas parts ∧
        ∀ items : List Value, items.length = schemas.length →
          (vd.Passes (.list items) ↔ vd'.Passes (.list items)) ∧
            ∀ w w', vd.validate (.list items) = .ok (.ok w) → vd'.validate (.list items) = .ok (.ok w') →
              w' = .list items ∧
                (∃ outputs, w = .list outputs ∧
                  List.Forall₂ (fun p o => p.1.validate p.2 = .ok (.ok o)) (parts.zip items) outputs) ∧
                (w = w' ↔ ∀ p ∈ parts.zip items, p.1.validate p.2 = .ok (.ok p.2)) ∧
                ((∀ s ∈ schemas, NoDefaults s) → (∀ v ∈ items, v.TreeOver (· ≠ .absent)) → w = w'))
      (compile (.dict (listedItems schemas))) (compile (.dict (prefixedItems schemas))) := by
  rw [compile_listedItems, compile_prefixedItems]
  cases hmapM : schemas.mapM compile with
  | error e => exact .error e
  | ok parts =>
    have hparts : List.Forall₂ (fun s c => compile s = .ok c) schemas parts := mapM_eq_ok_iff.mp hmapM
    refine .ok ⟨parts, hparts, fun items hlength => ?_⟩
    rw [hparts.length_eq] at hlength
    refine ⟨?_, fun w w' hw hw' => ?_⟩
    · rw [passes_tuple hlength, passes_iff_validate]
      simp only [validate_positions_iff hlength]
      exact ⟨fun h => ⟨_, rfl, h⟩, fun ⟨_, _, h⟩ => h⟩
    · obtain ⟨outputs, rfl, houtputs⟩ := (validate_tuple_iff hlength).mp hw
      obtain ⟨rfl, -⟩ := (validate_positions_iff hlength _).mp hw'
      have hsame : Value.list outputs = .list items ↔ ∀ p ∈ parts.zip items, p.1.validate p.2 = .ok (.ok p.2) := by
        rw [Value.list.injEq]
        exact outputs_eq_items_iff hlength houtputs
      refine ⟨rfl, ⟨outputs, rfl, houtputs⟩, hsame, fun hfree hitems => hsame.mpr ?_⟩
      rintro ⟨c, v⟩ hp
      obtain ⟨hc, hv⟩ := List.of_mem_zip hp
      have hmem := (List.forall₂_and_left schemas parts).mpr ⟨fun s hs => hs, hparts⟩
      obtain ⟨s, hs, hcompiled⟩ := exists_forall₂_iff.mp ⟨schemas, hmem.flip⟩ c hc
      obtain ⟨o, ho⟩ := exists_forall₂_iff.mp ⟨outputs, houtputs⟩ (c, v) hp
      exact validate_of_noDefaults hcompiled (hfree s hs) (hitems v hv) ho

attribute [local instance] Pattern.engine

/-- Parts without defaults, and a list that both spellings give back. -/
theorem positional_spellings_number :
    let schemas := [Value.dict [(.string "type", .string "number")], .dict [(.string "type", .string "string")]]
    let items := [Value.int 1, .string "a"]
    items.length = schemas.length ∧ (∀ s ∈ schemas, NoDefaults s) ∧ (∀ v ∈ items, v.TreeOver (· ≠ .absent)) ∧
      ∃ vd vd' w, compile (.dict (listedItems schemas)) = .ok vd ∧ compile (.dict (prefixedItems schemas)) = .ok vd' ∧
        vd.validate (.list items) = .ok (.ok w) ∧ vd'.validate (.list items) = .ok (.ok w) := by
  intro schemas items
  have hfree : ∀ s ∈ schemas, NoDefaults s :=
    List.forall_mem_cons.mpr ⟨.mapping rfl (List.forall_mem_nil _),
      List.forall_mem_singleton.mpr (.mapping rfl (List.forall_mem_nil _))⟩
  have hitems : ∀ v ∈ items, v.TreeOver (· ≠ .absent) :=
    List.forall_mem_cons.mpr ⟨.leaf rfl rfl nofun, List.forall_mem_singleton.mpr (.leaf rfl rfl nofun)⟩
  have hlisted : compile (.dict (listedItems schemas)) = .ok (.tuple [.number, .string] none {}) := by with_unfolding_all rfl
  obtain ⟨vd', hprefixed, _, _, hagree⟩ := (positional_spellings schemas).exists_of_ok hlisted
  obtain ⟨hpasses, houtputs⟩ := hagree items rfl
  have hw : (Validator.tuple [.number, .string] none {}).validate (.list items) = .ok (.ok (.list items)) := by
    with_unfolding_all rfl
  obtain ⟨w', hw'⟩ := passes_iff_validate.mp (hpasses.mp (passes_iff_validate.mpr ⟨_, hw⟩))
  obtain ⟨_, _, _, hsame⟩ := houtputs _ w' hw hw'
  exact ⟨rfl, hfree, hitems, _, vd', _, hlisted, hprefixed, hw, (hsame hfree hitems).symm ▸ hw'⟩

/-- **A default inside a positional item** is filled in under `items`, and is not under `prefixItems`. -/
theorem positional_spellings_fill :
    let part := Value.dict [(.string "type", .string "object"), (.string "properties", .dict
      [(.string "x", .dict [(.string "type", .string "number"), (.string "default", .int 1)])])]
    let v := Value.list [.dict []]
    WellFormed part ∧ v.IsJson ∧ ∃ vd vd', compile (.dict (listedItems [part])) = .ok vd ∧
      compile (.dict (prefixedItems [part])) = .ok vd' ∧ vd'.validate v = .ok (.ok v) ∧
        vd.validate v = .ok (.ok (.list [.dict [(.string "x", .int 1)]])) := by
  intro part v
  have hinside : Everywhere HasShapes (.dict [(.string "type", .string "number"), (.string "default", .int 1)]) :=
    .mapping (hasShapes_iff.mpr rfl) (List.forall_mem_nil _)
  refine ⟨⟨rfl, .mapping (hasShapes_iff.mpr rfl) (List.forall_mem_singleton.mpr hinside)⟩,
    .list (List.forall_mem_singleton.mpr (.dict ⟨by simp, by simp⟩ (List.forall_mem_nil _))), ?_⟩
  let filling := Validator.object [.mk (.string "x") false (.defaulted .number (.int 1))] .passthrough {}
  have hlisted : compile (.dict (listedItems [part])) = .ok (.tuple [filling] none {}) := by with_unfolding_all rfl
  have hprefixed : compile (.dict (prefixedItems [part])) =
      .ok (.refined (.array .any {}) (.positions [filling] .strict) "Array does not match prefixItems") := by
    with_unfolding_all rfl
  exact ⟨_, _, hlisted, hprefixed, by with_unfolding_all rfl, by with_unfolding_all rfl⟩

end Schemata
