import Schemata.Proofs.Validator.Combinators
import Schemata.Proofs.Validator.Leaves
import Schemata.Proofs.Value.Extension

/-!
# `Schemata.Proofs.Validator.Output` — what an accepted value becomes

The output of an accepted value is the value with members filled in. Only a validator with a default inside fills
anything in: without one the output is the value itself.

## Contents
- **Kept values.** `Kept`: the output extends the value, and under a condition it is the value.
- **Defaults.** `Validator.DefaultsAre` and `Validator.DefaultFree`, what a validator without defaults makes of the
  absent value, and `Validator.Unfilling`, which allows the defaults that are never filled in.
- **Outputs.** `Validator.answers_kept`, by induction over the parts of a validator.
-/

namespace Schemata

open Value

/-! ## Kept values -/

/-- The output extends the value, and it is the value itself if nothing is `filled` in. -/
structure Kept (unfilled : Prop) (o v : Value) : Prop where
  extension : Extends o v
  same : unfilled → o = v

/-- Entries that are related one by one have the same keys. -/
theorem keys_eq_of_forall₂ {related : Value × Value → Value × Value → Prop} {outputs entries : Entries}
    (h : List.Forall₂ (fun e e' => e.1 = e'.1 ∧ related e e') outputs entries) :
    outputs.map Prod.fst = entries.map Prod.fst := by
  induction h with
  | nil => rfl
  | cons hfirst _ ih => rw [List.map_cons, List.map_cons, hfirst.1, ih]

namespace Kept

variable {unfilled : Prop} {leaf : Value → Prop}

theorem self {v : Value} (h : TreeOver leaf v) : Kept unfilled v v := ⟨h.extends_self, fun _ => rfl⟩

theorem list {outputs items : List Value} (each : List.Forall₂ (Kept unfilled) outputs items) :
    Kept unfilled (.list outputs) (.list items) where
  extension := .list (each.imp fun _ _ h => h.extension)
  same := by
    intro hunfilled
    have heq : outputs = items := List.forall₂_eq_eq_eq ▸ each.imp fun _ _ h => h.same hunfilled
    rw [heq]

theorem dict {outputs entries filled : Entries}
    (each : List.Forall₂ (fun e e' => e.1 = e'.1 ∧ Kept unfilled e.2 e'.2) outputs entries)
    (new : ∀ e ∈ filled, Entries.hasAlike entries e.1 = false) (none : unfilled → filled = []) :
    Kept unfilled (.dict (outputs ++ filled)) (.dict entries) where
  extension := by
    refine .dict (keys_eq_of_forall₂ each) ?_ new
    exact List.forall₂_map_left_iff.mpr (List.forall₂_map_right_iff.mpr (each.imp fun _ _ h => h.2.extension))
  same := by
    intro hunfilled
    have hentries : outputs = entries :=
      List.forall₂_eq_eq_eq ▸ each.imp fun _ _ h => Prod.ext h.1 (h.2.same hunfilled)
    rw [none hunfilled, List.append_nil, hentries]

theorem mergeOutputs {v l r : Value} (h : TreeOver leaf v) (hl : Kept unfilled l v) (hr : Kept unfilled r v) :
    Kept unfilled (mergeOutputs l r) v where
  extension := h.extends_mergeOutputs hl.extension hr.extension
  same := by
    intro hunfilled
    rw [hl.same hunfilled, hr.same hunfilled, h.mergeOutputs_self]

end Kept

/-- The outputs of a traversal without issues. -/
theorem Visits.kept {α : Type} {unfilled : Prop} {args : List α} (value : α → Value) {done : List (α × Report)}
    (h : Visits args (fun a r => r.ok = true → Kept unfilled r.output (value a)) done)
    (hissues : ∀ d ∈ done, d.2.issues = []) :
    List.Forall₂ (Kept unfilled) (done.map (·.2.output)) (args.map value) := by
  rw [← h.args, List.map_map, List.forall₂_map_left_iff, List.forall₂_map_right_iff, List.forall₂_same]
  exact fun d hd => h.fits d hd (Report.ok_iff.mpr (hissues d hd))

/-- The members of an object without issues all leave an output. -/
theorem Visits.kept_members {related : Value × Value → Value → Prop} {entries : Entries} {fields : List Field}
    {additional : Additional} {path : Pointer} {done : List ((Value × Value) × (Option Value × List Issue))}
    (h : Visits entries (Validator.MemberFits fields additional path fun e r => r.ok = true → related e r.output) done)
    (hself : ∀ e ∈ entries, related e e.2) (hissues : ∀ d ∈ done, d.2.2 = []) :
    ∀ d ∈ done, ∃ o, d.2.1 = some o ∧ related d.1 o := by
  rintro ⟨e, out⟩ hd
  have hnone : out.2 = [] := hissues _ hd
  rcases h.fits _ hd with ⟨r, hr, heq⟩ | ⟨_, _, heq⟩ | ⟨_, _, heq⟩
  · obtain rfl : out = (some r.output, r.issues) := heq
    exact ⟨r.output, rfl, hr (Report.ok_iff.mpr hnone)⟩
  · obtain rfl : out = (some e.2, []) := heq
    exact ⟨e.2, rfl, hself e (h.mem hd)⟩
  · rw [show out = _ from heq] at hnone
    simp at hnone

/-- A member that is filled in comes from an accepted output of the absent value. -/
theorem mem_filled {gone : List (Field × Report)} {e : Value × Value} (h : e ∈ gone.filterMap Field.filled?) :
    ∃ d ∈ gone, e = (d.1.name, d.2.output) ∧ d.2.ok = true ∧ d.2.output ≠ .absent := by
  obtain ⟨d, hd, hfilled⟩ := List.mem_filterMap.mp h
  unfold Field.filled? at hfilled
  by_cases hgives : Field.gives d.2 = true
  · rw [if_pos hgives] at hfilled
    exact ⟨d, hd, (Option.some.inj hfilled).symm, Field.gives_iff.mp hgives⟩
  · rw [if_neg hgives] at hfilled
    cases hfilled

/-- The entries that members leave when all of them leave an output. -/
theorem kept_entries {related : Value × Value → Value → Prop} {done : List ((Value × Value) × (Option Value × List Issue))}
    (h : ∀ d ∈ done, ∃ o, d.2.1 = some o ∧ related d.1 o) :
    List.Forall₂ (fun e e' => e.1 = e'.1 ∧ related e' e.2) (done.filterMap keptEntry) (done.map Prod.fst) := by
  induction done with
  | nil => exact .nil
  | cons d ds ih =>
    obtain ⟨⟨o, ho, hrelated⟩, hds⟩ := List.forall_mem_cons.mp h
    have hkept : keptEntry d = some (d.1.1, o) := by rw [keptEntry, ho]; rfl
    rw [List.filterMap_cons_some hkept]
    exact .cons ⟨rfl, hrelated⟩ (ih hds)

/-- Items with a validator of their own, and the others. -/
theorem zip_map_snd_append_drop {validators : List Validator} {items : List Value}
    (h : validators.length ≤ items.length) :
    (validators.zip items).map Prod.snd ++ items.drop validators.length = items := by
  induction validators generalizing items with
  | nil => simp
  | cons c cs ih =>
    cases items with
    | nil => simp at h
    | cons v vs => simp [ih (by simpa using h)]

namespace Validator

/-! ## Defaults -/

/-- The defaults of a validator and of its parts satisfy a condition. -/
inductive DefaultsAre (good : Value → Prop) : Validator → Prop
  | intro {vd : Validator} (here : ∀ inner value, vd = .defaulted inner value → good value)
      (parts : ∀ c ∈ vd.children, DefaultsAre good c) : DefaultsAre good vd

theorem DefaultsAre.part {good : Value → Prop} {vd c : Validator} (h : DefaultsAre good vd) (hc : c ∈ vd.children) :
    DefaultsAre good c := by
  cases h with
  | intro _ parts => exact parts c hc

/-- No part of the validator, and not the validator itself, has a default. -/
abbrev DefaultFree (vd : Validator) : Prop := DefaultsAre (fun _ => False) vd

/-- **Without a default, the absent value stays absent.** -/
theorem DefaultFree.answers_absent {vd : Validator} (h : DefaultFree vd) (path : Pointer) :
    Answers False (vd.check .absent path) fun r => r.ok = true → r.output = .absent := by
  induction h with
  | @intro vd noDefault _ ih =>
    cases vd with
    | refined inner test message =>
      exact output_refined (· = .absent) (ih inner (by simp [children])) fun _ _ => .trivial _
    | optional inner => exact output_optional (· = .absent) (ih inner (by simp [children])) fun _ => rfl
    | defaulted inner value => exact absurd rfl (noDefault inner value)
    | described inner text => exact ih inner (by simp [children])
    | union options tags => exact output_union (· = .absent) ih
    | both left right =>
      refine output_both (· = .absent) (ih left (by simp [children])) (ih right (by simp [children])) ?_
      rintro _ _ rfl rfl
      rfl
    | array element bounds => exact .ok (by simp)
    | tuple items rest bounds => exact .ok (by simp)
    | object fields additional bounds => exact .ok (by simp)
    | _ => exact (answers_leaf rfl .absent path).mono fun r hr _ => hr.output

/-- The absent value stays absent, unless it is refused. -/
def StaysAbsent (vd : Validator) : Prop :=
  ∀ path, Answers False (vd.check .absent path) fun r => r.ok = true → r.output = .absent

/-- No object inside the validator fills a member in: the absent value stays absent in every field. A default of the
validator itself, or of its items, is allowed. -/
inductive Unfilling : Validator → Prop
  | intro {vd : Validator} (here : ∀ fields additional bounds, vd = .object fields additional bounds →
      ∀ f ∈ fields, StaysAbsent f.validator) (parts : ∀ c ∈ vd.children, Unfilling c) : Unfilling vd

theorem Unfilling.part {vd c : Validator} (h : Unfilling vd) (hc : c ∈ vd.children) : Unfilling c := by
  cases h with
  | intro _ parts => exact parts c hc

theorem Unfilling.field {fields : List Field} {additional : Additional} {bounds : Bounds}
    (h : Unfilling (.object fields additional bounds)) {f : Field} (hf : f ∈ fields) : StaysAbsent f.validator := by
  cases h with
  | intro here _ => exact here _ _ _ rfl f hf

/-- Without a default nothing is filled in. -/
theorem DefaultFree.unfilling {vd : Validator} (h : DefaultFree vd) : Unfilling vd := by
  induction h with
  | @intro vd _ hparts ih =>
    refine .intro ?_ ih
    rintro fields additional bounds rfl f hf
    exact DefaultFree.answers_absent (hparts _ (mem_children_field hf))

/-! ## Outputs -/

/-- Validation returns the output of a report without issues. -/
theorem validate_eq_ok_iff {vd : Validator} {v o : Value} :
    vd.validate v = .ok (.ok o) ↔ ∃ r, vd.check v [] = .ok r ∧ r.ok = true ∧ r.output = o := by
  unfold validate
  cases vd.check v [] with
  | error f => exact ⟨nofun, nofun⟩
  | ok r =>
    show Except.ok r.outcome = Except.ok (Except.ok o) ↔ _
    unfold Report.outcome
    cases hok : r.ok with
    | true => simp [hok]
    | false => simp [hok]

section

variable {unfilled : Prop} {path : Pointer} {bounds : Bounds}

/-- A tuple keeps the items that its parts keep. -/
theorem answers_kept_tuple {validators : List Validator} {rest : Option Validator} {items : List Value}
    (hitem : ∀ c ∈ children (.tuple validators rest bounds), ∀ w ∈ items, ∀ place,
      Answers False (c.check w place) fun r => r.ok = true → Kept unfilled r.output w) :
    Answers False ((tuple validators rest bounds).check (.list items) path) fun r =>
      r.ok = true → Kept unfilled r.output (.list items) := by
  refine (answers_tuple (lengthIssues_at ..)
    (fun i c w hc hw => hitem c (mem_children_position hc) w (List.mem_of_getElem? hw) _)
    fun c hc i w hw => hitem c (mem_children_rest hc) w (List.mem_of_mem_drop (List.mem_of_getElem? hw)) _).mono ?_
  rintro out (⟨_, cause, _, rfl⟩ | ⟨⟨hsize, _⟩, lengths, done, beyond, _, hdone, hmore, rfl⟩) hok
  · simp at hok
  have hissues := List.append_eq_nil_iff.mp (Report.ok_iff.mp hok)
  have hfirst := List.append_eq_nil_iff.mp hissues.1
  have hkept := List.rel_append (hdone.kept Prod.snd (List.flatMap_eq_nil_iff.mp hfirst.2))
    (hmore.kept id (List.flatMap_eq_nil_iff.mp hissues.2))
  -- the items with positions of their own and the others are all items, for there are enough of them
  simp only [List.map_id, zip_map_snd_append_drop hsize] at hkept
  exact .list hkept

/-- An object keeps the members that its parts keep, and what it fills in had no member. -/
theorem answers_kept_object {fields : List Field} {additional : Additional} {entries : Entries}
    (htree : TreeOver (· ≠ .absent) (.dict entries))
    (hmember : ∀ c ∈ children (.object fields additional bounds), ∀ e ∈ entries, ∀ place,
      Answers False (c.check e.2 place) fun r => r.ok = true → Kept unfilled r.output e.2)
    (hfields : unfilled → ∀ f ∈ fields, StaysAbsent f.validator) :
    Answers False ((object fields additional bounds).check (.dict entries) path) fun r =>
      r.ok = true → Kept unfilled r.output (.dict entries) := by
  have habsent : ∀ f ∈ Field.absent fields entries,
      Answers False (f.validator.check .absent (path ++ [f.name.plain])) fun r =>
        unfilled → r.ok = true → r.output = .absent := fun f hf =>
    .of_meets fun r hr hunfilled => (hfields hunfilled f (List.mem_of_mem_filter hf) _).meets r hr
  refine (answers_object (memberCountIssues_at ..)
    (fun e he f hf => hmember _ (mem_children_field (List.mem_of_find?_eq_some hf)) e he _)
    (fun e he _ c hc => hmember c (mem_children_additional hc) e he _) habsent).mono ?_
  rintro out ⟨counts, done, gone, _, hdone, hgone, rfl⟩ hok
  have hissues := List.append_eq_nil_iff.mp (Report.ok_iff.mp hok)
  have hmembers := List.append_eq_nil_iff.mp hissues.1
  have hkept := @Visits.kept_members (fun e o => Kept unfilled o e.2) _ _ _ _ _ hdone
    (fun e he => .self (htree.member he)) (List.flatMap_eq_nil_iff.mp hmembers.2)
  have heach := hdone.args ▸ @kept_entries (fun e o => Kept unfilled o e.2) done hkept
  refine .dict heach ?_ fun hunfilled => List.eq_nil_iff_forall_not_mem.mpr ?_
  · intro e he
    obtain ⟨d, hd, rfl, _⟩ := mem_filled he
    have hnew := (List.mem_filter.mp (hgone.mem hd)).2
    simpa using hnew
  · intro e he
    obtain ⟨d, hd, _, hok, houtput⟩ := mem_filled he
    exact houtput (hgone.fits d hd hunfilled hok)

end

/-- **The output of an accepted value extends the value**, and it is the value itself if the validator fills nothing
in. -/
theorem answers_kept {unfilled : Prop} (vd : Validator) (hunfilling : unfilled → Unfilling vd) (v : Value)
    (path : Pointer) (htree : TreeOver (· ≠ .absent) v) :
    Answers False (vd.check v path) fun r => r.ok = true → Kept unfilled r.output v := by
  induction vd using inductionOnChildren generalizing v path with
  | step vd ih =>
    have hpart : ∀ c ∈ vd.children, ∀ v path, TreeOver (· ≠ .absent) v →
        Answers False (c.check v path) fun r => r.ok = true → Kept unfilled r.output v :=
      fun c hc => ih c hc fun hunfilled => (hunfilling hunfilled).part hc
    -- Only the absent value is filled in, and it does not occur here.
    have hpresent : v ≠ .absent := by
      rintro rfl
      cases htree with
      | leaf _ _ here => exact here rfl
    cases vd with
    | refined inner test message =>
      exact output_refined (Kept unfilled · v) (hpart inner (by simp [children]) v path htree) fun _ _ => .trivial _
    | optional inner =>
      exact output_optional (Kept unfilled · v) (hpart inner (by simp [children]) v path htree)
        fun habsent => absurd habsent hpresent
    | defaulted inner value =>
      rw [check_defaulted hpresent]
      exact hpart inner (by simp [children]) v path htree
    | described inner text => exact hpart inner (by simp [children]) v path htree
    | union options tags => exact output_union (Kept unfilled · v) fun c hc => hpart c hc v path htree
    | both left right =>
      exact output_both (Kept unfilled · v) (hpart left (by simp [children]) v path htree)
        (hpart right (by simp [children]) v path htree)
        fun _ _ => .mergeOutputs htree
    | array element bounds =>
      cases v with
      | list items =>
        refine (answers_array (lengthIssues_at ..) fun i w hw =>
          hpart element (by simp [children]) w _ (htree.item (List.mem_of_getElem? hw))).mono ?_
        rintro out ⟨lengths, done, _, hdone, rfl⟩ hok
        have hissues := List.append_eq_nil_iff.mp (Report.ok_iff.mp hok)
        simpa using Kept.list (hdone.kept id (List.flatMap_eq_nil_iff.mp hissues.2))
      | _ => exact .ok (by simp)
    | tuple validators rest bounds =>
      cases v with
      | list items =>
        exact answers_kept_tuple fun c hc w hw place => hpart c hc w place (htree.item hw)
      | _ => exact .ok (by simp)
    | object fields additional bounds =>
      cases v with
      | dict entries =>
        exact answers_kept_object htree (fun c hc e he place => hpart c hc e.2 place (htree.member he))
          fun hunfilled f hf => (hunfilling hunfilled).field hf
      | _ => exact .ok (by simp)
    | _ =>
      refine (answers_leaf rfl v path).mono fun r hr _ => ?_
      rw [hr.output]
      exact .self htree

end Validator

end Schemata
