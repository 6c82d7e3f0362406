import Schemata.Proofs.Validator.Demands
import Schemata.Proofs.Validator.Output

/-!
# `Schemata.Proofs.Validator.Keyed` — outputs with distinct keys

The output of a mapping has the keys of the mapping, and behind them the names of fields that are filled in. Where the
fields of every object have distinct texts as names, the keys of the output are distinct texts as well.

## Contents
- **Demands.** `Demands.named`, that fields have distinct texts as names.
- **Outputs.** `answers_distinctKeys`.
-/

namespace Schemata

open Value

/-- The fields of every object have distinct texts as names. -/
def Demands.named : Demands where
  names := DistinctTexts

/-- A value that has distinct texts as keys, if it is a mapping. -/
def Value.Keyed (v : Value) : Prop := ∀ entries, v = .dict entries → DistinctTexts (entries.map Prod.fst)

theorem Value.IsJson.keyed {v : Value} (h : v.IsJson) : v.Keyed := by
  rintro entries rfl
  exact h.keys

/-- Two mappings with distinct keys are joined to one. -/
theorem Value.Keyed.mergeOutputs {l r : Value} (hl : l.Keyed) (hr : r.Keyed) : (mergeOutputs l r).Keyed := by
  intro entries h
  unfold Schemata.mergeOutputs at h
  split at h
  · exact hr entries h
  · obtain rfl := Value.dict.inj h
    exact Entries.distinctTexts_union (hl _ rfl) (hr _ rfl)
  · exact hl entries h

/-- Distinct keys, and behind them names of fields that are none of them, are distinct. -/
theorem distinctTexts_filled {fields : List Field} (hnames : DistinctTexts (fields.map Field.name)) {entries : Entries}
    (hkeys : DistinctTexts (entries.map Prod.fst)) {gone : List (Field × Report)}
    (hgone : gone.map Prod.fst = Field.absent fields entries) :
    DistinctTexts (entries.map Prod.fst ++ (gone.filterMap Field.filled?).map Prod.fst) := by
  have hsub : ((gone.filterMap Field.filled?).map Prod.fst).Sublist (fields.map Field.name) := by
    refine (Field.filled_sublist gone).trans ?_
    rw [hgone]
    exact List.filter_sublist.map Field.name
  have hnew : ∀ name ∈ (gone.filterMap Field.filled?).map Prod.fst, Entries.hasAlike entries name = false := by
    intro name hname
    obtain ⟨e, he, rfl⟩ := List.mem_map.mp hname
    obtain ⟨d, hd, rfl, _⟩ := mem_filled he
    have hmem : d.1 ∈ Field.absent fields entries := hgone ▸ List.mem_map_of_mem hd
    simpa using (List.mem_filter.mp hmem).2
  constructor
  · intro key hkey
    rcases List.mem_append.mp hkey with hold | hname
    · exact hkeys.texts key hold
    · exact hnames.texts key (hsub.subset hname)
  · refine List.nodup_append.mpr ⟨hkeys.distinct, hsub.nodup hnames.distinct, ?_⟩
    rintro key hkey name hname rfl
    obtain ⟨e, he, heq⟩ := List.mem_map.mp hkey
    have hlike : Entries.hasAlike entries key = true :=
      List.any_eq_true.mpr ⟨e, he, by rw [heq]; exact hkeys.alike_self hkey⟩
    rw [hnew key hname] at hlike
    cases hlike

namespace Validator

/-- **The output of a value of JSON has distinct keys**, if it is a mapping. -/
theorem answers_keyed {vd : Validator} (h : Throughout (Meets .named) vd) {v : Value} (hv : v.IsJson) (path : Pointer) :
    Answers False (vd.check v path) fun r => r.ok = true → r.output.Keyed := by
  induction vd using inductionOnChildren with
  | step vd ih =>
    have hpart : ∀ c ∈ vd.children, Answers False (c.check v path) fun r => r.ok = true → r.output.Keyed :=
      fun c hc => ih c hc (h.child hc)
    cases vd with
    | refined inner test message =>
      exact output_refined Value.Keyed (hpart inner (by simp [children])) fun _ _ => .trivial _
    | optional inner =>
      exact output_optional Value.Keyed (hpart inner (by simp [children])) fun habsent =>
        absurd habsent hv.ne_absent
    | defaulted inner value =>
      rw [check_defaulted hv.ne_absent]
      exact hpart inner (by simp [children])
    | described inner text => exact hpart inner (by simp [children])
    | union options tags => exact output_union Value.Keyed hpart
    | both left right =>
      exact output_both Value.Keyed (hpart left (by simp [children])) (hpart right (by simp [children]))
        fun _ _ => .mergeOutputs
    | array element bounds =>
      cases v with
      | list items =>
        refine (answers_array (.trivial _) fun _ _ _ => .trivial _).mono ?_
        rintro _ ⟨_, _, _, _, rfl⟩ _
        rintro _ ⟨⟩
      | _ => exact .ok (by simp)
    | tuple validators rest bounds =>
      cases v with
      | list items =>
        refine (answers_tuple (.trivial _) (fun _ _ _ _ _ => .trivial _) fun _ _ _ _ _ => .trivial _).mono ?_
        rintro _ (⟨_, _, _, rfl⟩ | ⟨_, _, _, _, _, _, _, rfl⟩) _
        · rintro _ ⟨⟩
        · rintro _ ⟨⟩
      | _ => exact .ok (by simp)
    | object fields additional bounds =>
      cases v with
      | dict entries =>
        have hmember : ∀ {c : Validator} {w : Value} {place : Pointer},
            Answers False (c.check w place) fun r => r.ok = true → True := (Answers.trivial _).mono fun _ _ _ => trivial
        refine (answers_object (.trivial _) (fun _ _ _ _ => hmember) (fun _ _ _ _ _ => hmember)
          fun _ _ => .trivial _).mono ?_
        rintro _ ⟨counts, done, gone, _, hdone, hgone, rfl⟩ hok _ ⟨⟩
        have hissues := List.append_eq_nil_iff.mp (Report.ok_iff.mp hok)
        have hmembers := List.flatMap_eq_nil_iff.mp (List.append_eq_nil_iff.mp hissues.1).2
        -- without issues every member leaves an output under its key
        have houtputs := @Visits.kept_members (fun _ _ => True) _ _ _ _ _ hdone (fun _ _ => trivial) hmembers
        have hkept := hdone.args ▸ @kept_entries (fun _ _ => True) done houtputs
        rw [List.map_append, keys_eq_of_forall₂ hkept]
        exact distinctTexts_filled h.whole.2 hv.keys hgone.args
      | _ => exact .ok (by simp)
    | _ => exact (answers_leaf rfl v path).mono fun r hr _ => by rw [hr.output]; exact hv.keyed

end Validator

end Schemata
