import Schemata.Pattern.Reader
import Schemata.Proofs.Schema.Defaults
import Schemata.Proofs.Schema.Demands
import Schemata.Proofs.Schema.Regular
import Schemata.Proofs.Validator.Keyed
import Schemata.Proofs.Value.Covering

/-!
# `Schemata.Proofs.Schema.Intersection` — what is left of two outputs

A value that two validators accept has two outputs, and their intersection joins these at the top only: members that
both have are those of the right output, and lists are those of the left one. So whatever the left side filled into
a member is kept only as far as the right side filled it in, too.

## Contents
- **Names.** `compile_named`: in the validator of a schema of JSON, the fields of an object have distinct texts as names.
- **Intersections.** `intersection_joins`, and `intersection_loses_default`, where a default is lost.
-/

namespace Schemata

open Validator Value

/-! ## Names -/

theorem Demands.named_coherent : Demands.named.Coherent where
  closed := fun _ _ h => h
  sized := fun _ _ _ _ _ => rfl
  integral := rfl
  zero := trivial
  noNames := ⟨List.forall_mem_nil _, .nil⟩

theorem Demands.named_metBy [Pattern.Engine] {schema : Entries} (h : (Value.dict schema).IsJson) :
    Demands.named.MetBy schema where
  literal := fun _ _ => trivial
  condition := fun _ _ _ _ => condition_closed
  anyCondition := fun _ _ _ => trivial
  limit := fun _ _ _ _ => trivial
  names := distinctTexts_fieldNames h
  default := fun _ _ => trivial

theorem compile_named [Pattern.Engine] {schema : Value} {vd : Validator} (h : compile schema = .ok vd)
    (hschema : schema.IsJson) :
    Demands.named.Hold vd :=
  compile_meets Demands.named_coherent h <|
    everywhere_of (fun _ => Demands.named_metBy) (fun _ h _ => goesDown_isJson.subSchema h) hschema

/-! ## Intersections -/

/-- An intersection of validators that accept a value joins their outputs. -/
theorem Validator.check_both_of_ok {left right : Validator} {v : Value} {path : Pointer} {l r : Report}
    (hl : left.check v path = .ok l) (hr : right.check v path = .ok r) (hlok : l.ok = true) (hrok : r.ok = true) :
    (Validator.both left right).check v path = .ok (.accept (mergeOutputs l.output r.output)) := by
  show (left.check v path >>= fun l => right.check v path >>= fun r => _) = _
  rw [hl, hr]
  show (if (l.ok && r.ok) = true then _ else _) = _
  rw [hlok, hrok]
  rfl

/-- What extends a value other than a mapping takes precedence over all outputs. -/
theorem Value.Extends.mergeOutputs_left {l r v : Value} (h : Extends l v) (hv : v.entries? = none)
    (hpresent : v ≠ .absent) : mergeOutputs l r = l := by
  cases h with
  | leaf =>
    cases l with
    | absent => exact absurd rfl hpresent
    | dict entries => cases hv
    | _ => rfl
  | list => rfl
  | dict => cases hv

/-- **What an intersection leaves of two outputs.** On a value that both sides accept it answers. A mapping gets, under
every key, the member of the right output, or that of the left one if there is none. So it has all keys that the right
output has at any depth, and all keys of the left one exactly if members that both have keep theirs on the right. Of
any other value the left output is all that is left. -/
theorem intersection_joins [Pattern.Engine] {leftSchema rightSchema v l r : Value} {left right : Validator}
    (hleft : compile leftSchema = .ok left) (hright : compile rightSchema = .ok right) (hleftJson : leftSchema.IsJson)
    (hrightJson : rightSchema.IsJson) (hv : v.IsJson) (hl : left.validate v = .ok (.ok l))
    (hr : right.validate v = .ok (.ok r)) :
    ∃ o, (Validator.both left right).validate v = .ok (.ok o) ∧ (v.entries? = none → o = l) ∧
      ∀ entries, v = .dict entries → ∃ ls rs os, l = .dict ls ∧ r = .dict rs ∧ o = .dict os ∧
        (∀ key, Entries.get? os key = (Entries.get? rs key).or (Entries.get? ls key)) ∧ o.Covers r ∧
        (o.Covers l ↔ ∀ key x y, Entries.get? ls key = some x → Entries.get? rs key = some y → y.Covers x) := by
  obtain ⟨rl, hrl, hlok, rfl⟩ := validate_eq_ok_iff.mp hl
  obtain ⟨rr, hrr, hrok, rfl⟩ := validate_eq_ok_iff.mp hr
  have hboth : (Validator.both left right).validate v = .ok (.ok (mergeOutputs rl.output rr.output)) :=
    validate_eq_ok_iff.mpr ⟨_, check_both_of_ok hrl hrr hlok hrok, rfl, rfl⟩
  have hkind : ∀ {vd : Validator} {report : Report}, vd.check v [] = .ok report → report.ok = true →
      report.output.kind = v.kind := fun {vd _} hcheck hok => (answers_kind vd hv.ne_absent []).meets _ hcheck hok
  refine ⟨_, hboth, fun hnone => ?_, ?_⟩
  · have hextends := ((answers_kept left False.elim v [] hv.present).meets rl hrl hlok).extension
    exact hextends.mergeOutputs_left hnone hv.ne_absent
  · rintro entries rfl
    obtain ⟨ls, hls⟩ := Value.eq_object_of_kind (hkind hrl hlok)
    obtain ⟨rs, hrs⟩ := Value.eq_object_of_kind (hkind hrr hrok)
    -- both outputs have distinct texts as keys, so joining them is a look-up on the right and then on the left
    have hlkeys := (answers_keyed (compile_named hleft hleftJson) hv []).meets rl hrl hlok ls hls
    have hrkeys := (answers_keyed (compile_named hright hrightJson) hv []).meets rr hrr hrok rs hrs
    rw [hls, hrs]
    exact ⟨ls, rs, _, rfl, rfl, rfl, get?_union hlkeys hrkeys, covers_union_right hlkeys hrkeys,
      covers_union_left_iff hlkeys hrkeys⟩

attribute [local instance] Pattern.engine

/-- Defaults on both sides, under keys of their own. -/
theorem intersection_joins_apart :
    let left := Value.dict [(.string "type", .string "object"), (.string "properties", .dict
      [(.string "a", .dict [(.string "type", .string "number"), (.string "default", .int 1)])])]
    let right := Value.dict [(.string "type", .string "object"), (.string "properties", .dict
      [(.string "b", .dict [(.string "type", .string "number"), (.string "default", .int 2)])])]
    ∃ lv rv, compile left = .ok lv ∧ compile right = .ok rv ∧
      ∃ o, (Validator.both lv rv).validate (.dict []) = .ok (.ok o) ∧
        o.Covers (.dict [(.string "a", .int 1)]) ∧ o.Covers (.dict [(.string "b", .int 2)]) := by
  intro left right
  have hjson : ∀ name value, (Value.dict [(.string "type", .string "object"), (.string "properties", .dict
      [(.string name, .dict [(.string "type", .string "number"), (.string "default", .int value)])])]).IsJson := by
    intro name value
    exact .dict ⟨by simp, by simp⟩ <| List.forall_mem_cons.mpr ⟨.leaf rfl rfl rfl, List.forall_mem_singleton.mpr <|
      .dict ⟨by simp, by simp⟩ <| List.forall_mem_singleton.mpr <|
      .dict ⟨by simp, by simp⟩ <| List.forall_mem_cons.mpr ⟨.leaf rfl rfl rfl,
        List.forall_mem_singleton.mpr (.leaf rfl rfl rfl)⟩⟩
  let validator (name : String) (value : Int) : Validator :=
    .object [.mk (.string name) false (.defaulted .number (.int value))] .passthrough {}
  have hleft : compile left = .ok (validator "a" 1) := by with_unfolding_all rfl
  have hright : compile right = .ok (validator "b" 2) := by with_unfolding_all rfl
  have hl : (validator "a" 1).validate (.dict []) = .ok (.ok (.dict [(.string "a", .int 1)])) := by with_unfolding_all rfl
  have hr : (validator "b" 2).validate (.dict []) = .ok (.ok (.dict [(.string "b", .int 2)])) := by with_unfolding_all rfl
  have hv : (Value.dict []).IsJson := .dict ⟨by simp, by simp⟩ (List.forall_mem_nil _)
  obtain ⟨o, ho, _, hdict⟩ := intersection_joins hleft hright (hjson "a" 1) (hjson "b" 2) hv hl hr
  obtain ⟨ls, rs, os, hls, hrs, rfl, _, hcovers, hiff⟩ := hdict [] rfl
  cases hls
  cases hrs
  refine ⟨_, _, hleft, hright, _, ho, hiff.mpr fun key x y hx hy => ?_, hcovers⟩
  have hleftKey := Entries.mem_of_get? hx
  have hrightKey := Entries.mem_of_get? hy
  simp_all

/-- **A default inside a member is lost** as soon as a schema that accepts everything stands beside it. -/
theorem intersection_loses_default :
    let keywords : Entries := [(.string "type", .string "object"), (.string "properties", .dict
      [(.string "o", .dict [(.string "type", .string "object"), (.string "properties", .dict
        [(.string "x", .dict [(.string "type", .string "number"), (.string "default", .int 1)])])])])]
    let beside : Entries := keywords ++ [(.string "allOf", .list [.bool true])]
    let v := Value.dict [(.string "o", .dict [])]
    let filled := Value.dict [(.string "o", .dict [(.string "x", .int 1)])]
    ∃ left right, compile (.dict keywords) = .ok left ∧ compile (.bool true) = .ok right ∧
      compile (.dict beside) = .ok (.both left right) ∧ left.validate v = .ok (.ok filled) ∧
      right.validate v = .ok (.ok v) ∧ (Validator.both left right).validate v = .ok (.ok v) ∧ ¬ v.Covers filled := by
  intro keywords beside v filled
  refine ⟨.object [.mk (.string "o") false (.object [.mk (.string "x") false (.defaulted .number (.int 1))]
    .passthrough {})] .passthrough {}, .any, ?_, ?_, ?_, ?_, ?_, ?_, fun hcovers => ?_⟩
  · with_unfolding_all rfl
  · with_unfolding_all rfl
  · with_unfolding_all rfl
  · with_unfolding_all rfl
  · with_unfolding_all rfl
  · with_unfolding_all rfl
  · obtain ⟨o, ho, hbelow⟩ := covers_dict_iff.mp hcovers "o" _ rfl
    cases ho
    obtain ⟨_, hx, _⟩ := covers_dict_iff.mp hbelow "x" _ rfl
    cases hx

end Schemata
