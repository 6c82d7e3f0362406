import Schemata.Pattern.Reader
import Schemata.Proofs.Pointer.RoundTrip
import Schemata.Proofs.Validator.Combinators
import Schemata.Proofs.Validator.Leaves
import Schemata.Proofs.Value.Tree
import Schemata.Schema.Compile

/-!
# `Schemata.Proofs.Validator.Places` — where issues are reported

A report is made on a value at a place, and every issue in it lies at a place below that the value really has.
There is one exception: a required key that is missing is reported at the place it would have. Reports on the
absent value, which is at no place at all, never reach the outcome.

## Contents
- **Places.** `Located`, what a validator may say about a place.
- **Reports.** `Validator.answers_located`, by induction over the parts of a validator.
- **Outcomes.** `issues_lead_into_value`, on the written paths of a whole validation.
-/

namespace Schemata

open Value

variable {leaf : Value → Prop}

/-! ## Places -/

/-- The place of an issue is one of the value, or that of a key which a mapping of the value lacks. -/
def Located (root : Value) (issue : Issue) : Prop :=
  (∃ w, root.Leads issue.path w) ∨
  ∃ place key entries, issue = ⟨place ++ [key], .missingMember key⟩ ∧ root.Leads place (.dict entries) ∧
    Entries.has entries key = false

theorem located_of_allAt {root v : Value} {path : Pointer} (h : root.Leads path v) {issues : List Issue}
    (hat : AllAt path issues) : ∀ issue ∈ issues, Located root issue :=
  fun issue hissue => .inl ⟨v, (hat issue hissue).1.symm ▸ h⟩

/-- A rejection at a place of the value. -/
theorem located_reject {root v : Value} {path : Pointer} (h : root.Leads path v) (w : Value) (cause : Cause) :
    ∀ issue ∈ (Report.reject w path cause).issues, Located root issue :=
  List.forall_mem_singleton.mpr (.inl ⟨v, h⟩)

/-- A missing member is reported where it would be, unless a member is there under its written name. -/
theorem located_missing {root : Value} {path : Pointer} {entries : Entries} (hleads : root.Leads path (.dict entries))
    (key : String) : Located root ⟨path ++ [key], .missingMember key⟩ := by
  cases hget : Entries.get? entries key with
  | some w => exact .inl ⟨w, hleads.toMember hget⟩
  | none => exact .inr ⟨path, key, entries, rfl, hleads, Entries.has_eq_false_iff.mpr hget⟩

/-- The way to a member of a mapping. -/
theorem Value.Leads.toEntry {root : Value} {path : Pointer} {entries : Entries} (h : root.Leads path (.dict entries))
    (htree : TreeOver leaf (.dict entries)) {e : Value × Value} (he : e ∈ entries) :
    root.Leads (path ++ [e.1.plain]) e.2 := by
  obtain ⟨k, w⟩ := e
  obtain ⟨key, rfl⟩ := htree.key he
  exact h.toMember (Entries.get?_of_mem htree.keys he)

/-! ## Reports -/

namespace Validator

/-- **Every issue is located.** A validator that checks a part of a value, at the place which leads to that part,
reports only at places of the value and at keys that are missing. -/
theorem answers_located (vd : Validator) (root v : Value) (path : Pointer) (hleads : root.Leads path v)
    (htree : TreeOver leaf v) :
    Answers False (vd.check v path) fun r => ∀ issue ∈ r.issues, Located root issue := by
  induction vd using inductionOnChildren generalizing v path with
  | step vd ih =>
    cases vd with
    | refined inner test message =>
      exact issues_refined (ih inner (by simp [children]) v path hleads htree) fun _ _ => .inl ⟨v, hleads⟩
    | optional inner => exact issues_optional (ih inner (by simp [children]) v path hleads htree)
    | defaulted inner value => exact issues_defaulted (ih inner (by simp [children]) v path hleads htree)
    | described inner text => exact ih inner (by simp [children]) v path hleads htree
    | union options tags =>
      exact issues_union (fun c hc => ih c hc v path hleads htree) fun _ _ => .inl ⟨v, hleads⟩
    | both left right =>
      exact issues_both (ih left (by simp [children]) v path hleads htree)
        (ih right (by simp [children]) v path hleads htree)
    | array element bounds =>
      cases v with
      | list items =>
        exact issues_array ((lengthIssues_at ..).mono fun _ => located_of_allAt hleads) fun i w hw =>
          ih element (by simp [children]) w _ (hleads.toItem hw) (htree.item (List.mem_of_getElem? hw))
      | _ => exact .ok (located_reject hleads _ _)
    | tuple validators rest bounds =>
      cases v with
      | list items =>
        exact issues_tuple ((lengthIssues_at ..).mono fun _ => located_of_allAt hleads) (fun _ _ => .inl ⟨_, hleads⟩)
          fun c hc i w hw => ih c hc w _ (hleads.toItem hw) (htree.item (List.mem_of_getElem? hw))
      | _ => exact .ok (located_reject hleads _ _)
    | object fields additional bounds =>
      cases v with
      | dict entries =>
        -- an unknown member is there all the same
        exact issues_object ((memberCountIssues_at ..).mono fun _ => located_of_allAt hleads)
          (fun c hc e he => ih c hc e.2 _ (hleads.toEntry htree he) (htree.member he))
          (fun e he => .inl ⟨e.2, hleads.toEntry htree he⟩) fun f _ => located_missing hleads f.name.plain
      | _ => exact .ok (located_reject hleads _ _)
    | _ => exact (answers_leaf rfl v path).mono fun r hr => located_of_allAt hleads hr.issues

end Validator

/-! ## Outcomes -/

/-- The issues of an outcome. -/
def Outcome.issues : Outcome → List Issue
  | .ok _ => []
  | .error issues => issues

/-- The issues of a whole validation are located in the value. -/
theorem validate_located {vd : Validator} {v : Value} (hv : v.TreeOver leaf) {outcome : Outcome}
    (h : vd.validate v = .ok outcome) : ∀ issue ∈ outcome.issues, Located v issue := by
  have houtcome : Answers False ((vd.check v []).map Report.outcome) fun outcome =>
      ∀ issue ∈ Outcome.issues outcome, Located v issue := by
    refine (vd.answers_located v v [] (.here v) hv).map fun r hr => ?_
    unfold Report.outcome
    by_cases hok : r.ok = true
    · rw [if_pos hok]
      exact List.forall_mem_nil _
    · rw [if_neg hok]
      exact hr
  exact houtcome.meets outcome h

/-- **Every reported issue points at a real place.** The written path of an issue, read back, leads to a part of
the value, or the issue is that a mapping of the value lacks a required key and the path is the way to the mapping
with that key behind it. This holds for every validator, and so for that of every schema. -/
theorem issues_lead_into_value {vd : Validator} {v : Value} (hv : v.IsJson) {issues : List Issue}
    (h : vd.validate v = .ok (.error issues)) :
    ∀ issue ∈ issues,
      (∃ w, v.Leads (Pointer.decode issue.note.path) w) ∨
      (issue.note.code = "required" ∧ ∃ place key entries,
        Pointer.decode issue.note.path = place ++ [key] ∧ v.Leads place (.dict entries) ∧
          Entries.has entries key = false) := by
  intro issue hissue
  have hdecode : Pointer.decode issue.note.path = issue.path := Pointer.decode_encode issue.path
  rw [hdecode]
  rcases validate_located hv h issue hissue with hleads | ⟨place, key, entries, rfl, hrest⟩
  · exact .inl hleads
  · exact .inr ⟨rfl, place, key, entries, rfl, hrest⟩

attribute [local instance] Pattern.engine

/-- A member of a wrong type under a key with a slash, and a required key that is missing. -/
theorem issues_lead_into_value_slash :
    let vd := Validator.object [.mk (.string "a/b") false .null, .mk (.string "c") true .any] .passthrough {}
    let v := Value.dict [(.string "a/b", .int 3)]
    compile (.dict [(.string "type", .string "object"),
      (.string "properties", .dict [(.string "a/b", .dict [(.string "type", .string "null")])]),
      (.string "required", .list [.string "c"])]) = .ok vd ∧
    ∃ issues, vd.validate v = .ok (.error issues) ∧ issues.length = 2 ∧
      ∀ issue ∈ issues,
        (∃ w, v.Leads (Pointer.decode issue.note.path) w) ∨
        (issue.note.code = "required" ∧ ∃ place key entries,
          Pointer.decode issue.note.path = place ++ [key] ∧ v.Leads place (.dict entries) ∧
            Entries.has entries key = false) := by
  intro vd v
  have hv : v.IsJson := .dict ⟨by simp, by simp⟩ (List.forall_mem_singleton.mpr (.leaf rfl rfl rfl))
  have hissues : vd.validate v = .ok (.error [⟨["a/b"], .wrongType "null" "number"⟩, ⟨["c"], .missingMember "c"⟩]) :=
    by with_unfolding_all rfl
  exact ⟨by with_unfolding_all rfl, _, hissues, rfl, issues_lead_into_value hv hissues⟩

end Schemata
