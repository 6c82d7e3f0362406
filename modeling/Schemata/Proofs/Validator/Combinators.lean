import Schemata.Proofs.Validator.Rules

/-!
# `Schemata.Proofs.Validator.Combinators` — what validators leave of the outputs and issues of their parts

Refinements, optional validators, unions and both sides of an intersection check a value at its own place. So what is
known of the accepted outputs of the validators inside is known of theirs, and what is known of the issues inside is
known of theirs, up to the few that they report themselves. Arrays, tuples and objects report on the parts of a value
in the same way.

## Contents
- **Outputs.** `output_refined`, `output_optional`, `output_union` and `output_both`.
- **Issues.** `issues_refined`, `issues_optional`, `issues_defaulted`, `issues_union` and `issues_both`.
- **Structures.** `issues_array`, `issues_tuple` and `issues_object`.
- **Options.** `forall_unionOf` and `forall₂_unionOf`: what a union keeps is kept if there are few options, too.
-/

namespace Schemata

namespace Validator

variable {v : Value} {path : Pointer} {inner left right : Validator} {options : List Validator} {tags : List String}

/-! ## Outputs -/

section

variable {sure : Prop} (good : Value → Prop)

/-- A refinement gives the output of the validator inside. -/
theorem output_refined {test : Test} {message : String}
    (h : Answers sure (inner.check v path) fun r => r.ok = true → good r.output)
    (htest : ∀ o, good o → Answers sure (test.holds o) fun _ => True) :
    Answers sure ((refined inner test message).check v path) fun r => r.ok = true → good r.output := by
  refine (answers_refined h fun r hr hok => htest r.output (hr hok)).mono ?_
  rintro out ⟨r, hr, ⟨_, rfl⟩ | ⟨_, _, rfl⟩ | ⟨_, _, rfl⟩⟩
  · exact hr
  · exact hr
  · exact fun hok => nomatch hok

/-- An optional validator gives the absent value besides. -/
theorem output_optional (h : Answers sure (inner.check v path) fun r => r.ok = true → good r.output)
    (habsent : v = .absent → good .absent) :
    Answers sure ((optional inner).check v path) fun r => r.ok = true → good r.output := by
  refine (answers_optional h).mono ?_
  rintro out (hout | ⟨hv, rfl⟩)
  · exact hout
  · exact fun _ => habsent hv

/-- A union gives the output of one of its options. -/
theorem output_union (h : ∀ c ∈ options, Answers sure (c.check v path) fun r => r.ok = true → good r.output) :
    Answers sure ((union options tags).check v path) fun r => r.ok = true → good r.output := by
  refine (answers_union fun c hc => h c (mem_of_mem_tried hc)).mono ?_
  rintro out (⟨c, _, r, hr, hok, rfl⟩ | ⟨_, _, _, hout, _⟩) haccepted
  · exact hr hok
  · rw [hout] at haccepted
    cases haccepted

/-- Both sides together give their joined outputs. -/
theorem output_both (hleft : Answers sure (left.check v path) fun r => r.ok = true → good r.output)
    (hright : Answers sure (right.check v path) fun r => r.ok = true → good r.output)
    (hjoin : ∀ l r, good l → good r → good (mergeOutputs l r)) :
    Answers sure ((both left right).check v path) fun r => r.ok = true → good r.output := by
  refine (answers_both hleft hright).mono ?_
  rintro out ⟨l, r, hl, hr, ⟨hlok, hrok, rfl⟩ | ⟨hrefused, rfl⟩⟩ hok
  · exact hjoin _ _ (hl hlok) (hr hrok)
  · rw [Report.ok_append, hrefused] at hok
    cases hok

end

/-! ## Issues -/

section

variable {holds : Issue → Prop}

/-- A refinement reports what the validator inside does, or that its condition fails. -/
theorem issues_refined {test : Test} {message : String}
    (h : Answers False (inner.check v path) fun r => ∀ issue ∈ r.issues, holds issue)
    (hown : ∀ o, test.holds o = .ok false → holds ⟨path, .refinement message⟩) :
    Answers False ((refined inner test message).check v path) fun r => ∀ issue ∈ r.issues, holds issue := by
  refine (answers_refined h fun r _ _ => .of_meets fun b (hb : test.holds r.output = .ok b) => hb).mono ?_
  rintro out ⟨r, hr, ⟨_, rfl⟩ | ⟨_, _, rfl⟩ | ⟨_, hfails, rfl⟩⟩
  · exact hr
  · exact hr
  · exact List.forall_mem_singleton.mpr (hown r.output hfails)

/-- An optional validator reports nothing of its own. -/
theorem issues_optional (h : Answers False (inner.check v path) fun r => ∀ issue ∈ r.issues, holds issue) :
    Answers False ((optional inner).check v path) fun r => ∀ issue ∈ r.issues, holds issue := by
  refine (answers_optional h).mono ?_
  rintro out (hout | ⟨_, rfl⟩)
  · exact hout
  · exact List.forall_mem_nil _

/-- A default reports nothing of its own. -/
theorem issues_defaulted {value : Value}
    (h : Answers False (inner.check v path) fun r => ∀ issue ∈ r.issues, holds issue) :
    Answers False ((defaulted inner value).check v path) fun r => ∀ issue ∈ r.issues, holds issue := by
  by_cases habsent : v = .absent
  · rw [habsent]
    exact .ok (List.forall_mem_nil _)
  · rw [check_defaulted habsent]
    exact h

/-- A union reports what one of its options does, or that none is for the value. -/
theorem issues_union (h : ∀ c ∈ options, Answers False (c.check v path) fun r => ∀ issue ∈ r.issues, holds issue)
    (hown : ∀ cause ∈ [.required, .noOption, wrongType (" | ".intercalate tags) v], holds ⟨path, cause⟩) :
    Answers False ((union options tags).check v path) fun r => ∀ issue ∈ r.issues, holds issue := by
  refine (answers_union fun c hc => h c (mem_of_mem_tried hc)).mono ?_
  rintro out (⟨c, _, r, _, _, rfl⟩ | ⟨done, hdone, _, _, _, hissues⟩)
  · exact List.forall_mem_nil _
  · intro issue hissue
    rcases hissues issue hissue with ⟨rfl, hcause⟩ | ⟨d, hd, hmem⟩
    · exact hown issue.cause hcause
    · exact hdone.fits d hd issue hmem

/-- Both sides together report what each of them does. -/
theorem issues_both (hleft : Answers False (left.check v path) fun r => ∀ issue ∈ r.issues, holds issue)
    (hright : Answers False (right.check v path) fun r => ∀ issue ∈ r.issues, holds issue) :
    Answers False ((both left right).check v path) fun r => ∀ issue ∈ r.issues, holds issue := by
  refine (answers_both hleft hright).mono ?_
  rintro out ⟨l, r, hl, hr, ⟨_, _, rfl⟩ | ⟨_, rfl⟩⟩
  · exact List.forall_mem_nil _
  · exact List.forall_mem_append.mpr ⟨hl, hr⟩

/-! ## Structures -/

variable {bounds : Bounds}

/-- An array reports on its length, and what its element does on the items. -/
theorem issues_array {element : Validator} {items : List Value}
    (hlength : Answers False (lengthIssues (m := Except Fault) items.length bounds path) fun issues => ∀ issue ∈ issues, holds issue)
    (hitem : ∀ (i : Nat) w, items[i]? = some w →
      Answers False (element.check w (path ++ [toString i])) fun r => ∀ issue ∈ r.issues, holds issue) :
    Answers False ((array element bounds).check (.list items) path) fun r => ∀ issue ∈ r.issues, holds issue := by
  refine (answers_array hlength hitem).mono ?_
  rintro out ⟨lengths, done, hlengths, hdone, rfl⟩
  exact List.forall_mem_append.mpr ⟨hlengths, List.forall_mem_flatMap.mpr hdone.fits⟩

/-- A tuple reports on its length, and what its parts do on the items. -/
theorem issues_tuple {validators : List Validator} {rest : Option Validator} {items : List Value}
    (hlength : Answers False (lengthIssues (m := Except Fault) items.length bounds path) fun issues => ∀ issue ∈ issues, holds issue)
    (hsize : ∀ cause ∈ [.itemsShortOf validators.length, .itemsBeyond validators.length, .itemsBelow validators.length],
      holds ⟨path, cause⟩)
    (hitem : ∀ c ∈ children (.tuple validators rest bounds), ∀ (i : Nat) w, items[i]? = some w →
      Answers False (c.check w (path ++ [toString i])) fun r => ∀ issue ∈ r.issues, holds issue) :
    Answers False ((tuple validators rest bounds).check (.list items) path) fun r => ∀ issue ∈ r.issues, holds issue := by
  refine (answers_tuple hlength (fun i c w hc hw => hitem c (mem_children_position hc) i w hw)
    fun c hc i w hw => hitem c (mem_children_rest hc) _ w (List.getElem?_drop ▸ hw)).mono ?_
  rintro out (⟨_, cause, hcause, rfl⟩ | ⟨_, lengths, done, beyond, hlengths, hdone, hmore, rfl⟩)
  · exact List.forall_mem_singleton.mpr (hsize cause hcause)
  · exact List.forall_mem_append.mpr ⟨List.forall_mem_append.mpr
      ⟨hlengths, List.forall_mem_flatMap.mpr hdone.fits⟩, List.forall_mem_flatMap.mpr hmore.fits⟩

/-- An object reports on its size, what its parts do on the members, and the members that are unknown or missing. -/
theorem issues_object {fields : List Field} {additional : Additional} {entries : Entries}
    (hcount : Answers False (memberCountIssues (m := Except Fault) entries.length bounds path) fun issues =>
      ∀ issue ∈ issues, holds issue)
    (hmember : ∀ c ∈ children (.object fields additional bounds), ∀ e ∈ entries,
      Answers False (c.check e.2 (path ++ [e.1.plain])) fun r => ∀ issue ∈ r.issues, holds issue)
    (hunknown : ∀ e ∈ entries, holds ⟨path ++ [e.1.plain], .unknownMember e.1.plain⟩)
    (hmissing : ∀ f ∈ fields, holds ⟨path ++ [f.name.plain], .missingMember f.name.plain⟩) :
    Answers False ((object fields additional bounds).check (.dict entries) path) fun r =>
      ∀ issue ∈ r.issues, holds issue := by
  refine (answers_object hcount
    (fun e he f hf => hmember _ (mem_children_field (List.mem_of_find?_eq_some hf)) e he)
    (fun e he _ c hc => hmember c (mem_children_additional hc) e he) fun f _ =>
      (.trivial _ : Answers False _ fun _ => True)).mono ?_
  rintro out ⟨counts, done, gone, hcounts, hdone, hgone, rfl⟩
  refine List.forall_mem_append.mpr ⟨List.forall_mem_append.mpr ⟨hcounts, List.forall_mem_flatMap.mpr fun d hd => ?_⟩, ?_⟩
  · rcases hdone.fits d hd with ⟨r, hr, hout⟩ | ⟨_, _, hout⟩ | ⟨_, _, hout⟩ <;> rw [hout]
    · exact hr
    · exact List.forall_mem_nil _
    · exact List.forall_mem_singleton.mpr (hunknown d.1 (hdone.mem hd))
  · intro issue hissue
    obtain ⟨d, hd, hmissed⟩ := List.mem_filterMap.mp hissue
    unfold Field.missing? at hmissed
    split at hmissed
    · obtain rfl := Option.some.inj hmissed
      exact hmissing d.1 (List.mem_of_mem_filter (hgone.mem hd))
    · cases hmissed

end

/-! ## Options -/

/-- What holds of a union with its options holds of these taken as they are. -/
theorem forall_unionOf {holds : Validator → Prop} (hnever : holds .never) (hunion : holds (.union options tags))
    (h : ∀ c ∈ options, holds c) : holds (unionOf options tags) := by
  unfold unionOf
  split
  · exact hnever
  next c => exact h c (List.mem_singleton_self c)
  · exact hunion

/-- What relates unions and their options relates these taken as they are. -/
theorem forall₂_unionOf {related : Validator → Validator → Prop} {options' : List Validator} (hnever : related .never .never)
    (hunion : related (.union options tags) (.union options' tags)) (h : List.Forall₂ related options options') :
    related (unionOf options tags) (unionOf options' tags) := by
  rcases h with _ | ⟨hfirst, _ | ⟨_, _⟩⟩
  · exact hnever
  · exact hfirst
  · exact hunion

end Validator

end Schemata
