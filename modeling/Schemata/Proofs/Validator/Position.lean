import Schemata.Proofs.Validator.Sides

/-!
# `Schemata.Proofs.Validator.Position` — a value is checked alike at every place

The place of a value is written into issues and looked at nowhere else. So a validator reports on a value at a place
what it reports at the top, with the place put in front of every path.

## Contents
- **Places.** `Issue.under`, `Report.under`, and what related parts amount to.
- **Validators.** `Validator.check_under`, by induction over the parts of a validator, and `Validator.check_at`.
-/

namespace Schemata

/-! ## Places -/

/-- An issue with a place put in front of its path. -/
def Issue.under (place : Pointer) (issue : Issue) : Issue := { issue with path := place ++ issue.path }

/-- A report with a place put in front of every path. -/
def Report.under (place : Pointer) (r : Report) : Report := ⟨r.output, r.issues.map (Issue.under place)⟩

section

variable {place p : Pointer}

@[simp] theorem Report.ok_under (r : Report) : (r.under place).ok = r.ok := List.isEmpty_map

/-- A report on one side is that on the other, with the place in front. -/
abbrev IsUnder (place : Pointer) (r r' : Report) : Prop := r' = r.under place

theorem isUnder_accept (v : Value) : IsUnder place (.accept v) (.accept v) := rfl

theorem isUnder_reject (v : Value) (cause : Cause) : IsUnder place (.reject v p cause) (.reject v (place ++ p) cause) := rfl

theorem SameCauses.under {issues others : List Issue} (h : SameCauses p (place ++ p) issues others) :
    others = issues.map (Issue.under place) := by
  obtain ⟨causes, rfl, rfl⟩ := h
  rw [List.map_map]
  rfl

theorem sameCauses_mediaTypeIssues (f : File) (allowed : List String) :
    SameCauses p (place ++ p) (mediaTypeIssues f allowed p) (mediaTypeIssues f allowed (place ++ p)) := by
  unfold mediaTypeIssues
  split
  · exact .nil
  cases f.mediaType? with
  | none => exact .single _
  | some mediaType =>
    dsimp only
    split
    · exact .nil
    · exact .single _

theorem flatMap_under {reports reports' : List Report} (h : List.Forall₂ (IsUnder place) reports reports') :
    reports' = reports.map (Report.under place) := by
  induction h with
  | nil => rfl
  | cons hfirst _ ih => rw [hfirst, ih, List.map_cons]

theorem GatheredAlike.under {out out' : List Value × List Issue} (h : GatheredAlike (IsUnder place) out out') :
    out' = (out.1, out.2.map (Issue.under place)) := by
  obtain ⟨reports, reports', hreports, rfl, rfl⟩ := h
  rw [flatMap_under hreports, gathered, gathered, List.map_map, List.flatMap_map, List.map_flatMap]
  rfl

theorem MemberAlike.under {e : Value × Value} {one one' : Option Value × List Issue}
    (h : MemberAlike (IsUnder place) p (place ++ p) e one one') : one' = (one.1, one.2.map (Issue.under place)) := by
  cases h with
  | reported hr => rw [hr]; rfl
  | passed => rfl
  | unknown => rw [List.append_assoc]; rfl

theorem MembersAlike.under {entries : Entries} {out out' : Entries × List Issue}
    (h : MembersAlike (IsUnder place) p (place ++ p) entries out out') : out' = (out.1, out.2.map (Issue.under place)) := by
  obtain ⟨done, hdone, rfl, rfl⟩ := h
  have heach : ∀ d ∈ done, d.2.2 = (d.2.1.1, d.2.1.2.map (Issue.under place)) := fun d hd => (hdone.fits d hd).under
  rw [List.map_flatMap]
  refine Prod.ext (List.filterMap_congr fun d hd => ?_) (List.flatMap_congr fun d hd => ?_)
  · rw [heach d hd]
    rfl
  · rw [heach d hd]

theorem GoneAlike.under {alike : Bool → Validator → Validator → Prop} {entries : Entries} {out out' : Entries × List Issue}
    (h : GoneAlike alike (fun _ => IsUnder place) p (place ++ p) entries out out') :
    out' = (out.1, out.2.map (Issue.under place)) := by
  obtain ⟨done, done', hdone, rfl, rfl⟩ := h
  induction hdone with
  | nil => rfl
  | @cons d d' done done' hfirst _ ih =>
    obtain ⟨hpaired, _, hr⟩ := hfirst
    obtain ⟨hname, hrequired⟩ := hpaired.name_eq
    obtain ⟨hfilled, hmissing⟩ := Prod.mk.inj ih
    have hgives : Field.gives d'.2 = Field.gives d.2 := by
      rw [hr, Field.gives, Field.gives, Report.ok_under]
      rfl
    simp only [filterMap_cons_toList, List.map_append, hfilled, hmissing]
    refine Prod.ext (congrArg (· ++ _) ?_) (congrArg (· ++ _) ?_)
    · rw [Field.filled?, Field.filled?, hgives, hname, hr]
      rfl
    · rw [Field.missing?, Field.missing?, hgives, hname, hrequired]
      split
      · rw [List.append_assoc]
        rfl
      · rfl

end

/-! ## Validators -/

namespace Validator

variable (place p : Pointer)

theorem lockstep_under_file (limits : FileLimits) (v : Value) :
    Lockstep (IsUnder place) ((file limits).check v p) ((file limits).check v (place ++ p)) := by
  cases v with
  | file f =>
    have hreport : ∀ issues others, SameCauses p (place ++ p) issues others →
        IsUnder place ⟨.file f, issues ++ mediaTypeIssues f limits.mediaTypes p⟩
          ⟨.file f, others ++ mediaTypeIssues f limits.mediaTypes (place ++ p)⟩ := by
      intro issues others hissues
      rw [(hissues.append (sameCauses_mediaTypeIssues f _)).under]
      rfl
    show Lockstep _ (if !f.isFile then _ else _) (if !f.isFile then _ else _)
    split
    · exact .pure (isUnder_reject _ _)
    by_cases hbounded : (limits.size.least.isSome || limits.size.most.isSome) = true
    · simp only [if_pos hbounded]
      exact .bind (.self _) fun size _ hsize => hsize ▸
        .bind (lockstep_fileSizeIssues _ _) fun issues others hissues => .pure (hreport issues others hissues)
    · simp only [if_neg hbounded]
      exact .pure (hreport [] [] .nil)
  | _ => exact .ok rfl

/-- A leaf is checked alike at every place. -/
theorem lockstep_under_leaf {vd : Validator} (h : vd.isLeaf = true) (v : Value) :
    Lockstep (IsUnder place) (vd.check v p) (vd.check v (place ++ p)) := by
  cases vd with
  | any | never => exact .ok rfl
  | string | boolean | null => cases v <;> exact .ok rfl
  | number =>
    cases v with
    | float x =>
      show Lockstep _ (.ok (if x.isFinite then _ else _)) (.ok (if x.isFinite then _ else _))
      split <;> exact .ok rfl
    | _ => exact .ok rfl
  | literal value =>
    by_cases hv : v = .absent
    · rw [hv]
      exact .ok rfl
    rw [check_literal hv, check_literal hv]
    split
    · exact .ok rfl
    · exact .bind (.self _) fun text _ htext => htext ▸ .pure rfl
  | enumeration values =>
    by_cases hv : v = .absent
    · rw [hv]
      exact .ok rfl
    rw [check_enumeration hv, check_enumeration hv]
    split
    · exact .ok rfl
    · exact .bind (.self _) fun texts _ htexts => htexts ▸ .pure rfl
  | file limits => exact lockstep_under_file place p limits v
  | _ => cases h

/-- Each validator is checked alike at every place if its parts are. -/
theorem lockstep_under (vd : Validator) (v : Value) :
    Lockstep (IsUnder place) (vd.check v p) (vd.check v (place ++ p)) := by
  -- The place is general, because a part is checked one token further down.
  induction vd using inductionOnChildren generalizing v p with
  | step vd ih =>
    have hstep : ∀ c ∈ vd.children, ∀ w, StepAlike (IsUnder place) p (place ++ p) c c w := fun c hc w token =>
      List.append_assoc .. ▸ ih c hc (p ++ [token]) w
    by_cases hleaf : vd.isLeaf = true
    · exact lockstep_under_leaf place p hleaf v
    cases vd with
    | refined inner test message =>
      refine lockstep_refined (ih inner List.mem_cons_self p v) ?_ ?_ (fun _ _ h => h) ?_
      · rintro r _ rfl
        exact (Report.ok_under r).symm
      · rintro r _ rfl _
        exact .self _
      · rintro r _ rfl _
        exact isUnder_reject _ _
    | optional inner =>
      refine .bind (ih inner List.mem_cons_self p v) ?_
      rintro r _ rfl
      cases v with
      | absent =>
        rw [Report.ok_under]
        cases r.ok <;> exact .pure rfl
      | _ => exact .pure rfl
    | defaulted inner value =>
      cases v with
      | absent => exact .ok rfl
      | _ => exact ih inner List.mem_cons_self p _
    | described inner text => exact ih inner List.mem_cons_self p v
    | union options tags =>
      refine lockstep_union (fun r r' h => ?_) (List.forall₂_same.mpr fun c hc => ih c hc p v) tags ?_ ?_ (isUnder_reject v)
      · rw [h, Report.ok_under]
      · rintro r _ rfl _
        exact isUnder_accept _
      · rintro r _ rfl _
        rfl
    | both left right =>
      refine lockstep_both (ih left List.mem_cons_self p v) (ih right (List.mem_cons_of_mem _ List.mem_cons_self) p v) ?_ ?_ ?_
      · rintro l _ r _ rfl rfl
        rw [Report.ok_under, Report.ok_under]
      · rintro l _ r _ rfl rfl _ _
        rfl
      · rintro l _ r _ rfl rfl _
        exact congrArg (Report.mk v) List.map_append.symm
    | array element bounds =>
      cases v with
      | list items =>
        refine lockstep_array (fun v (_ : True) => hstep element List.mem_cons_self v) (fun _ _ => trivial) bounds ?_
        intro counts counts' out out' hcounts hout
        rw [hout.under, hcounts.under, IsUnder, Report.under, List.map_append]
      | _ => exact .ok rfl
    | tuple validators rest bounds =>
      cases v with
      | list items =>
        refine lockstep_tuple (List.forall₂_same.mpr fun c hc v (_ : True) => hstep c ?_ v) ?_
          (fun _ _ => trivial) bounds (isUnder_reject _) ?_
        · exact List.mem_append_left _ hc
        · cases rest with
          | none => exact .none
          | some c => exact .some fun v _ => hstep c (List.mem_append_right _ List.mem_cons_self) v
        · intro counts counts' out out' more more' hcounts hout hmore
          rw [hout.under, hmore.under, hcounts.under, IsUnder, Report.under, List.map_append, List.map_append]
      | _ => exact .ok rfl
    | object fields additional bounds =>
      cases v with
      | dict entries =>
        have hsame : ∀ c c', c = c' ∧ c ∈ children (.object fields additional bounds) →
            ∀ w, StepAlike (IsUnder place) p (place ++ p) c c' w := by
          rintro c _ ⟨rfl, hc⟩
          exact hstep c hc
        refine lockstep_object (List.forall₂_same.mpr fun f hf => f.paired_self ?_)
          (additional.paired_self fun c hc => ?_) (fun e _ _ c c' h => hsame c c' h e.2) (fun e _ c c' h => hsame c c' h e.2)
          (fun _ c c' h => hsame c c' h .absent) bounds ?_
        · exact ⟨rfl, mem_children_field hf⟩
        · exact ⟨rfl, List.mem_append_right _ hc⟩
        · intro counts counts' out out' filled filled' hcounts hout hfilled
          rw [hout.under, hfilled.under, hcounts.under, IsUnder, Report.under, List.map_append, List.map_append]
      | _ => exact .ok rfl
    | _ => exact absurd rfl hleaf

/-- **A value is checked alike at every place.** -/
theorem check_under (vd : Validator) (v : Value) :
    vd.check v (place ++ p) = (vd.check v p).map (Report.under place) := by
  have h := lockstep_under place p vd v
  generalize vd.check v p = x, vd.check v (place ++ p) = y at h ⊢
  cases h with
  | ok h => rw [h]; rfl
  | error e => rfl

/-- What is reported at a place is what is reported at the top, with the place in front. -/
theorem check_at (vd : Validator) (v : Value) : vd.check v place = (vd.check v []).map (Report.under place) := by
  rw [← check_under, List.append_nil]

end Validator

end Schemata
