import Schemata.Proofs.Validator.Combinators
import Schemata.Proofs.Validator.Leaves

/-!
# `Schemata.Proofs.Validator.Choice` — what a union reports

A union that tries a single option reports what this option does, and one that tries none reports the kind of the
value. Only where several options are tried in vain does it say that there is no option, and it says so at the place
of the value: what is reported on parts of the value lies below that place.

## Contents
- **Unions.** `check_union_none`, `check_union_single` and `answers_union_only`.
- **Places.** `answers_structure` and `answers_below`: issues lie at the place of the value or below.
- **Options.** `Undivided` validators, which do not say of the value itself that there is no option.
-/

namespace Schemata

/-! ## Unions -/

namespace Validator

variable {options : List Validator} {tags : List String} {v : Value} {path : Pointer}

/-- Only the admitted options are tried. -/
theorem checkOptions_eq (options : List Validator) (admitted : List Bool) (v : Value) (path : Pointer) :
    checkOptions (m := Except Fault) (fun f => .ok f.size?) options admitted v path =
      checkOptions (fun f => .ok f.size?) (admittedOptions options admitted)
        ((admittedOptions options admitted).map fun _ => true) v path := by
  induction options generalizing admitted with
  | nil => rfl
  | cons c cs ih =>
    cases admitted with
    | nil => rfl
    | cons b bs =>
      cases b with
      | false => exact ih bs
      | true =>
        show (c.check v path >>= fun r => if r.ok then _ else
          checkOptions (fun f => .ok f.size?) cs bs v path >>= _) = _
        rw [ih bs]
        rfl

theorem any_flags (options : List Validator) (admitted : List Bool) :
    (options.zip admitted).any Prod.snd = !(admittedOptions options admitted).isEmpty := by
  unfold admittedOptions
  rw [Bool.eq_iff_iff]
  simp

/-- A union that goes by the tags and finds no option to try reports the kind of the value. -/
theorem check_union_none (htags : goesByTags tags v = true) (h : tried options tags v = []) :
    (union options tags).check v path = .ok (.reject v path (wrongType (" | ".intercalate tags) v)) := by
  rw [check_union, htags, any_flags, show admittedOptions options (flags options tags v) = [] from h]
  rfl

/-- **A union that tries one option** reports what the option does. -/
theorem check_union_single {c : Validator} (h : tried options tags v = [c]) :
    (union options tags).check v path =
      (c.check v path).map fun r => if r.ok then .accept r.output else ⟨v, r.issues⟩ := by
  rw [check_union, any_flags, checkOptions_eq, show admittedOptions options (flags options tags v) = [c] from h,
    if_neg (by simp)]
  show ((c.check v path >>= fun r => if r.ok then _ else _) >>= _) = _
  cases c.check v path with
  | error e => rfl
  | ok r =>
    show ((if r.ok then Except.ok (Sum.inl r.output) else Except.ok (Sum.inr [r.issues])) >>= _) =
      Except.ok (if r.ok then _ else _)
    cases r.ok <;> rfl

/-- **A union with one option that accepts**, while the others refuse if they answer, accepts with the output of that
option. -/
theorem answers_union_only {sure : Prop} {c : Validator} (hc : c ∈ tried options tags v) {r : Report}
    (hr : c.check v path = .ok r) (hok : r.ok = true)
    (hothers : ∀ d ∈ tried options tags v, d.check v path = .ok r ∨ Answers sure (d.check v path) fun r' => r'.ok = false) :
    Answers sure ((union options tags).check v path) (· = .accept r.output) := by
  have heach : ∀ d ∈ tried options tags v, Answers sure (d.check v path) fun r' =>
      d.check v path = .ok r' ∧ (r'.ok = true → r' = r) := by
    intro d hd
    rcases hothers d hd with hd | hd
    · rw [hd]
      exact .ok ⟨rfl, fun _ => rfl⟩
    · refine (hd.and fun r' hr' => hr').mono fun r' hr' => ⟨hr'.2, fun hok' => ?_⟩
      rw [hr'.1] at hok'
      cases hok'
  refine (answers_union heach).mono ?_
  rintro out (⟨d, _, r', hr', hok', rfl⟩ | ⟨done, hdone, hrejected, _⟩)
  · rw [hr'.2 hok']
  · obtain ⟨r', hvisit⟩ := hdone.exists_of_mem hc
    have hsame := (hdone.fits _ hvisit).1
    have hrefused := hrejected _ hvisit
    rw [hr] at hsame
    rw [← Except.ok.inj hsame, hok] at hrefused
    cases hrefused

end Validator

/-! ## Places -/

/-- Issues at a place or below. -/
abbrev AllBelow (path : Pointer) (issues : List Issue) : Prop := ∀ issue ∈ issues, path <+: issue.path

/-- Issues with the value at a place itself or with its parts. -/
abbrev AllWithin (path : Pointer) (issues : List Issue) : Prop :=
  ∀ issue ∈ issues, issue.IsAt path ∨ ∃ step, path ++ [step] <+: issue.path

theorem AllWithin.below {path : Pointer} {issues : List Issue} (h : AllWithin path issues) : AllBelow path issues := by
  intro issue hissue
  rcases h issue hissue with hat | ⟨step, hstep⟩
  · exact hat.1 ▸ List.prefix_rfl
  · exact (List.prefix_append path [step]).trans hstep

/-- Of the value itself nobody says that no option fits it. -/
theorem AllWithin.cause_ne {path : Pointer} {issues : List Issue} (h : AllWithin path issues) :
    ∀ issue ∈ issues, issue.path = path → issue.cause ≠ .noOption := by
  intro issue hissue hpath
  rcases h issue hissue with hat | ⟨step, hstep⟩
  · exact hat.2
  · have hlength := hstep.length_le
    rw [hpath, List.length_append, List.length_singleton] at hlength
    omega

theorem AllAt.within {path : Pointer} {issues : List Issue} (h : AllAt path issues) : AllWithin path issues :=
  fun issue hissue => .inl (h issue hissue)

/-- The issues of members lie below their keys. -/
theorem Visits.members_below {path : Pointer} {entries : Entries} {fields : List Field} {additional : Additional}
    {done : List ((Value × Value) × (Option Value × List Issue))}
    (h : Visits entries (Validator.MemberFits fields additional path fun e r =>
      AllBelow (path ++ [e.1.plain]) r.issues) done) :
    ∀ issue ∈ done.flatMap (·.2.2), ∃ e ∈ entries, path ++ [e.1.plain] <+: issue.path := by
  intro issue hissue
  obtain ⟨⟨e, out⟩, hd, hmem⟩ := List.mem_flatMap.mp hissue
  refine ⟨e, h.mem hd, ?_⟩
  rcases h.fits _ hd with ⟨r, hr, heq⟩ | ⟨_, _, heq⟩ | ⟨_, _, heq⟩
  · rw [show out = _ from heq] at hmem
    exact hr issue hmem
  · rw [show out = _ from heq] at hmem
    cases hmem
  · rw [show out = _ from heq] at hmem
    obtain rfl := List.mem_singleton.mp hmem
    exact List.prefix_rfl

namespace Validator

/-- Whether a validator asks for an array, a tuple or an object. -/
def isStructure : Validator → Bool
  | .array _ _ | .tuple _ _ _ | .object _ _ _ => true
  | _ => false

/-- What a structure reports, if its parts report below their own places. -/
theorem answers_structure {vd : Validator} (h : vd.isStructure = true)
    (hparts : ∀ c ∈ vd.children, ∀ w place, Answers False (c.check w place) fun r => AllBelow place r.issues)
    (v : Value) (path : Pointer) : Answers False (vd.check v path) fun r => AllWithin path r.issues := by
  have hreject : ∀ (w : Value) (cause : Cause), (cause ≠ .noOption) → AllWithin path (Report.reject w path cause).issues :=
    fun w cause hcause => AllAt.within (Report.isAt_reject w path cause hcause).issues
  have hpart : ∀ c ∈ vd.children, ∀ w step, Answers False (c.check w (path ++ [step])) fun r => AllWithin path r.issues :=
    fun c hc w step => (hparts c hc w _).mono fun r hr issue hissue => .inr ⟨step, hr issue hissue⟩
  cases vd with
  | array element bounds =>
    cases v with
    | list items =>
      exact issues_array ((lengthIssues_at ..).mono fun _ => AllAt.within) fun i w _ =>
        hpart element (by simp [children]) w _
    | _ => exact .ok (hreject _ _ (by rintro ⟨⟩))
  | tuple validators rest bounds =>
    cases v with
    | list items =>
      refine issues_tuple ((lengthIssues_at ..).mono fun _ => AllAt.within) (fun cause hcause => .inl ⟨rfl, ?_⟩)
        fun c hc i w _ => hpart c hc w _
      rintro rfl
      simp at hcause
    | _ => exact .ok (hreject _ _ (by rintro ⟨⟩))
  | object fields additional bounds =>
    cases v with
    | dict entries =>
      exact issues_object ((memberCountIssues_at ..).mono fun _ => AllAt.within) (fun c hc e _ => hpart c hc e.2 _)
        (fun e _ => .inr ⟨_, List.prefix_rfl⟩) fun f _ => .inr ⟨_, List.prefix_rfl⟩
    | _ => exact .ok (hreject _ _ (by rintro ⟨⟩))
  | _ => cases h

/-- **Every issue lies at the place of the value or below.** -/
theorem answers_below (vd : Validator) (v : Value) (path : Pointer) :
    Answers False (vd.check v path) fun r => AllBelow path r.issues := by
  induction vd using inductionOnChildren generalizing v path with
  | step vd ih =>
    cases vd with
    | refined inner test message =>
      exact issues_refined (ih inner (by simp [children]) v path) fun _ _ => List.prefix_rfl
    | optional inner => exact issues_optional (ih inner (by simp [children]) v path)
    | defaulted inner value => exact issues_defaulted (ih inner (by simp [children]) v path)
    | described inner text => exact ih inner (by simp [children]) v path
    | union options tags => exact issues_union (fun c hc => ih c hc v path) fun _ _ => List.prefix_rfl
    | both left right => exact issues_both (ih left (by simp [children]) v path) (ih right (by simp [children]) v path)
    | array element bounds => exact (answers_structure rfl ih v path).mono fun r hr => hr.below
    | tuple items rest bounds => exact (answers_structure rfl ih v path).mono fun r hr => hr.below
    | object fields additional bounds => exact (answers_structure rfl ih v path).mono fun r hr => hr.below
    | _ => exact (answers_leaf rfl v path).mono fun r hr => (AllAt.within hr.issues).below

/-! ## Options -/

/-- Reports only issues with the value itself, other than that no option fits, or with its parts. -/
def Undivided (vd : Validator) : Prop :=
  ∀ v path, Answers False (vd.check v path) fun r => AllWithin path r.issues

theorem undivided_leaf {vd : Validator} (h : vd.isLeaf = true) : Undivided vd :=
  fun v path => (answers_leaf h v path).mono fun _ hr => AllAt.within hr.issues

theorem undivided_structure {vd : Validator} (h : vd.isStructure = true) : Undivided vd :=
  answers_structure h fun c _ => c.answers_below

theorem Undivided.refined {vd : Validator} (h : Undivided vd) (test : Test) (message : String) :
    Undivided (.refined vd test message) := fun v path =>
  issues_refined (h v path) fun _ _ => .inl ⟨rfl, nofun⟩

theorem Undivided.both {left right : Validator} (hleft : Undivided left) (hright : Undivided right) :
    Undivided (.both left right) := fun v path =>
  issues_both (hleft v path) (hright v path)

end Validator

end Schemata
