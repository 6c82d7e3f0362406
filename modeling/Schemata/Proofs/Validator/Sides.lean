import Mathlib.Data.List.Forall2
import Schemata.Proofs.Runs
import Schemata.Proofs.Validator.Acceptance
import Schemata.Proofs.Validator.Leaves
import Schemata.Proofs.Value.Tree

/-!
# `Schemata.Proofs.Validator.Sides` — two validators side by side

Two validators are run on one value, each at a place of its own. If their parts run in lockstep, with reports that are
related in some way, so do the validators, and their reports are made of those of the parts in the same way. What that
means for the outcome depends on the relation, so the rules here give the reports of the parts in pairs.

## Contents
- **Sizes.** Issues with the same causes at both places.
- **Traversals.** Items, members, options and absent fields, with pairs of reports.
- **Conditions.** Conditions that ask validators, which accept the same values: `AcceptOn` and `Test.HoldsOn`.
- **Validators.** One rule for every validator with parts.
-/

namespace Schemata

open Validator

/-! ## Sizes -/

/-- Issues with the same causes at two places. -/
def SameCauses (p q : Pointer) (issues others : List Issue) : Prop :=
  ∃ causes : List Cause, issues = causes.map (Issue.mk p) ∧ others = causes.map (Issue.mk q)

section

variable {p q : Pointer}

theorem SameCauses.nil : SameCauses p q [] [] := ⟨[], rfl, rfl⟩

theorem SameCauses.single (cause : Cause) : SameCauses p q [⟨p, cause⟩] [⟨q, cause⟩] := ⟨[cause], rfl, rfl⟩

theorem SameCauses.append {few others many more : List Issue} (h : SameCauses p q few others)
    (h' : SameCauses p q many more) : SameCauses p q (few ++ many) (others ++ more) := by
  obtain ⟨causes, rfl, rfl⟩ := h
  obtain ⟨causes', rfl, rfl⟩ := h'
  exact ⟨causes ++ causes', List.map_append.symm, List.map_append.symm⟩

theorem SameCauses.isEmpty {issues others : List Issue} (h : SameCauses p q issues others) :
    issues.isEmpty = others.isEmpty := by
  obtain ⟨causes, rfl, rfl⟩ := h
  rw [List.isEmpty_map, List.isEmpty_map]

theorem lockstep_limitIssues (relation : Relation) (n : Int) (limit : Option Value) (cause : String → Cause) :
    Lockstep (SameCauses p q) (limitIssues relation n limit p cause) (limitIssues relation n limit q cause) := by
  cases limit with
  | none => exact .ok .nil
  | some limit =>
    refine .bind (.self _) ?_
    rintro outside _ rfl
    cases outside with
    | true =>
      refine .bind (.self _) ?_
      rintro text _ rfl
      exact .pure (.single _)
    | false => exact .pure .nil

theorem lockstep_firstIssues {x y x' y' : Except Fault (List Issue)} (hx : Lockstep (SameCauses p q) x x')
    (hy : Lockstep (SameCauses p q) y y') : Lockstep (SameCauses p q) (firstIssues x y) (firstIssues x' y') := by
  refine .bind hx fun issues others hissues => ?_
  rw [hissues.isEmpty]
  split
  · exact hy
  · exact .pure hissues

theorem lockstep_lengthIssues (length : Nat) (bounds : Bounds) :
    Lockstep (SameCauses p q) (lengthIssues (m := Except Fault) length bounds p) (lengthIssues length bounds q) := by
  rw [lengthIssues_eq, lengthIssues_eq]
  exact lockstep_firstIssues (lockstep_limitIssues _ _ _ _) (lockstep_limitIssues _ _ _ _)

theorem lockstep_memberCountIssues (count : Nat) (bounds : Bounds) :
    Lockstep (SameCauses p q) (memberCountIssues (m := Except Fault) count bounds p) (memberCountIssues count bounds q) := by
  rw [memberCountIssues_eq, memberCountIssues_eq]
  exact .bind (lockstep_limitIssues _ _ _ _) fun few others hfew =>
    .bind (lockstep_limitIssues _ _ _ _) fun many more hmany => .pure (hfew.append hmany)

theorem lockstep_fileSizeIssues (size : Option Int) (bounds : Bounds) :
    Lockstep (SameCauses p q) (fileSizeIssues (m := Except Fault) size bounds p) (fileSizeIssues size bounds q) := by
  cases size with
  | none => exact .ok (.single _)
  | some size =>
    rw [fileSizeIssues_eq, fileSizeIssues_eq]
    exact lockstep_firstIssues (lockstep_limitIssues _ _ _ _) (lockstep_limitIssues _ _ _ _)

end

/-! ## Traversals -/

section

variable {related : Report → Report → Prop} {p q : Pointer}

/-- The outputs and the issues of some reports. -/
def gathered (reports : List Report) : List Value × List Issue :=
  (reports.map Report.output, reports.flatMap Report.issues)

/-- Two outcomes gathered from related reports. -/
def GatheredAlike (related : Report → Report → Prop) (out out' : List Value × List Issue) : Prop :=
  ∃ reports reports', List.Forall₂ related reports reports' ∧ out = gathered reports ∧ out' = gathered reports'

theorem GatheredAlike.nil : GatheredAlike related ([], []) ([], []) := ⟨[], [], .nil, rfl, rfl⟩

theorem GatheredAlike.cons {r r' : Report} (hr : related r r') {out out' : List Value × List Issue}
    (h : GatheredAlike related out out') :
    GatheredAlike related (r.output :: out.1, r.issues ++ out.2) (r'.output :: out'.1, r'.issues ++ out'.2) := by
  obtain ⟨reports, reports', hreports, rfl, rfl⟩ := h
  exact ⟨r :: reports, r' :: reports', .cons hr hreports, rfl, rfl⟩

/-- Two validators run in lockstep on a value, wherever it stands below two places. -/
abbrev StepAlike (related : Report → Report → Prop) (p q : Pointer) (c c' : Validator) (v : Value) : Prop :=
  ∀ token, Lockstep related (c.check v (p ++ [token])) (c'.check v (q ++ [token]))

section

variable {fits : Value → Prop}

theorem lockstep_checkItems {c c' : Validator} (each : ∀ v, fits v → StepAlike related p q c c' v) (items : List Value)
    (hitems : ∀ v ∈ items, fits v) (i : Nat) :
    Lockstep (GatheredAlike related)
      (checkItems (m := Except Fault) (fun v place => c.checkWith (fun f => .ok f.size?) v place) p i items)
      (checkItems (fun v place => c'.checkWith (fun f => .ok f.size?) v place) q i items) := by
  induction items generalizing i with
  | nil => exact .pure .nil
  | cons v vs ih =>
    obtain ⟨hfirst, hrest⟩ := List.forall_mem_cons.mp hitems
    exact .bind (each v hfirst _) fun r r' hr => .bind (ih hrest (i + 1)) fun out out' hout => .pure (hout.cons hr)

theorem lockstep_checkPositional {validators validators' : List Validator}
    (each : List.Forall₂ (fun c c' => ∀ v, fits v → StepAlike related p q c c' v) validators validators')
    (items : List Value) (hitems : ∀ v ∈ items, fits v) (i : Nat) :
    Lockstep (GatheredAlike related)
      (Validator.checkPositional (m := Except Fault) (fun f => .ok f.size?) validators i items p)
      (Validator.checkPositional (fun f => .ok f.size?) validators' i items q) := by
  induction each generalizing i items with
  | nil => exact .pure .nil
  | cons hfirst _ ih =>
    cases items with
    | nil => exact .pure .nil
    | cons v vs =>
      obtain ⟨hv, hvs⟩ := List.forall_mem_cons.mp hitems
      exact .bind (hfirst v hv _) fun r r' hr => .bind (ih vs hvs (i + 1)) fun out out' hout => .pure (hout.cons hr)

theorem lockstep_checkRest {rest rest' : Option Validator}
    (each : Option.Rel (fun c c' => ∀ v, fits v → StepAlike related p q c c' v) rest rest') (items : List Value)
    (hitems : ∀ v ∈ items, fits v) (i : Nat) :
    Lockstep (GatheredAlike related)
      (Validator.checkRest (m := Except Fault) (fun f => .ok f.size?) rest i items p)
      (Validator.checkRest (fun f => .ok f.size?) rest' i items q) := by
  cases each with
  | none => exact .pure .nil
  | some hc => exact lockstep_checkItems hc items hitems i

end

/-- What becomes of a member on two sides: both report on it, or it passes, or it is unknown. -/
inductive MemberAlike (related : Report → Report → Prop) (p q : Pointer) (e : Value × Value) :
    Option Value × List Issue → Option Value × List Issue → Prop
  | reported {r r' : Report} (h : related r r') :
      MemberAlike related p q e (some r.output, r.issues) (some r'.output, r'.issues)
  | passed : MemberAlike related p q e (some e.2, []) (some e.2, [])
  | unknown : MemberAlike related p q e (none, [⟨p ++ [e.1.plain], .unknownMember e.1.plain⟩])
      (none, [⟨q ++ [e.1.plain], .unknownMember e.1.plain⟩])

/-- The members of an object on two sides. -/
def MembersAlike (related : Report → Report → Prop) (p q : Pointer) (entries : Entries)
    (out out' : Entries × List Issue) : Prop :=
  ∃ done : List ((Value × Value) × ((Option Value × List Issue) × (Option Value × List Issue))),
    Visits entries (fun e both => MemberAlike related p q e both.1 both.2) done ∧
      out = (done.filterMap fun d => keptEntry (d.1, d.2.1), done.flatMap (·.2.1.2)) ∧
      out' = (done.filterMap fun d => keptEntry (d.1, d.2.2), done.flatMap (·.2.2.2))

theorem lockstep_checkEntries {check check' : Value → Value → Except Fault (Option Value × List Issue)} (entries : Entries)
    (each : ∀ e ∈ entries, Lockstep (MemberAlike related p q e) (check e.1 e.2) (check' e.1 e.2)) :
    Lockstep (MembersAlike related p q entries) (checkEntries check entries) (checkEntries check' entries) := by
  induction entries with
  | nil => exact .pure ⟨[], .nil, rfl, rfl⟩
  | cons e es ih =>
    obtain ⟨hfirst, hrest⟩ := List.forall_mem_cons.mp each
    refine .bind hfirst fun one one' hone => .bind (ih hrest) ?_
    rintro _ _ ⟨done, hdone, rfl, rfl⟩
    refine .pure ⟨(e, one, one') :: done, hdone.cons hone, ?_, ?_⟩
    · cases hone <;> rfl
    · cases hone <;> rfl

/-- What becomes of further members, or items, on two sides. -/
inductive Additional.Paired (alike : Validator → Validator → Prop) : Additional → Additional → Prop
  | strict : Paired alike .strict .strict
  | passthrough : Paired alike .passthrough .passthrough
  | checked {c c' : Validator} (h : alike c c') : Paired alike (.checked c) (.checked c')

/-- Fields of the same name, required on both sides or on neither. -/
inductive Field.Paired (alike : Bool → Validator → Validator → Prop) : Field → Field → Prop
  | mk (name : Value) (required : Bool) {c c' : Validator} (h : alike required c c') :
      Paired alike (.mk name required c) (.mk name required c')

theorem Additional.paired_self {alike : Validator → Validator → Prop} (additional : Additional)
    (h : ∀ c ∈ additional.validator?.toList, alike c c) : additional.Paired alike additional := by
  cases additional with
  | strict => exact .strict
  | passthrough => exact .passthrough
  | checked c => exact .checked (h c List.mem_cons_self)

theorem Additional.Paired.imp {alike other : Validator → Validator → Prop} {additional additional' : Additional}
    (h : additional.Paired alike additional') (himp : ∀ c c', alike c c' → other c c') : additional.Paired other additional' := by
  cases h with
  | strict => exact .strict
  | passthrough => exact .passthrough
  | checked hc => exact .checked (himp _ _ hc)

theorem Field.paired_self {alike : Bool → Validator → Validator → Prop} (f : Field) (h : alike f.required f.validator f.validator) :
    f.Paired alike f := by
  obtain ⟨name, required, c⟩ := f
  exact .mk name required h

theorem Field.Paired.name_eq {alike : Bool → Validator → Validator → Prop} {f f' : Field} (h : f.Paired alike f') :
    f'.name = f.name ∧ f'.required = f.required := by
  cases h
  exact ⟨rfl, rfl⟩

section

variable {alike : Bool → Validator → Validator → Prop} {others : Validator → Validator → Prop} {fields fields' : List Field}
  {additional additional' : Additional}

/-- A member and its field, or the policy for other members. -/
theorem lockstep_member (hfields : List.Forall₂ (Field.Paired alike) fields fields')
    (hadditional : additional.Paired others additional') {e : Value × Value}
    (declared : ∀ required c c', alike required c c' → StepAlike related p q c c' e.2)
    (undeclared : ∀ c c', others c c' → StepAlike related p q c c' e.2) :
    Lockstep (MemberAlike related p q e)
      (do match (← Field.checkMember (m := Except Fault) (fun f => .ok f.size?) fields e.1 e.2 (p ++ [e.1.plain])) with
        | some r => return (some r.output, r.issues)
        | none => additional.checkMember (fun f => .ok f.size?) e.1 e.2 (p ++ [e.1.plain]))
      (do match (← Field.checkMember (m := Except Fault) (fun f => .ok f.size?) fields' e.1 e.2 (q ++ [e.1.plain])) with
        | some r => return (some r.output, r.issues)
        | none => additional'.checkMember (fun f => .ok f.size?) e.1 e.2 (q ++ [e.1.plain])) := by
  have hfield : Lockstep (Option.Rel related)
      (Field.checkMember (m := Except Fault) (fun f => .ok f.size?) fields e.1 e.2 (p ++ [e.1.plain]))
      (Field.checkMember (m := Except Fault) (fun f => .ok f.size?) fields' e.1 e.2 (q ++ [e.1.plain])) := by
    induction hfields with
    | nil => exact .pure .none
    | cons hfirst _ ih =>
      obtain ⟨name, required, hc⟩ := hfirst
      rw [checkMember_cons, checkMember_cons]
      split
      · exact (declared required _ _ hc _).map fun r r' hr => .some hr
      · exact ih
  refine .bind hfield ?_
  rintro _ _ (hr | _)
  · exact .pure (.reported hr)
  · cases hadditional with
    | strict => exact .pure .unknown
    | passthrough => exact .pure .passed
    | checked hc => exact .bind (undeclared _ _ hc _) fun r r' hr => .pure (.reported hr)

/-- What becomes of the fields without a member on two sides. -/
def GoneAlike (alike : Bool → Validator → Validator → Prop) (gone : Bool → Report → Report → Prop) (p q : Pointer)
    (entries : Entries) (out out' : Entries × List Issue) : Prop :=
  ∃ done done' : List (Field × Report),
    List.Forall₂ (fun d d' => Field.Paired alike d.1 d'.1 ∧ Entries.hasAlike entries d.1.name = false ∧
      gone d.1.required d.2 d'.2) done done' ∧
      out = (done.filterMap Field.filled?, done.filterMap (Field.missing? p)) ∧
      out' = (done'.filterMap Field.filled?, done'.filterMap (Field.missing? q))

theorem filterMap_cons_toList {α β : Type} (f : α → Option β) (a : α) (as : List α) :
    (a :: as).filterMap f = (f a).toList ++ as.filterMap f := by
  rw [List.filterMap_cons]
  cases f a <;> rfl

/-- The first of some fields: it gives something, is missing, or neither. -/
theorem checkAbsent_cons (f : Field) (entries : Entries) (path : Pointer) :
    Field.checkAbsent (m := Except Fault) (fun f => .ok f.size?) (f :: fields) entries path =
      if Entries.hasAlike entries f.name then Field.checkAbsent (fun f => .ok f.size?) fields entries path
      else do
        let r ← f.validator.check .absent (path ++ [f.name.plain])
        let (filled, missing) ← Field.checkAbsent (fun f => .ok f.size?) fields entries path
        return ((Field.filled? (f, r)).toList ++ filled, (Field.missing? path (f, r)).toList ++ missing) := by
  obtain ⟨name, required, validator⟩ := f
  show (if Entries.hasAlike entries name then _ else _) = _
  refine if_congr Iff.rfl rfl (bind_congr fun r => bind_congr fun out => ?_)
  show (if Field.gives r then Except.ok _ else if required then Except.ok _ else Except.ok _) = _
  cases hgives : Field.gives r with
  | true => simp [Field.filled?, Field.missing?, hgives, Field.name]; rfl
  | false => cases required <;> simp [Field.filled?, Field.missing?, hgives, Field.name, Field.required] <;> rfl

theorem lockstep_checkAbsent {gone : Bool → Report → Report → Prop}
    (hfields : List.Forall₂ (Field.Paired alike) fields fields') (entries : Entries)
    (each : ∀ required c c', alike required c c' → StepAlike (gone required) p q c c' .absent) :
    Lockstep (GoneAlike alike gone p q entries)
      (Field.checkAbsent (m := Except Fault) (fun f => .ok f.size?) fields entries p)
      (Field.checkAbsent (fun f => .ok f.size?) fields' entries q) := by
  induction hfields with
  | nil => exact .pure ⟨[], [], .nil, rfl, rfl⟩
  | cons hfirst _ ih =>
    obtain @⟨name, required, c, c', hc⟩ := hfirst
    rw [checkAbsent_cons, checkAbsent_cons]
    show Lockstep _ (if Entries.hasAlike entries name then _ else _) (if Entries.hasAlike entries name then _ else _)
    split
    · exact ih
    next hhas =>
      refine .bind (each required c c' hc _) fun r r' hr => .bind ih ?_
      rintro _ _ ⟨done, done', hdone, rfl, rfl⟩
      refine .pure ⟨(.mk name required c, r) :: done, (.mk name required c', r') :: done',
        .cons ⟨.mk name required hc, Bool.eq_false_iff.mpr hhas, hr⟩ hdone, ?_, ?_⟩
      · rw [filterMap_cons_toList, filterMap_cons_toList]
      · rw [filterMap_cons_toList, filterMap_cons_toList]

end

/-! ## Conditions -/

/-- Rules for the same pattern with related validators. -/
inductive PatternRule.Paired (related : Validator → Validator → Prop) : PatternRule → PatternRule → Prop
  | mk (pattern : Pattern) {c c' : Validator} (h : related c c') : Paired related (.mk pattern c) (.mk pattern c')

theorem PatternRule.Paired.imp {related other : Validator → Validator → Prop} {rule rule' : PatternRule}
    (h : rule.Paired related rule') (himp : ∀ c c', related c c' → other c c') : rule.Paired other rule' := by
  obtain ⟨pattern, hc⟩ := h
  exact .mk pattern (himp _ _ hc)

/-- Two validators accept the same of some values, and end in the same faults. -/
abbrev AcceptSame (vs : List Value) (c c' : Validator) : Prop := ∀ v ∈ vs, c.accepts v = c'.accepts v

theorem allSatisfy_paired {α β : Type} {f : α → Except Fault Bool} {g : β → Except Fault Bool} {as : List α} {bs : List β}
    (h : List.Forall₂ (fun a b => f a = g b) as bs) : allSatisfy f as = allSatisfy g bs := by
  induction h with
  | nil => rfl
  | cons hfirst _ ih => rw [allSatisfy, allSatisfy, hfirst, ih]

theorem allSatisfy_congr {α : Type} {f g : α → Except Fault Bool} {as : List α} (h : ∀ a ∈ as, f a = g a) :
    allSatisfy f as = allSatisfy g as :=
  allSatisfy_paired (List.forall₂_same.mpr h)

theorem acceptItems_congr {vs : List Value} {extra extra' : Additional} (h : extra.Paired (AcceptSame vs) extra') :
    extra.acceptItems (m := Except Fault) (fun f => .ok f.size?) vs = extra'.acceptItems (fun f => .ok f.size?) vs := by
  cases h with
  | strict => rfl
  | passthrough => rfl
  | checked hc =>
    rw [acceptItems_checked, acceptItems_checked]
    exact allSatisfy_congr hc

namespace Test

theorem holds_counted_congr {vs : List Value} {c c' : Validator} (h : AcceptSame vs c c') (least : Value)
    (most : Option Value) : (counted c least most).holds (.list vs) = (counted c' least most).holds (.list vs) := by
  have hcount : countSatisfying c.accepts vs = countSatisfying c'.accepts vs := by
    induction vs with
    | nil => rfl
    | cons v vs ih =>
      obtain ⟨hfirst, hrest⟩ := List.forall_mem_cons.mp h
      rw [countSatisfying, countSatisfying, hfirst, ih hrest]
  rw [holds_counted, holds_counted, hcount]

theorem holds_positions_congr {vs : List Value} {items items' : List Validator}
    (hitems : List.Forall₂ (AcceptSame vs) items items') {extra extra' : Additional} (hextra : extra.Paired (AcceptSame vs) extra') :
    (positions items extra).holds (.list vs) = (positions items' extra').holds (.list vs) := by
  have hpositional : ∀ ws ⊆ vs, allSatisfy (fun p : Validator × Value => p.1.accepts p.2) (items.zip ws) =
      allSatisfy (fun p : Validator × Value => p.1.accepts p.2) (items'.zip ws) := by
    intro ws hws
    induction hitems generalizing ws with
    | nil => rfl
    | cons hfirst _ ih =>
      cases ws with
      | nil => rfl
      | cons w ws =>
        rw [List.zip_cons_cons, List.zip_cons_cons, allSatisfy, allSatisfy, hfirst w (hws List.mem_cons_self),
          ih ws (List.subset_of_cons_subset hws)]
  have hbeyond : extra.acceptItems (m := Except Fault) (fun f => .ok f.size?) (vs.drop items.length) =
      extra'.acceptItems (fun f => .ok f.size?) (vs.drop items.length) := by
    exact acceptItems_congr (hextra.imp fun c c' hc v hv => hc v (List.mem_of_mem_drop hv))
  rw [holds_positions, holds_positions, hpositional vs (List.Subset.refl _), hbeyond, hitems.length_eq]

theorem fitting_paired {related : Validator → Validator → Prop} {rules rules' : List PatternRule}
    (h : List.Forall₂ (PatternRule.Paired related) rules rules') (key : String) :
    List.Forall₂ related (PatternRule.fitting rules key) (PatternRule.fitting rules' key) := by
  induction h with
  | nil => exact .nil
  | @cons rule rule' rules rules' hfirst _ ih =>
    obtain @⟨pattern, c, c', hc⟩ := hfirst
    have hcons : ∀ (d : Validator) rest, PatternRule.fitting (.mk pattern d :: rest) key =
        (if pattern.search key then [d] else []) ++ PatternRule.fitting rest key := by
      intro d rest
      rw [PatternRule.fitting, List.filter_cons]
      show List.map _ (if pattern.search key then _ else _) = _
      split <;> rfl
    rw [hcons, hcons]
    split
    · exact .cons hc ih
    · exact ih

theorem holds_patterns_congr {members : Entries} {rules rules' : List PatternRule}
    (hrules : List.Forall₂ (PatternRule.Paired (AcceptSame (members.map Prod.snd))) rules rules') (declared : List Value)
    {extra extra' : Additional} (hextra : extra.Paired (AcceptSame (members.map Prod.snd)) extra') :
    (patterns rules declared extra).holds (.dict members) = (patterns rules' declared extra').holds (.dict members) := by
  rw [holds_patterns, holds_patterns]
  refine allSatisfy_congr fun e he => ?_
  have hmember : PatternRule.acceptMember (m := Except Fault) (fun f => .ok f.size?) rules e.1.plain e.2 =
      PatternRule.acceptMember (fun f => .ok f.size?) rules' e.1.plain e.2 := by
    have hfitting := (fitting_paired hrules e.1.plain).imp fun c c' hc => hc _ (List.mem_map_of_mem he)
    have hall := allSatisfy_paired hfitting
    rw [acceptMember_eq, acceptMember_eq]
    generalize PatternRule.fitting rules e.1.plain = cs, PatternRule.fitting rules' e.1.plain = cs' at hfitting hall
    cases hfitting with
    | nil => rfl
    | cons _ _ => exact congrArg (Except.map some) hall
  have hothers : extra.acceptItems (m := Except Fault) (fun f => .ok f.size?) [e.2] =
      extra'.acceptItems (fun f => .ok f.size?) [e.2] := by
    refine acceptItems_congr (hextra.imp fun c c' hc => ?_)
    exact List.forall_mem_singleton.mpr (hc _ (List.mem_map_of_mem he))
  rw [hmember, hothers]

end Test

/-- Two validators accept the same of all good values, and end in the same faults. -/
def AcceptOn (good : Value → Prop) (c c' : Validator) : Prop := ∀ v, good v → c.accepts v = c'.accepts v

/-- Two conditions hold of the same good values. -/
def Test.HoldsOn (good : Value → Prop) (test test' : Test) : Prop := ∀ v, good v → test.holds v = test'.holds v

namespace Test.HoldsOn

variable {good : Value → Prop} {c c' : Validator} {extra extra' : Additional}

theorem refl (test : Test) : test.HoldsOn good test := fun _ _ => rfl

theorem rejectedBy (h : AcceptOn good c c') : (Test.rejectedBy c).HoldsOn good (.rejectedBy c') :=
  fun v hv => by rw [Test.holds_rejectedBy, Test.holds_rejectedBy, h v hv]

variable (hgood : Value.GoesDown good)
include hgood

theorem counted (h : AcceptOn good c c') (least : Value) (most : Option Value) :
    (Test.counted c least most).HoldsOn good (.counted c' least most) := by
  intro v hv
  cases v with
  | list vs => exact holds_counted_congr (fun w hw => h w (hgood.item hv w hw)) least most
  | _ => rfl

theorem positions {items items' : List Validator} (hitems : List.Forall₂ (AcceptOn good) items items')
    (hextra : extra.Paired (AcceptOn good) extra') : (Test.positions items extra).HoldsOn good (.positions items' extra') := by
  intro v hv
  cases v with
  | list vs =>
    have heach : ∀ c c', AcceptOn good c c' → AcceptSame vs c c' := fun c c' hc w hw => hc w (hgood.item hv w hw)
    exact holds_positions_congr (hitems.imp heach) (hextra.imp heach)
  | _ => rfl

theorem patterns {rules rules' : List PatternRule} (hrules : List.Forall₂ (PatternRule.Paired (AcceptOn good)) rules rules')
    (declared : List Value) (hextra : extra.Paired (AcceptOn good) extra') :
    (Test.patterns rules declared extra).HoldsOn good (.patterns rules' declared extra') := by
  intro v hv
  cases v with
  | dict members =>
    have heach : ∀ c c', AcceptOn good c c' → AcceptSame (members.map Prod.snd) c c' := fun c c' hc =>
      List.forall_mem_map.mpr fun e he => hc _ (hgood.member hv e he)
    exact holds_patterns_congr (hrules.imp fun _ _ hrule => hrule.imp heach) declared (hextra.imp heach)
  | _ => rfl

end Test.HoldsOn

/-! ## Validators -/

section

variable {vd vd' : Validator} {v : Value} {post : Report → Report → Prop}

/-- A condition on two sides, each on the output of its own. -/
theorem lockstep_refined {inner inner' : Validator} {test test' : Test} {message : String}
    (hinner : Lockstep related (inner.check v p) (inner'.check v q)) (hok : ∀ r r', related r r' → r.ok = r'.ok)
    (htest : ∀ r r', related r r' → r.ok = true → Lockstep Eq (test.holds r.output) (test'.holds r'.output))
    (hkept : ∀ r r', related r r' → post r r')
    (hrejected : ∀ r r', related r r' → r.ok = true →
      post (.reject r.output p (.refinement message)) (.reject r'.output q (.refinement message))) :
    Lockstep post ((Validator.refined inner test message).check v p) ((Validator.refined inner' test' message).check v q) := by
  refine .bind hinner fun r r' hr => ?_
  rw [← hok r r' hr]
  cases haccepted : r.ok with
  | false => exact .pure (hkept r r' hr)
  | true =>
    refine .bind (htest r r' hr haccepted) ?_
    rintro holds _ rfl
    cases holds with
    | true => exact .pure (hkept r r' hr)
    | false => exact .pure (hrejected r r' hr haccepted)

/-- Two joined validators on two sides. -/
theorem lockstep_both {left right left' right' : Validator} {others : Report → Report → Prop}
    (hleft : Lockstep related (left.check v p) (left'.check v q))
    (hright : Lockstep others (right.check v p) (right'.check v q))
    (hok : ∀ l l' r r', related l l' → others r r' → (l.ok && r.ok) = (l'.ok && r'.ok))
    (haccepted : ∀ l l' r r', related l l' → others r r' → l.ok = true → r.ok = true →
      post (.accept (mergeOutputs l.output r.output)) (.accept (mergeOutputs l'.output r'.output)))
    (hrejected : ∀ l l' r r', related l l' → others r r' → (l.ok && r.ok) = false →
      post ⟨v, l.issues ++ r.issues⟩ ⟨v, l'.issues ++ r'.issues⟩) :
    Lockstep post ((Validator.both left right).check v p) ((Validator.both left' right').check v q) := by
  refine .bind hleft fun l l' hl => .bind hright fun r r' hr => ?_
  rw [← hok l l' r r' hl hr]
  cases hboth : l.ok && r.ok with
  | true =>
    obtain ⟨hlok, hrok⟩ := Bool.and_eq_true_iff.mp hboth
    exact .pure (haccepted l l' r r' hl hr hlok hrok)
  | false => exact .pure (hrejected l l' r r' hl hr hboth)

/-- An array on two sides. -/
theorem lockstep_array {fits : Value → Prop} {element element' : Validator}
    (helement : ∀ v, fits v → StepAlike related p q element element' v) {items : List Value} (hitems : ∀ v ∈ items, fits v)
    (bounds : Bounds) (hpost : ∀ counts counts' out out', SameCauses p q counts counts' → GatheredAlike related out out' →
      post ⟨.list out.1, counts ++ out.2⟩ ⟨.list out'.1, counts' ++ out'.2⟩) :
    Lockstep post ((Validator.array element bounds).check (.list items) p)
      ((Validator.array element' bounds).check (.list items) q) :=
  .bind (lockstep_lengthIssues _ _) fun counts counts' hcounts =>
    .bind (lockstep_checkItems helement items hitems 0) fun out out' hout => .pure (hpost counts counts' out out' hcounts hout)

/-- A tuple on two sides. -/
theorem lockstep_tuple {fits : Value → Prop} {validators validators' : List Validator} {rest rest' : Option Validator}
    (hpositions : List.Forall₂ (fun c c' => ∀ v, fits v → StepAlike related p q c c' v) validators validators')
    (hrest : Option.Rel (fun c c' => ∀ v, fits v → StepAlike related p q c c' v) rest rest') {items : List Value}
    (hitems : ∀ v ∈ items, fits v) (bounds : Bounds)
    (hrejected : ∀ cause, post (.reject (.list items) p cause) (.reject (.list items) q cause))
    (hpost : ∀ counts counts' out out' more more', SameCauses p q counts counts' → GatheredAlike related out out' →
      GatheredAlike related more more' →
      post ⟨.list (out.1 ++ more.1), counts ++ out.2 ++ more.2⟩ ⟨.list (out'.1 ++ more'.1), counts' ++ out'.2 ++ more'.2⟩) :
    Lockstep post ((Validator.tuple validators rest bounds).check (.list items) p)
      ((Validator.tuple validators' rest' bounds).check (.list items) q) := by
  have hnone : rest'.isNone = rest.isNone := by cases hrest <;> rfl
  rw [check_tuple, check_tuple, ← hpositions.length_eq, hnone]
  dsimp only
  split
  · exact .ok (hrejected _)
  split
  · exact .ok (hrejected _)
  split
  · exact .ok (hrejected _)
  refine .bind (lockstep_lengthIssues _ _) fun counts counts' hcounts => ?_
  refine .bind (lockstep_checkPositional hpositions items hitems 0) fun out out' hout => ?_
  refine .bind (lockstep_checkRest hrest _ (fun v hv => hitems v (List.mem_of_mem_drop hv)) _) fun more more' hmore => ?_
  exact .pure (hpost counts counts' out out' more more' hcounts hout hmore)

/-- An object on two sides. -/
theorem lockstep_object {alike : Bool → Validator → Validator → Prop} {others : Validator → Validator → Prop}
    {gone : Bool → Report → Report → Prop} {fields fields' : List Field} {additional additional' : Additional}
    (hfields : List.Forall₂ (Field.Paired alike) fields fields') (hadditional : additional.Paired others additional')
    {entries : Entries} (declared : ∀ e ∈ entries, ∀ required c c', alike required c c' → StepAlike related p q c c' e.2)
    (undeclared : ∀ e ∈ entries, ∀ c c', others c c' → StepAlike related p q c c' e.2)
    (missing : ∀ required c c', alike required c c' → StepAlike (gone required) p q c c' .absent) (bounds : Bounds)
    (hpost : ∀ counts counts' out out' filled filled', SameCauses p q counts counts' →
      MembersAlike related p q entries out out' → GoneAlike alike gone p q entries filled filled' →
      post ⟨.dict (out.1 ++ filled.1), counts ++ out.2 ++ filled.2⟩ ⟨.dict (out'.1 ++ filled'.1), counts' ++ out'.2 ++ filled'.2⟩) :
    Lockstep post ((Validator.object fields additional bounds).check (.dict entries) p)
      ((Validator.object fields' additional' bounds).check (.dict entries) q) := by
  refine .bind (lockstep_memberCountIssues _ _) fun counts counts' hcounts => ?_
  refine .bind (lockstep_checkEntries entries fun e he =>
    lockstep_member hfields hadditional (declared e he) (undeclared e he)) fun out out' hout => ?_
  exact .bind (lockstep_checkAbsent hfields entries missing) fun filled filled' hfilled =>
    .pure (hpost counts counts' out out' filled filled' hcounts hout hfilled)

/-- The choice of an option on two sides: related reports of the first that accepts, or of all. -/
inductive ChoiceAlike (related : Report → Report → Prop) :
    Value ⊕ List (List Issue) → Value ⊕ List (List Issue) → Prop
  | chosen {r r' : Report} (h : related r r') (accepted : r.ok = true) : ChoiceAlike related (.inl r.output) (.inl r'.output)
  | refused {reports reports' : List Report} (h : List.Forall₂ related reports reports') (none : ∀ r ∈ reports, r.ok = false) :
      ChoiceAlike related (.inr (reports.map Report.issues)) (.inr (reports'.map Report.issues))

theorem lockstep_checkOptions (hok : ∀ r r', related r r' → r.ok = r'.ok) {options options' : List Validator}
    (each : List.Forall₂ (fun c c' => Lockstep related (c.check v p) (c'.check v q)) options options') (admitted : List Bool) :
    Lockstep (ChoiceAlike related)
      (Validator.checkOptions (m := Except Fault) (fun f => .ok f.size?) options admitted v p)
      (Validator.checkOptions (fun f => .ok f.size?) options' admitted v q) := by
  induction each generalizing admitted with
  | nil => exact .pure (.refused .nil (List.forall_mem_nil _))
  | cons hfirst _ ih =>
    cases admitted with
    | nil => exact .pure (.refused .nil (List.forall_mem_nil _))
    | cons b bs =>
      cases b with
      | false => exact ih bs
      | true =>
        refine .bind hfirst fun r r' hr => ?_
        rw [← hok r r' hr]
        cases haccepted : r.ok with
        | true => exact .pure (.chosen hr haccepted)
        | false =>
          refine .bind (ih bs) fun found found' hfound => ?_
          cases hfound with
          | chosen h accepted => exact .pure (.chosen h accepted)
          | refused h none => exact .pure (.refused (.cons hr h) (List.forall_mem_cons.mpr ⟨haccepted, none⟩))

/-- A union on two sides. -/
theorem lockstep_union (hok : ∀ r r', related r r' → r.ok = r'.ok) {options options' : List Validator}
    (each : List.Forall₂ (fun c c' => Lockstep related (c.check v p) (c'.check v q)) options options') (tags : List String)
    (haccepted : ∀ r r', related r r' → r.ok = true → post (.accept r.output) (.accept r'.output))
    (hrefused : ∀ r r', related r r' → r.ok = false → post ⟨v, r.issues⟩ ⟨v, r'.issues⟩)
    (hrejected : ∀ cause, post (.reject v p cause) (.reject v q cause)) :
    Lockstep post ((Validator.union options tags).check v p) ((Validator.union options' tags).check v q) := by
  have hflags : Validator.flags options' tags v = Validator.flags options tags v := by
    rw [flags, flags, List.map_const', List.map_const', each.length_eq]
  have hany : (options'.zip (flags options tags v)).any Prod.snd = (options.zip (flags options tags v)).any Prod.snd := by
    generalize flags options tags v = admitted
    clear hflags
    induction each generalizing admitted with
    | nil => rfl
    | cons _ _ ih =>
      cases admitted with
      | nil => rfl
      | cons b bs => rw [List.zip_cons_cons, List.zip_cons_cons, List.any_cons, List.any_cons, ih]
  rw [check_union, check_union, hflags, hany]
  split
  · exact .pure (hrejected _)
  refine .bind (lockstep_checkOptions hok each _) fun found found' hfound => ?_
  cases hfound with
  | chosen h accepted => exact .pure (haccepted _ _ h accepted)
  | refused h none =>
    rcases h with _ | ⟨hfirst, _ | ⟨hsecond, hrest⟩⟩
    · exact .pure (hrejected _)
    · exact .pure (hrefused _ _ hfirst (none _ List.mem_cons_self))
    · exact .pure (hrejected _)

end

end

end Schemata
