import Schemata.Proofs.Validator.Interchange
import Schemata.Proofs.Validator.Suits

/-!
# `Schemata.Proofs.Validator.Issues` — validators that report the same issues

What a validator reports on a value depends on the value alone, until a condition judges the output. So validators that
fill in different members report the same issues, as long as the same fields count as missing, and as long as a
condition finds in the output what it would have found in the value.

## Contents
- **Issues.** `SameIssues`, with a rule for every validator with parts, and `SameMissing` for absent members.
- **Outputs.** `LeavesAs`, what outputs have in common with values.
- **Parts of outputs.** `SameList` and `SameOthers`, which leave lists, or the members outside of some keys, as they are.
- **Conditions.** `SameIssues.refined`, for conditions that judge such a part.
-/

namespace Schemata

open Value Validator

/-! ## Issues -/

/-- Two validators report the same issues on every value of JSON, whatever their outputs are. -/
def SameIssues (c c' : Validator) : Prop :=
  ∀ v : Value, v.IsJson → ∀ p, Lockstep (fun r r' => r.issues = r'.issues) (c.check v p) (c'.check v p)

/-- A required field without a member is missing on both sides, or on neither. -/
def SameMissing (required : Bool) (c c' : Validator) : Prop :=
  ∀ p, Lockstep (fun r r' => required = true → Field.gives r = Field.gives r') (c.check .absent p) (c'.check .absent p)

section

variable {p : Pointer}

theorem GatheredAlike.issues {out out' : List Value × List Issue}
    (h : GatheredAlike (fun r r' => r.issues = r'.issues) out out') : out.2 = out'.2 := by
  obtain ⟨reports, reports', hreports, rfl, rfl⟩ := h
  show reports.flatMap Report.issues = reports'.flatMap Report.issues
  induction hreports with
  | nil => rfl
  | cons hfirst _ ih => rw [List.flatMap_cons, List.flatMap_cons, hfirst, ih]

theorem MembersAlike.issues {entries : Entries} {out out' : Entries × List Issue}
    (h : MembersAlike (fun r r' => r.issues = r'.issues) p p entries out out') : out.2 = out'.2 := by
  obtain ⟨done, hdone, rfl, rfl⟩ := h
  refine List.flatMap_congr fun d hd => ?_
  have hfits := hdone.fits d hd
  generalize d.2.1 = one, d.2.2 = other at hfits
  cases hfits with
  | reported hr => exact hr
  | passed => rfl
  | unknown => rfl

theorem GoneAlike.issues {alike : Bool → Validator → Validator → Prop} {entries : Entries} {out out' : Entries × List Issue}
    (h : GoneAlike alike (fun required r r' => required = true → Field.gives r = Field.gives r') p p entries out out') :
    out.2 = out'.2 := by
  obtain ⟨done, done', hdone, rfl, rfl⟩ := h
  have heach : ∀ d d' : Field × Report, Field.Paired alike d.1 d'.1 →
      (d.1.required = true → Field.gives d.2 = Field.gives d'.2) → Field.missing? p d = Field.missing? p d' := by
    intro d d' hpaired hgives
    obtain ⟨hname, hrequired⟩ := hpaired.name_eq
    rw [Field.missing?, Field.missing?, hname, hrequired]
    -- a field that is not required is never missing
    cases hneeded : d.1.required with
    | false => simp
    | true => rw [hgives hneeded]
  show done.filterMap (Field.missing? p) = done'.filterMap (Field.missing? p)
  induction hdone with
  | nil => rfl
  | cons hfirst _ ih =>
    rw [filterMap_cons_toList, filterMap_cons_toList, heach _ _ hfirst.1 hfirst.2.2, ih]

end

namespace SameIssues

theorem refl (c : Validator) : SameIssues c c := fun v _ p => (Lockstep.self (c.check v p)).mono fun r r' hr => by rw [hr]

theorem of_sameOnNodes {c c' : Validator} (h : SameOnNodes c c') : SameIssues c c' := by
  intro v hv p
  rw [h v hv.allNodes]
  exact refl c' v hv p

theorem step {c c' : Validator} (h : SameIssues c c') {v : Value} (hv : v.IsJson) (p : Pointer) :
    StepAlike (fun r r' => r.issues = r'.issues) p p c c' v := fun _ => h v hv _

theorem ok_eq {r r' : Report} (h : r.issues = r'.issues) : r.ok = r'.ok := by rw [Report.ok, Report.ok, h]

/-- **The same values are accepted**, and the same faults end the checks. -/
theorem acceptOn {c c' : Validator} (h : SameIssues c c') : AcceptOn IsJson c c' := fun v hv =>
  ((h v hv []).map fun _ _ hr => ok_eq hr).eq

theorem array {element element' : Validator} (h : SameIssues element element') (bounds : Bounds) :
    SameIssues (.array element bounds) (.array element' bounds) := by
  intro v hv p
  cases v with
  | list items =>
    refine lockstep_array (fun w hw => h.step hw p) (fun w hw => hv.item hw) bounds ?_
    intro counts counts' out out' hcounts hout
    show counts ++ out.2 = counts' ++ out'.2
    rw [hcounts.eq, hout.issues]
  | _ => exact .ok rfl

theorem tuple {items items' : List Validator} {rest rest' : Option Validator} (hitems : List.Forall₂ SameIssues items items')
    (hrest : Option.Rel SameIssues rest rest') (bounds : Bounds) :
    SameIssues (.tuple items rest bounds) (.tuple items' rest' bounds) := by
  intro v hv p
  cases v with
  | list vs =>
    have hbeyond : Option.Rel (fun c c' => ∀ v : Value, v.IsJson →
        StepAlike (fun r r' => r.issues = r'.issues) p p c c' v) rest rest' := by
      cases hrest with
      | none => exact .none
      | some hc => exact .some fun w hw => hc.step hw p
    refine lockstep_tuple (hitems.imp fun _ _ hc w hw => hc.step hw p) hbeyond (fun w hw => hv.item hw) bounds
      (fun _ => rfl) ?_
    intro counts counts' out out' more more' hcounts hout hmore
    show counts ++ out.2 ++ more.2 = counts' ++ out'.2 ++ more'.2
    rw [hcounts.eq, hout.issues, hmore.issues]
  | _ => exact .ok rfl

theorem object {fields fields' : List Field} {additional additional' : Additional}
    (hfields : List.Forall₂ (Field.Paired fun required c c' => SameIssues c c' ∧ SameMissing required c c') fields fields')
    (hadditional : additional.Paired SameIssues additional') (bounds : Bounds) :
    SameIssues (.object fields additional bounds) (.object fields' additional' bounds) := by
  intro v hv p
  cases v with
  | dict entries =>
    refine lockstep_object hfields hadditional (fun e he _ _ _ hc => hc.1.step (hv.member he) p)
      (fun e he _ _ hc => hc.step (hv.member he) p) (fun _ _ _ hc _ => hc.2 _) bounds ?_
    intro counts counts' out out' filled filled' hcounts hout hfilled
    show counts ++ out.2 ++ filled.2 = counts' ++ out'.2 ++ filled'.2
    rw [hcounts.eq, hout.issues, hfilled.issues]
  | _ => exact .ok rfl

theorem union {options options' : List Validator} (h : List.Forall₂ SameIssues options options') (tags : List String) :
    SameIssues (.union options tags) (.union options' tags) := by
  intro v hv p
  refine lockstep_union (fun r r' hr => ok_eq hr) (h.imp fun c c' hc => hc v hv p) tags ?_ ?_ ?_
  · exact fun r r' _ _ => rfl
  · exact fun r r' hr _ => hr
  · exact fun cause => rfl

theorem both {left right left' right' : Validator} (hleft : SameIssues left left') (hright : SameIssues right right') :
    SameIssues (.both left right) (.both left' right') := by
  intro v hv p
  refine lockstep_both (hleft v hv p) (hright v hv p) ?_ ?_ ?_
  · intro l l' r r' hl hr
    rw [ok_eq hl, ok_eq hr]
  · exact fun l l' r r' _ _ _ _ => rfl
  · intro l l' r r' hl hr _
    show l.issues ++ r.issues = l'.issues ++ r'.issues
    rw [hl, hr]

theorem unionOf {options options' : List Validator} (h : List.Forall₂ SameIssues options options') (tags : List String) :
    SameIssues (Validator.unionOf options tags) (Validator.unionOf options' tags) :=
  forall₂_unionOf (.refl _) (.union h tags) h

end SameIssues

/-! ## Outputs -/

/-- What the outputs of accepted values of JSON have in common with these values. -/
def LeavesAs (like : Value → Value → Prop) (vd : Validator) : Prop :=
  ∀ v : Value, v.IsJson → ∀ p, Answers False (vd.check v p) fun r => r.ok = true → like r.output v

/-- **What fills nothing in** leaves every value as it is. -/
theorem Validator.Unfilling.leavesAs {vd : Validator} (h : Unfilling vd) : LeavesAs Eq vd := fun v hv p =>
  (answers_kept vd (fun _ => h) v p hv.present).mono fun _ hkept hok => (hkept hok).same trivial

namespace LeavesAs

variable {like other : Value → Value → Prop} {inner left right : Validator}

theorem mono (h : LeavesAs like inner) (himp : ∀ o v, like o v → other o v) : LeavesAs other inner := fun v hv p =>
  (h v hv p).mono fun _ hr hok => himp _ _ (hr hok)

theorem refined (h : LeavesAs like inner) (test : Test) (message : String) : LeavesAs like (.refined inner test message) :=
  fun v hv p => output_refined (like · v) (h v hv p) fun _ _ => .trivial _

theorem union {options : List Validator} (h : ∀ c ∈ options, LeavesAs like c) (tags : List String) :
    LeavesAs like (.union options tags) := fun v hv p =>
  output_union (like · v) fun c hc => h c hc v hv p

/-- Two joined validators, if joining outputs keeps what they have in common with the value. -/
theorem both {others : Value → Value → Prop} (hleft : LeavesAs like left) (hright : LeavesAs others right)
    (hmerge : ∀ v l r : Value, v.IsJson → like l v → others r v → other (mergeOutputs l r) v) :
    LeavesAs other (.both left right) := by
  intro v hv p
  refine (answers_both (hleft v hv p) (hright v hv p)).mono ?_
  rintro out ⟨l, r, hl, hr, ⟨hlok, hrok, rfl⟩ | ⟨hrefused, rfl⟩⟩ hok
  · exact hmerge v _ _ hv (hl hlok) (hr hrok)
  · rw [Report.ok_append, hrefused] at hok
    cases hok

end LeavesAs

/-! ## Parts of outputs -/

/-- A list has been left as it is. -/
def SameList (o v : Value) : Prop := ∀ items, v = .list items → o = v

/-- A key is like one of some keys. -/
abbrev IsAmong (keys : List Value) (key : Value) : Prop := (keys.any fun other => other.alike key) = true

/-- Of a mapping, the members outside of some keys have been left as they are, and nothing has been added to them. -/
def SameOthers (keys : List Value) (o v : Value) : Prop := ∀ entries, v = .dict entries →
  ∃ outputs filled, o = .dict (outputs ++ filled) ∧
    List.Forall₂ (fun e e' => e.1 = e'.1 ∧ (IsAmong keys e'.1 ∨ e.2 = e'.2)) outputs entries ∧
    ∀ e ∈ filled, IsAmong keys e.1

section

variable {keys : List Value} {v l r : Value}

theorem SameList.of_eq (h : l = v) : SameList l v := fun _ _ => h

/-- Joining leaves a list to the left side. -/
theorem SameList.mergeOutputs (h : SameList l v) : SameList (mergeOutputs l r) v := by
  rintro items rfl
  rw [h items rfl]
  rfl

theorem SameOthers.of_eq (h : l = v) : SameOthers keys l v := by
  rintro entries rfl
  refine ⟨entries, [], by rw [h, List.append_nil], ?_, List.forall_mem_nil _⟩
  exact List.forall₂_same.mpr fun e _ => ⟨rfl, .inr rfl⟩

/-- The value itself on the right puts every member back that was there. -/
theorem SameOthers.mergeOutputs (hv : v.IsJson) (h : SameOthers keys l v) : SameOthers keys (mergeOutputs l v) v := by
  rintro entries rfl
  obtain ⟨outputs, filled, rfl, hsame, hfilled⟩ := h entries rfl
  have hkeys : outputs.map Prod.fst = entries.map Prod.fst := keys_eq_of_forall₂ hsame
  have hunion := Entries.union_of_keys_eq filled hkeys hv.keys (List.forall_mem_nil _)
  rw [List.append_nil] at hunion
  refine ⟨entries, filled, ?_, List.forall₂_same.mpr fun e _ => ⟨rfl, .inr rfl⟩, hfilled⟩
  rw [Schemata.mergeOutputs, hunion]
  rfl

end

/-! ## Conditions -/

/-- A condition finds in the outputs of a kind what it would have found in the values. -/
def Test.Judges (like : Value → Value → Prop) (test : Test) : Prop :=
  ∀ o v : Value, o.kind = v.kind → like o v → test.holds o = test.holds v

theorem Test.judges_eq (test : Test) : test.Judges Eq := by
  rintro o _ _ rfl
  rfl

/-- Conditions on the items of lists. -/
def Test.isOfItems : Test → Bool
  | .positions .. | .counted .. | .distinct => true
  | _ => false

/-- They hold of everything else. -/
theorem Test.holds_of_isOfItems {test : Test} (h : test.isOfItems = true) {v : Value} (hv : v.kind ≠ some .array) :
    test.holds v = .ok true := by
  cases test with
  | positions | counted | distinct =>
    cases v with
    | list items => exact absurd rfl hv
    | _ => rfl
  | _ => cases h

theorem Test.judges_sameList {test : Test} (h : test.isOfItems = true) : test.Judges SameList := by
  intro o v hkind hsame
  by_cases harray : v.kind = some .array
  · obtain ⟨items, rfl⟩ := eq_array_of_kind harray
    rw [hsame items rfl]
  · rw [holds_of_isOfItems h harray, holds_of_isOfItems h (hkind ▸ harray)]

/-- A traversal that passes over the members under some keys. -/
theorem allSatisfy_sameOthers {keys : List Value} {step : Value × Value → Except Fault Bool} {outputs filled entries : Entries}
    (hpass : ∀ e : Value × Value, IsAmong keys e.1 → step e = .ok true)
    (hsame : List.Forall₂ (fun e e' => e.1 = e'.1 ∧ (IsAmong keys e'.1 ∨ e.2 = e'.2)) outputs entries)
    (hfilled : ∀ e ∈ filled, IsAmong keys e.1) :
    allSatisfy step (outputs ++ filled) = allSatisfy step entries := by
  rw [allSatisfy_append outputs fun e he => hpass e (hfilled e he)]
  refine allSatisfy_paired (hsame.imp ?_)
  rintro ⟨key, w⟩ ⟨key', w'⟩ ⟨hkey, hmember⟩
  obtain rfl : key = key' := hkey
  rcases hmember with hkeys | hw
  · rw [hpass (key, w) hkeys, hpass (key, w') hkeys]
  · obtain rfl : w = w' := hw
    rfl

/-- Patterns are not asked about declared members. -/
theorem Test.judges_sameOthers (rules : List PatternRule) (keys : List Value) (others : Additional) :
    (Test.patterns rules keys others).Judges (SameOthers keys) := by
  intro o v hkind hsame
  by_cases hobject : v.kind = some .object
  · obtain ⟨entries, rfl⟩ := eq_object_of_kind hobject
    obtain ⟨outputs, filled, rfl, hmembers, hfilled⟩ := hsame entries rfl
    rw [holds_patterns, holds_patterns]
    exact allSatisfy_sameOthers (fun e he => if_pos he) hmembers hfilled
  · have hpasses : ∀ w : Value, w.kind ≠ some .object → (Test.patterns rules keys others).holds w = .ok true := by
      intro w hw
      cases w with
      | dict entries => exact absurd rfl hw
      | _ => rfl
    rw [hpasses v hobject, hpasses o (hkind ▸ hobject)]

/-- **A condition is found alike** in the output of one validator and in the value that another has left as it is, if
it judges only what they have in common. -/
theorem SameIssues.refined {like : Value → Value → Prop} {inner inner' : Validator} {test test' : Test}
    (h : SameIssues inner inner') (hleaves : LeavesAs like inner) (hplain : LeavesAs Eq inner') (hjudges : test.Judges like)
    (htest : test.HoldsOn IsJson test') (message : String) :
    SameIssues (.refined inner test message) (.refined inner' test' message) := by
  intro v hv p
  have hkind := answers_kind inner hv.ne_absent p
  have hinner := (h v hv p).and ((hleaves v hv p).and hkind.meets) (hplain v hv p)
  refine lockstep_refined hinner (fun _ _ hr => ok_eq hr.1) ?_ (fun _ _ hr => hr.1) fun _ _ _ _ => rfl
  rintro r r' ⟨hissues, ⟨hlike, hsort⟩, houtput⟩ hok
  rw [houtput (ok_eq hissues ▸ hok), ← htest v hv, hjudges _ _ (hsort hok) (hlike hok)]
  exact .self _

end Schemata
