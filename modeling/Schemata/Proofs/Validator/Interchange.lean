import Schemata.Proofs.Validator.Acceptance
import Schemata.Proofs.Validator.Nodes
import Schemata.Proofs.Validator.Sides

/-!
# `Schemata.Proofs.Validator.Interchange` — validators that stand in for each other

Two validators that check trees of nodes alike may be taken for each other wherever such trees are checked: as elements,
positional items, options, conditions and undeclared members. Declared members are checked on the absent value besides,
and there it is enough that both give the same in its place.

## Contents
- **Trees.** `SameOnNodes`, with a rule for every validator with parts.
- **Absent values.** `SameOnAbsent`.
- **Conditions.** `SameOnNodes.refined`, for conditions that hold of the same trees of nodes.
-/

namespace Schemata

open Value Validator

/-! ## Trees -/

/-- Two validators check trees of nodes alike, down to the issues. -/
def SameOnNodes (c c' : Validator) : Prop := ∀ v : Value, v.AllNodes → ∀ p, c.check v p = c'.check v p

/-- Two reports give the same in place of an absent member, or nothing. -/
def SameGift (r r' : Report) : Prop :=
  Field.gives r = Field.gives r' ∧ (Field.gives r = true → r.output = r'.output)

/-- Two validators give the same in place of an absent member. -/
def SameOnAbsent (c c' : Validator) : Prop := ∀ p, Lockstep SameGift (c.check .absent p) (c'.check .absent p)

section

variable {p : Pointer}

theorem SameCauses.eq {issues others : List Issue} (h : SameCauses p p issues others) : issues = others := by
  obtain ⟨causes, rfl, rfl⟩ := h
  rfl

theorem GatheredAlike.eq {out out' : List Value × List Issue} (h : GatheredAlike Eq out out') : out = out' := by
  obtain ⟨reports, reports', hreports, rfl, rfl⟩ := h
  rw [show reports = reports' from List.forall₂_eq_eq_eq ▸ hreports]

theorem MembersAlike.eq {entries : Entries} {out out' : Entries × List Issue} (h : MembersAlike Eq p p entries out out') :
    out = out' := by
  obtain ⟨done, hdone, rfl, rfl⟩ := h
  have heach : ∀ d ∈ done, d.2.1 = d.2.2 := fun d hd => by
    have hfits := hdone.fits d hd
    generalize d.2.1 = one, d.2.2 = other at hfits
    cases hfits with
    | reported hr => rw [hr]
    | passed => rfl
    | unknown => rfl
  rw [Prod.mk.injEq]
  refine ⟨List.filterMap_congr fun d hd => by rw [heach d hd], ?_⟩
  clear hdone
  induction done with
  | nil => rfl
  | cons d ds ih =>
    obtain ⟨hfirst, hrest⟩ := List.forall_mem_cons.mp heach
    rw [List.flatMap_cons, List.flatMap_cons, hfirst, ih hrest]

theorem GoneAlike.eq {alike : Bool → Validator → Validator → Prop} {entries : Entries} {out out' : Entries × List Issue}
    (h : GoneAlike alike (fun _ => SameGift) p p entries out out') : out = out' := by
  obtain ⟨done, done', hdone, rfl, rfl⟩ := h
  have heach : ∀ d d' : Field × Report, Field.Paired alike d.1 d'.1 → SameGift d.2 d'.2 →
      Field.filled? d = Field.filled? d' ∧ Field.missing? p d = Field.missing? p d' := by
    rintro d d' hpaired ⟨hgives, houtput⟩
    obtain ⟨hname, hrequired⟩ := hpaired.name_eq
    rw [Field.filled?, Field.filled?, Field.missing?, Field.missing?, hname, hrequired, ← hgives]
    refine ⟨?_, rfl⟩
    split
    next hgives => rw [houtput hgives]
    next => rfl
  induction hdone with
  | nil => rfl
  | @cons d d' ds ds' hfirst _ ih =>
    obtain ⟨hfilled, hmissing⟩ := heach d d' hfirst.1 hfirst.2.2
    obtain ⟨hmore, hissues⟩ := Prod.mk.inj ih
    rw [filterMap_cons_toList, filterMap_cons_toList, filterMap_cons_toList, filterMap_cons_toList, hfilled, hmissing,
      hmore, hissues]

end

namespace SameOnNodes

theorem refl (c : Validator) : SameOnNodes c c := fun _ _ _ => rfl

theorem step {c c' : Validator} (h : SameOnNodes c c') {v : Value} (hv : v.AllNodes) (p : Pointer) :
    StepAlike Eq p p c c' v := fun token => by
  rw [h v hv]
  exact .self _

theorem acceptOn {c c' : Validator} (h : SameOnNodes c c') : AcceptOn AllNodes c c' := fun v hv => by
  rw [accepts, accepts, h v hv]

theorem array {element element' : Validator} (h : SameOnNodes element element') (bounds : Bounds) :
    SameOnNodes (.array element bounds) (.array element' bounds) := by
  intro v hv p
  cases v with
  | list items =>
    refine Lockstep.eq (lockstep_array (fun w hw => h.step hw p) (fun w hw => hv.item hw) bounds ?_)
    intro counts counts' out out' hcounts hout
    rw [hcounts.eq, hout.eq]
  | _ => rfl

theorem tuple {items items' : List Validator} {rest rest' : Option Validator} (hitems : List.Forall₂ SameOnNodes items items')
    (hrest : Option.Rel SameOnNodes rest rest') (bounds : Bounds) :
    SameOnNodes (.tuple items rest bounds) (.tuple items' rest' bounds) := by
  intro v hv p
  cases v with
  | list vs =>
    have hbeyond : Option.Rel (fun c c' => ∀ v : Value, v.AllNodes → StepAlike Eq p p c c' v) rest rest' := by
      cases hrest with
      | none => exact .none
      | some hc => exact .some fun w hw => hc.step hw p
    refine Lockstep.eq (lockstep_tuple (hitems.imp fun _ _ hc w hw => hc.step hw p) hbeyond (fun w hw => hv.item hw)
      bounds (fun _ => rfl) ?_)
    intro counts counts' out out' more more' hcounts hout hmore
    rw [hcounts.eq, hout.eq, hmore.eq]
  | _ => rfl

theorem object {fields fields' : List Field} {additional additional' : Additional}
    (hfields : List.Forall₂ (Field.Paired fun _ c c' => SameOnNodes c c' ∧ SameOnAbsent c c') fields fields')
    (hadditional : additional.Paired SameOnNodes additional') (bounds : Bounds) :
    SameOnNodes (.object fields additional bounds) (.object fields' additional' bounds) := by
  intro v hv p
  cases v with
  | dict entries =>
    refine Lockstep.eq (lockstep_object hfields hadditional (fun e he _ c c' hc => hc.1.step (hv.member he) p)
      (fun e he c c' hc => hc.step (hv.member he) p) (fun _ c c' hc token => hc.2 _) bounds ?_)
    intro counts counts' out out' filled filled' hcounts hout hfilled
    rw [hcounts.eq, hout.eq, hfilled.eq]
  | _ => rfl

theorem union {options options' : List Validator} (h : List.Forall₂ SameOnNodes options options') (tags : List String) :
    SameOnNodes (.union options tags) (.union options' tags) := by
  intro v hv p
  have heach : List.Forall₂ (fun c c' => Lockstep Eq (c.check v p) (c'.check v p)) options options' :=
    h.imp fun c c' hc => by rw [hc v hv]; exact .self _
  refine Lockstep.eq (lockstep_union (fun r r' hr => by rw [hr]) heach tags ?_ ?_ fun _ => rfl)
  · rintro r _ rfl _
    rfl
  · rintro r _ rfl _
    rfl

theorem both {left right left' right' : Validator} (hleft : SameOnNodes left left') (hright : SameOnNodes right right') :
    SameOnNodes (.both left right) (.both left' right') := by
  intro v hv p
  show (left.check v p >>= fun l => right.check v p >>= _) = (left'.check v p >>= fun l => right'.check v p >>= _)
  rw [hleft v hv, hright v hv]

theorem foldl {vd vd' : Validator} (h : SameOnNodes vd vd') {others others' : List Validator}
    (hothers : List.Forall₂ SameOnNodes others others') : SameOnNodes (others.foldl .both vd) (others'.foldl .both vd') :=
  List.rel_foldl (fun _ _ hvd _ _ hc => hvd.both hc) h hothers

theorem unionOf {options options' : List Validator} (h : List.Forall₂ SameOnNodes options options') (tags : List String) :
    SameOnNodes (Validator.unionOf options tags) (Validator.unionOf options' tags) :=
  forall₂_unionOf (.refl _) (.union h tags) h

end SameOnNodes

/-! ## Conditions -/

theorem Value.goesDown_allNodes : GoesDown AllNodes := ⟨fun h _ => h.item, fun h _ => h.member⟩

/-- A condition is put on the output of the validator inside, which is a tree of nodes. -/
theorem SameOnNodes.refined {inner inner' : Validator} (h : SameOnNodes inner inner') (hkeeps : KeepsNodes inner)
    {test test' : Test} (htest : test.HoldsOn AllNodes test') (message : String) :
    SameOnNodes (.refined inner test message) (.refined inner' test' message) := by
  intro v hv p
  have hinner : Lockstep (fun r r' => r = r' ∧ (r.ok = true → r.output.AllNodes)) (inner.check v p) (inner'.check v p) := by
    rw [← h v hv]
    exact ((Lockstep.self _).and (hkeeps.node hv p) (.trivial _)).mono fun r r' hr => ⟨hr.1, hr.2.1⟩
  refine Lockstep.eq (lockstep_refined hinner (fun _ _ hr => by rw [hr.1]) ?_ (fun _ _ hr => hr.1) fun _ _ hr _ => by rw [hr.1])
  rintro r _ ⟨rfl, hnodes⟩ hok
  rw [htest _ (hnodes hok)]
  exact .self _

end Schemata
