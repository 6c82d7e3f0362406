import Schemata.Proofs.Validator.Acceptance
import Schemata.Proofs.Validator.Output
import Schemata.Proofs.Validator.Position

/-!
# `Schemata.Proofs.Validator.Passing` — what it takes to pass

A value passes a validator if the validator answers that it is accepted. For a validator with parts that comes to the
same as passing the parts: nothing is lost when a part is not asked, or when one ends in a fault, for then the value
does not pass either.

## Contents
- **Passing.** `Validator.Passes`, `validate_at` and `exists_check_iff`, at any place.
- **Conditions.** `Additional.Passes`, and `holds_undeclared` for members without patterns.
- **Validators.** `passes_refined`, `passes_both` and `passes_object`, with `checkEntries_eq_ok_iff` on the members.
-/

namespace Schemata

open Value

/-! ## Passing -/

namespace Validator

/-- A validator answers that it accepts a value. -/
def Passes (vd : Validator) (v : Value) : Prop := vd.accepts v = .ok true

theorem passes_iff {vd : Validator} {v : Value} : vd.Passes v ↔ ∃ r, vd.check v [] = .ok r ∧ r.ok = true := by
  unfold Passes accepts
  cases vd.check v [] with
  | error e => simp [Except.map]
  | ok r => simp [Except.map]

/-- The place of a value does not matter. -/
theorem passes_at {vd : Validator} {v : Value} (place : Pointer) :
    (∃ r, vd.check v place = .ok r ∧ r.ok = true) ↔ vd.Passes v := by
  rw [passes_iff, check_at place]
  cases vd.check v [] with
  | error e => simp [Except.map]
  | ok r => simp [Except.map]

/-- What a validator gives back does not depend on the place. -/
theorem validate_at {vd : Validator} {v o : Value} (place : Pointer) :
    vd.validate v = .ok (.ok o) ↔ ∃ r, vd.check v place = .ok r ∧ r.ok = true ∧ r.output = o := by
  rw [validate_eq_ok_iff, check_at place]
  cases vd.check v [] with
  | error e => simp [Except.map]
  | ok r =>
    have houtput : (r.under place).output = r.output := rfl
    simp [Except.map, Report.ok_under, houtput]

/-- A validator answers at every place if it answers at the top. -/
theorem exists_check_iff {vd : Validator} {v : Value} (place : Pointer) :
    (∃ r, vd.check v place = .ok r) ↔ ∃ outcome, vd.validate v = .ok outcome := by
  rw [check_at place, validate]
  cases vd.check v [] with
  | error fault => simp [Except.map]
  | ok r => simp [Except.map]

theorem passes_iff_validate {vd : Validator} {v : Value} : vd.Passes v ↔ ∃ o, vd.validate v = .ok (.ok o) := by
  rw [passes_iff]
  constructor
  · rintro ⟨r, hr, hok⟩
    exact ⟨r.output, validate_eq_ok_iff.mpr ⟨r, hr, hok, rfl⟩⟩
  · rintro ⟨o, ho⟩
    obtain ⟨r, hr, hok, _⟩ := validate_eq_ok_iff.mp ho
    exact ⟨r, hr, hok⟩

end Validator

/-! ## Conditions -/

/-- A member or item is let through by what becomes of those that are left over. -/
def Additional.Passes (additional : Additional) (v : Value) : Prop :=
  match additional with
  | .strict => False
  | .passthrough => True
  | .checked c => c.Passes v

theorem Additional.acceptItems_single (additional : Additional) (v : Value) :
    additional.acceptItems (m := Except Fault) (fun f => .ok f.size?) [v] = .ok true ↔ additional.Passes v := by
  cases additional with
  | strict => exact ⟨nofun, False.elim⟩
  | passthrough => exact ⟨fun _ => trivial, fun _ => rfl⟩
  | checked c =>
    rw [acceptItems_checked, allSatisfy_eq_true]
    exact List.forall_mem_singleton

/-- Without any pattern, members that are not declared are left over. -/
theorem Test.holds_undeclared (declared : List Value) (others : Additional) (members : Entries) :
    (Test.patterns [] declared others).holds (.dict members) = .ok true ↔
      ∀ e ∈ members, (declared.any fun name => name.alike e.1) = false → others.Passes e.2 := by
  rw [Test.holds_patterns, allSatisfy_eq_true]
  refine forall₂_congr fun e _ => ?_
  cases hdeclared : declared.any fun name => name.alike e.1 with
  | true => exact ⟨fun _ hne => absurd hne (by decide), fun _ => rfl⟩
  | false => exact (others.acceptItems_single e.2).trans ⟨fun h _ => h, fun h => h rfl⟩

/-! ## Validators -/

namespace Validator

/-- A condition that is put on an unchanged output. -/
theorem passes_refined {inner : Validator} (hfree : DefaultFree inner) {v : Value} (hv : v.IsJson) (test : Test)
    (message : String) : (refined inner test message).Passes v ↔ inner.Passes v ∧ test.holds v = .ok true := by
  have hkept : Answers False (inner.check v []) fun r => r.ok = true → Kept True r.output v :=
    answers_kept inner (fun _ => hfree.unfilling) v [] hv.present
  have hcheck : (refined inner test message).check v [] = (inner.check v [] >>= fun r =>
      if !r.ok then .ok r else test.holds r.output >>= fun holds =>
        if holds then .ok r else .ok (.reject r.output [] (.refinement message))) := rfl
  rw [passes_iff, passes_iff, hcheck]
  cases hinner : inner.check v [] with
  | error e => simp [bind, Except.bind]
  | ok r =>
    cases hok : r.ok with
    | false => simp [bind, Except.bind, hok]
    | true =>
      have houtput : r.output = v := (hkept.meets r hinner hok).same trivial
      cases hholds : test.holds v with
      | error e => simp [bind, Except.bind, hok, houtput, hholds]
      | ok b => cases b <;> simp [bind, Except.bind, hok, houtput, hholds]

theorem passes_both {left right : Validator} {v : Value} : (both left right).Passes v ↔ left.Passes v ∧ right.Passes v := by
  have hcheck : (both left right).check v [] = (left.check v [] >>= fun l => right.check v [] >>= fun r =>
      if l.ok && r.ok then .ok (.accept (mergeOutputs l.output r.output)) else .ok ⟨v, l.issues ++ r.issues⟩) := rfl
  rw [passes_iff, passes_iff, passes_iff, hcheck]
  cases left.check v [] with
  | error e => simp [bind, Except.bind]
  | ok l =>
    cases right.check v [] with
    | error e => simp [bind, Except.bind]
    | ok r =>
      have hissues := Report.ok_append v l r
      cases hl : l.ok <;> cases hr : r.ok <;> simp [bind, Except.bind, hl, hr, hissues]

theorem passes_foldl {vd : Validator} {others : List Validator} {v : Value} :
    (others.foldl both vd).Passes v ↔ vd.Passes v ∧ ∀ c ∈ others, c.Passes v := by
  induction others generalizing vd with
  | nil => simp
  | cons c cs ih => rw [List.foldl_cons, ih, passes_both, List.forall_mem_cons, and_assoc]

/-- A member passes the validator of its field, or is let through. -/
def MemberPasses (fields : List Field) (additional : Additional) (e : Value × Value) : Prop :=
  match Field.find? fields e.1 with
  | some f => f.validator.Passes e.2
  | none => additional.Passes e.2

theorem memberPasses_iff {fields : List Field} {additional : Additional} {e : Value × Value} (path : Pointer) :
    (∃ o, (do
        match (← Field.checkMember (m := Except Fault) (fun f => .ok f.size?) fields e.1 e.2 (path ++ [e.1.plain])) with
        | some r => return (some r.output, r.issues)
        | none => additional.checkMember (fun f => .ok f.size?) e.1 e.2 (path ++ [e.1.plain])) = Except.ok (o, [])) ↔
      MemberPasses fields additional e := by
  have hreported : ∀ c : Validator, (∃ o, ((c.check e.2 (path ++ [e.1.plain])).map fun r => (some r.output, r.issues)) =
      Except.ok (o, [])) ↔ c.Passes e.2 := by
    intro c
    rw [← passes_at (path ++ [e.1.plain])]
    cases c.check e.2 (path ++ [e.1.plain]) with
    | error e => simp [Except.map]
    | ok r => simp [Except.map, Report.ok_iff]
  rw [MemberPasses, checkMember_eq]
  cases Field.find? fields e.1 with
  | some f =>
    refine Iff.trans ?_ (hreported f.validator)
    dsimp only
    cases f.validator.check e.2 (path ++ [e.1.plain]) <;> rfl
  | none =>
    cases additional with
    | strict => exact ⟨fun ⟨_, h⟩ => (List.cons_ne_nil _ _ (Prod.mk.inj (Except.ok.inj h)).2).elim, False.elim⟩
    | passthrough => exact ⟨fun _ => trivial, fun _ => ⟨_, rfl⟩⟩
    | checked c =>
      refine Iff.trans ?_ (hreported c)
      show (∃ o, (c.check e.2 (path ++ [e.1.plain]) >>= _) = _) ↔ _
      cases c.check e.2 (path ++ [e.1.plain]) <;> rfl

theorem checkEntries_iff {check : Value → Value → Except Fault (Option Value × List Issue)} {entries : Entries} :
    (∃ out, checkEntries check entries = .ok (out, [])) ↔ ∀ e ∈ entries, ∃ o, check e.1 e.2 = .ok (o, []) := by
  induction entries with
  | nil => exact ⟨fun _ => List.forall_mem_nil _, fun _ => ⟨_, rfl⟩⟩
  | cons e es ih =>
    rw [List.forall_mem_cons, ← ih, checkEntries]
    cases check e.1 e.2 with
    | error fault => simp [bind, Except.bind]
    | ok one =>
      obtain ⟨o, issues⟩ := one
      cases checkEntries check es with
      | error fault => simp [bind, Except.bind]
      | ok out =>
        obtain ⟨outputs, more⟩ := out
        simp [bind, Except.bind, pure, Except.pure]

/-- What holds of the entries that a traversal leaves without issues. -/
theorem checkEntries_eq_ok_iff {check : Value → Value → Except Fault (Option Value × List Issue)}
    {fits : Value × Value → Value × Value → Prop} (hkey : ∀ e e', fits e e' → e'.1 = e.1)
    (hcheck : ∀ e o, check e.1 e.2 = .ok (o, []) ↔ ∃ w, o = some w ∧ fits e (e.1, w)) {entries out : Entries} :
    checkEntries check entries = .ok (out, []) ↔ List.Forall₂ fits entries out := by
  induction entries generalizing out with
  | nil =>
    rw [List.forall₂_nil_left_iff]
    exact ⟨fun h => (Prod.mk.inj (Except.ok.inj h)).1.symm, fun h => by rw [h]; rfl⟩
  | cons e es ih =>
    rw [List.forall₂_cons_left_iff]
    constructor
    · intro h
      obtain ⟨⟨o, issues⟩, hfirst, h⟩ := exists_of_bind_eq_ok h
      obtain ⟨⟨rest, more⟩, hrest, h⟩ := exists_of_bind_eq_ok h
      obtain ⟨hkept, hissues⟩ := Prod.mk.inj (Except.ok.inj h)
      obtain ⟨rfl, rfl⟩ := List.append_eq_nil_iff.mp hissues
      obtain ⟨w, rfl, hfits⟩ := (hcheck e o).mp hfirst
      exact ⟨(e.1, w), rest, hfits, ih.mp hrest, hkept.symm⟩
    · rintro ⟨⟨k, w⟩, rest, hfits, hrest, rfl⟩
      obtain rfl : k = e.1 := hkey _ _ hfits
      rw [checkEntries, (hcheck e (some w)).mpr ⟨w, rfl, hfits⟩, ih.mpr hrest]
      rfl

/-- **An object passes** if its size does, every member, and every field that it lacks. -/
theorem passes_object {fields : List Field} {additional : Additional} {bounds : Bounds} {members : Entries} :
    (object fields additional bounds).Passes (.dict members) ↔
      memberCountIssues (m := Except Fault) members.length bounds [] = .ok [] ∧
        (∀ e ∈ members, MemberPasses fields additional e) ∧
          ∃ filled, Field.checkAbsent (m := Except Fault) (fun f => .ok f.size?) fields members [] = .ok (filled, []) := by
  have hmembers : (∃ out, checkEntries (fun key item => do
        match (← Field.checkMember (m := Except Fault) (fun f => .ok f.size?) fields key item ([] ++ [key.plain])) with
        | some r => return (some r.output, r.issues)
        | none => additional.checkMember (fun f => .ok f.size?) key item ([] ++ [key.plain])) members = .ok (out, [])) ↔
      ∀ e ∈ members, MemberPasses fields additional e :=
    checkEntries_iff.trans (forall₂_congr fun e _ => memberPasses_iff [])
  rw [passes_iff, ← hmembers]
  show (∃ r, (memberCountIssues members.length bounds [] >>= fun counts => checkEntries _ members >>= fun out =>
    Field.checkAbsent _ fields members [] >>= fun gone =>
      Except.ok (Report.mk (.dict (out.1 ++ gone.1)) (counts ++ out.2 ++ gone.2))) = .ok r ∧ r.ok = true) ↔ _
  generalize checkEntries (m := Except Fault) _ members = present
  cases memberCountIssues (m := Except Fault) members.length bounds [] with
  | error e => simp [bind, Except.bind]
  | ok counts =>
    cases present with
    | error e => simp [bind, Except.bind]
    | ok out =>
      obtain ⟨outputs, issues⟩ := out
      cases Field.checkAbsent (m := Except Fault) (fun f => .ok f.size?) fields members [] with
      | error e => simp [bind, Except.bind]
      | ok gone =>
        obtain ⟨filled, missing⟩ := gone
        simp [bind, Except.bind, Report.ok_iff]

end Validator

end Schemata
