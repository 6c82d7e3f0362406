import Schemata.Proofs.Validator.Agreement

/-!
# `Schemata.Proofs.Validator.Congruence` — respelled values are accepted alike

A regular validator does not see how a value is spelled: if it answers about two respelled values, it accepts both or
neither, and the outputs are again respelled. The outputs have to be, for conditions are put on them, and joined
outputs and filled in members are parts of them.

## Contents
- **Verdicts.** `SameVerdict` on reports, and what it says of traversals.
- **Congruent validators.** `Validator.Congruent`, with a rule for every validator.
- **Regular validators.** `Validator.congruent_regular`, by induction over all validators inside.
-/

namespace Schemata

open Value

/-! ## Verdicts -/

/-- Both values are accepted, with respelled outputs, or neither is. -/
structure SameVerdict (r s : Report) : Prop where
  ok : r.ok = s.ok
  output : r.ok = true → Respelled r.output s.output

namespace SameVerdict

variable {r s : Report}

theorem accept {v w : Value} (h : Respelled v w) : SameVerdict (.accept v) (.accept w) := ⟨rfl, fun _ => h⟩

theorem of_rejected (hr : r.ok = false) (hs : s.ok = false) : SameVerdict r s :=
  ⟨hr.trans hs.symm, fun hok => absurd (hr.symm.trans hok) (by decide)⟩

/-- Fields without a member are filled in alike. -/
theorem gives_eq (h : SameVerdict r s) : Field.gives r = Field.gives s := by
  rw [Bool.eq_iff_iff, Field.gives_iff, Field.gives_iff, ← h.ok]
  refine and_congr_right fun hok => not_congr ⟨fun habsent => ?_, fun habsent => ?_⟩
  · exact (habsent ▸ h.output hok).eq_of_absent
  · exact (habsent ▸ h.output hok).symm.eq_of_absent

end SameVerdict

/-- Traversals with the same verdicts leave issues both or neither, and without issues their outputs are respelled. -/
theorem verdicts_of_forall₂ {α β : Type} {done : List (α × Report)} {done' : List (β × Report)}
    (h : List.Forall₂ (fun d d' => SameVerdict d.2 d'.2) done done') :
    (done.flatMap (·.2.issues)).isEmpty = (done'.flatMap (·.2.issues)).isEmpty ∧
      ((done.flatMap (·.2.issues)).isEmpty = true →
        List.Forall₂ Respelled (done.map (·.2.output)) (done'.map (·.2.output))) := by
  induction h with
  | nil => exact ⟨rfl, fun _ => .nil⟩
  | cons hfirst _ ih =>
    simp only [List.flatMap_cons, List.map_cons, isEmpty_append]
    refine ⟨congrArg₂ (· && ·) hfirst.ok ih.1, fun hok => ?_⟩
    obtain ⟨hok, hrest⟩ := Bool.and_eq_true_iff.mp hok
    exact .cons (hfirst.output hok) (ih.2 hrest)

namespace Validator

/-! ## Congruent validators -/

/-- Respelled values get the same verdict, at whatever places, if both get one. -/
def Congruent (vd : Validator) : Prop :=
  ∀ v w, Respelled v w → ∀ p q, Agree (vd.check v p) (vd.check w q) SameVerdict

variable {v w : Value} {inner : Validator}

theorem Congruent.accepts (h : inner.Congruent) (hvw : Respelled v w) : Agree (inner.accepts v) (inner.accepts w) Eq :=
  (h v w hvw [] []).map fun _ _ hrs => hrs.ok

/-- The reports of a validator on a value, at whatever places. -/
def Reports (vd : Validator) (v : Value) (r : Report) : Prop := ∃ path, vd.check v path = .ok r

theorem answers_reports (vd : Validator) (v : Value) (path : Pointer) : Answers False (vd.check v path) (vd.Reports v) :=
  .of_meets fun _ hr => ⟨path, hr⟩

theorem Congruent.verdict (h : inner.Congruent) (hvw : Respelled v w) {r s : Report} (hr : inner.Reports v r)
    (hs : inner.Reports w s) : SameVerdict r s := by
  obtain ⟨p, hr⟩ := hr
  obtain ⟨q, hs⟩ := hs
  exact h v w hvw p q r s hr hs

/-! ### Leaves -/

theorem isFinite_of_toRat? {x : Double} {q : ℚ} (h : x.toRat? = some q) : x.isFinite = true := by
  cases x with
  | nan | infinity => cases h
  | finite => rfl

/-- Numbers are accepted in every spelling. -/
theorem check_number_of_spells {n : Int} (h : Spells n v) (path : Pointer) : number.check v path = .ok (.accept v) := by
  cases h with
  | int => rfl
  | @float x form value limit =>
    show Except.ok (if x.isFinite then _ else _) = _
    rw [if_pos (isFinite_of_toRat? value)]

/-- **Validators without parts are congruent.** -/
theorem congruent_leaf {vd : Validator} (hleaf : vd.isLeaf = true) : vd.Congruent := by
  intro v w h p q
  have hverdict : Agree (vd.check v p) (vd.check w q) fun r s => r.ok = s.ok := by
    cases vd with
    | any | never => exact .ok rfl
    | string | boolean | null =>
      cases h with
      | same => cases v <;> exact .ok rfl
      | number n left right => cases left <;> cases right <;> exact .ok rfl
      | list | dict => exact .ok rfl
    -- numbers are the one kind of leaves that are respelled, and a spelling of an integer is finite
    | number =>
      cases h with
      | same scalar =>
        cases v with
        | float x =>
          show Agree (.ok (if x.isFinite then Report.accept _ else _)) (.ok (if x.isFinite then Report.accept _ else _)) _
          split <;> exact .ok rfl
        | _ => exact .ok rfl
      | number n left right =>
        rw [check_number_of_spells left, check_number_of_spells right]
        exact .ok rfl
      | list | dict => exact .ok rfl
    | literal value =>
      by_cases habsent : v = .absent
      · subst habsent
        obtain rfl := h.eq_of_absent
        exact .ok rfl
      · have hw : w ≠ .absent := fun hw => habsent (hw ▸ h.symm).eq_of_absent
        refine .of_answers (Decides.literal habsent False.elim p) (Decides.literal hw False.elim q) fun r s hr hs => ?_
        rw [hr.1, hs.1, (h.indistinct value).1]
    | enumeration values =>
      by_cases habsent : v = .absent
      · subst habsent
        obtain rfl := h.eq_of_absent
        exact .ok rfl
      · have hw : w ≠ .absent := fun hw => habsent (hw ▸ h.symm).eq_of_absent
        refine .of_answers (Decides.enumeration habsent (fun _ _ => False.elim) p)
          (Decides.enumeration hw (fun _ _ => False.elim) q) fun r s hr hs => ?_
        rw [hr.1, hs.1]
        exact List.any_congr rfl fun value => (h.indistinct value).1
    | file limits =>
      cases h with
      | same scalar => cases v <;> first | exact .ok rfl | (rcases scalar with h | h <;> cases h)
      | number n left right => cases left <;> cases right <;> exact .ok rfl
      | list | dict => exact .ok rfl
    | _ => cases hleaf
  refine (hverdict.and (answers_leaf hleaf v p) (answers_leaf hleaf w q)).mono ?_
  rintro r s ⟨hok, hr, hs⟩
  exact ⟨hok, fun _ => hr.output ▸ hs.output ▸ h⟩

/-! ### Combinations -/

theorem check_optional (hv : v ≠ .absent) (inner : Validator) (path : Pointer) :
    (optional inner).check v path = inner.check v path := by
  cases v with
  | absent => exact (hv rfl).elim
  | _ => exact bind_pure _

theorem Congruent.optional (h : inner.Congruent) : (optional inner).Congruent := by
  intro v w hvw p q
  by_cases habsent : v = .absent
  · subst habsent
    obtain rfl := hvw.eq_of_absent
    refine .bind (h _ _ hvw p q) fun r s hrs => ?_
    show Agree (.ok (if r.ok then r else _)) (.ok (if s.ok then s else _)) _
    rw [← hrs.ok]
    split
    · exact .ok hrs
    · exact .ok (.accept hvw)
  · have hw : w ≠ .absent := fun hw => habsent (hw ▸ hvw.symm).eq_of_absent
    rw [check_optional habsent, check_optional hw]
    exact h v w hvw p q

theorem Congruent.defaulted (h : inner.Congruent) {value : Value} (hvalue : value.IsJson) :
    (defaulted inner value).Congruent := by
  intro v w hvw p q
  by_cases habsent : v = .absent
  · subst habsent
    obtain rfl := hvw.eq_of_absent
    exact .ok (.accept (.refl_of_json hvalue))
  · have hw : w ≠ .absent := fun hw => habsent (hw ▸ hvw.symm).eq_of_absent
    rw [check_defaulted habsent, check_defaulted hw]
    exact h v w hvw p q

/-- A condition on the outputs of a validator agrees on respelled ones. -/
theorem Asks.agree {sure : Prop} {test : Test} (h : inner.Asks sure test)
    (hinside : ∀ c ∈ test.validators, c.Congruent) {r s : Report} (hr : inner.Reports v r) (hok : r.ok = true)
    (hrs : Respelled r.output s.output) : Agree (test.holds r.output) (test.holds s.output) Eq := by
  rcases h with huniversal | ⟨kind, hyields, hsuits⟩
  · exact huniversal.agree hrs fun c hc v w hvw => (hinside c hc).accepts hvw
  · obtain ⟨path, hr⟩ := hr
    exact hsuits.agree_of_tag hrs ((hyields v path).meets r hr hok)

theorem Congruent.refined {sure : Prop} {test : Test} (h : inner.Congruent) (hasks : inner.Asks sure test)
    (hinside : ∀ c ∈ test.validators, c.Congruent) (message : String) : (refined inner test message).Congruent := by
  intro v w hvw p q
  refine .bind ((h v w hvw p q).and (answers_reports inner v p) (answers_reports inner w q)) ?_
  rintro r s ⟨hrs, hr, _⟩
  rw [← hrs.ok]
  by_cases hok : r.ok = true
  · rw [if_neg (by simp [hok]), if_neg (by simp [hok])]
    refine .bind (hasks.agree hinside hr hok (hrs.output hok)) ?_
    rintro b _ rfl
    cases b with
    | true => exact .pure hrs
    | false => exact .pure (.of_rejected rfl rfl)
  · rw [if_pos (by simp [hok]), if_pos (by simp [hok])]
    exact .pure hrs

theorem Congruent.both {left right : Validator} (hleft : left.Congruent) (hright : right.Congruent) :
    (both left right).Congruent := by
  intro v w hvw p q
  refine .bind (hleft v w hvw p q) fun l l' hl => .bind (hright v w hvw p q) fun r r' hr => ?_
  rw [← hl.ok, ← hr.ok]
  by_cases hok : (l.ok && r.ok) = true
  · obtain ⟨hlok, hrok⟩ := Bool.and_eq_true_iff.mp hok
    rw [if_pos hok, if_pos hok]
    exact .pure (.accept (.mergeOutputs (hl.output hlok) (hr.output hrok)))
  · rw [if_neg hok, if_neg hok]
    refine .pure (.of_rejected ?_ ?_)
    · rw [Report.ok_append]
      exact Bool.eq_false_iff.mpr hok
    · rw [Report.ok_append, ← hl.ok, ← hr.ok]
      exact Bool.eq_false_iff.mpr hok

/-- What trying options on two respelled values may give: respelled outputs, or issues of every option. -/
def SameChoice (x y : Value ⊕ List (List Issue)) : Prop :=
  (∃ o o', x = .inl o ∧ y = .inl o' ∧ Respelled o o') ∨
    ∃ is js, x = .inr is ∧ y = .inr js ∧ (∀ issues ∈ is, issues.isEmpty = false) ∧ ∀ issues ∈ js, issues.isEmpty = false

theorem agree_checkOptions {options : List Validator} (h : ∀ c ∈ options, c.Congruent) (admitted : List Bool)
    (hvw : Respelled v w) (p q : Pointer) :
    Agree (checkOptions (m := Except Fault) (fun f => .ok f.size?) options admitted v p)
      (checkOptions (m := Except Fault) (fun f => .ok f.size?) options admitted w q) SameChoice := by
  have hnone : SameChoice (.inr []) (.inr []) := .inr ⟨[], [], rfl, rfl, List.forall_mem_nil _, List.forall_mem_nil _⟩
  induction options generalizing admitted with
  | nil => exact .pure hnone
  | cons c cs ih =>
    obtain ⟨hfirst, hrest⟩ := List.forall_mem_cons.mp h
    cases admitted with
    | nil => exact .pure hnone
    | cons b bs =>
      cases b with
      | false => exact ih hrest bs
      | true =>
        refine .bind (hfirst v w hvw p q) fun r s hrs => ?_
        rw [← hrs.ok]
        by_cases hok : r.ok = true
        · rw [if_pos hok, if_pos hok]
          exact .pure (.inl ⟨_, _, rfl, rfl, hrs.output hok⟩)
        · rw [if_neg hok, if_neg hok]
          have hrejected := Bool.eq_false_iff.mpr hok
          refine .bind (ih hrest bs) ?_
          rintro _ _ (⟨o, o', rfl, rfl, houtputs⟩ | ⟨is, js, rfl, rfl, his, hjs⟩)
          · exact .pure (.inl ⟨o, o', rfl, rfl, houtputs⟩)
          · exact .pure (.inr ⟨_, _, rfl, rfl, List.forall_mem_cons.mpr ⟨hrejected, his⟩,
              List.forall_mem_cons.mpr ⟨hrs.ok.symm.trans hrejected, hjs⟩⟩)

theorem goesByTags_eq (tags : List String) (h : Respelled v w) : goesByTags tags v = goesByTags tags w := by
  have hpresent : ∀ u : Value, isPresent u = false ↔ u = .absent := fun u => by cases u <;> simp [isPresent]
  have heq : isPresent v = isPresent w := by
    rw [← Bool.not_inj_iff, Bool.eq_iff_iff, Bool.not_eq_true', Bool.not_eq_true', hpresent, hpresent]
    exact ⟨fun hv => (hv ▸ h).eq_of_absent, fun hw => (hw ▸ h.symm).eq_of_absent⟩
  rw [goesByTags, goesByTags, heq]

theorem flags_eq (options : List Validator) (tags : List String) (h : Respelled v w) :
    flags options tags v = flags options tags w := by
  rw [flags, flags, goesByTags_eq tags h, h.kind_eq]

/-- A union whose options refuse a value refuses it. -/
theorem answers_refusals {refusals : List (List Issue)} (h : ∀ issues ∈ refusals, issues.isEmpty = false) (v : Value)
    (path : Pointer) :
    Answers True (match (Sum.inr refusals : Value ⊕ List (List Issue)) with
      | .inl output => pure (Report.accept output)
      | .inr [issues] => pure ⟨v, issues⟩
      | .inr _ => pure (.reject v path (if isPresent v then .noOption else .required)) : Except Fault Report)
      fun r => r.ok = false := by
  cases refusals with
  | nil => exact .pure rfl
  | cons issues more =>
    cases more with
    | nil => exact .pure (h issues List.mem_cons_self)
    | cons => exact .pure rfl

/-- **Unions of congruent options are congruent**: the same option is the first to accept. -/
theorem congruent_union {options : List Validator} (tags : List String) (h : ∀ c ∈ options, c.Congruent) :
    (union options tags).Congruent := by
  intro v w hvw p q
  rw [check_union, check_union, goesByTags_eq tags hvw, flags_eq options tags hvw]
  split
  · exact .pure (.of_rejected rfl rfl)
  refine .bind (agree_checkOptions h _ hvw p q) ?_
  rintro _ _ (⟨o, o', rfl, rfl, houtputs⟩ | ⟨is, js, rfl, rfl, his, hjs⟩)
  · exact .pure (.accept houtputs)
  · exact .of_answers (answers_refusals his v p) (answers_refusals hjs w q) fun _ _ => .of_rejected

/-! ### Structures -/

variable {bounds : Bounds} {sure : Prop}

theorem congruent_array {element : Validator} (hbounds : bounds.AreCounts sure) (h : element.Congruent) :
    (array element bounds).Congruent := by
  intro v w hvw p q
  rcases hvw.lists_or_others with ⟨vs, ws, rfl, rfl, hitems⟩ | ⟨hv, hw⟩
  · refine .of_answers (answers_array ((answers_lengthIssues hbounds _ p).weaken) fun i u _ => answers_reports element u _)
      (answers_array ((answers_lengthIssues hbounds _ q).weaken) fun i u _ => answers_reports element u _) ?_
    rintro _ _ ⟨lengths, done, hlengths, hdone, rfl⟩ ⟨lengths', done', hlengths', hdone', rfl⟩
    obtain ⟨hissues, houtputs⟩ := verdicts_of_forall₂
      ((hdone.forall₂ hdone' hitems).imp fun d d' hd => h.verdict hd.1 hd.2.1 hd.2.2)
    refine ⟨?_, fun hok => ?_⟩
    · rw [Report.ok, Report.ok, isEmpty_append, isEmpty_append, hlengths, hlengths', hitems.length_eq, hissues]
    · rw [Report.ok, isEmpty_append, Bool.and_eq_true] at hok
      exact .of_items (houtputs hok.2)
  · obtain ⟨cause, hcause⟩ := check_array_other hv element bounds p
    obtain ⟨cause', hcause'⟩ := check_array_other hw element bounds q
    rw [hcause, hcause']
    exact .ok (.of_rejected rfl rfl)

/-- Items at the same positions. -/
theorem forall₂_zip {validators : List Validator} {vs ws : List Value} (h : List.Forall₂ Respelled vs ws) :
    List.Forall₂ (fun e f => e.1 ∈ validators ∧ e.1 = f.1 ∧ Respelled e.2 f.2) (validators.zip vs) (validators.zip ws) := by
  induction validators generalizing vs ws with
  | nil => exact .nil
  | cons c cs ih =>
    cases h with
    | nil => exact .nil
    | cons hfirst hrest =>
      exact .cons ⟨List.mem_cons_self, rfl, hfirst⟩ ((ih hrest).imp fun _ _ h => ⟨List.mem_cons_of_mem _ h.1, h.2⟩)

theorem not_outside {size length : Nat} {rest : Option Validator} (h : size ≤ length ∧ (rest = none → length = size)) :
    ¬ (length < size ∨ rest = none ∧ length ≠ size) := by
  rintro (hlt | ⟨hnone, hne⟩)
  · omega
  · exact hne (h.2 hnone)

theorem congruent_tuple {validators : List Validator} {rest : Option Validator} (hbounds : bounds.AreCounts sure)
    (h : ∀ c ∈ validators, c.Congruent) (hrest : ∀ c, rest = some c → c.Congruent) :
    (tuple validators rest bounds).Congruent := by
  intro v w hvw p q
  rcases hvw.lists_or_others with ⟨vs, ws, rfl, rfl, hitems⟩ | ⟨hv, hw⟩
  · have hbeyond : ∀ c, rest = some c → ∀ u path, Answers False (c.check u path) fun r =>
        ∃ c, rest = some c ∧ c.Reports u r := fun c hc u path =>
      (answers_reports c u path).mono fun r hr => ⟨c, hc, hr⟩
    refine .of_answers
      (answers_tuple (answers_lengthIssues hbounds _ p).weaken (fun i c u _ _ => answers_reports c u _)
        fun c hc i u _ => hbeyond c hc u _)
      (answers_tuple (answers_lengthIssues hbounds _ q).weaken (fun i c u _ _ => answers_reports c u _)
        fun c hc i u _ => hbeyond c hc u _) ?_
    rw [← hitems.length_eq]
    rintro _ _ (⟨houtside, _, _, rfl⟩ | ⟨hinside, lengths, done, beyond, hlengths, hdone, hmore, rfl⟩)
      (⟨houtside', _, _, rfl⟩ | ⟨hinside', lengths', done', beyond', hlengths', hdone', hmore', rfl⟩)
    · exact .of_rejected rfl rfl
    · exact absurd houtside (not_outside hinside')
    · exact absurd houtside' (not_outside hinside)
    · obtain ⟨hissues, houtputs⟩ := verdicts_of_forall₂ ((hdone.forall₂ hdone' (forall₂_zip hitems)).imp
        fun d d' ⟨⟨hc, heq, hd⟩, hr, hs⟩ => (h _ hc).verdict hd hr (heq ▸ hs))
      obtain ⟨hmoreIssues, hmoreOutputs⟩ := verdicts_of_forall₂
        ((hmore.forall₂ hmore' (List.forall₂_drop _ hitems)).imp fun d d' ⟨hd, ⟨c, hc, hr⟩, c', hc', hs⟩ =>
          (hrest c hc).verdict hd hr (Option.some.inj (hc.symm.trans hc') ▸ hs))
      refine ⟨?_, fun hok => ?_⟩
      · simp only [Report.ok, isEmpty_append, hlengths, hlengths', hissues, hmoreIssues]
      · simp only [Report.ok, isEmpty_append, Bool.and_eq_true] at hok
        exact .of_items (List.rel_append (houtputs hok.1.2) (hmoreOutputs hok.2))
  · obtain ⟨cause, hcause⟩ := check_tuple_other hv validators rest bounds p
    obtain ⟨cause', hcause'⟩ := check_tuple_other hw validators rest bounds q
    rw [hcause, hcause']
    exact .ok (.of_rejected rfl rfl)

/-! ### Objects -/

/-- A member leaves issues in both objects or in neither, and without issues respelled outputs. -/
structure SameMember (out out' : Option Value × List Issue) : Prop where
  issues : out.2.isEmpty = out'.2.isEmpty
  output : out.2.isEmpty = true → ∃ o o', out.1 = some o ∧ out'.1 = some o' ∧ Respelled o o'

theorem SameVerdict.member {r s : Report} (h : SameVerdict r s) :
    SameMember (some r.output, r.issues) (some s.output, s.issues) :=
  ⟨h.ok, fun hok => ⟨_, _, rfl, rfl, h.output hok⟩⟩

theorem agree_checkMember {fields : List Field} {additional : Additional} (hfields : ∀ f ∈ fields, f.validator.Congruent)
    (hadditional : ∀ c, additional = .checked c → c.Congruent) (key : Value) (hvw : Respelled v w) (p q : Pointer) :
    Agree (do
      match (← Field.checkMember (m := Except Fault) (fun f => .ok f.size?) fields key v p) with
      | some r => return (some r.output, r.issues)
      | none => additional.checkMember (fun f => .ok f.size?) key v p) (do
      match (← Field.checkMember (m := Except Fault) (fun f => .ok f.size?) fields key w q) with
      | some r => return (some r.output, r.issues)
      | none => additional.checkMember (fun f => .ok f.size?) key w q) SameMember := by
  rw [checkMember_eq, checkMember_eq]
  cases hfind : Field.find? fields key with
  | some f =>
    have hreport : Agree ((f.validator.check v p).map some) ((f.validator.check w q).map some) fun x y =>
        ∃ r s, SameVerdict r s ∧ x = some r ∧ y = some s :=
      (hfields f (List.mem_of_find?_eq_some hfind) v w hvw p q).map fun r s hrs => ⟨r, s, hrs, rfl, rfl⟩
    refine hreport.bind ?_
    rintro _ _ ⟨r, s, hrs, rfl, rfl⟩
    exact .pure (SameVerdict.member hrs)
  | none =>
    cases additional with
    | strict => exact .pure ⟨rfl, nofun⟩
    | passthrough => exact .pure ⟨rfl, fun _ => ⟨v, w, rfl, rfl, hvw⟩⟩
    | checked c => exact (hadditional c rfl v w hvw p q).bind fun r s hrs => .pure (SameVerdict.member hrs)

/-- **Members with the same verdicts** leave issues both or neither, and without issues their entries are respelled. -/
theorem members_of_visits {es fs : Entries} {check check' : Value → Value → Except Fault (Option Value × List Issue)}
    {done done' : List ((Value × Value) × (Option Value × List Issue))} (hmembers : Respelled.Members es fs)
    (hsame : ∀ key v w, Respelled v w → Agree (check key v) (check' key w) SameMember)
    (hdone : Visits es (fun e out => check e.1 e.2 = .ok out) done)
    (hdone' : Visits fs (fun e out => check' e.1 e.2 = .ok out) done') :
    (done.flatMap (·.2.2)).isEmpty = (done'.flatMap (·.2.2)).isEmpty ∧ ((done.flatMap (·.2.2)).isEmpty = true →
      (done.filterMap keptEntry).map Prod.fst = es.map Prod.fst ∧
        Respelled.Members (done.filterMap keptEntry) (done'.filterMap keptEntry)) := by
  -- The entries may come in another order, so visits are matched by key and not by position.
  have hpair : ∀ d ∈ done, ∀ d' ∈ done', d.1.1 = d'.1.1 → SameMember d.2 d'.2 := fun d hd d' hd' hkey =>
    hsame d.1.1 _ _ (hmembers.each _ _ (hdone.mem hd) (hdone'.mem hd') hkey) _ _ (hdone.fits d hd)
      (hkey ▸ hdone'.fits d' hd')
  have hissues : (∀ d ∈ done, d.2.2 = []) ↔ ∀ d' ∈ done', d'.2.2 = [] := by
    constructor
    · intro h d' hd'
      obtain ⟨e, he, hkey, _⟩ := hmembers.symm.counterpart (hdone'.mem hd')
      obtain ⟨out, hd⟩ := hdone.exists_of_mem he
      have hissues := (hpair _ hd d' hd' hkey.symm).issues
      rw [h _ hd] at hissues
      exact List.isEmpty_iff.mp hissues.symm
    · intro h d hd
      obtain ⟨f, hf, hkey, _⟩ := hmembers.counterpart (hdone.mem hd)
      obtain ⟨out, hd'⟩ := hdone'.exists_of_mem hf
      have hissues := (hpair d hd _ hd' hkey).issues
      rw [h _ hd'] at hissues
      exact List.isEmpty_iff.mp hissues
  refine ⟨?_, fun hnone => ?_⟩
  · rw [Bool.eq_iff_iff, List.isEmpty_iff, List.isEmpty_iff, List.flatMap_eq_nil_iff, List.flatMap_eq_nil_iff]
    exact hissues
  · rw [List.isEmpty_iff, List.flatMap_eq_nil_iff] at hnone
    have hkept : ∀ d ∈ done, ∀ d' ∈ done', d.1.1 = d'.1.1 → ∃ o o', d.2.1 = some o ∧ d'.2.1 = some o' ∧ Respelled o o' :=
      fun d hd d' hd' hkey => (hpair d hd d' hd' hkey).output (List.isEmpty_iff.mpr (hnone d hd))
    have hleft : (done.filterMap keptEntry).map Prod.fst = es.map Prod.fst := by
      rw [← hdone.args]
      refine keys_eq_of_forall₂ (@kept_entries (fun _ _ => True) done fun d hd => ?_)
      obtain ⟨f, hf, hkey, _⟩ := hmembers.counterpart (hdone.mem hd)
      obtain ⟨out, hd'⟩ := hdone'.exists_of_mem hf
      obtain ⟨o, _, ho, _⟩ := hkept d hd _ hd' hkey
      exact ⟨o, ho, trivial⟩
    have hright : (done'.filterMap keptEntry).map Prod.fst = fs.map Prod.fst := by
      rw [← hdone'.args]
      refine keys_eq_of_forall₂ (@kept_entries (fun _ _ => True) done' fun d' hd' => ?_)
      obtain ⟨e, he, hkey, _⟩ := hmembers.symm.counterpart (hdone'.mem hd')
      obtain ⟨out, hd⟩ := hdone.exists_of_mem he
      obtain ⟨_, o', _, ho', _⟩ := hkept _ hd d' hd' hkey.symm
      exact ⟨o', ho', trivial⟩
    refine ⟨hleft, hleft ▸ hmembers.left, hright ▸ hmembers.right, fun k => ?_, fun e f he hf hkey => ?_⟩
    · rw [hleft, hright]
      exact hmembers.keys k
    · obtain ⟨d, hd, hde⟩ := List.mem_filterMap.mp he
      obtain ⟨d', hd', hdf⟩ := List.mem_filterMap.mp hf
      obtain ⟨o, ho, rfl⟩ := Option.map_eq_some_iff.mp hde
      obtain ⟨o', ho', rfl⟩ := Option.map_eq_some_iff.mp hdf
      obtain ⟨_, _, ho₁, ho₁', h⟩ := hkept d hd d' hd' hkey
      obtain rfl := Option.some.inj (ho.symm.trans ho₁)
      obtain rfl := Option.some.inj (ho'.symm.trans ho₁')
      exact h

theorem agree_checkEntries {es fs : Entries} {check check' : Value → Value → Except Fault (Option Value × List Issue)}
    (hmembers : Respelled.Members es fs)
    (hsame : ∀ key v w, Respelled v w → Agree (check key v) (check' key w) SameMember) :
    Agree (checkEntries check es) (checkEntries check' fs) fun x y => x.2.isEmpty = y.2.isEmpty ∧
      (x.2.isEmpty = true → x.1.map Prod.fst = es.map Prod.fst ∧ Respelled.Members x.1 y.1) := by
  refine .of_answers (answers_checkEntries es fun e _ => .of_meets fun out h => h)
    (answers_checkEntries fs fun e _ => .of_meets fun out h => h) ?_
  rintro _ _ ⟨done, hdone, rfl⟩ ⟨done', hdone', rfl⟩
  exact members_of_visits hmembers hsame hdone hdone'

/-- Fields without a member, with the same verdicts on the absent value, are filled in or missing alike. -/
theorem absent_of_forall₂ {gone gone' : List (Field × Report)} (p q : Pointer)
    (h : List.Forall₂ (fun d d' => d.1 = d'.1 ∧ SameVerdict d.2 d'.2) gone gone') :
    (gone.filterMap (Field.missing? p)).isEmpty = (gone'.filterMap (Field.missing? q)).isEmpty ∧
      List.Forall₂ (fun e f => e.1 = f.1 ∧ Respelled e.2 f.2) (gone.filterMap Field.filled?)
        (gone'.filterMap Field.filled?) := by
  induction h with
  | nil => exact ⟨rfl, .nil⟩
  | @cons d d' _ _ hfirst _ ih =>
    obtain ⟨f, r⟩ := d
    obtain ⟨_, s⟩ := d'
    obtain ⟨rfl, hrs⟩ := hfirst
    have hgives := hrs.gives_eq
    by_cases hr : Field.gives r = true
    · simp only [List.filterMap_cons, Field.missing?, Field.filled?, ← hgives, hr]
      exact ⟨ih.1, .cons ⟨rfl, hrs.output (Field.gives_iff.mp hr).1⟩ ih.2⟩
    · cases hrequired : f.required with
      | true =>
        simp only [List.filterMap_cons, Field.missing?, Field.filled?, ← hgives, hr, hrequired]
        exact ⟨rfl, ih.2⟩
      | false =>
        simp only [List.filterMap_cons, Field.missing?, Field.filled?, ← hgives, hr, hrequired]
        exact ih

theorem agree_checkAbsent {es fs : Entries} {fields : List Field} (hmembers : Respelled.Members es fs)
    (hfields : ∀ f ∈ fields, f.validator.Congruent) (p q : Pointer) :
    Agree (Field.checkAbsent (m := Except Fault) (fun f => .ok f.size?) fields es p)
      (Field.checkAbsent (m := Except Fault) (fun f => .ok f.size?) fields fs q) fun x y =>
        x.2.isEmpty = y.2.isEmpty ∧ List.Forall₂ (fun e f => e.1 = f.1 ∧ Respelled e.2 f.2) x.1 y.1 ∧
          (x.1.map Prod.fst).Sublist ((Field.absent fields es).map Field.name) := by
  have habsent : Field.absent fields fs = Field.absent fields es :=
    List.filter_congr fun f _ => by rw [hmembers.hasAlike_eq]
  refine .of_answers (answers_checkAbsent fields fun f _ => answers_reports f.validator .absent _)
    (answers_checkAbsent fields fun f _ => answers_reports f.validator .absent _) ?_
  rintro _ _ ⟨gone, hgone, rfl⟩ ⟨gone', hgone', rfl⟩
  rw [habsent] at hgone'
  have hsame : List.Forall₂ (fun f g => f ∈ fields ∧ f = g) (Field.absent fields es) (Field.absent fields es) :=
    List.forall₂_same.mpr fun f hf => ⟨List.mem_of_mem_filter hf, rfl⟩
  obtain ⟨hmissing, hfilled⟩ := absent_of_forall₂ p q ((hgone.forall₂ hgone' hsame).imp
    fun d d' ⟨⟨hf, heq⟩, hr, hs⟩ => ⟨heq, (hfields _ hf).verdict (.same (.inr rfl)) hr (heq ▸ hs)⟩)
  exact ⟨hmissing, hfilled, hgone.args ▸ Field.filled_sublist gone⟩

/-- **Objects with congruent fields are congruent**, in whatever order the members come. -/
theorem congruent_object {fields : List Field} {additional : Additional} (hbounds : bounds.AreCounts sure)
    (hnames : AreNames True (fields.map Field.name)) (hfields : ∀ f ∈ fields, f.validator.Congruent)
    (hadditional : ∀ c, additional = .checked c → c.Congruent) : (object fields additional bounds).Congruent := by
  intro v w hvw p q
  rcases hvw.dicts_or_others with ⟨es, fs, rfl, rfl, hmembers⟩ | ⟨hv, hw⟩
  · have hcounts : Agree (memberCountIssues (m := Except Fault) es.length bounds p)
        (memberCountIssues (m := Except Fault) fs.length bounds q) fun counts counts' => counts.isEmpty = counts'.isEmpty :=
      .of_answers (answers_memberCountIssues hbounds _ p) (answers_memberCountIssues hbounds _ q)
        fun counts counts' h h' => by rw [h, h', hmembers.length_eq]
    refine .bind hcounts fun counts counts' hcounts => ?_
    refine .bind (agree_checkEntries hmembers fun key v w hvw => agree_checkMember hfields hadditional key hvw _ _) ?_
    rintro ⟨present, issues⟩ ⟨present', issues'⟩ ⟨hissues, hpresent⟩
    refine .bind (agree_checkAbsent hmembers hfields p q) ?_
    rintro ⟨filled, missing⟩ ⟨filled', missing'⟩ ⟨hmissing, hfilled, hkeys⟩
    refine .pure ⟨?_, fun hok => ?_⟩
    · simp only [Report.ok, isEmpty_append, hcounts, hissues, hmissing]
    · simp only [Report.ok, isEmpty_append, Bool.and_eq_true] at hok
      obtain ⟨hnames', hpresent⟩ := hpresent hok.1.2
      have hfieldNames := hkeys.trans (List.filter_sublist.map Field.name)
      refine (hpresent.append (.of_forall₂ hfilled ⟨fun k hk => hnames.texts k (hfieldNames.subset hk),
        (hnames.distinct trivial).sublist hfieldNames⟩) fun k hk => ?_).dict
      -- what is filled in has no member
      rw [hnames']
      intro hmember
      obtain ⟨f, hf, rfl⟩ := List.mem_map.mp (hkeys.subset hk)
      have hnone := (List.mem_filter.mp hf).2
      obtain ⟨e, he, hname⟩ := List.mem_map.mp hmember
      have hhas : Entries.hasAlike es f.name = true :=
        List.any_eq_true.mpr ⟨e, he, hname ▸ hmembers.left.alike_self (List.mem_map_of_mem he)⟩
      rw [hhas] at hnone
      cases hnone
  · obtain ⟨cause, hcause⟩ := check_object_other hv fields additional bounds p
    obtain ⟨cause', hcause'⟩ := check_object_other hw fields additional bounds q
    rw [hcause, hcause']
    exact .ok (.of_rejected rfl rfl)

/-! ## Regular validators -/

/-- **A regular validator accepts respelled values alike**, with respelled outputs, if it answers about both. -/
theorem congruent_regular {vd : Validator} (h : Throughout (IsRegular sure True) vd) : vd.Congruent := by
  induction vd using inductionOnParts with
  | step vd ih =>
    have hchild : ∀ c ∈ vd.children, c.Congruent := fun c hc => ih c (children_subset_parts vd hc) (h.child hc)
    have hself := h.whole
    cases vd with
    | refined inner test message =>
      exact (hchild inner List.mem_cons_self).refined hself
        (fun c hc => ih c (List.mem_cons_of_mem _ hc) (h.inTest hc)) message
    | optional inner => exact (hchild inner List.mem_cons_self).optional
    | defaulted inner value => exact (hchild inner List.mem_cons_self).defaulted (hself.2 trivial)
    | described inner text => exact hchild inner List.mem_cons_self
    | union options tags => exact congruent_union tags hchild
    | both left right => exact (hchild left (by simp [children])).both (hchild right (by simp [children]))
    | array element bounds => exact congruent_array hself (hchild element List.mem_cons_self)
    | tuple validators rest bounds =>
      exact congruent_tuple hself (fun c hc => hchild c (List.mem_append_left _ hc)) fun c hc =>
        hchild c (mem_children_rest hc)
    | object fields additional bounds =>
      exact congruent_object hself.1 hself.2
        (fun f hf => hchild f.validator (mem_children_field hf)) fun c hc => hchild c (mem_children_additional hc)
    | _ => exact congruent_leaf rfl

end Validator

end Schemata
