import Schemata.Proofs.Validator.Conditions
import Schemata.Proofs.Validator.Demands
import Schemata.Proofs.Value.Writable

/-!
# `Schemata.Proofs.Validator.Safety` — validators that always answer

Validation ends in a fault where a condition makes no sense of a value, where a limit is no number, and where a
message would hold an integer of too many digits. None of this happens in a sound validator on a value that can be
written, for the outputs that it puts conditions on can be written too.

## Contents
- **Sound validators.** `Test.IsUniversal` and `Demands.sound`; `Demands.regular`, which asks for integers as
  limits.
- **Conditions.** `IsUniversal.answers`: conditions that may be asked of every value.
- **Safety.** `Validator.answers_sound`, and `Validator.answers_regular` from it.
-/

namespace Schemata

/-! ## Sound validators -/

/-- Whether a condition may be asked of every value. -/
def Test.IsUniversal : Test → Prop
  | .amongComposites _ | .equals _ | .positions _ _ | .patterns _ _ _ | .distinct | .rejectedBy _ => True
  | .counted _ least most => least.IsOrdered ∧ ∀ limit, most = some limit → limit.IsOrdered
  | .hasKeys keys => ∀ key ∈ keys, isKey key = true
  | _ => False

/-- A condition on the output of a validator: it may be asked of every value, or it suits the kind of the outputs. -/
def Validator.Asks (sure : Prop) (inner : Validator) (test : Test) : Prop :=
  test.IsUniversal ∨ ∃ kind, inner.Yields kind ∧ test.Suits sure kind

/-- A limit that can be compared with numbers and written. -/
structure IsLimit (limit : Value) : Prop where
  ordered : limit.IsOrdered
  writable : limit.isWritable = true

/-- What makes a validator answer about every value that can be written. -/
def Demands.sound : Demands where
  literal := fun value => value.isWritable = true
  condition := fun kind test => test.Suits True kind
  anyCondition := Test.IsUniversal
  limit := IsLimit
  names := fun names => ∀ name ∈ names, name.isWritable = true
  default := fun value => value.isWritable = true

/-- Names that are texts, and distinct ones if `neat` holds. -/
structure AreNames (neat : Prop) (names : List Value) : Prop where
  texts : ∀ name ∈ names, ∃ s, name = .string s
  distinct : neat → names.Nodup

/-- What a validator needs to answer about every value. All values in it can be written if `sure` holds; its defaults
are values of JSON and its fields have distinct names if `neat` holds. -/
def Demands.regular (sure neat : Prop) : Demands where
  literal := fun value => sure → value.isWritable = true
  condition := fun kind test => test.Suits sure kind
  anyCondition := Test.IsUniversal
  limit := IsCount sure
  names := AreNames neat
  default := fun value => (sure → value.isWritable = true) ∧ (neat → value.IsJson)

/-- A regular validator, apart from its parts. -/
abbrev Validator.IsRegular (sure neat : Prop) (vd : Validator) : Prop := vd.Meets (.regular sure neat)

theorem IsCount.ordered {sure : Prop} {limit : Value} (h : IsCount sure limit) : limit.IsOrdered := by
  obtain ⟨⟨n, rfl⟩, _⟩ := h
  exact Value.isOrdered_int n

theorem IsCount.isLimit {limit : Value} (h : IsCount True limit) : IsLimit limit := ⟨h.ordered, h.writable trivial⟩

/-- **Regular validators are sound.** -/
theorem Validator.IsRegular.sound {neat : Prop} {vd : Validator} (h : vd.IsRegular True neat) : vd.Meets .sound := by
  cases vd with
  | literal value => exact h trivial
  | enumeration values => exact fun value hvalue => h value hvalue trivial
  | refined inner test message => exact h
  | defaulted inner value => exact h.1 trivial
  | file limits => exact Bounds.Each.mono h fun _ => IsCount.isLimit
  | array element bounds => exact Bounds.Each.mono h fun _ => IsCount.isLimit
  | tuple validators rest bounds => exact Bounds.Each.mono h fun _ => IsCount.isLimit
  | object fields additional bounds =>
    refine ⟨h.1.mono fun _ => IsCount.isLimit, fun name hname => ?_⟩
    obtain ⟨s, rfl⟩ := h.2.texts name hname
    rfl
  | _ => trivial

/-! ## Conditions -/

section

variable {sure : Prop} {v : Value}

theorem accepts_answers {vd : Validator} {post : Report → Prop} (h : Answers sure (vd.check v []) post) :
    Answers sure (vd.accepts v) fun _ => True :=
  h.map fun _ _ => trivial

/-- What is left over is answered about by its validator. -/
theorem acceptItems_answers {additional : Additional} (ws : List Value)
    (h : ∀ c ∈ additional.validator?.toList, ∀ w ∈ ws, Answers sure (c.accepts w) fun _ => True) :
    Answers sure (additional.acceptItems (m := Except Fault) (fun f => .ok f.size?) ws) fun _ => True := by
  cases additional with
  | strict => exact .pure trivial
  | passthrough => exact .pure trivial
  | checked c =>
    rw [acceptItems_checked]
    exact allSatisfy_answers ws (h c (by simp [Additional.validator?]))

theorem acceptMember_answers {rules : List PatternRule} (key : String)
    (h : ∀ rule ∈ rules, Answers sure (rule.validator.accepts v) fun _ => True) :
    Answers sure (PatternRule.acceptMember (m := Except Fault) (fun f => .ok f.size?) rules key v) fun _ => True := by
  rw [acceptMember_eq]
  split
  · exact .ok trivial
  · refine (allSatisfy_answers _ fun c hc => ?_).map fun _ _ => trivial
    obtain ⟨rule, hrule, rfl⟩ := List.mem_map.mp hc
    exact h rule (List.mem_of_mem_filter hrule)

/-- **A condition for every value is answered** if the validators in it answer about the parts of the value. -/
theorem Test.IsUniversal.answers {test : Test} (htest : test.IsUniversal) (hv : v.isWritable = true)
    (h : ∀ c ∈ test.validators, ∀ w : Value, w.isWritable = true → Answers sure (c.accepts w) fun _ => True) :
    Answers sure (test.holds v) fun _ => True := by
  cases test with
  | amongComposites | equals | distinct => exact .pure trivial
  | rejectedBy negated =>
    rw [holds_rejectedBy]
    exact (h negated List.mem_cons_self v hv).map fun _ _ => trivial
  | positions validators extra =>
    cases v with
    | list items =>
      rw [holds_positions]
      refine .bind (allSatisfy_answers _ fun p hp => ?_) fun b _ => ?_
      · obtain ⟨hc, hw⟩ := List.of_mem_zip hp
        exact h p.1 (List.mem_append_left _ hc) p.2 (Value.isWritable_item hv hw)
      · cases b with
        | false => exact .pure trivial
        | true =>
          exact acceptItems_answers _ fun c hc w hw =>
            h c (List.mem_append_right _ hc) w (Value.isWritable_item hv (List.mem_of_mem_drop hw))
    | _ => exact .pure trivial
  | counted item least most =>
    obtain ⟨hleast, hmost⟩ := htest
    cases v with
    | list items =>
      rw [holds_counted]
      refine .bind (countSatisfying_answers _ fun w hw =>
        h item List.mem_cons_self w (Value.isWritable_item hv hw)) fun n _ => ?_
      -- numbers of items are ordered with every limit, so neither comparison ends in a fault
      obtain ⟨few, hfew⟩ := (Value.isOrdered_int n).related hleast .less
      rw [hfew]
      cases few with
      | true => exact .pure trivial
      | false =>
        cases most with
        | none => exact .pure trivial
        | some limit =>
          obtain ⟨within, hwithin⟩ := (Value.isOrdered_int n).related (hmost limit rfl) .atMost
          show Answers sure (Value.related .atMost (.int n) limit) _
          rw [hwithin]
          exact .ok trivial
    | _ => exact .pure trivial
  | patterns rules declared others =>
    cases v with
    | dict members =>
      rw [holds_patterns]
      refine allSatisfy_answers _ fun e he => ?_
      have he := Value.isWritable_member hv he
      split
      · exact .pure trivial
      refine .bind (acceptMember_answers _ fun rule hrule =>
        h rule.validator (List.mem_append_left _ (List.mem_map_of_mem hrule)) e.2 he) fun outcome _ => ?_
      cases outcome with
      | some b => exact .pure trivial
      | none =>
        exact acceptItems_answers _ fun c hc w hw =>
          h c (List.mem_append_right _ hc) w (List.mem_singleton.mp hw ▸ he)
    | _ => exact .pure trivial
  | hasKeys keys =>
    cases v with
    | dict entries =>
      refine allSatisfy_answers keys fun key hkey => ?_
      rw [if_pos (htest key hkey)]
      exact .pure trivial
    | _ => exact .pure trivial
  | _ => exact htest.elim


/-- **A condition on the outputs of a validator is answered** on each of them. -/
theorem Validator.Asks.answers {inner : Validator} {test : Test} (h : inner.Asks True test) {path : Pointer} {r : Report}
    (hr : inner.check v path = .ok r) (hok : r.ok = true) (hwritable : r.output.isWritable = true)
    (hinside : ∀ c ∈ test.validators, ∀ w : Value, w.isWritable = true → Answers True (c.accepts w) fun _ => True) :
    Answers True (test.holds r.output) fun _ => True := by
  rcases h with huniversal | ⟨kind, hyields, hsuits⟩
  · exact huniversal.answers hwritable hinside
  · exact hsuits.answers_of_tag ((hyields v path).meets r hr hok) fun _ => hwritable

end

/-! ## Safety -/

/-- The outputs of a traversal. -/
theorem Visits.outputs {α : Type} {args : List α} {done : List (α × Report)} {holds : Value → Prop}
    (h : Visits args (fun _ r => holds r.output) done) : ∀ w ∈ done.map (·.2.output), holds w :=
  List.forall_mem_map.mpr h.fits

/-- The entries that members leave: each has the key of a member and its output or, undeclared, its value. -/
theorem Visits.kept_entry {entries : Entries} {fields : List Field} {additional : Additional} {path : Pointer}
    {fits : Value × Value → Report → Prop} {done : List ((Value × Value) × (Option Value × List Issue))}
    (h : Visits entries (Validator.MemberFits fields additional path fits) done) {e : Value × Value}
    (he : e ∈ done.filterMap keptEntry) :
    ∃ f ∈ entries, e.1 = f.1 ∧ (e.2 = f.2 ∨ ∃ r, fits f r ∧ e.2 = r.output) := by
  obtain ⟨⟨f, out⟩, hd, hkept⟩ := List.mem_filterMap.mp he
  obtain ⟨o, ho, rfl⟩ := Option.map_eq_some_iff.mp hkept
  refine ⟨f, h.mem hd, rfl, ?_⟩
  rcases h.fits _ hd with ⟨r, hr, heq⟩ | ⟨_, _, heq⟩ | ⟨_, _, heq⟩
  · rw [heq] at ho
    exact .inr ⟨r, hr, (Option.some.inj ho).symm⟩
  · rw [heq] at ho
    exact .inl (Option.some.inj ho).symm
  · rw [heq] at ho
    cases ho

namespace Validator

variable {v : Value} {path : Pointer}

/-! ### Sizes -/

theorem limitIssues_answers {relation : Relation} {n : Int} {limit : Option Value} {cause : String → Cause}
    (hlimit : ∀ w, limit = some w → IsLimit w) :
    Answers True (limitIssues relation n limit path cause) fun _ => True := by
  cases limit with
  | none => exact .ok trivial
  | some limit =>
    obtain ⟨hordered, hwritable⟩ := hlimit limit rfl
    obtain ⟨broken, hbroken⟩ := (Value.isOrdered_int n).related hordered relation
    rw [limitIssues, hbroken]
    cases broken with
    | true =>
      refine (?_ : Answers True (limit.plain? >>= fun text => .ok [Issue.mk path (cause text)]) _)
      exact .bind (Decides.answers_plain fun _ => hwritable) fun _ _ => .ok trivial
    | false => exact .pure trivial

section

variable {bounds : Bounds} (hbounds : bounds.Each IsLimit)

include hbounds

theorem lengthIssues_answers (length : Nat) :
    Answers True (lengthIssues (m := Except Fault) length bounds path) fun _ => True := by
  rw [lengthIssues_eq]
  refine .bind (limitIssues_answers hbounds.least) fun short _ => ?_
  split
  · exact limitIssues_answers hbounds.most
  · exact .pure trivial

theorem memberCountIssues_answers (count : Nat) :
    Answers True (memberCountIssues (m := Except Fault) count bounds path) fun _ => True := by
  rw [memberCountIssues_eq]
  exact .bind (limitIssues_answers hbounds.least) fun few _ =>
    .bind (limitIssues_answers hbounds.most) fun many _ => .pure trivial

theorem fileSizeIssues_answers (size : Option Int) :
    Answers True (fileSizeIssues (m := Except Fault) size bounds path) fun _ => True := by
  cases size with
  | none => exact .pure trivial
  | some size =>
    rw [fileSizeIssues_eq]
    refine .bind (limitIssues_answers hbounds.least) fun small _ => ?_
    split
    · exact limitIssues_answers hbounds.most
    · exact .pure trivial

end

/-! ### Validators -/

theorem file_answers {limits : FileLimits} (hlimits : limits.size.Each IsLimit) :
    Answers True ((file limits).check v path) fun _ => True := by
  cases v with
  | file f =>
    show Answers True (if !f.isFile then _ else _) _
    split
    · exact .pure trivial
    · by_cases hbounded : (limits.size.least.isSome || limits.size.most.isSome) = true
      · simp only [if_pos hbounded]
        have hsize : Answers True (Except.ok f.size? : Except Fault (Option Int)) fun _ => True := .ok trivial
        exact hsize.bind fun size _ => .bind (fileSizeIssues_answers hlimits size) fun _ _ => .pure trivial
      · simp only [if_neg hbounded]
        exact .pure trivial
  | _ => exact .pure trivial

/-- A sound validator without parts answers. -/
theorem leaf_answers {vd : Validator} (hleaf : vd.isLeaf = true) (h : vd.Meets .sound) :
    Answers True (vd.check v path) (Report.IsAt v path) := by
  refine ⟨(answers_leaf hleaf v path).meets, fun _ => ?_⟩
  cases vd with
  | literal value =>
    by_cases hv : v = .absent
    · exact hv ▸ ⟨_, rfl⟩
    · exact ((Decides.literal hv fun _ => h : Decides True _ _ _) path).returns trivial
  | enumeration values =>
    by_cases hv : v = .absent
    · exact hv ▸ ⟨_, rfl⟩
    · exact ((Decides.enumeration hv fun value hvalue _ => h value hvalue : Decides True _ _ _) path).returns trivial
  | file limits => exact (file_answers h).returns trivial
  | any | never | string | number | boolean | null => exact ⟨_, rfl⟩
  | _ => cases hleaf

section

variable {path : Pointer} {bounds : Bounds} (hbounds : bounds.Each IsLimit)
include hbounds

/-- A tuple whose parts answer about every value that can be written. -/
theorem answers_writable_tuple {validators : List Validator} {rest : Option Validator} {items : List Value}
    (hv : (Value.list items).isWritable = true)
    (hchild : ∀ c ∈ children (.tuple validators rest bounds), ∀ v path, v.isWritable = true →
      Answers True (c.check v path) fun r => r.output.isWritable = true) :
    Answers True ((tuple validators rest bounds).check (.list items) path) fun r => r.output.isWritable = true := by
  refine (answers_tuple (lengthIssues_answers hbounds _)
    (fun i c w hc hw => hchild c (mem_children_position hc) w _ (Value.isWritable_item hv (List.mem_of_getElem? hw)))
    fun c hc i w hw => hchild c (mem_children_rest hc) w _
      (Value.isWritable_item hv (List.mem_of_mem_drop (List.mem_of_getElem? hw)))).mono ?_
  rintro out (⟨_, cause, _, rfl⟩ | ⟨_, lengths, done, beyond, _, hdone, hmore, rfl⟩)
  · exact hv
  · exact Value.isWritable_list.mpr (List.forall_mem_append.mpr ⟨hdone.outputs, hmore.outputs⟩)

/-- An object with names that can be written, whose parts answer about every value that can be. -/
theorem answers_writable_object {fields : List Field} {additional : Additional} {entries : Entries}
    (hnames : ∀ name ∈ fields.map Field.name, name.isWritable = true) (hv : (Value.dict entries).isWritable = true)
    (hchild : ∀ c ∈ children (.object fields additional bounds), ∀ v path, v.isWritable = true →
      Answers True (c.check v path) fun r => r.output.isWritable = true) :
    Answers True ((object fields additional bounds).check (.dict entries) path) fun r => r.output.isWritable = true := by
  have hmember : ∀ c ∈ children (.object fields additional bounds), ∀ e ∈ entries,
      Answers True (c.check e.2 (path ++ [e.1.plain])) fun r => r.output.isWritable = true :=
    fun c hc e he => hchild c hc e.2 _ (Value.isWritable_member hv he)
  have habsent : ∀ f ∈ Field.absent fields entries,
      Answers True (f.validator.check .absent (path ++ [f.name.plain])) fun r => r.output.isWritable = true :=
    fun f hf => hchild f.validator (mem_children_field (List.mem_of_mem_filter hf)) _ _ rfl
  refine (answers_object (memberCountIssues_answers hbounds _)
    (fun e he f hf => hmember _ (mem_children_field (List.mem_of_find?_eq_some hf)) e he)
    (fun e he _ c hc => hmember c (mem_children_additional hc) e he) habsent).mono ?_
  rintro out ⟨counts, done, gone, _, hdone, hgone, rfl⟩
  refine Value.isWritable_dict.mpr (List.forall_mem_append.mpr ⟨fun e he => ?_, fun e he => ?_⟩)
  -- what is kept has the key of a member, and what is filled in the name of a field
  · obtain ⟨f, hf, hkey, hvalue⟩ := hdone.kept_entry he
    obtain ⟨hfkey, hfvalue⟩ := Value.isWritable_dict.mp hv f hf
    refine ⟨hkey ▸ hfkey, ?_⟩
    rcases hvalue with heq | ⟨r, hr, heq⟩
    · exact heq ▸ hfvalue
    · exact heq ▸ hr
  · obtain ⟨d, hd, rfl, _⟩ := mem_filled he
    exact ⟨hnames d.1.name (List.mem_map_of_mem (List.mem_of_mem_filter (hgone.mem hd))), hgone.fits d hd⟩

end

/-- **A sound validator answers** about every value that can be written, with an output that can be written. -/
theorem answers_sound {vd : Validator} (h : Throughout (Meets .sound) vd) (v : Value)
    (path : Pointer) (hv : v.isWritable = true) :
    Answers True (vd.check v path) fun r => r.output.isWritable = true := by
  -- Over all parts and not the children alone, because the condition of a refined validator holds validators as well.
  induction vd using inductionOnParts generalizing v path with
  | step vd ih =>
    have hchild : ∀ c ∈ vd.children, ∀ v path, v.isWritable = true →
        Answers True (c.check v path) fun r => r.output.isWritable = true := fun c hc v path hv =>
      ih c (children_subset_parts vd hc) (h.child hc) v path hv
    have hself := h.whole
    cases vd with
    | refined inner test message =>
      have hinner := hchild inner List.mem_cons_self v path hv
      have htest : ∀ c ∈ test.validators, ∀ w : Value, w.isWritable = true →
          Answers True (c.accepts w) fun _ => True := fun c hc w hw =>
        accepts_answers (ih c (List.mem_cons_of_mem _ hc) (h.inTest hc) w [] hw)
      refine (answers_refined (hinner.and fun r hr => hr) fun r hr hok => Asks.answers hself hr.2 hok hr.1 htest).mono ?_
      rintro out ⟨r, hr, ⟨_, rfl⟩ | ⟨_, _, rfl⟩ | ⟨_, _, rfl⟩⟩
      · exact hr.1
      · exact hr.1
      · exact hr.1
    | optional inner =>
      refine (answers_optional (hchild inner List.mem_cons_self v path hv)).mono ?_
      rintro out (hout | ⟨_, rfl⟩)
      · exact hout
      · rfl
    | defaulted inner value =>
      by_cases habsent : v = .absent
      · subst habsent
        exact .pure hself
      · rw [check_defaulted habsent]
        exact hchild inner List.mem_cons_self v path hv
    | described inner text => exact hchild inner List.mem_cons_self v path hv
    | union options tags =>
      refine (answers_union fun c hc => hchild c (mem_of_mem_tried hc) v path hv).mono ?_
      rintro out (⟨c, _, r, hr, _, rfl⟩ | ⟨_, _, _, _, houtput, _⟩)
      · exact hr
      · exact houtput ▸ hv
    | both left right =>
      refine (answers_both (hchild left (by simp [children]) v path hv)
        (hchild right (by simp [children]) v path hv)).mono ?_
      rintro out ⟨l, r, hl, hr, ⟨_, _, rfl⟩ | ⟨_, rfl⟩⟩
      · exact Value.isWritable_mergeOutputs hl hr
      · exact hv
    | array element bounds =>
      cases v with
      | list items =>
        refine (answers_array (lengthIssues_answers hself _) fun i w hw =>
          hchild element List.mem_cons_self w _ (Value.isWritable_item hv (List.mem_of_getElem? hw))).mono ?_
        rintro out ⟨lengths, done, _, hdone, rfl⟩
        exact Value.isWritable_list.mpr hdone.outputs
      | _ => exact .ok hv
    | tuple validators rest bounds =>
      cases v with
      | list items =>
        exact answers_writable_tuple hself hv hchild
      | _ => exact .ok hv
    | object fields additional bounds =>
      cases v with
      | dict entries =>
        exact answers_writable_object hself.1 hself.2 hv hchild
      | _ => exact .ok hv
    | _ => exact (leaf_answers rfl hself).mono fun r hr => hr.output ▸ hv

/-- A regular validator answers about every value that can be written. -/
theorem answers_regular {neat : Prop} {vd : Validator} (h : Throughout (IsRegular True neat) vd) (v : Value)
    (path : Pointer) (hv : v.isWritable = true) :
    Answers True (vd.check v path) fun r => r.output.isWritable = true :=
  answers_sound (h.mono fun _ => IsRegular.sound) v path hv

/-- **Conditions inside a regular validator** are asked only what they answer. -/
theorem answers_asked {neat : Prop} {vd inner : Validator} {test : Test} {message : String}
    (h : Throughout (IsRegular True neat) vd) (hinside : Inside (.refined inner test message) vd) (hv : v.isWritable = true)
    {r : Report} (hr : inner.check v path = .ok r) (hok : r.ok = true) : ∃ b, test.holds r.output = .ok b := by
  have hrefined := h.inside hinside
  have hwritable := (answers_regular (hrefined.part List.mem_cons_self) v path hv).meets r hr
  exact (Asks.answers hrefined.whole hr hok hwritable fun c hc w hw =>
    accepts_answers (answers_regular (hrefined.inTest hc) w [] hw)).returns trivial

end Validator

end Schemata
