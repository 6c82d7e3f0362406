import Schemata.Proofs.Answer

/-!
# `Schemata.Proofs.Validator.Rules` — what each validator does

One rule for every validator with parts: given what the parts answer, this is what the whole answers. The rules
are stated for any property of the parts' reports, and under any condition on which they answer, so that every
fact about validation is proved from them and none opens the checking again.

## Contents
- **Parts.** `Validator.children`, and `Validator.inductionOnChildren`, induction over them.
- **Traversals.** Items, members, options and absent fields, each with the reports of the parts.
- **Conditions.** `Test.holds`, and what single conditions ask.
- **Validators.** `answers_refined`, `answers_both`, `answers_union` and so on.
-/

namespace Schemata

variable {sure : Prop}

/-! ## Parts -/

/-- The validator for what is not declared, if there is one. -/
def Additional.validator? : Additional → Option Validator
  | .checked validator => some validator
  | _ => none

namespace Validator

/-- The validators inside a validator whose outputs become part of its own. -/
def children : Validator → List Validator
  | .refined inner _ _ => [inner]
  | .optional inner => [inner]
  | .defaulted inner _ => [inner]
  | .described inner _ => [inner]
  | .union options _ => options
  | .both left right => [left, right]
  | .array element _ => [element]
  | .tuple items rest _ => items ++ rest.toList
  | .object fields additional _ => fields.map Field.validator ++ additional.validator?.toList
  | _ => []

theorem sizeOf_children_lt {vd c : Validator} (h : c ∈ vd.children) : sizeOf c < sizeOf vd := by
  cases vd with
  | refined inner test message => simp [children] at h; subst h; simp; omega
  | optional inner => simp [children] at h; subst h; simp
  | defaulted inner value => simp [children] at h; subst h; simp; omega
  | described inner text => simp [children] at h; subst h; simp; omega
  | union options tags =>
    have := List.sizeOf_lt_of_mem (show c ∈ options from h)
    simp; omega
  | both left right => simp [children] at h; rcases h with rfl | rfl <;> (rw [both.sizeOf_spec]; omega)
  | array element bounds => simp [children] at h; subst h; simp; omega
  | tuple items rest bounds =>
    rcases List.mem_append.mp h with h | h
    · have := List.sizeOf_lt_of_mem h
      simp; omega
    · obtain rfl := Option.mem_toList.mp h
      simp; omega
  | object fields additional bounds =>
    rcases List.mem_append.mp h with h | h
    · obtain ⟨⟨name, required, validator⟩, hf, rfl⟩ := List.mem_map.mp h
      have := List.sizeOf_lt_of_mem hf
      simp [Field.validator] at this ⊢; omega
    · cases additional with
      | checked validator => simp [Additional.validator?] at h; subst h; simp; omega
      | strict => simp [Additional.validator?] at h
      | passthrough => simp [Additional.validator?] at h
  | _ => simp [children] at h

section

variable {items : List Validator} {rest : Option Validator} {fields : List Field} {additional : Additional}
  {bounds : Bounds} {c : Validator}

theorem mem_children_position {i : Nat} (h : items[i]? = some c) : c ∈ (tuple items rest bounds).children :=
  List.mem_append_left _ (List.mem_of_getElem? h)

theorem mem_children_rest (h : rest = some c) : c ∈ (tuple items rest bounds).children :=
  List.mem_append_right _ (Option.mem_toList.mpr h)

theorem mem_children_field {f : Field} (h : f ∈ fields) : f.validator ∈ (object fields additional bounds).children :=
  List.mem_append_left _ (List.mem_map_of_mem h)

theorem mem_children_additional (h : additional = .checked c) : c ∈ (object fields additional bounds).children :=
  List.mem_append_right _ (by rw [h]; exact List.mem_singleton_self c)

end

/-- **Induction over the parts of a validator.** -/
theorem inductionOnChildren {motive : Validator → Prop}
    (step : ∀ vd, (∀ c ∈ vd.children, motive c) → motive vd) (vd : Validator) : motive vd :=
  step vd fun c _ => inductionOnChildren step c
termination_by sizeOf vd
decreasing_by exact sizeOf_children_lt ‹_›

end Validator

/-! ## Traversals -/

theorem isEmpty_append {α : Type} (as bs : List α) : (as ++ bs).isEmpty = (as.isEmpty && bs.isEmpty) := by
  cases as <;> simp

/-- Two reports together are without issues if each of them is. -/
theorem Report.ok_append (v : Value) (l r : Report) : (⟨v, l.issues ++ r.issues⟩ : Report).ok = (l.ok && r.ok) :=
  isEmpty_append _ _

/-- What the traversal of items gives: their outputs, and their issues in order. -/
theorem answers_checkItems {check : Value → Pointer → Except Fault Report} {path : Pointer}
    {fits : Value → Report → Prop} (items : List Value) (i : Nat)
    (each : ∀ j v, items[j]? = some v → Answers sure (check v (path ++ [toString (i + j)])) (fits v)) :
    Answers sure (checkItems check path i items) fun out => ∃ done, Visits items fits done ∧
      out = (done.map (·.2.output), done.flatMap (·.2.issues)) := by
  induction items generalizing i with
  | nil => exact .pure ⟨[], .nil, rfl⟩
  | cons v vs ih =>
    rw [checkItems]
    refine .bind (each 0 v rfl) fun r hr => ?_
    refine .bind (ih (i + 1) fun j w hw => ?_) ?_
    · rw [Nat.add_assoc, Nat.add_comm 1 j]
      exact each (j + 1) w hw
    · rintro _ ⟨done, hdone, rfl⟩
      exact .pure ⟨(v, r) :: done, .cons hr hdone, rfl⟩

/-- What the traversal of positional items gives, as far as validators and items go. -/
theorem answers_checkPositional {path : Pointer} {fits : Validator → Value → Report → Prop}
    (validators : List Validator) (items : List Value) (i : Nat)
    (each : ∀ j c v, validators[j]? = some c → items[j]? = some v →
      Answers sure (c.check v (path ++ [toString (i + j)])) (fits c v)) :
    Answers sure (Validator.checkPositional (m := Except Fault) (fun f => .ok f.size?) validators i items path)
      fun out => ∃ done, Visits (validators.zip items) (fun e => fits e.1 e.2) done ∧
        out = (done.map (·.2.output), done.flatMap (·.2.issues)) := by
  induction validators generalizing items i with
  | nil =>
    exact .pure ⟨[], .nil, rfl⟩
  | cons c cs ih =>
    cases items with
    | nil =>
      exact .pure ⟨[], .nil, rfl⟩
    | cons v vs =>
      refine .bind (each 0 c v rfl rfl) fun r hr => ?_
      refine .bind (ih vs (i + 1) fun j d w hd hw => ?_) ?_
      · rw [Nat.add_assoc, Nat.add_comm 1 j]
        exact each (j + 1) d w hd hw
      · rintro _ ⟨done, hdone, rfl⟩
        exact .pure ⟨((c, v), r) :: done, .cons hr hdone, rfl⟩

/-- The entry that a checked member leaves, if it leaves one. -/
def keptEntry (d : (Value × Value) × (Option Value × List Issue)) : Option (Value × Value) :=
  d.2.1.map fun w => (d.1.1, w)

/-- What the traversal of entries gives: those that leave an output, and the issues in order. -/
theorem answers_checkEntries {check : Value → Value → Except Fault (Option Value × List Issue)}
    {fits : Value × Value → Option Value × List Issue → Prop} (entries : Entries)
    (each : ∀ e ∈ entries, Answers sure (check e.1 e.2) (fits e)) :
    Answers sure (checkEntries check entries) fun out => ∃ done, Visits entries fits done ∧
      out = (done.filterMap keptEntry, done.flatMap (·.2.2)) := by
  induction entries with
  | nil => exact .pure ⟨[], .nil, rfl⟩
  | cons e es ih =>
    obtain ⟨k, v⟩ := e
    rw [checkEntries]
    refine .bind (each (k, v) List.mem_cons_self) ?_
    rintro ⟨output, issues⟩ hr
    refine .bind (ih fun e he => each e (List.mem_cons_of_mem _ he)) ?_
    rintro _ ⟨done, hdone, rfl⟩
    refine .pure ⟨((k, v), (output, issues)) :: done, .cons hr hdone, ?_⟩
    cases output <;> rfl

/-- The options that a list of flags admits. -/
def admittedOptions (options : List Validator) (admitted : List Bool) : List Validator :=
  ((options.zip admitted).filter Prod.snd).map Prod.fst

/-- What trying options gives: the output of an admitted one that accepts, or else the reports of all admitted
ones, which reject. -/
theorem answers_checkOptions {v : Value} {path : Pointer} {fits : Validator → Report → Prop}
    (options : List Validator) (admitted : List Bool)
    (each : ∀ c ∈ admittedOptions options admitted, Answers sure (c.check v path) (fits c)) :
    Answers sure
      (Validator.checkOptions (m := Except Fault) (fun f => .ok f.size?) options admitted v path) fun out =>
        (∃ c ∈ admittedOptions options admitted, ∃ r, fits c r ∧ r.ok = true ∧ out = .inl r.output) ∨
        ∃ done, Visits (admittedOptions options admitted) fits done ∧ (∀ d ∈ done, d.2.ok = false) ∧
          out = .inr (done.map (·.2.issues)) := by
  -- an option that is not admitted is passed over, so the reports are those of the admitted ones
  induction options generalizing admitted with
  | nil =>
    exact .pure (.inr ⟨[], .nil, List.forall_mem_nil _, rfl⟩)
  | cons c cs ih =>
    cases admitted with
    | nil =>
      exact .pure (.inr ⟨[], .nil, List.forall_mem_nil _, rfl⟩)
    | cons b bs =>
      cases b with
      | false => exact ih bs each
      | true =>
        have hadmitted : admittedOptions (c :: cs) (true :: bs) = c :: admittedOptions cs bs := rfl
        rw [hadmitted] at each ⊢
        refine .bind (each c List.mem_cons_self) fun r hr => ?_
        by_cases hok : r.ok = true
        · rw [if_pos hok]
          exact .pure (.inl ⟨c, List.mem_cons_self, r, hr, hok, rfl⟩)
        · rw [if_neg hok]
          refine .bind (ih bs fun d hd => each d (List.mem_cons_of_mem _ hd)) ?_
          rintro _ (⟨d, hd, r', hr', hok', rfl⟩ | ⟨done, hdone, hrejected, rfl⟩)
          · exact .pure (.inl ⟨d, List.mem_cons_of_mem _ hd, r', hr', hok', rfl⟩)
          · refine .pure (.inr ⟨(c, r) :: done, .cons hr hdone, ?_, rfl⟩)
            exact List.forall_mem_cons.mpr ⟨Bool.eq_false_iff.mpr hok, hrejected⟩

/-! ## Members -/

namespace Field

/-- The field of a key, if it is declared. -/
def find? (fields : List Field) (key : Value) : Option Field := fields.find? fun f => f.name.alike key

/-- The fields that have no member. -/
def absent (fields : List Field) (entries : Entries) : List Field :=
  fields.filter fun f => !Entries.hasAlike entries f.name

/-- Whether a report on the absent value gives a value to fill in. -/
def gives (r : Report) : Bool :=
  match r.output with
  | .absent => false
  | _ => r.ok

theorem gives_iff {r : Report} : gives r = true ↔ r.ok = true ∧ r.output ≠ .absent := by
  unfold gives
  split
  next habsent => simp [habsent]
  next hpresent => exact (and_iff_left hpresent).symm

theorem gives_eq_false {r : Report} (h : r.ok = true → r.output = .absent) : gives r = false :=
  Bool.eq_false_iff.mpr fun hgives => (gives_iff.mp hgives).2 (h (gives_iff.mp hgives).1)

/-- The member that fills a field in. -/
def filled? (d : Field × Report) : Option (Value × Value) :=
  if gives d.2 then some (d.1.name, d.2.output) else none

/-- The names under which fields are filled in, in the order of the fields. -/
theorem filled_sublist (gone : List (Field × Report)) :
    ((gone.filterMap filled?).map Prod.fst).Sublist ((gone.map Prod.fst).map Field.name) := by
  induction gone with
  | nil => exact .slnil
  | cons d ds ih =>
    rw [List.filterMap_cons]
    unfold filled?
    by_cases hgives : gives d.2 = true
    · rw [if_pos hgives]
      exact ih.cons_cons _
    · rw [if_neg hgives]
      exact ih.cons _

/-- The issue of a field without a member: it is missing if it is required and not filled in. -/
def missing? (path : Pointer) (d : Field × Report) : Option Issue :=
  if !gives d.2 && d.1.required then some ⟨path ++ [d.1.name.plain], .missingMember d.1.name.plain⟩ else none

end Field

/-- The fields are asked in order for the one of a key. -/
theorem checkMember_cons (name : Value) (required : Bool) (validator : Validator) (fields : List Field)
    (key item : Value) (place : Pointer) :
    Field.checkMember (m := Except Fault) (fun f => .ok f.size?) (.mk name required validator :: fields) key item place
      = if name.alike key then (validator.check item place).map some
        else Field.checkMember (fun f => .ok f.size?) fields key item place := by
  show (if name.alike key then (validator.check item place >>= fun r => .ok (some r)) else _) = _
  cases validator.check item place <;> rfl

theorem checkMember_eq (fields : List Field) (key item : Value) (place : Pointer) :
    Field.checkMember (m := Except Fault) (fun f => .ok f.size?) fields key item place
      = match Field.find? fields key with
        | some f => (f.validator.check item place).map some
        | none => .ok none := by
  induction fields with
  | nil => rfl
  | cons f fs ih =>
    obtain ⟨name, required, validator⟩ := f
    by_cases hname : name.alike key = true
    · have hfind : Field.find? (.mk name required validator :: fs) key = some (.mk name required validator) :=
        List.find?_cons_of_pos hname
      rw [checkMember_cons, if_pos hname, hfind]
      rfl
    · have hfind : Field.find? (.mk name required validator :: fs) key = Field.find? fs key :=
        List.find?_cons_of_neg hname
      rw [checkMember_cons, if_neg hname, hfind, ih]

/-- What the absent value gives in place of the fields without a member. -/
theorem answers_checkAbsent {path : Pointer} {entries : Entries} {fits : Field → Report → Prop}
    (fields : List Field)
    (each : ∀ f ∈ Field.absent fields entries,
      Answers sure (f.validator.check .absent (path ++ [f.name.plain])) (fits f)) :
    Answers sure (Field.checkAbsent (m := Except Fault) (fun f => .ok f.size?) fields entries path)
      fun out => ∃ done, Visits (Field.absent fields entries) fits done ∧
        out = (done.filterMap Field.filled?, done.filterMap (Field.missing? path)) := by
  induction fields with
  | nil => exact .pure ⟨[], .nil, rfl⟩
  | cons f fs ih =>
    obtain ⟨name, required, validator⟩ := f
    show Answers sure (if Entries.hasAlike entries name then _ else _) _
    by_cases hhas : Entries.hasAlike entries name = true
    · have habsent : Field.absent (.mk name required validator :: fs) entries = Field.absent fs entries :=
        List.filter_cons_of_neg (by simpa [Field.name] using hhas)
      rw [habsent] at each ⊢
      rw [if_pos hhas]
      exact ih each
    · have habsent : Field.absent (.mk name required validator :: fs) entries
          = .mk name required validator :: Field.absent fs entries :=
        List.filter_cons_of_pos (by simpa [Field.name] using hhas)
      rw [habsent] at each ⊢
      rw [if_neg hhas]
      refine .bind (each _ List.mem_cons_self) fun r hr => ?_
      refine .bind (ih fun g hg => each g (List.mem_cons_of_mem _ hg)) ?_
      rintro _ ⟨done, hdone, rfl⟩
      refine (?_ : Answers sure (if Field.gives r then Except.ok _ else if required then Except.ok _ else Except.ok _) _)
      have hvisits := Visits.cons hr hdone
      by_cases hgives : Field.gives r = true
      · rw [if_pos hgives]
        exact .ok ⟨_, hvisits, by simp [Field.filled?, Field.missing?, hgives, Field.name]⟩
      · rw [if_neg hgives]
        by_cases hrequired : required = true
        · rw [if_pos hrequired]
          exact .ok ⟨_, hvisits, by
            simp [Field.filled?, Field.missing?, hgives, Field.name, Field.required, hrequired]⟩
        · rw [if_neg hrequired]
          exact .ok ⟨_, hvisits, by
            simp [Field.filled?, Field.missing?, hgives, Field.required, hrequired]⟩

/-! ## Conditions -/

/-- Whether a condition holds of a value, with the sizes of files taken as known. -/
def Test.holds (test : Test) (v : Value) : Except Fault Bool :=
  test.holdsWith (m := Except Fault) (fun f => .ok f.size?) v

namespace Test

variable (v : Value)

theorem holds_integral : integral.holds v = isIntegral v := orFault_except _

theorem holds_compares (relation : Relation) (limit : Value) : (compares relation limit).holds v = Value.related relation v limit :=
  orFault_except _

theorem holds_multipleOf (divisor : Value) : (multipleOf divisor).holds v = v.isMultipleOf divisor := orFault_except _

theorem holds_characters (relation : Relation) (limit : Value) (s : String) :
    (characters relation limit).holds (.string s) = Value.related relation (.int (Unicode.clusterCount s)) limit :=
  orFault_except _

theorem holds_found (pattern : Pattern) (s : String) : (found pattern).holds (.string s) = .ok (pattern.search s) := rfl

end Test

/-! ## Validators -/

/-- An issue with the value at a place itself, other than that no option fits it. -/
def Issue.IsAt (path : Pointer) (issue : Issue) : Prop := issue.path = path ∧ issue.cause ≠ .noOption

/-- The issues of a report lie at a place, and its output is the value itself. -/
structure Report.IsAt (v : Value) (path : Pointer) (r : Report) : Prop where
  output : r.output = v
  issues : ∀ issue ∈ r.issues, issue.IsAt path

namespace Report

theorem isAt_accept (v : Value) (path : Pointer) : IsAt v path (.accept v) := ⟨rfl, List.forall_mem_nil _⟩

theorem isAt_reject (v : Value) (path : Pointer) (cause : Cause) (h : cause ≠ .noOption := by nofun) :
    IsAt v path (.reject v path cause) :=
  ⟨rfl, List.forall_mem_singleton.mpr ⟨rfl, h⟩⟩

@[simp] theorem ok_accept (v : Value) : (accept v).ok = true := rfl

@[simp] theorem ok_reject (v : Value) (path : Pointer) (cause : Cause) : (reject v path cause).ok = false := rfl

theorem ok_iff {r : Report} : r.ok = true ↔ r.issues = [] := List.isEmpty_iff

end Report

namespace Validator

variable {v : Value} {path : Pointer}

/-- A value that is there is compared with a literal. -/
theorem check_literal (hv : v ≠ .absent) (value : Value) :
    (literal value).check v path = if v.equal value then .ok (.accept v) else do
      return .reject v path (.literal (← value.quoted?)) := by
  rw [← orFault_except value.quoted?]
  cases v with
  | absent => exact (hv rfl).elim
  | _ => rfl

/-- A value that is there is compared with the members of an enumeration. -/
theorem check_enumeration (hv : v ≠ .absent) (values : List Value) :
    (enumeration values).check v path = if values.any fun value => v.equal value then .ok (.accept v) else do
      return .reject v path (.enumeration (← values.mapM Value.quoted?)) := by
  rw [show Value.quoted? = fun value => orFault (m := Except Fault) value.quoted? from
    funext fun value => (orFault_except _).symm]
  cases v with
  | absent => exact (hv rfl).elim
  | _ => rfl

/-- A default does not matter to a value that is there. -/
theorem check_defaulted (hv : v ≠ .absent) (inner : Validator) (value : Value) :
    (defaulted inner value).check v path = inner.check v path := by
  cases v with
  | absent => exact (hv rfl).elim
  | _ => rfl

/-- **A refinement** asks its condition only of an accepted output. -/
theorem answers_refined {inner : Validator} {test : Test} {message : String} {fits : Report → Prop}
    {holds : Report → Bool → Prop} (hinner : Answers sure (inner.check v path) fits)
    (htest : ∀ r, fits r → r.ok = true → Answers sure (test.holds r.output) (holds r)) :
    Answers sure ((refined inner test message).check v path) fun out => ∃ r, fits r ∧
      (r.ok = false ∧ out = r ∨ r.ok = true ∧ holds r true ∧ out = r ∨
        r.ok = true ∧ holds r false ∧ out = .reject r.output path (.refinement message)) := by
  refine .bind hinner fun r hr => ?_
  by_cases hok : r.ok = true
  · rw [if_neg (by simp [hok])]
    refine .bind (htest r hr hok) fun b hb => ?_
    cases b with
    | true => exact .pure ⟨r, hr, .inr (.inl ⟨hok, hb, rfl⟩)⟩
    | false => exact .pure ⟨r, hr, .inr (.inr ⟨hok, hb, rfl⟩)⟩
  · rw [Bool.not_eq_true] at hok
    rw [if_pos (by simp [hok])]
    exact .pure ⟨r, hr, .inl ⟨hok, rfl⟩⟩

/-- **Both sides** are asked, and both have to accept. -/
theorem answers_both {left right : Validator} {fits others : Report → Prop}
    (hleft : Answers sure (left.check v path) fits) (hright : Answers sure (right.check v path) others) :
    Answers sure ((both left right).check v path) fun out => ∃ l r, fits l ∧ others r ∧
      (l.ok = true ∧ r.ok = true ∧ out = .accept (mergeOutputs l.output r.output) ∨
        (l.ok && r.ok) = false ∧ out = ⟨v, l.issues ++ r.issues⟩) := by
  refine .bind hleft fun l hl => .bind hright fun r hr => ?_
  by_cases hok : (l.ok && r.ok) = true
  · rw [if_pos hok]
    obtain ⟨hlok, hrok⟩ := Bool.and_eq_true_iff.mp hok
    exact .pure ⟨l, r, hl, hr, .inl ⟨hlok, hrok, rfl⟩⟩
  · rw [if_neg hok]
    exact .pure ⟨l, r, hl, hr, .inr ⟨Bool.eq_false_iff.mpr hok, rfl⟩⟩

/-- An optional validator accepts the absent value besides. -/
theorem answers_optional {inner : Validator} {fits : Report → Prop}
    (hinner : Answers sure (inner.check v path) fits) :
    Answers sure ((optional inner).check v path) fun out =>
      fits out ∨ v = .absent ∧ out = .accept .absent := by
  refine .bind hinner fun r hr => ?_
  cases v with
  | absent =>
    by_cases hok : r.ok = true
    · exact .pure (by rw [if_pos hok]; exact .inl hr)
    · exact .pure (by rw [if_neg hok]; exact .inr ⟨rfl, rfl⟩)
  | _ => exact .pure (.inl hr)

/-- Whether a value is there. -/
def isPresent : Value → Bool
  | .absent => false
  | _ => true

/-- Whether a union chooses the options that it tries on a value by the tags. -/
def goesByTags (tags : List String) (v : Value) : Bool := !tags.isEmpty && isPresent v

theorem goesByTags_of_ne {tags : List String} {v : Value} (htags : tags ≠ []) (hv : v ≠ .absent) :
    goesByTags tags v = true := by
  cases tags with
  | nil => exact (htags rfl).elim
  | cons tag tags =>
    cases v with
    | absent => exact (hv rfl).elim
    | _ => rfl

/-- Which options of a union are tried on a value: those with a tag for its kind, or all of them. -/
def flags (options : List Validator) (tags : List String) (v : Value) : List Bool :=
  if goesByTags tags v then tags.map fun tag => tagAdmits tag v.kind else options.map fun _ => true

/-- The options that a union tries on a value. -/
def tried (options : List Validator) (tags : List String) (v : Value) : List Validator :=
  admittedOptions options (flags options tags v)

theorem mem_of_mem_tried {options : List Validator} {tags : List String} {v : Value} {c : Validator}
    (h : c ∈ tried options tags v) : c ∈ options := by
  obtain ⟨e, he, rfl⟩ := List.mem_map.mp h
  exact (List.of_mem_zip (List.mem_filter.mp he).1).1

/-- How a union checks a value once it is clear which options it tries. -/
theorem check_union (options : List Validator) (tags : List String) (v : Value) (path : Pointer) :
    (union options tags).check v path = (do
      if goesByTags tags v && !(options.zip (flags options tags v)).any Prod.snd then
        return .reject v path (wrongType (" | ".intercalate tags) v)
      else
        match (← checkOptions (m := Except Fault) (fun f => .ok f.size?) options (flags options tags v) v path) with
        | .inl output => return .accept output
        | .inr [issues] => return ⟨v, issues⟩
        | .inr _ => return .reject v path (if isPresent v then .noOption else .required)) := by
  cases v <;> rfl

/-- **A union** accepts with the output of an option that it tries, or rejects when all of these do. -/
theorem answers_union {options : List Validator} {tags : List String} {fits : Validator → Report → Prop}
    (each : ∀ c ∈ tried options tags v, Answers sure (c.check v path) (fits c)) :
    Answers sure ((union options tags).check v path) fun out =>
      (∃ c ∈ tried options tags v, ∃ r, fits c r ∧ r.ok = true ∧ out = .accept r.output) ∨
      ∃ done, Visits (tried options tags v) fits done ∧ (∀ d ∈ done, d.2.ok = false) ∧ out.ok = false ∧
        out.output = v ∧ ∀ issue ∈ out.issues,
          issue.path = path ∧ issue.cause ∈ [.required, .noOption, wrongType (" | ".intercalate tags) v] ∨
            ∃ d ∈ done, issue ∈ d.2.issues := by
  rw [check_union]
  -- no option fits, and the issues of several are not told apart
  have hwhole : ∀ {others : Issue → Prop},
      ∀ issue ∈ (Report.reject v path (if isPresent v then .noOption else .required)).issues,
        issue.path = path ∧ issue.cause ∈ [.required, .noOption, wrongType (" | ".intercalate tags) v] ∨ others issue := by
    intro others
    refine List.forall_mem_singleton.mpr (.inl ⟨rfl, ?_⟩)
    cases isPresent v <;> simp
  by_cases htried : goesByTags tags v && !(options.zip (flags options tags v)).any Prod.snd
  · rw [if_pos htried]
    have hnone : tried options tags v = [] := by
      rw [tried, admittedOptions, List.map_eq_nil_iff, List.filter_eq_nil_iff]
      intro e he hflag
      have hany : (options.zip (flags options tags v)).any Prod.snd = true := List.any_eq_true.mpr ⟨e, he, hflag⟩
      simp [hany] at htried
    exact .pure (.inr ⟨[], hnone ▸ .nil, List.forall_mem_nil _, rfl, rfl, by simp [Report.reject]⟩)
  · rw [if_neg htried]
    refine .bind (answers_checkOptions options _ each) ?_
    rintro _ (⟨c, hc, r, hr, hok, rfl⟩ | ⟨done, hdone, hrejected, rfl⟩)
    · exact .pure (.inl ⟨c, hc, r, hr, hok, rfl⟩)
    · match done with
      | [] => exact .pure (.inr ⟨[], hdone, hrejected, rfl, rfl, hwhole⟩)
      | [d] =>
        refine .pure (.inr ⟨[d], hdone, hrejected, hrejected d List.mem_cons_self, rfl, ?_⟩)
        exact fun issue hissue => .inr ⟨d, List.mem_cons_self, hissue⟩
      | d :: d' :: ds => exact .pure (.inr ⟨_, hdone, hrejected, rfl, rfl, hwhole⟩)

/-- **An array** checks its length and every item. -/
theorem answers_array {element : Validator} {bounds : Bounds} {items : List Value} {counted : List Issue → Prop}
    {fits : Value → Report → Prop} (hlength : Answers sure (lengthIssues (m := Except Fault) items.length bounds path) counted)
    (each : ∀ (i : Nat) v, items[i]? = some v → Answers sure (element.check v (path ++ [toString i])) (fits v)) :
    Answers sure ((array element bounds).check (.list items) path) fun out => ∃ lengths done,
      counted lengths ∧ Visits items fits done ∧
        out = ⟨.list (done.map (·.2.output)), lengths ++ done.flatMap (·.2.issues)⟩ := by
  refine .bind hlength fun lengths hlengths => ?_
  have hitems := answers_checkItems items 0 fun j v hv => by simpa using each j v hv
  refine .bind hitems ?_
  rintro _ ⟨done, hdone, rfl⟩
  exact .pure ⟨lengths, done, hlengths, hdone, rfl⟩

theorem check_tuple (validators : List Validator) (rest : Option Validator) (bounds : Bounds) (items : List Value)
    (path : Pointer) : (tuple validators rest bounds).check (.list items) path =
      let size := validators.length
      if rest.isNone && items.length < size then .ok (.reject (.list items) path (.itemsShortOf size))
      else if rest.isNone && items.length > size then .ok (.reject (.list items) path (.itemsBeyond size))
      else if items.length < size then .ok (.reject (.list items) path (.itemsBelow size))
      else do
        let lengths ← lengthIssues items.length bounds path
        let (outputs, issues) ← checkPositional (fun f => .ok f.size?) validators 0 items path
        let (more, moreIssues) ← checkRest (fun f => .ok f.size?) rest size (items.drop size) path
        return ⟨.list (outputs ++ more), lengths ++ issues ++ moreIssues⟩ := rfl

/-- **A tuple** checks the number of items, the items with a position of their own, and the others. -/
theorem answers_tuple {validators : List Validator} {rest : Option Validator} {bounds : Bounds}
    {items : List Value} {counted : List Issue → Prop} {fits : Validator → Value → Report → Prop}
    {others : Value → Report → Prop} (hlength : Answers sure (lengthIssues (m := Except Fault) items.length bounds path) counted)
    (each : ∀ (i : Nat) c v, validators[i]? = some c → items[i]? = some v →
      Answers sure (c.check v (path ++ [toString i])) (fits c v))
    (more : ∀ c, rest = some c → ∀ (i : Nat) v, (items.drop validators.length)[i]? = some v →
      Answers sure (c.check v (path ++ [toString (validators.length + i)])) (others v)) :
    Answers sure ((tuple validators rest bounds).check (.list items) path) fun out =>
      ((items.length < validators.length ∨ rest = none ∧ items.length ≠ validators.length) ∧
        ∃ cause ∈ [.itemsShortOf validators.length, .itemsBeyond validators.length, .itemsBelow validators.length],
          out = .reject (.list items) path cause) ∨
      ((validators.length ≤ items.length ∧ (rest = none → items.length = validators.length)) ∧
        ∃ lengths done beyond, counted lengths ∧ Visits (validators.zip items) (fun e => fits e.1 e.2) done ∧
          Visits (items.drop validators.length) others beyond ∧
          out = ⟨.list (done.map (·.2.output) ++ beyond.map (·.2.output)),
            lengths ++ done.flatMap (·.2.issues) ++ beyond.flatMap (·.2.issues)⟩) := by
  rw [check_tuple]
  dsimp only
  by_cases hshort : (rest.isNone && items.length < validators.length) = true
  · rw [if_pos hshort]
    simp at hshort
    exact .pure (.inl ⟨.inl hshort.2, _, by simp, rfl⟩)
  rw [if_neg hshort]
  by_cases hlong : (rest.isNone && items.length > validators.length) = true
  · rw [if_pos hlong]
    simp at hlong
    exact .pure (.inl ⟨.inr ⟨hlong.1, by omega⟩, _, by simp, rfl⟩)
  rw [if_neg hlong]
  by_cases hbelow : items.length < validators.length
  · rw [if_pos hbelow]
    exact .pure (.inl ⟨.inl hbelow, _, by simp, rfl⟩)
  rw [if_neg hbelow]
  -- enough items are there, and none is left over unless there is a validator for more
  have hsize : validators.length ≤ items.length ∧ (rest = none → items.length = validators.length) := by
    refine ⟨by omega, ?_⟩
    rintro rfl
    simp at hlong
    omega
  refine .bind hlength fun lengths hlengths => ?_
  have hitems := answers_checkPositional validators items 0 fun j c v hc hv => by simpa using each j c v hc hv
  refine .bind hitems ?_
  rintro _ ⟨done, hdone, rfl⟩
  cases rest with
  | none =>
    have hnil : items.drop validators.length = [] := List.drop_eq_nil_of_le (Nat.le_of_eq (hsize.2 rfl))
    exact .pure (.inr ⟨hsize, lengths, done, [], hlengths, hdone, hnil ▸ .nil, by simp⟩)
  | some c =>
    refine .bind (answers_checkItems _ _ (more c rfl)) ?_
    rintro _ ⟨beyond, hbeyond, rfl⟩
    exact .pure (.inr ⟨hsize, lengths, done, beyond, hlengths, hdone, hbeyond, rfl⟩)

/-- What becomes of a member: its field or the validator for undeclared ones reports on it, or it passes, or it
is unknown. -/
def MemberFits (fields : List Field) (additional : Additional) (path : Pointer)
    (fits : Value × Value → Report → Prop) (e : Value × Value) (out : Option Value × List Issue) : Prop :=
  (∃ r, fits e r ∧ out = (some r.output, r.issues)) ∨
  (Field.find? fields e.1 = none ∧ additional = .passthrough ∧ out = (some e.2, [])) ∨
  (Field.find? fields e.1 = none ∧ additional = .strict ∧
    out = (none, [⟨path ++ [e.1.plain], .unknownMember e.1.plain⟩]))

theorem answers_member {fields : List Field} {additional : Additional} {e : Value × Value}
    {fits : Value × Value → Report → Prop}
    (declared : ∀ f, Field.find? fields e.1 = some f →
      Answers sure (f.validator.check e.2 (path ++ [e.1.plain])) (fits e))
    (others : Field.find? fields e.1 = none → ∀ c, additional = .checked c →
      Answers sure (c.check e.2 (path ++ [e.1.plain])) (fits e)) :
    Answers sure (do
      match (← Field.checkMember (m := Except Fault) (fun f => .ok f.size?) fields e.1 e.2 (path ++ [e.1.plain])) with
      | some r => return (some r.output, r.issues)
      | none => additional.checkMember (fun f => .ok f.size?) e.1 e.2 (path ++ [e.1.plain]))
      (MemberFits fields additional path fits e) := by
  rw [checkMember_eq]
  cases hfind : Field.find? fields e.1 with
  | some f =>
    have hreport : Answers sure ((f.validator.check e.2 (path ++ [e.1.plain])).map some)
        (fun out => ∃ r, fits e r ∧ out = some r) :=
      (declared f hfind).map fun r hr => ⟨r, hr, rfl⟩
    refine hreport.bind ?_
    rintro _ ⟨r, hr, rfl⟩
    exact .pure (.inl ⟨r, hr, rfl⟩)
  | none =>
    cases additional with
    | strict => exact .pure (.inr (.inr ⟨hfind, rfl, rfl⟩))
    | passthrough => exact .pure (.inr (.inl ⟨hfind, rfl, rfl⟩))
    | checked c => exact (others hfind c rfl).bind fun r hr => .pure (.inl ⟨r, hr, rfl⟩)

/-- **An object** checks the number of members, every member, and every field without one. -/
theorem answers_object {fields : List Field} {additional : Additional} {bounds : Bounds} {entries : Entries}
    {counted : List Issue → Prop} {fits : Value × Value → Report → Prop} {missed : Field → Report → Prop}
    (hcount : Answers sure (memberCountIssues (m := Except Fault) entries.length bounds path) counted)
    (declared : ∀ e ∈ entries, ∀ f, Field.find? fields e.1 = some f →
      Answers sure (f.validator.check e.2 (path ++ [e.1.plain])) (fits e))
    (others : ∀ e ∈ entries, Field.find? fields e.1 = none → ∀ c, additional = .checked c →
      Answers sure (c.check e.2 (path ++ [e.1.plain])) (fits e))
    (each : ∀ f ∈ Field.absent fields entries,
      Answers sure (f.validator.check .absent (path ++ [f.name.plain])) (missed f)) :
    Answers sure ((object fields additional bounds).check (.dict entries) path) fun out =>
      ∃ counts done gone, counted counts ∧ Visits entries (MemberFits fields additional path fits) done ∧
        Visits (Field.absent fields entries) missed gone ∧
        out = ⟨.dict (done.filterMap keptEntry ++ gone.filterMap Field.filled?),
          counts ++ done.flatMap (·.2.2) ++ gone.filterMap (Field.missing? path)⟩ := by
  refine .bind hcount fun counts hcounts => ?_
  refine .bind (answers_checkEntries entries fun e he => answers_member (declared e he) (others e he)) ?_
  rintro _ ⟨done, hdone, rfl⟩
  refine .bind (answers_checkAbsent fields each) ?_
  rintro _ ⟨gone, hgone, rfl⟩
  exact .pure ⟨counts, done, gone, hcounts, hdone, hgone, rfl⟩

end Validator

end Schemata
