import Schemata.Proofs.Validator.Output
import Schemata.Proofs.Value.Order

/-!
# `Schemata.Proofs.Validator.Decision` — what a validator decides about a value

A validator decides about a value when its report is always the same in the end: accepted as it is, or rejected.
The decision of a whole comes from the decisions of its parts. Whether a validator answers at all may depend on
values that have to be written in messages, which is the condition `sure`.

## Contents
- **Decisions.** `Decides`, with leaves, refinements and combinations.
- **Traversals.** Items and members whose parts are decided.
- **Structures.** `Decides.array`, `Decides.tuple` and `Decides.object`.
-/

namespace Schemata

variable {sure : Prop} {v : Value}

/-! ## Decisions -/

/-- `Decides sure vd v b`: at every place, `vd` accepts `v` as it is or rejects it, as `b` says; and if `sure`
holds, it does answer. -/
def Decides (sure : Prop) (vd : Validator) (v : Value) (b : Bool) : Prop :=
  ∀ path, Answers sure (vd.check v path) fun r => r.ok = b ∧ (b = true → r.output = v)

namespace Decides

theorem accept {vd : Validator} (h : ∀ path, vd.check v path = .ok (.accept v)) : Decides sure vd v true :=
  fun path => h path ▸ .ok ⟨rfl, fun _ => rfl⟩

theorem reject {vd : Validator} (h : ∀ path, ∃ cause, vd.check v path = .ok (.reject v path cause)) :
    Decides sure vd v false := by
  intro path
  obtain ⟨cause, hcause⟩ := h path
  exact hcause ▸ .ok ⟨rfl, fun _ => rfl⟩

/-- What is decided is what a report says. -/
theorem eq_of_check {vd : Validator} {b : Bool} (h : Decides sure vd v b) {path : Pointer} {r : Report}
    (hr : vd.check v path = .ok r) : r.ok = b :=
  ((h path).meets r hr).1

/-- A validator that is known to accept decides nothing else. -/
theorem eq_true {vd : Validator} {b : Bool} (h : Decides sure vd v b) {path : Pointer}
    (haccept : vd.check v path = .ok (.accept v)) : b = true :=
  (h.eq_of_check haccept).symm

theorem answers_quoted {value : Value} (hwritable : sure → value.isWritable = true) :
    Answers sure value.quoted? fun _ => True :=
  ⟨fun _ _ => trivial, fun hsure => ⟨_, by rw [Value.quoted?, if_pos (hwritable hsure)]⟩⟩

theorem answers_plain {value : Value} (hwritable : sure → value.isWritable = true) :
    Answers sure value.plain? fun _ => True :=
  ⟨fun _ _ => trivial, fun hsure => ⟨_, by rw [Value.plain?, if_pos (hwritable hsure)]⟩⟩

/-- A literal accepts what equals it. -/
theorem literal {value : Value} (hv : v ≠ .absent) (hwritable : sure → value.isWritable = true) :
    Decides sure (.literal value) v (v.equal value) := by
  intro path
  rw [Validator.check_literal hv]
  by_cases hequal : v.equal value = true
  · rw [if_pos hequal, hequal]
    exact .ok ⟨rfl, fun _ => rfl⟩
  · rw [if_neg hequal, Bool.eq_false_iff.mpr hequal]
    exact .bind (answers_quoted hwritable) fun text _ => .pure ⟨rfl, by simp⟩

/-- An enumeration accepts what equals one of its members. -/
theorem enumeration {values : List Value} (hv : v ≠ .absent)
    (hwritable : ∀ value ∈ values, sure → value.isWritable = true) :
    Decides sure (.enumeration values) v (values.any fun value => v.equal value) := by
  intro path
  rw [Validator.check_enumeration hv]
  by_cases hequal : (values.any fun value => v.equal value) = true
  · rw [if_pos hequal, hequal]
    exact .ok ⟨rfl, fun _ => rfl⟩
  · rw [if_neg hequal, Bool.eq_false_iff.mpr hequal]
    refine .bind (answers_mapM values fun value hvalue => answers_quoted (hwritable value hvalue)) ?_
    exact fun texts _ => .pure ⟨rfl, by simp⟩

/-- **A refinement** decides with its condition what its inner validator accepts. -/
theorem refined {inner : Validator} {test : Test} {b c : Bool} (h : Decides sure inner v b)
    (htest : b = true → Answers sure (test.holds v) (· = c)) (message : String) :
    Decides sure (.refined inner test message) v (b && c) := by
  intro path
  have hholds : ∀ r : Report, r.ok = b ∧ (b = true → r.output = v) → r.ok = true →
      Answers sure (test.holds r.output) (· = c) := by
    rintro r ⟨rfl, houtput⟩ hok
    exact (houtput hok).symm ▸ htest hok
  refine (Validator.answers_refined (h path) hholds).mono ?_
  rintro out ⟨r, ⟨rfl, houtput⟩, ⟨hok, rfl⟩ | ⟨hok, rfl, rfl⟩ | ⟨hok, rfl, rfl⟩⟩
  · simp [hok]
  · simpa [hok] using houtput
  · simp

/-- **Both sides** decide together. -/
theorem both {left right : Validator} {b c : Bool} (hmerge : b = true → mergeOutputs v v = v)
    (hleft : Decides sure left v b) (hright : Decides sure right v c) : Decides sure (.both left right) v (b && c) := by
  intro path
  refine (Validator.answers_both (hleft path) (hright path)).mono ?_
  rintro out ⟨l, r, ⟨rfl, hl⟩, ⟨rfl, hr⟩, ⟨hlok, hrok, rfl⟩ | ⟨hnot, rfl⟩⟩
  · refine ⟨by simp [hlok, hrok], fun _ => ?_⟩
    show mergeOutputs l.output r.output = v
    rw [hl hlok, hr hrok, hmerge hlok]
  · refine ⟨?_, fun _ => rfl⟩
    rw [hnot]
    simpa [Report.ok] using hnot

theorem described {inner : Validator} {b : Bool} (h : Decides sure inner v b) (text : String) :
    Decides sure (.described inner text) v b :=
  h

/-- **A union** accepts what one of the options accepts that it tries. -/
theorem union {options : List Validator} {tags : List String} {verdicts : List (Validator × Bool)}
    (h : Visits (Validator.tried options tags v) (fun c b => Decides sure c v b) verdicts) :
    Decides sure (.union options tags) v (verdicts.any (·.2)) := by
  intro path
  have heach : ∀ c ∈ Validator.tried options tags v, Answers sure (c.check v path) fun r =>
      ∀ b, Decides sure c v b → r.ok = b ∧ (b = true → r.output = v) := by
    intro c hc
    obtain ⟨b, hb⟩ := h.exists_of_mem hc
    exact ⟨fun r hr b' hb' => (hb' path).meets r hr, (h.fits _ hb path).returns⟩
  refine (Validator.answers_union heach).mono ?_
  rintro out (⟨c, hc, r, hr, hok, rfl⟩ | ⟨done, hdone, hrejected, hout, houtput, _⟩)
  · obtain ⟨b, hb⟩ := h.exists_of_mem hc
    obtain ⟨rfl, hr⟩ := hr b (h.fits _ hb)
    exact ⟨(List.any_eq_true.mpr ⟨_, hb, hok⟩).symm, fun _ => hr hok⟩
  · refine ⟨?_, fun _ => houtput⟩
    rw [hout, eq_comm, List.any_eq_false]
    rintro ⟨c, b⟩ hb
    obtain ⟨r, hr⟩ := hdone.exists_of_mem (h.mem hb)
    have hrb := (hdone.fits _ hr b (h.fits _ hb)).1
    rw [hrejected _ hr] at hrb
    simp [← hrb]

theorem admittedOptions_map {ι : Type} (options : List (ι × Validator)) (admits : ι × Validator → Bool) :
    admittedOptions (options.map Prod.snd) (options.map admits) = (options.filter admits).map Prod.snd := by
  induction options with
  | nil => rfl
  | cons o os ih =>
    have hcons : admittedOptions ((o :: os).map Prod.snd) ((o :: os).map admits)
        = if admits o then o.2 :: admittedOptions (os.map Prod.snd) (os.map admits)
          else admittedOptions (os.map Prod.snd) (os.map admits) := by
      cases hadmits : admits o <;> simp [admittedOptions, hadmits]
    rw [hcons, ih, List.filter_cons]
    split <;> rfl

theorem union_of_tried {ι : Type} {options : List (ι × Validator)} {tags : List String} {said : ι → Bool}
    (admits : ι × Validator → Bool) (hflags : Validator.flags (options.map Prod.snd) tags v = options.map admits)
    (h : ∀ o ∈ options, Decides sure o.2 v (said o.1)) (hother : ∀ o ∈ options, admits o = false → said o.1 = false) :
    Decides sure (.union (options.map Prod.snd) tags) v (options.any fun o => said o.1) := by
  have hvisits : Visits (Validator.tried (options.map Prod.snd) tags v) (fun c b => Decides sure c v b)
      ((options.filter admits).map fun o => (o.2, said o.1)) := by
    refine ⟨?_, List.forall_mem_map.mpr fun o ho => h o (List.mem_of_mem_filter ho)⟩
    rw [Validator.tried, hflags, admittedOptions_map, List.map_map]
    rfl
  have hany : (((options.filter admits).map fun o => (o.2, said o.1)).any (·.2)) = options.any fun o => said o.1 := by
    rw [List.any_map, List.any_filter, Bool.eq_iff_iff, List.any_eq_true, List.any_eq_true]
    refine exists_congr fun o => and_congr_right fun ho => ?_
    cases hadmits : admits o with
    | true => simp
    | false => simp [hother o ho hadmits]
  exact hany ▸ union hvisits

/-- A union without tags accepts what some option accepts. -/
theorem union_untagged {ι : Type} {options : List (ι × Validator)} {said : ι → Bool}
    (h : ∀ o ∈ options, Decides sure o.2 v (said o.1)) :
    Decides sure (.union (options.map Prod.snd) []) v (options.any fun o => said o.1) :=
  union_of_tried (fun _ => true) (List.map_map ..) h (by simp)

/-- A union tagged by kinds accepts what some option accepts, if options for other kinds do not accept the value. -/
theorem union_tagged {options : List (Kind × Validator)} {said : Kind → Bool} (hne : options ≠ [])
    (h : ∀ o ∈ options, Decides sure o.2 v (said o.1))
    (hother : ∀ kind, tagAdmits kind.name v.kind = false → said kind = false) :
    Decides sure (.union (options.map Prod.snd) (options.map fun o => o.1.name)) v (options.any fun o => said o.1) := by
  cases hpresent : Validator.isPresent v with
  | true =>
    refine union_of_tried (fun o => tagAdmits o.1.name v.kind) ?_ h fun o _ => hother o.1
    have htags : (options.map fun o => o.1.name).isEmpty = false := by simpa using hne
    rw [Validator.flags, Validator.goesByTags, htags, hpresent, List.map_map]
    rfl
  | false =>
    refine union_of_tried (fun _ => true) ?_ h (by simp)
    rw [Validator.flags, Validator.goesByTags, hpresent, Bool.and_false, if_neg (by simp), List.map_map]
    rfl

end Decides

/-! ## Traversals -/

/-- Reports on arguments that are decided: there are no issues if all are accepted, and then the outputs are the
values themselves. -/
theorem Visits.decided {α : Type} {args : List α} (value : α → Value) {decides : α → Bool → Prop}
    {done : List (α × Report)} {verdicts : List (α × Bool)}
    (hdone : Visits args (fun a r => ∀ b, decides a b → r.ok = b ∧ (b = true → r.output = value a)) done)
    (h : Visits args decides verdicts) :
    (done.flatMap (·.2.issues)).isEmpty = verdicts.all (·.2) ∧
      (verdicts.all (·.2) = true → done.map (·.2.output) = args.map value) := by
  have hiff : (done.flatMap (·.2.issues)).isEmpty = true ↔ verdicts.all (·.2) = true := by
    rw [List.isEmpty_iff, List.flatMap_eq_nil_iff, List.all_eq_true]
    constructor
    · rintro hissues ⟨a, b⟩ hb
      obtain ⟨r, hr⟩ := hdone.exists_of_mem (h.mem hb)
      exact (hdone.fits _ hr b (h.fits _ hb)).1.symm.trans (Report.ok_iff.mpr (hissues _ hr))
    · rintro hall ⟨a, r⟩ hr
      obtain ⟨b, hb⟩ := h.exists_of_mem (hdone.mem hr)
      exact Report.ok_iff.mp ((hdone.fits _ hr b (h.fits _ hb)).1.trans (hall _ hb))
  refine ⟨Bool.eq_iff_iff.mpr hiff, fun hall => ?_⟩
  rw [← hdone.args, List.map_map]
  refine List.map_congr_left ?_
  rintro ⟨a, r⟩ hr
  obtain ⟨b, hb⟩ := h.exists_of_mem (hdone.mem hr)
  exact (hdone.fits _ hr b (h.fits _ hb)).2 (List.all_eq_true.mp hall _ hb)

/-- An argument that is decided, checked for every decision that may be known of it. -/
theorem answers_decided {vd : Validator} {path : Pointer} {b : Bool} (h : Decides sure vd v b) :
    Answers sure (vd.check v path) fun r => ∀ b, Decides sure vd v b → r.ok = b ∧ (b = true → r.output = v) :=
  ⟨fun r hr _ hb => (hb path).meets r hr, (h path).returns⟩

/-! ## Sizes -/

/-- A limit that is an integer, and can be written if `sure` holds. -/
structure IsCount (sure : Prop) (limit : Value) : Prop where
  isInt : ∃ n, limit = .int n
  writable : sure → limit.isWritable = true

/-- What a limit says about a number, if it is there and an integer. -/
def limitHolds (limit : Option Value) (holds : Int → Bool) : Bool :=
  match limit with
  | some (.int n) => holds n
  | _ => true

/-- Whether bounds that are integers hold of a number of elements. -/
def Bounds.allow (bounds : Bounds) (count : Nat) : Bool :=
  limitHolds bounds.least (fun limit => decide (limit ≤ count)) &&
    limitHolds bounds.most fun limit => decide ((count : Int) ≤ limit)

/-- Every limit of bounds has a property. -/
structure Bounds.Each (holds : Value → Prop) (bounds : Bounds) : Prop where
  least : ∀ limit, bounds.least = some limit → holds limit
  most : ∀ limit, bounds.most = some limit → holds limit

theorem Bounds.Each.none {holds : Value → Prop} : Bounds.Each holds {} := ⟨nofun, nofun⟩

theorem Bounds.Each.mono {holds weaker : Value → Prop} {bounds : Bounds} (h : bounds.Each holds)
    (hweaker : ∀ limit, holds limit → weaker limit) : bounds.Each weaker :=
  ⟨fun limit hlimit => hweaker limit (h.least limit hlimit), fun limit hlimit => hweaker limit (h.most limit hlimit)⟩

/-- Bounds that are replaced one by one. -/
theorem Bounds.Each.replace {holds : Value → Prop} {old new : Bounds} (hold : old.Each holds) (hnew : new.Each holds) :
    (Validator.replaceBounds old new).Each holds where
  least := fun limit h => (Option.or_eq_some_iff.mp h).elim (hnew.least limit) fun h => hold.least limit h.2
  most := fun limit h => (Option.or_eq_some_iff.mp h).elim (hnew.most limit) fun h => hold.most limit h.2

/-- Bounds that are integers. -/
abbrev Bounds.AreCounts (sure : Prop) (bounds : Bounds) : Prop := bounds.Each (IsCount sure)

theorem answers_limitIssues {relation : Relation} {n : Int} {limit : Option Value} {path : Pointer}
    {cause : String → Cause} (hlimit : ∀ w, limit = some w → IsCount sure w) :
    Answers sure (limitIssues relation n limit path cause) fun issues =>
      issues.isEmpty = limitHolds limit fun m => !relation.ofInts n m := by
  cases limit with
  | none => exact .ok rfl
  | some limit =>
    obtain ⟨⟨m, hm⟩, hwritable⟩ := hlimit limit rfl
    have hrelated : Value.related relation (.int n) limit = .ok (relation.ofInts n m) := by rw [hm, Value.related_int]
    have hholds : limitHolds (some limit) (fun m => !relation.ofInts n m) = !relation.ofInts n m := by rw [hm]; rfl
    rw [limitIssues, hrelated, hholds]
    cases relation.ofInts n m with
    | true =>
      refine (?_ : Answers sure (limit.plain? >>= fun text => .ok [Issue.mk path (cause text)]) _)
      exact .bind (Decides.answers_plain hwritable) fun text _ => .ok rfl
    | false => exact .pure rfl

theorem Bounds.allow_eq (bounds : Bounds) (count : Nat) :
    bounds.allow count = (limitHolds bounds.least (fun m => !Relation.less.ofInts count m) &&
      limitHolds bounds.most fun m => !Relation.greater.ofInts count m) := by
  simp only [Bounds.allow, Relation.not_less, Relation.not_greater]

/-- The length of a list is within bounds or not. -/
theorem answers_lengthIssues {bounds : Bounds} (hbounds : bounds.AreCounts sure) (length : Nat) (path : Pointer) :
    Answers sure (lengthIssues (m := Except Fault) length bounds path) fun issues =>
      issues.isEmpty = bounds.allow length := by
  rw [lengthIssues_eq, Bounds.allow_eq]
  refine .bind (answers_limitIssues hbounds.least) fun short hshort => ?_
  rw [← hshort]
  cases short with
  | nil => exact answers_limitIssues hbounds.most
  | cons => exact .pure rfl

/-- The number of members is within bounds or not. -/
theorem answers_memberCountIssues {bounds : Bounds} (hbounds : bounds.AreCounts sure) (count : Nat) (path : Pointer) :
    Answers sure (memberCountIssues (m := Except Fault) count bounds path) fun issues =>
      issues.isEmpty = bounds.allow count := by
  rw [memberCountIssues_eq, Bounds.allow_eq]
  refine .bind (answers_limitIssues hbounds.least) fun few hfew => ?_
  refine .bind (answers_limitIssues hbounds.most) fun many hmany => .pure ?_
  rw [isEmpty_append, hfew, hmany]

/-! ## Structures -/

namespace Decides

variable {items : List Value} {bounds : Bounds}

/-- **An array** decides on its length and on every item. -/
theorem array {element : Validator} {accepted : Value → Bool} (hbounds : bounds.AreCounts sure)
    (h : ∀ w ∈ items, Decides sure element w (accepted w)) :
    Decides sure (.array element bounds) (.list items) (bounds.allow items.length && items.all accepted) := by
  intro path
  have heach : ∀ (i : Nat) w, items[i]? = some w → Answers sure (element.check w (path ++ [toString i])) fun r =>
      ∀ b, Decides sure element w b → r.ok = b ∧ (b = true → r.output = w) :=
    fun i w hw => answers_decided (h w (List.mem_of_getElem? hw))
  refine (Validator.answers_array (answers_lengthIssues hbounds _ path) heach).mono ?_
  rintro out ⟨lengths, done, hlengths, hdone, rfl⟩
  obtain ⟨hissues, houtputs⟩ := hdone.decided (fun w => w) (.of_forall h)
  rw [List.all_map, List.map_id'] at houtputs
  refine ⟨?_, fun hall => ?_⟩
  · rw [Report.ok, isEmpty_append, hlengths, hissues, List.all_map]
    rfl
  · show Value.list _ = _
    rw [houtputs (Bool.and_eq_true_iff.mp hall).2]

/-- Whether there are as many items as positions, or at least as many, and all further ones are accepted. -/
def sizeFits (hasRest : Bool) (size : Nat) (others : Value → Bool) (items : List Value) : Bool :=
  if hasRest then decide (size ≤ items.length) && (items.drop size).all others else items.length == size

theorem sizeFits_of_outside {hasRest : Bool} {size : Nat} {others : Value → Bool}
    (h : items.length < size ∨ hasRest = false ∧ items.length ≠ size) : sizeFits hasRest size others items = false := by
  unfold sizeFits
  cases hasRest with
  | true =>
    have hlt : items.length < size := by simpa using h
    simp [Nat.not_le.mpr hlt]
  | false =>
    have hne : items.length ≠ size := by omega
    simp [hne]

theorem sizeFits_of_within {hasRest : Bool} {size : Nat} {others : Value → Bool} (hle : size ≤ items.length)
    (heq : hasRest = false → items.length = size) :
    sizeFits hasRest size others items = (items.drop size).all others := by
  unfold sizeFits
  cases hasRest with
  | true => simp [hle]
  | false =>
    have hnil : items.drop size = [] := List.drop_eq_nil_of_le (Nat.le_of_eq (heq rfl))
    simp [hnil, heq rfl]

/-- What positional parts decide, item by item. -/
theorem visits_positions {ι : Type} {parts : List (ι × Validator)} {accepted : ι → Value → Bool}
    (hparts : ∀ p ∈ parts, ∀ w ∈ items, Decides sure p.2 w (accepted p.1 w)) :
    Visits ((parts.map Prod.snd).zip items) (fun e b => Decides sure e.1 e.2 b)
      ((parts.zip items).map fun e => ((e.1.2, e.2), accepted e.1.1 e.2)) where
  args := by
    rw [List.map_map, List.zip_map_left]
    exact List.map_congr_left fun e _ => rfl
  fits := by
    refine List.forall_mem_map.mpr fun e he => ?_
    obtain ⟨hp, hw⟩ := List.of_mem_zip he
    exact hparts e.1 hp e.2 hw

/-- **A tuple** decides on the number of items, on those with a position of their own, and on the others. -/
theorem tuple {ι : Type} {parts : List (ι × Validator)} {rest : Option Validator} (accepted : ι → Value → Bool)
    {others : Value → Bool} (hbounds : bounds.AreCounts sure)
    (hparts : ∀ p ∈ parts, ∀ w ∈ items, Decides sure p.2 w (accepted p.1 w))
    (hrest : ∀ c, rest = some c → ∀ w ∈ items, Decides sure c w (others w)) :
    Decides sure (.tuple (parts.map Prod.snd) rest bounds) (.list items)
      (sizeFits rest.isSome parts.length others items &&
        (bounds.allow items.length && ((parts.map Prod.fst).zip items).all fun e => accepted e.1 e.2)) := by
  intro path
  have heach : ∀ (i : Nat) c w, (parts.map Prod.snd)[i]? = some c → items[i]? = some w →
      Answers sure (c.check w (path ++ [toString i])) fun r =>
        ∀ b, Decides sure c w b → r.ok = b ∧ (b = true → r.output = w) := by
    intro i c w hc hw
    obtain ⟨p, hp, rfl⟩ := List.mem_map.mp (List.mem_of_getElem? hc)
    exact answers_decided (hparts p hp w (List.mem_of_getElem? hw))
  have hmore : ∀ c, rest = some c → ∀ (i : Nat) w, (items.drop (parts.map Prod.snd).length)[i]? = some w →
      Answers sure (c.check w (path ++ [toString ((parts.map Prod.snd).length + i)])) fun r =>
        ∀ b, (∃ c, rest = some c ∧ Decides sure c w b) → r.ok = b ∧ (b = true → r.output = w) := by
    intro c hc i w hw
    refine (answers_decided (hrest c hc w (List.mem_of_mem_drop (List.mem_of_getElem? hw)))).mono ?_
    rintro r hr b ⟨d, hd, hb⟩
    obtain rfl := Option.some.inj (hc.symm.trans hd)
    exact hr b hb
  refine (Validator.answers_tuple (answers_lengthIssues hbounds _ path) heach hmore).mono ?_
  rw [List.length_map]
  rintro out (⟨hsize, cause, _, rfl⟩ | ⟨⟨hle, heq⟩, lengths, done, beyond, hlengths, hdone, hbeyond, rfl⟩)
  · -- too few items, or too many without a validator for further ones
    rw [sizeFits_of_outside (by simpa using hsize)]
    exact ⟨rfl, fun _ => rfl⟩
  · have hothers : ∀ w ∈ items.drop parts.length, ∃ c, rest = some c ∧ Decides sure c w (others w) := by
      intro w hw
      cases rest with
      | none => rw [List.drop_eq_nil_of_le (Nat.le_of_eq (heq rfl))] at hw; cases hw
      | some c => exact ⟨c, rfl, hrest c rfl w (List.mem_of_mem_drop hw)⟩
    obtain ⟨hissues, houtputs⟩ := hdone.decided (fun e => e.2) (visits_positions hparts)
    obtain ⟨hmoreIssues, hmoreOutputs⟩ := hbeyond.decided (fun w => w) (.of_forall hothers)
    have hall : (((parts.zip items).map fun e => ((e.1.2, e.2), accepted e.1.1 e.2)).all (·.2))
        = ((parts.map Prod.fst).zip items).all fun e => accepted e.1 e.2 := by
      rw [List.zip_map_left, List.all_map, List.all_map]
      rfl
    have hallMore : (((items.drop parts.length).map fun w => (w, others w)).all (·.2))
        = (items.drop parts.length).all others := by
      rw [List.all_map]
      rfl
    rw [hall] at hissues houtputs
    rw [hallMore] at hmoreIssues hmoreOutputs
    rw [sizeFits_of_within hle (by simpa using heq)]
    refine ⟨?_, fun haccepted => ?_⟩
    · rw [Report.ok, isEmpty_append, isEmpty_append, hlengths, hissues, hmoreIssues, Bool.and_comm]
    · simp only [Bool.and_eq_true] at haccepted
      obtain ⟨hrest, _, hpositional⟩ := haccepted
      -- the outputs of both traversals make up the list again
      have hsplit : ((parts.map Prod.snd).zip items).map Prod.snd ++ items.drop (parts.map Prod.snd).length = items :=
        zip_map_snd_append_drop (by simpa using hle)
      rw [List.length_map] at hsplit
      show Value.list _ = _
      rw [houtputs hpositional, hmoreOutputs hrest, List.map_id', hsplit]

/-- What is undeclared is decided by its validator, or passes, or is refused. -/
def ofAdditional (sure : Prop) (additional : Additional) (w : Value) (b : Bool) : Prop :=
  match additional with
  | .strict => b = false
  | .passthrough => b = true
  | .checked c => Decides sure c w b

/-- **A member is decided** by the validator of its field, or else as undeclared members are. -/
def ofMember (sure : Prop) (fields : List Field) (additional : Additional) (e : Value × Value) (b : Bool) : Prop :=
  match Field.find? fields e.1 with
  | some f => Decides sure f.validator e.2 b
  | none => ofAdditional sure additional e.2 b

end Decides

/-- What becomes of members that are decided: there are no issues if all are accepted, and then they are kept. -/
theorem Visits.decided_members {fields : List Field} {additional : Additional} {path : Pointer} {entries : Entries}
    {accepted : Value × Value → Bool} {done : List ((Value × Value) × (Option Value × List Issue))}
    (hmembers : ∀ e ∈ entries, Decides.ofMember sure fields additional e (accepted e))
    (hdone : Visits entries (Validator.MemberFits fields additional path fun e r =>
      r.ok = accepted e ∧ (accepted e = true → r.output = e.2)) done) :
    (done.flatMap (·.2.2)).isEmpty = entries.all accepted ∧
      (entries.all accepted = true → done.filterMap keptEntry = entries) := by
  have heach : ∀ d ∈ done, d.2.2.isEmpty = accepted d.1 ∧ (accepted d.1 = true → d.2.1 = some d.1.2) := by
    intro d hd
    have hmember := hmembers d.1 (hdone.mem hd)
    unfold Decides.ofMember at hmember
    rcases hdone.fits d hd with ⟨r, ⟨hok, houtput⟩, hout⟩ | ⟨hfind, hadditional, hout⟩ | ⟨hfind, hadditional, hout⟩
    · rw [hout]
      exact ⟨hok, fun h => congrArg some (houtput h)⟩
    · rw [hfind, hadditional] at hmember
      rw [hout]
      exact ⟨Eq.symm hmember, fun _ => rfl⟩
    · rw [hfind, hadditional] at hmember
      rw [hout]
      exact ⟨Eq.symm hmember, fun h => absurd (h.symm.trans hmember) (by simp)⟩
  rw [← hdone.args, List.all_map]
  refine ⟨?_, fun hall => ?_⟩
  · rw [Bool.eq_iff_iff, List.isEmpty_iff, List.flatMap_eq_nil_iff, List.all_eq_true]
    refine forall₂_congr fun d hd => ?_
    rw [← List.isEmpty_iff, (heach d hd).1]
    rfl
  · rw [List.all_eq_true] at hall
    rw [← List.filterMap_eq_map]
    refine List.filterMap_congr fun d hd => ?_
    rw [keptEntry, (heach d hd).2 (hall d hd)]
    rfl

/-- What becomes of fields without a member if the absent value is decided: nothing is filled in, and the required
ones are missing. -/
theorem Visits.decided_absent {fields : List Field} {entries : Entries} {gone : List (Field × Report)} (path : Pointer)
    (hgone : Visits (Field.absent fields entries) (fun _ r => Field.gives r = false) gone) :
    gone.filterMap Field.filled? = [] ∧
      (gone.filterMap (Field.missing? path)).isEmpty =
        fields.all fun f => !f.required || Entries.hasAlike entries f.name := by
  constructor
  · refine List.filterMap_eq_nil_iff.mpr fun d hd => ?_
    rw [Field.filled?, if_neg (by simp [hgone.fits d hd])]
  · have hmissing : ∀ d ∈ gone, Field.missing? path d = none ↔ d.1.required = false := by
      intro d hd
      simp [Field.missing?, hgone.fits d hd]
    rw [Bool.eq_iff_iff, List.isEmpty_iff, List.filterMap_eq_nil_iff, List.all_eq_true]
    constructor
    · intro h f hf
      by_cases hhas : Entries.hasAlike entries f.name = true
      · simp [hhas]
      · obtain ⟨r, hr⟩ := hgone.exists_of_mem (List.mem_filter.mpr ⟨hf, by simpa using hhas⟩)
        simp [(hmissing _ hr).mp (h _ hr)]
    · intro h d hd
      obtain ⟨hf, hhas⟩ := List.mem_filter.mp (hgone.mem hd)
      rw [Bool.not_eq_true'] at hhas
      exact (hmissing d hd).mpr (by simpa [hhas] using h d.1 hf)

/-- **An object** decides on the number of members, on every member, and on the required fields. -/
theorem Decides.object {fields : List Field} {additional : Additional} {bounds : Bounds} {entries : Entries}
    {accepted : Value × Value → Bool} (hbounds : bounds.AreCounts sure)
    (hmembers : ∀ e ∈ entries, Decides.ofMember sure fields additional e (accepted e))
    (habsent : ∀ f ∈ fields, ∃ b, Decides sure f.validator .absent b) :
    Decides sure (.object fields additional bounds) (.dict entries)
      (bounds.allow entries.length && entries.all accepted &&
        fields.all fun f => !f.required || Entries.hasAlike entries f.name) := by
  intro path
  have hdeclared : ∀ e ∈ entries, ∀ f, Field.find? fields e.1 = some f →
      Answers sure (f.validator.check e.2 (path ++ [e.1.plain])) fun r =>
        r.ok = accepted e ∧ (accepted e = true → r.output = e.2) := by
    intro e he f hf
    have hmember := hmembers e he
    simp only [Decides.ofMember, hf] at hmember
    exact hmember _
  have hothers : ∀ e ∈ entries, Field.find? fields e.1 = none → ∀ c, additional = .checked c →
      Answers sure (c.check e.2 (path ++ [e.1.plain])) fun r =>
        r.ok = accepted e ∧ (accepted e = true → r.output = e.2) := by
    rintro e he hf c rfl
    have hmember := hmembers e he
    simp only [Decides.ofMember, hf] at hmember
    exact hmember _
  -- a field that decides on the absent value leaves it absent, and so gives nothing
  have hgives : ∀ f ∈ Field.absent fields entries,
      Answers sure (f.validator.check .absent (path ++ [f.name.plain])) fun r => Field.gives r = false := by
    intro f hf
    obtain ⟨b, hb⟩ := habsent f (List.mem_of_mem_filter hf)
    refine (hb _).mono ?_
    rintro ⟨output, issues⟩ ⟨rfl, houtput⟩
    unfold Field.gives
    split
    · rfl
    next hpresent =>
      rw [Bool.eq_false_iff]
      exact fun hok => hpresent (houtput hok)
  refine (Validator.answers_object (answers_memberCountIssues hbounds _ path) hdeclared hothers hgives).mono ?_
  rintro out ⟨counts, done, gone, hcounts, hdone, hgone, rfl⟩
  obtain ⟨hissues, hkept⟩ := hdone.decided_members hmembers
  obtain ⟨hfilled, hmissing⟩ := hgone.decided_absent path
  refine ⟨?_, fun haccepted => ?_⟩
  · rw [Report.ok, isEmpty_append, isEmpty_append, hcounts, hissues, hmissing]
  · simp only [Bool.and_eq_true] at haccepted
    show Value.dict _ = _
    rw [hfilled, hkept haccepted.1.2, List.append_nil]

end Schemata
