import Mathlib.Data.List.Forall2
import Mathlib.Data.List.Perm.Lattice
import Schemata.Proofs.Value.Exact
import Schemata.Proofs.Value.Tree
import Schemata.Proofs.Value.Writable

/-!
# `Schemata.Proofs.Value.Respelling` — values that differ in spelling only

Equal values of JSON may still be written differently: numbers as integers or as doubles, and mappings with their
members in any order. `Respelled` is this relation, spelled out along the structure of values. Nothing that validation
compares tells respelled values apart.

## Contents
- **Respelling.** `Value.Respelled`, reflexive on JSON and symmetric.
- **Equality.** `respelled_of_equal` and `Respelled.equal`: on exact numbers it is equality.
- **Congruence.** `Respelled.equal_congr`, and so for lists without equal items.
- **Joining.** `Respelled.mergeOutputs`.
-/

namespace Schemata

namespace Value

/-! ## Respelling -/

/-- Two values that differ in the spelling of numbers and the order of members only. -/
inductive Respelled : Value → Value → Prop
  | same {v : Value} (scalar : v.isJsonScalar = true ∨ v = .absent) : Respelled v v
  | number {v w : Value} (n : Int) (left : Spells n v) (right : Spells n w) : Respelled v w
  | list {xs ys : List Value} (length : xs.length = ys.length) (each : ∀ x y, (x, y) ∈ xs.zip ys → Respelled x y) :
      Respelled (.list xs) (.list ys)
  | dict {es fs : Entries} (left : DistinctTexts (es.map Prod.fst)) (right : DistinctTexts (fs.map Prod.fst))
      (keys : ∀ k, k ∈ es.map Prod.fst ↔ k ∈ fs.map Prod.fst)
      (each : ∀ e f, e ∈ es → f ∈ fs → e.1 = f.1 → Respelled e.2 f.2) : Respelled (.dict es) (.dict fs)

namespace Respelled

variable {v w : Value}

theorem symm (h : Respelled v w) : Respelled w v := by
  induction h with
  | same scalar => exact .same scalar
  | number n left right => exact .number n right left
  | list length _ ih =>
    refine .list length.symm fun x y hmem => ih y x ?_
    rw [← List.zip_swap, List.mem_map] at hmem
    obtain ⟨⟨y', x'⟩, hmem, heq⟩ := hmem
    obtain ⟨rfl, rfl⟩ := Prod.mk.inj heq
    exact hmem
  | dict left right keys _ ih =>
    exact .dict right left (fun k => (keys k).symm) fun e f he hf heq => ih f e hf he heq.symm

theorem items {xs ys : List Value} (h : Respelled (.list xs) (.list ys)) : List.Forall₂ Respelled xs ys := by
  cases h with
  | same scalar => rcases scalar with h | h <;> cases h
  | number _ left _ => cases left
  | list length each => exact List.forall₂_iff_zip.mpr ⟨length, fun hmem => each _ _ hmem⟩

theorem of_items {xs ys : List Value} (h : List.Forall₂ Respelled xs ys) : Respelled (.list xs) (.list ys) :=
  .list h.length_eq fun _ _ hmem => (List.forall₂_iff_zip.mp h).2 hmem

/-- What is respelled as a mapping is one. -/
theorem eq_dict {es : Entries} (h : Respelled (.dict es) w) : ∃ fs, w = .dict fs := by
  cases h with
  | same scalar => rcases scalar with h | h <;> cases h
  | number _ left _ => cases left
  | dict => exact ⟨_, rfl⟩

/-- Lists are respelled item by item, and everything else is respelled as no list. -/
theorem lists_or_others (h : Respelled v w) :
    (∃ xs ys, v = .list xs ∧ w = .list ys ∧ List.Forall₂ Respelled xs ys) ∨ v.items? = none ∧ w.items? = none := by
  cases h with
  | same scalar =>
    refine .inr ?_
    cases v <;> first | exact ⟨rfl, rfl⟩ | (rcases scalar with h | h <;> cases h)
  | number n left right => cases left <;> cases right <;> exact .inr ⟨rfl, rfl⟩
  | list length each => exact .inl ⟨_, _, rfl, rfl, items (.list length each)⟩
  | dict => exact .inr ⟨rfl, rfl⟩

/-! ## Members -/

/-- The members of respelled mappings. -/
structure Members (es fs : Entries) : Prop where
  left : DistinctTexts (es.map Prod.fst)
  right : DistinctTexts (fs.map Prod.fst)
  keys : ∀ k, k ∈ es.map Prod.fst ↔ k ∈ fs.map Prod.fst
  each : ∀ e f, e ∈ es → f ∈ fs → e.1 = f.1 → Respelled e.2 f.2

theorem members {es fs : Entries} (h : Respelled (.dict es) (.dict fs)) : Members es fs := by
  cases h with
  | same scalar => rcases scalar with h | h <;> cases h
  | number _ left _ => cases left
  | dict left right keys each => exact ⟨left, right, keys, each⟩

/-- Mappings are respelled member by member, and everything else is respelled as no mapping. -/
theorem dicts_or_others (h : Respelled v w) :
    (∃ es fs, v = .dict es ∧ w = .dict fs ∧ Members es fs) ∨ v.entries? = none ∧ w.entries? = none := by
  cases h with
  | same scalar =>
    refine .inr ?_
    cases v <;> first | exact ⟨rfl, rfl⟩ | (rcases scalar with h | h <;> cases h)
  | number n left right => cases left <;> cases right <;> exact .inr ⟨rfl, rfl⟩
  | list => exact .inr ⟨rfl, rfl⟩
  | dict left right keys each => exact .inl ⟨_, _, rfl, rfl, left, right, keys, each⟩

namespace Members

variable {es fs : Entries}

theorem symm (h : Members es fs) : Members fs es :=
  ⟨h.right, h.left, fun k => (h.keys k).symm, fun e f he hf heq => (h.each f e hf he heq.symm).symm⟩

/-- Every member has its counterpart. -/
theorem counterpart (h : Members es fs) {e : Value × Value} (he : e ∈ es) :
    ∃ f ∈ fs, e.1 = f.1 ∧ Respelled e.2 f.2 := by
  obtain ⟨f, hf, heq⟩ := List.mem_map.mp ((h.keys e.1).mp (List.mem_map_of_mem he))
  exact ⟨f, hf, heq.symm, h.each e f he hf heq.symm⟩

theorem length_eq (h : Members es fs) : es.length = fs.length := by
  rw [← List.length_map Prod.fst, ← @List.length_map _ _ fs Prod.fst]
  exact ((List.perm_ext_iff_of_nodup h.left.distinct h.right.distinct).mpr h.keys).length_eq

theorem dict (h : Members es fs) : Respelled (.dict es) (.dict fs) := .dict h.left h.right h.keys h.each

/-- Members in the same order. -/
theorem of_forall₂ (h : List.Forall₂ (fun e f => e.1 = f.1 ∧ Respelled e.2 f.2) es fs)
    (hkeys : DistinctTexts (es.map Prod.fst)) : Members es fs := by
  have hsame : es.map Prod.fst = fs.map Prod.fst := by
    rw [← List.forall₂_eq_eq_eq, List.forall₂_map_left_iff, List.forall₂_map_right_iff]
    exact h.imp fun _ _ h => h.1
  refine ⟨hkeys, hsame ▸ hkeys, fun k => by rw [hsame], fun e f he hf hkey => ?_⟩
  obtain ⟨i, hi, rfl⟩ := List.getElem_of_mem he
  have hlength := h.length_eq
  obtain ⟨hkey', hvalue⟩ := h.get hi (hlength ▸ hi)
  rwa [List.inj_on_of_nodup_map (hsame ▸ hkeys).distinct (List.get_mem fs _) hf (hkey'.symm.trans hkey)] at hvalue

/-- Members with other keys behind. -/
theorem append {es' fs' : Entries} (h : Members es fs) (h' : Members es' fs')
    (hnew : ∀ k ∈ es'.map Prod.fst, k ∉ es.map Prod.fst) : Members (es ++ es') (fs ++ fs') := by
  have hnew' : ∀ k ∈ fs'.map Prod.fst, k ∉ fs.map Prod.fst := fun k hk hold =>
    hnew k ((h'.keys k).mpr hk) ((h.keys k).mpr hold)
  have hdistinct : ∀ {gs gs' : Entries}, DistinctTexts (gs.map Prod.fst) → DistinctTexts (gs'.map Prod.fst) →
      (∀ k ∈ gs'.map Prod.fst, k ∉ gs.map Prod.fst) → DistinctTexts ((gs ++ gs').map Prod.fst) := by
    intro gs gs' hgs hgs' hnew
    rw [List.map_append]
    refine ⟨List.forall_mem_append.mpr ⟨hgs.texts, hgs'.texts⟩,
      List.nodup_append.mpr ⟨hgs.distinct, hgs'.distinct, ?_⟩⟩
    rintro k hk _ hk' rfl
    exact hnew k hk' hk
  refine ⟨hdistinct h.left h'.left hnew, hdistinct h.right h'.right hnew', fun k => ?_, fun e f he hf hkey => ?_⟩
  · rw [List.map_append, List.map_append, List.mem_append, List.mem_append, h.keys, h'.keys]
  · rcases List.mem_append.mp he with he | he <;> rcases List.mem_append.mp hf with hf | hf
    · exact h.each e f he hf hkey
    · exact (hnew' _ (List.mem_map_of_mem hf) ((h.keys _).mp (hkey ▸ List.mem_map_of_mem he))).elim
    · exact (hnew _ (List.mem_map_of_mem he) ((h.keys _).mpr (hkey ▸ List.mem_map_of_mem hf))).elim
    · exact h'.each e f he hf hkey

/-- Members from both sides have their counterparts on the same side. -/
theorem union {es' fs' : Entries} (h : Members es es') (h' : Members fs fs') :
    Members (Entries.union es fs) (Entries.union es' fs') where
  left := Entries.distinctTexts_union h.left h'.left
  right := Entries.distinctTexts_union h.right h'.right
  keys := fun k => by
    rw [Entries.mem_keys_union_iff h.left h'.left, Entries.mem_keys_union_iff h.right h'.right, h.keys, h'.keys]
  each := by
    intro e f he hf hkey
    rcases (Entries.mem_union h.left h'.left).mp he with he | ⟨he, hnew⟩
    · rcases (Entries.mem_union h.right h'.right).mp hf with hf | ⟨_, hnew'⟩
      · exact h'.each e f he hf hkey
      · exact (hnew' ((h'.keys f.1).mp (hkey ▸ List.mem_map_of_mem he))).elim
    · rcases (Entries.mem_union h.right h'.right).mp hf with hf | ⟨hf, _⟩
      · exact (hnew ((h'.keys e.1).mpr (hkey ▸ List.mem_map_of_mem hf))).elim
      · exact h.each e f he hf hkey

theorem hasAlike_eq (h : Members es fs) (key : Value) : Entries.hasAlike es key = Entries.hasAlike fs key := by
  have hkeys : ∀ gs : Entries, Entries.hasAlike gs key = true ↔ ∃ k ∈ gs.map Prod.fst, k.alike key = true := by
    intro gs
    rw [Entries.hasAlike, List.any_eq_true]
    simp only [List.mem_map, exists_exists_and_eq_and]
  rw [Bool.eq_iff_iff, hkeys, hkeys]
  simp only [h.keys]

end Members

/-! ## Scalars -/

theorem kind_eq (h : Respelled v w) : v.kind = w.kind := by
  cases h with
  | same => rfl
  | number n left right => rw [left.kind, right.kind]
  | list => rfl
  | dict => rfl

/-- Respelled numbers are the same or spell the same integer. -/
theorem eq_or_spells (h : Respelled v w) (hkind : v.kind = some .number) : v = w ∨ ∃ n, Spells n v ∧ Spells n w := by
  cases h with
  | same => exact .inl rfl
  | number n left right => exact .inr ⟨n, left, right⟩
  | list => cases hkind
  | dict => cases hkind

theorem quantity_eq (h : Respelled v w) : v.quantity? = w.quantity? := by
  cases h with
  | same => rfl
  | number n left right => rw [left.quantity, right.quantity]
  | list => rfl
  | dict => rfl

theorem length?_eq (h : Respelled v w) : v.length? = w.length? := by
  cases h with
  | same => rfl
  | number n left right => cases left <;> cases right <;> rfl
  | list length _ => exact congrArg some length
  | dict left right keys each => exact congrArg some (Members.length_eq ⟨left, right, keys, each⟩)

theorem eq_of_string {s : String} (h : Respelled (.string s) w) : w = .string s := by
  cases h with
  | same => rfl
  | number _ left _ => cases left

theorem eq_of_absent (h : Respelled .absent w) : w = .absent := by
  cases h with
  | same => rfl
  | number _ left _ => cases left

end Respelled

/-! ## Equality -/

theorem equal_of_kind_ne {v w : Value} (h : v.kind ≠ w.kind) : v.equal w = false := by
  rw [Bool.eq_false_iff]
  exact fun hequal => h (kind_eq_of_equal hequal)

/-- Numbers are equal to what has their quantity and is a number. -/
theorem equal_number {v w : Value} {p q : Quantity} (hv : v.kind = some .number) (hw : w.kind = some .number)
    (hp : v.quantity? = some p) (hq : w.quantity? = some q) : v.equal w = p.same q := by
  rcases number_of_kind hv with ⟨m, rfl⟩ | ⟨x, rfl⟩
  · rcases number_of_kind hw with ⟨n, rfl⟩ | ⟨y, rfl⟩
    · obtain rfl := Option.some.inj hp
      obtain rfl := Option.some.inj hq
      rw [Bool.eq_iff_iff]
      simp [equal, alike, alikeScalars, kind, Quantity.same, Quantity.ofInt]
    · obtain rfl := Option.some.inj hp
      obtain rfl := Option.some.inj hq
      simp [equal, alike, alikeScalars, kind, quantity?]
  · rcases number_of_kind hw with ⟨n, rfl⟩ | ⟨y, rfl⟩
    · obtain rfl := Option.some.inj hp
      obtain rfl := Option.some.inj hq
      simp [equal, alike, alikeScalars, kind, quantity?]
    · obtain rfl := Option.some.inj hp
      obtain rfl := Option.some.inj hq
      simp [equal, alike, alikeScalars, kind, quantity?]

theorem equal_list_iff {xs ys : List Value} :
    (list xs).equal (list ys) = true ↔ List.Forall₂ (fun x y => x.equal y = true) xs ys := by
  rw [equal]
  induction xs generalizing ys with
  | nil => cases ys <;> simp [equalItems]
  | cons x xs ih =>
    cases ys with
    | nil => simp [equalItems]
    | cons y ys => rw [equalItems, Bool.and_eq_true, List.forall₂_cons, ih]

theorem equal_dict_iff {es fs : Entries} : (dict es).equal (dict fs) = true ↔
    es.length = fs.length ∧ ∀ e ∈ es, ∃ f ∈ fs, e.1.alike f.1 = true ∧ e.2.equal f.2 = true := by
  have hentries : ∀ es, equalEntries es fs = true ↔ ∀ e ∈ es, ∃ f ∈ fs, e.1.alike f.1 = true ∧ e.2.equal f.2 = true := by
    intro es
    induction es with
    | nil => simp [equalEntries]
    | cons e es ih =>
      obtain ⟨k, v⟩ := e
      rw [equalEntries, Bool.and_eq_true, List.any_eq_true, List.forall_mem_cons, ih]
      simp only [Bool.and_eq_true]
  rw [equal, Bool.and_eq_true, beq_iff_eq, hentries]

/-- **Mappings with distinct texts as keys** are equal if they have the same keys, with equal values under them. -/
theorem equal_dict_iff_members {es fs : Entries} (hes : DistinctTexts (es.map Prod.fst))
    (hfs : DistinctTexts (fs.map Prod.fst)) : (dict es).equal (dict fs) = true ↔
      (∀ k, k ∈ es.map Prod.fst ↔ k ∈ fs.map Prod.fst) ∧
        ∀ e f, e ∈ es → f ∈ fs → e.1 = f.1 → e.2.equal f.2 = true := by
  rw [equal_dict_iff]
  constructor
  · rintro ⟨hlength, hmembers⟩
    have hcounterpart : ∀ e ∈ es, ∃ f ∈ fs, f.1 = e.1 ∧ e.2.equal f.2 = true := by
      intro e he
      obtain ⟨f, hf, halike, hequal⟩ := hmembers e he
      exact ⟨f, hf, hes.eq_of_alike (List.mem_map_of_mem he) halike, hequal⟩
    have hsubset : es.map Prod.fst ⊆ fs.map Prod.fst := by
      intro k hk
      obtain ⟨e, he, rfl⟩ := List.mem_map.mp hk
      obtain ⟨f, hf, hkey, _⟩ := hcounterpart e he
      exact hkey ▸ List.mem_map_of_mem hf
    have hperm : (es.map Prod.fst).Perm (fs.map Prod.fst) :=
      (hes.distinct.subperm hsubset).perm_of_length_le (by simp [hlength])
    refine ⟨fun k => hperm.mem_iff, fun e f he hf hkey => ?_⟩
    obtain ⟨f', hf', hkey', hequal⟩ := hcounterpart e he
    obtain rfl : f' = f := List.inj_on_of_nodup_map hfs.distinct hf' hf (hkey'.trans hkey)
    exact hequal
  · rintro ⟨hkeys, hvalues⟩
    constructor
    · rw [← List.length_map Prod.fst, ← @List.length_map _ _ fs Prod.fst]
      exact ((List.perm_ext_iff_of_nodup hes.distinct hfs.distinct).mpr hkeys).length_eq
    · intro e he
      obtain ⟨f, hf, hkey⟩ := List.mem_map.mp ((hkeys e.1).mp (List.mem_map_of_mem he))
      exact ⟨f, hf, hkey.symm ▸ hes.alike_self (List.mem_map_of_mem he), hvalues e f he hf hkey.symm⟩

theorem equal_self_of_scalar {v : Value} (h : v.isJsonScalar = true ∨ v = .absent) : v.equal v = true := by
  cases v with
  | float x =>
    cases x with
    | nan | infinity => rcases h with h | h <;> cases h
    | finite negative m e =>
      have hquantity := quantity?_float (Double.toRat?_finite negative m e)
      rw [equal_number rfl rfl hquantity hquantity]
      simp [Quantity.same]
  | absent | null | bool | int | string => simp [equal, alike, alikeScalars, quantity?, Quantity.same, Quantity.ofInt]
  | _ => rcases h with h | h <;> cases h

/-- Texts, truth values and null are equal to themselves only. -/
theorem eq_of_equal {v w : Value} (hkind : v.kind = some .null ∨ v.kind = some .boolean ∨ v.kind = some .string)
    (h : v.equal w = true) : v = w := by
  have hsame := kind_eq_of_equal h
  rcases hkind with hv | hv | hv
  · exact (eq_null_of_kind hv).trans (eq_null_of_kind (hsame.symm.trans hv)).symm
  · obtain ⟨b, rfl⟩ := eq_bool_of_kind hv
    obtain ⟨c, rfl⟩ := eq_bool_of_kind (hsame.symm.trans hv)
    cases b <;> cases c <;>
      first | rfl | simp [equal, alike, alikeScalars, quantity?, Quantity.same, Quantity.ofInt] at h
  · obtain ⟨s, rfl⟩ := eq_string_of_kind hv
    obtain ⟨t, rfl⟩ := eq_string_of_kind (hsame.symm.trans hv)
    have htext : t = s := by simpa [equal, kind, alike_string_left] using h
    rw [htext]

/-- Equality does not tell two values apart, on either side. -/
def Indistinct (v w : Value) : Prop := ∀ u : Value, v.equal u = w.equal u ∧ u.equal v = u.equal w

/-- Only values of the same kind have to be looked at. -/
theorem Indistinct.of_kind {v w : Value} (hkind : v.kind = w.kind)
    (h : ∀ u : Value, u.kind = v.kind →
      (v.equal u = true ↔ w.equal u = true) ∧ (u.equal v = true ↔ u.equal w = true)) : Indistinct v w := by
  intro u
  by_cases hu : u.kind = v.kind
  · exact ⟨Bool.eq_iff_iff.mpr (h u hu).1, Bool.eq_iff_iff.mpr (h u hu).2⟩
  · have hu' : u.kind ≠ w.kind := hkind ▸ hu
    rw [equal_of_kind_ne hu, equal_of_kind_ne hu', equal_of_kind_ne (Ne.symm hu), equal_of_kind_ne (Ne.symm hu')]
    exact ⟨rfl, rfl⟩

namespace Respelled

variable {v w : Value}

/-- A value of JSON is a respelling of itself. -/
theorem refl_of_json (h : v.IsJson) : Respelled v v := by
  induction h with
  | leaf _ _ here => exact .same (.inl here)
  | list _ ih => exact .of_items (List.forall₂_same.mpr ih)
  | dict keys _ ih =>
    refine .dict keys keys (fun _ => .rfl) fun e f he hf heq => ?_
    rw [List.inj_on_of_nodup_map keys.distinct he hf heq]
    exact ih f hf

/-- **Respelled values are equal.** -/
theorem equal (h : Respelled v w) : v.equal w = true := by
  induction h with
  | same scalar => exact equal_self_of_scalar scalar
  | number n left right =>
    rw [equal_number left.kind right.kind left.quantity right.quantity]
    simp [Quantity.same, Quantity.ofInt]
  | list length _ ih => exact equal_list_iff.mpr (List.forall₂_iff_zip.mpr ⟨length, fun hmem => ih _ _ hmem⟩)
  | dict left right keys _ ih => exact (equal_dict_iff_members left right).mpr ⟨keys, ih⟩

/-- **Equality does not tell respelled values apart.** -/
theorem indistinct (h : Respelled v w) : Indistinct v w := by
  induction h with
  | same => exact fun _ => ⟨rfl, rfl⟩
  | number n left right =>
    refine .of_kind (left.kind.trans right.kind.symm) fun u hu => ?_
    rw [left.kind] at hu
    obtain ⟨q, hq⟩ := quantity_of_kind hu
    rw [equal_number left.kind hu left.quantity hq, equal_number right.kind hu right.quantity hq,
      equal_number hu left.kind hq left.quantity, equal_number hu right.kind hq right.quantity]
    exact ⟨.rfl, .rfl⟩
  | @list xs ys length each ih =>
    refine .of_kind rfl fun u hu => ?_
    obtain ⟨zs, rfl⟩ := eq_array_of_kind hu
    have hitems : List.Forall₂ Indistinct xs ys := List.forall₂_iff_zip.mpr ⟨length, fun hmem => ih _ _ hmem⟩
    simp only [equal_list_iff]
    -- The facts about zipped items would block the induction along the pairs.
    clear length each ih
    induction hitems generalizing zs with
    | nil => exact ⟨.rfl, .rfl⟩
    | cons hfirst _ ihrest =>
      cases zs with
      | nil => simp
      | cons z zs =>
        simp only [List.forall₂_cons, hfirst z]
        obtain ⟨hleft, hright⟩ := ihrest zs rfl
        exact ⟨and_congr_right' hleft, and_congr_right' hright⟩
  | @dict es fs left right keys each ih =>
    refine .of_kind rfl fun u hu => ?_
    obtain ⟨gs, rfl⟩ := eq_object_of_kind hu
    have hmembers : Members es fs := ⟨left, right, keys, each⟩
    simp only [equal_dict_iff, hmembers.length_eq]
    refine ⟨and_congr_right' ?_, and_congr_right' ?_⟩
    · constructor
      · intro h f hf
        obtain ⟨e, he, hkey, _⟩ := hmembers.symm.counterpart hf
        obtain ⟨g, hg, halike, hequal⟩ := h e he
        exact ⟨g, hg, hkey ▸ halike, (ih e f he hf hkey.symm g.2).1 ▸ hequal⟩
      · intro h e he
        obtain ⟨f, hf, hkey, _⟩ := hmembers.counterpart he
        obtain ⟨g, hg, halike, hequal⟩ := h f hf
        exact ⟨g, hg, hkey ▸ halike, (ih e f he hf hkey g.2).1 ▸ hequal⟩
    · refine forall₂_congr fun g hg => ?_
      constructor
      · rintro ⟨e, he, halike, hequal⟩
        obtain ⟨f, hf, hkey, _⟩ := hmembers.counterpart he
        exact ⟨f, hf, hkey ▸ halike, (ih e f he hf hkey g.2).2 ▸ hequal⟩
      · rintro ⟨f, hf, halike, hequal⟩
        obtain ⟨e, he, hkey, _⟩ := hmembers.symm.counterpart hf
        exact ⟨e, he, hkey ▸ halike, (ih e f he hf hkey.symm g.2).2 ▸ hequal⟩

/-- A list without equal items has respellings without equal items. -/
theorem distinctItems_eq (h : Respelled v w) : v.distinctItems = w.distinctItems := by
  have hany : ∀ {x y : Value} {seen others : List Value}, Respelled x y → List.Forall₂ Respelled seen others →
      (seen.any fun z => x.equal z) = others.any fun z => y.equal z := by
    intro x y seen others hxy hseen
    induction hseen with
    | nil => rfl
    | @cons z z' _ _ hz _ ih =>
      rw [List.any_cons, List.any_cons, ih, (hxy.indistinct z).1, (hz.indistinct y).2]
  have hfrom : ∀ {xs ys seen others : List Value}, List.Forall₂ Respelled xs ys → List.Forall₂ Respelled seen others →
      distinctFrom seen xs = distinctFrom others ys := by
    intro xs ys seen others hitems hseen
    induction hitems generalizing seen others with
    | nil => rfl
    | cons hfirst _ ih =>
      rw [distinctFrom, distinctFrom, hany hfirst hseen, ih (List.rel_append hseen (.cons hfirst .nil))]
  cases h with
  | same => rfl
  | number n left right => cases left <;> cases right <;> rfl
  | list length each => exact hfrom (items (.list length each)) .nil
  | dict => rfl

/-! ## Joining -/

theorem mergeOutputs_left {l r : Value} (habsent : l ≠ .absent)
    (hdicts : ¬ ((∃ es, l = .dict es) ∧ ∃ fs, r = .dict fs)) : Schemata.mergeOutputs l r = l := by
  unfold Schemata.mergeOutputs
  split
  · exact (habsent rfl).elim
  · exact (hdicts ⟨⟨_, rfl⟩, _, rfl⟩).elim
  · rfl

/-- **Joining respelled outputs** gives respelled ones. -/
theorem mergeOutputs {l l' r r' : Value} (hl : Respelled l l') (hr : Respelled r r') :
    Respelled (Schemata.mergeOutputs l r) (Schemata.mergeOutputs l' r') := by
  by_cases habsent : l = .absent
  · subst habsent
    obtain rfl := hl.eq_of_absent
    exact hr
  by_cases hdicts : (∃ es, l = .dict es) ∧ ∃ fs, r = .dict fs
  · obtain ⟨⟨es, rfl⟩, fs, rfl⟩ := hdicts
    obtain ⟨es', rfl⟩ := hl.eq_dict
    obtain ⟨fs', rfl⟩ := hr.eq_dict
    exact (hl.members.union hr.members).dict
  · have hdicts' : ¬ ((∃ es, l' = .dict es) ∧ ∃ fs, r' = .dict fs) := by
      rintro ⟨⟨es, rfl⟩, fs, rfl⟩
      exact hdicts ⟨hl.symm.eq_dict, hr.symm.eq_dict⟩
    have habsent' : l' ≠ .absent := by
      rintro rfl
      exact habsent hl.symm.eq_of_absent
    rwa [mergeOutputs_left habsent hdicts, mergeOutputs_left habsent' hdicts']

end Respelled

/-! ## Exact values -/

/-- A value of JSON whose numbers are exact. -/
def IsExactJson (v : Value) : Prop :=
  TreeOver (fun leaf => leaf.isJsonScalar = true ∧ (leaf.kind = some .number → leaf.IsExact)) v

namespace IsExactJson

variable {v w : Value}

theorem isJson (h : v.IsExactJson) : v.IsJson := h.mono fun _ hleaf => hleaf.1

theorem number (h : v.IsExactJson) (hkind : v.kind = some .number) : v.IsExact := by
  cases h with
  | leaf _ _ here => exact here.2 hkind
  | list => cases hkind
  | dict => cases hkind

theorem isWritable (h : v.IsExactJson) : v.isWritable = true := by
  induction h with
  | @leaf v _ _ here =>
    obtain ⟨hscalar, hexact⟩ := here
    cases v with
    | int n =>
      cases hexact rfl with
      | int limit => exact isWritableInt_of_le limit
    | null | bool | float | string => rfl
    | _ => cases hscalar
  | list _ ih => exact isWritable_list.mpr ih
  | dict keys _ ih =>
    refine isWritable_dict.mpr fun e he => ⟨?_, ih e he⟩
    obtain ⟨s, hs⟩ := keys.texts e.1 (List.mem_map_of_mem he)
    rw [hs]
    rfl

/-- **Equal values are respelled** if their numbers are exact. -/
theorem respelled (hv : v.IsExactJson) (hw : w.IsExactJson) (h : v.equal w = true) : Respelled v w := by
  induction hv generalizing w with
  | @leaf v noItems noEntries here =>
    have hkind := kind_eq_of_equal h
    -- Only numbers are equal in several spellings.
    by_cases hnumber : v.kind = some .number
    · have hvexact := here.2 hnumber
      have hwexact := hw.number (hkind ▸ hnumber)
      obtain ⟨p, hp⟩ := hvexact.quantity
      obtain ⟨q, hq⟩ := hwexact.quantity
      rw [equal_number hnumber (hkind ▸ hnumber) hp hq] at h
      obtain rfl : p = q := eq_of_beq h
      rcases hvexact.eq_or_spells hwexact (hp.trans hq.symm) with rfl | ⟨n, hleft, hright⟩
      · exact .refl_of_json hw.isJson
      · exact .number n hleft hright
    · obtain rfl : v = w := by
        refine eq_of_equal ?_ h
        cases v with
        | null => exact .inl rfl
        | bool => exact .inr (.inl rfl)
        | string => exact .inr (.inr rfl)
        | int | float => exact (hnumber rfl).elim
        | _ => cases here.1
      exact .refl_of_json hw.isJson
  | @list xs each ih =>
    obtain ⟨ys, rfl⟩ := eq_array_of_kind (kind_eq_of_equal h).symm
    have hitems := List.forall₂_iff_zip.mp (equal_list_iff.mp h)
    refine .list hitems.1 fun x y hmem => ?_
    obtain ⟨hx, hy⟩ := List.of_mem_zip hmem
    exact ih x hx (hw.item hy) (hitems.2 hmem)
  | @dict es keys each ih =>
    obtain ⟨fs, rfl⟩ := eq_object_of_kind (kind_eq_of_equal h).symm
    obtain ⟨hkeys, hvalues⟩ := (equal_dict_iff_members keys hw.keys).mp h
    exact .dict keys hw.keys hkeys fun e f he hf hkey => ih e he (hw.member hf) (hvalues e f he hf hkey)

end IsExactJson

end Value

end Schemata
