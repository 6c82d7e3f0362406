import Mathlib.Data.List.Pairwise
import Schemata.Proofs.Value.Respelling

/-!
# `Schemata.Proofs.Value.Equivalence` — equality is an equivalence

Numbers of any size, infinities among them, are equal when their values are. Only what is no number is not even equal to
itself; without it, equality is an equivalence. So a list without equal items is one whose items stand in different
classes, in whatever order and spelling they come.

## Contents
- **Definite values.** `IsDefinite`, and `equal_leaf_iff`, when leaves are equal.
- **Equivalence.** `IsDefinite.equal_self`, `IsDefinite.equal_symm` and `IsDefinite.equal_trans`.
- **Lists without equal items.** `distinctItems_iff`, and `equal_equivalence` with what follows for such lists.
-/

namespace Schemata

namespace Value

/-! ## Definite values -/

/-- Whether a value is a scalar of JSON, an infinity, or none of both; what is no number is none. -/
def isDefiniteScalar : Value → Bool
  | .null => true
  | .bool _ => true
  | .int _ => true
  | .float x => decide (x ≠ .nan)
  | .string _ => true
  | _ => false

/-- A value of JSON that may hold infinities, but nothing that is no number. -/
def IsDefinite (v : Value) : Prop := TreeOver (fun leaf => leaf.isDefiniteScalar = true) v

/-- A definite number has a quantity other than that of no number. -/
theorem definite_quantity {v : Value} (h : v.isDefiniteScalar = true) (hkind : v.kind = some .number) :
    ∃ p, v.quantity? = some p ∧ p.same p = true := by
  rcases number_of_kind hkind with ⟨n, rfl⟩ | ⟨x, rfl⟩
  · exact ⟨_, rfl, by simp [Quantity.same, Quantity.ofInt]⟩
  · cases x with
    | nan => cases h
    | infinity negative => exact ⟨_, rfl, by cases negative <;> rfl⟩
    | finite negative m e =>
      exact ⟨_, quantity?_float (Double.toRat?_finite negative m e), by simp [Quantity.same]⟩


theorem same_iff {p : Quantity} (h : p.same p = true) (q : Quantity) : p.same q = true ↔ p = q := by
  constructor
  · intro hsame
    cases p <;> cases q <;> first | rfl | cases hsame | exact congrArg _ (eq_of_beq hsame)
  · rintro rfl
    exact h

/-- **Leaves are equal** if they are the same or numbers of one value. -/
theorem equal_leaf_iff {v w : Value} (hv : v.isDefiniteScalar = true) : v.equal w = true ↔
    v = w ∨ v.kind = some .number ∧ w.kind = some .number ∧ v.quantity? = w.quantity? := by
  by_cases hnumber : v.kind = some .number
  · obtain ⟨p, hp, hself⟩ := definite_quantity hv hnumber
    by_cases hw : w.kind = some .number
    · obtain ⟨q, hq⟩ := quantity_of_kind hw
      rw [equal_number hnumber hw hp hq, same_iff hself, hp, hq, Option.some.injEq, and_iff_right hnumber, and_iff_right hw]
      refine ⟨.inr, ?_⟩
      rintro (rfl | heq)
      · exact Option.some.inj (hp.symm.trans hq)
      · exact heq
    · rw [equal_of_kind_ne fun heq => hw (heq ▸ hnumber)]
      refine iff_of_false Bool.false_ne_true ?_
      rintro (rfl | ⟨_, h, _⟩)
      · exact hw hnumber
      · exact hw h
  · refine ⟨fun h => .inl (eq_of_equal ?_ h), ?_⟩
    · cases v with
      | null => exact .inl rfl
      | bool => exact .inr (.inl rfl)
      | string => exact .inr (.inr rfl)
      | int | float => exact (hnumber rfl).elim
      | _ => cases hv
    · rintro (rfl | ⟨h, _⟩)
      · refine equal_self_of_scalar (.inl ?_)
        cases v with
        | int | float => exact (hnumber rfl).elim
        | null | bool | string => rfl
        | _ => cases hv
      · exact (hnumber h).elim

/-! ## Equivalence -/

namespace IsDefinite

variable {u v w : Value}

theorem scalar (h : v.IsDefinite) (hkind : v.kind = some .number) : v.isDefiniteScalar = true := by
  cases h with
  | leaf _ _ here => exact here
  | list | dict => cases hkind

/-- **Equality is reflexive.** -/
theorem equal_self (h : v.IsDefinite) : v.equal v = true := by
  induction h with
  | leaf _ _ here => exact (equal_leaf_iff here).mpr (.inl rfl)
  | list _ ih => exact equal_list_iff.mpr (List.forall₂_same.mpr ih)
  | dict keys _ ih =>
    refine (equal_dict_iff_members keys keys).mpr ⟨fun _ => .rfl, fun e f he hf hkey => ?_⟩
    rw [List.inj_on_of_nodup_map keys.distinct he hf hkey]
    exact ih f hf

/-- **Equality is symmetric.** -/
theorem equal_symm (hv : v.IsDefinite) (hw : w.IsDefinite) (h : v.equal w = true) : w.equal v = true := by
  induction hv generalizing w with
  | @leaf v _ _ here =>
    rcases (equal_leaf_iff here).mp h with rfl | ⟨hkind, hkind', hquantity⟩
    · exact h
    · exact (equal_leaf_iff (hw.scalar hkind')).mpr (.inr ⟨hkind', hkind, hquantity.symm⟩)
  | list _ ih =>
    obtain ⟨ys, rfl⟩ := eq_array_of_kind (kind_eq_of_equal h).symm
    have hitems := equal_list_iff.mp h
    refine equal_list_iff.mpr (List.forall₂_iff_get.mpr ⟨hitems.length_eq.symm, fun i hi hi' => ?_⟩)
    exact ih _ (List.get_mem _ _) (hw.item (List.get_mem _ _)) (hitems.get hi' hi)
  | dict keys _ ih =>
    obtain ⟨fs, rfl⟩ := eq_object_of_kind (kind_eq_of_equal h).symm
    obtain ⟨hkeys, hvalues⟩ := (equal_dict_iff_members keys hw.keys).mp h
    refine (equal_dict_iff_members hw.keys keys).mpr ⟨fun k => (hkeys k).symm, fun f e hf he hkey => ?_⟩
    exact ih e he (hw.member hf) (hvalues e f he hf hkey.symm)

/-- **Equality is transitive.** -/
theorem equal_trans (hu : u.IsDefinite) (hv : v.IsDefinite) (hw : w.IsDefinite) (h : u.equal v = true)
    (h' : v.equal w = true) : u.equal w = true := by
  induction hu generalizing v w with
  | leaf _ _ here =>
    rcases (equal_leaf_iff here).mp h with rfl | ⟨hkind, hkind', hquantity⟩
    · exact h'
    · rcases (equal_leaf_iff (hv.scalar hkind')).mp h' with rfl | ⟨_, hkind'', hquantity'⟩
      · exact h
      · exact (equal_leaf_iff here).mpr (.inr ⟨hkind, hkind'', hquantity.trans hquantity'⟩)
  | list _ ih =>
    obtain ⟨ys, rfl⟩ := eq_array_of_kind (kind_eq_of_equal h).symm
    obtain ⟨zs, rfl⟩ := eq_array_of_kind (kind_eq_of_equal h').symm
    have hitems := equal_list_iff.mp h
    have hitems' := equal_list_iff.mp h'
    refine equal_list_iff.mpr (List.forall₂_iff_get.mpr ⟨hitems.length_eq.trans hitems'.length_eq, fun i hi hi' => ?_⟩)
    have hmiddle := hitems.length_eq ▸ hi
    exact ih _ (List.get_mem _ _) (hv.item (List.get_mem _ _)) (hw.item (List.get_mem _ _)) (hitems.get hi hmiddle)
      (hitems'.get hmiddle hi')
  | dict keys _ ih =>
    obtain ⟨fs, rfl⟩ := eq_object_of_kind (kind_eq_of_equal h).symm
    obtain ⟨gs, rfl⟩ := eq_object_of_kind (kind_eq_of_equal h').symm
    obtain ⟨hkeys, hvalues⟩ := (equal_dict_iff_members keys hv.keys).mp h
    obtain ⟨hkeys', hvalues'⟩ := (equal_dict_iff_members hv.keys hw.keys).mp h'
    refine (equal_dict_iff_members keys hw.keys).mpr ⟨fun k => (hkeys k).trans (hkeys' k), fun e g he hg hkey => ?_⟩
    obtain ⟨f, hf, hkeyf⟩ := List.mem_map.mp ((hkeys e.1).mp (List.mem_map_of_mem he))
    exact ih e he (hv.member hf) (hw.member hg) (hvalues e f he hf hkeyf.symm) (hvalues' f g hf hg (hkeyf.trans hkey))

end IsDefinite

/-! ## Lists without equal items -/

/-- Two values of which neither equals the other. -/
def Differ (v w : Value) : Prop := v.equal w = false ∧ w.equal v = false

theorem Differ.symm {v w : Value} (h : Differ v w) : Differ w v := ⟨h.2, h.1⟩

section

variable {xs ys : List Value}

theorem IsDefinite.differ_iff {v w : Value} (hv : v.IsDefinite) (hw : w.IsDefinite) : Differ v w ↔ v.equal w = false := by
  refine ⟨fun h => h.1, fun h => ⟨h, ?_⟩⟩
  rw [Bool.eq_false_iff] at h ⊢
  exact fun hequal => h (hw.equal_symm hv hequal)

/-- Items are compared with those before them. -/
theorem distinctFrom_iff {seen : List Value} : distinctFrom seen xs = true ↔
    (∀ x ∈ xs, ∀ y ∈ seen, x.equal y = false) ∧ xs.Pairwise fun x y => y.equal x = false := by
  induction xs generalizing seen with
  | nil => simp [distinctFrom]
  | cons x xs ih =>
    rw [distinctFrom, Bool.and_eq_true, ih, List.forall_mem_cons, List.pairwise_cons, Bool.not_eq_true', List.any_eq_false]
    simp only [List.mem_append, List.mem_singleton, Bool.not_eq_true]
    constructor
    · rintro ⟨hx, hrest, hpairs⟩
      exact ⟨⟨hx, fun z hz y hy => hrest z hz y (.inl hy)⟩, fun z hz => hrest z hz x (.inr rfl), hpairs⟩
    · rintro ⟨⟨hx, hseen⟩, hfirst, hpairs⟩
      refine ⟨hx, fun z hz y hy => ?_, hpairs⟩
      rcases hy with hy | rfl
      · exact hseen z hz y hy
      · exact hfirst z hz

/-- **A list without equal items** is one whose items differ in pairs. -/
theorem distinctItems_iff (h : ∀ x ∈ xs, x.IsDefinite) : (list xs).distinctItems = true ↔ xs.Pairwise Differ := by
  rw [distinctItems, distinctFrom_iff]
  refine (and_iff_right fun _ _ _ hy => absurd hy List.not_mem_nil).trans (List.Pairwise.iff_of_mem fun hx hy => ?_)
  rw [← (h _ hy).differ_iff (h _ hx)]
  exact ⟨.symm, .symm⟩

theorem pairwise_differ_iff : xs.Pairwise Differ ↔
    ∀ i j (hi : i < xs.length) (hj : j < xs.length), i ≠ j → xs[i].equal xs[j] = false := by
  rw [List.pairwise_iff_getElem]
  constructor
  · intro h i j hi hj hne
    rcases Nat.lt_or_gt_of_ne hne with hlt | hgt
    · exact (h i j hi hj hlt).1
    · exact (h j i hj hi hgt).2
  · intro h i j hi hj hlt
    exact ⟨h i j hi hj hlt.ne, h j i hj hi hlt.ne'⟩

/-- Equal values are told apart from nothing else. -/
theorem IsDefinite.equal_congr {v v' w w' : Value} (hv : v.IsDefinite) (hv' : v'.IsDefinite) (hw : w.IsDefinite)
    (hw' : w'.IsDefinite) (hvv : v.equal v' = true) (hww : w.equal w' = true) : v.equal w = v'.equal w' := by
  rw [Bool.eq_iff_iff]
  constructor
  · intro h
    exact hv'.equal_trans hv hw' (hv.equal_symm hv' hvv) (hv.equal_trans hw hw' h hww)
  · intro h
    exact hv.equal_trans hv' hw hvv (hv'.equal_trans hw' hw h (hw.equal_symm hw' hww))

/-- **Equality is an equivalence** on values of JSON of any nesting and with numbers of any size, infinities included. A list
of such values is one without equal items exactly when no two positions hold equal items, and so are its permutations,
and the lists with any of its items replaced by equal ones. -/
theorem equal_equivalence :
    (∀ u : Value, u.IsDefinite → u.equal u = true) ∧
      (∀ u v : Value, u.IsDefinite → v.IsDefinite → u.equal v = true → v.equal u = true) ∧
      (∀ u v w : Value, u.IsDefinite → v.IsDefinite → w.IsDefinite → u.equal v = true → v.equal w = true →
        u.equal w = true) ∧
      ∀ xs : List Value, (∀ x ∈ xs, x.IsDefinite) →
        ((list xs).distinctItems = true ↔
          ∀ i j (hi : i < xs.length) (hj : j < xs.length), i ≠ j → xs[i].equal xs[j] = false) ∧
        (∀ ys, xs.Perm ys → (list ys).distinctItems = (list xs).distinctItems) ∧
        ∀ ys, (∀ y ∈ ys, y.IsDefinite) → List.Forall₂ (fun x y => x.equal y = true) xs ys →
          (list ys).distinctItems = (list xs).distinctItems := by
  refine ⟨fun _ hu => hu.equal_self, fun _ _ hu hv => hu.equal_symm hv, fun _ _ _ hu hv hw => hu.equal_trans hv hw,
    fun xs hxs => ⟨?_, fun ys hperm => ?_, fun ys hys hequal => ?_⟩⟩
  · rw [distinctItems_iff hxs, pairwise_differ_iff]
  · have hys : ∀ y ∈ ys, y.IsDefinite := fun y hy => hxs y (hperm.mem_iff.mpr hy)
    rw [Bool.eq_iff_iff, distinctItems_iff hxs, distinctItems_iff hys]
    exact (hperm.pairwise_iff .symm).symm
  · have hlength := hequal.length_eq
    have hsame : ∀ i j (hi : i < xs.length) (hj : j < xs.length) (hi' : i < ys.length) (hj' : j < ys.length),
        xs[i].equal xs[j] = ys[i].equal ys[j] := fun i j hi hj hi' hj' =>
      (hxs _ (List.getElem_mem hi)).equal_congr (hys _ (List.getElem_mem hi')) (hxs _ (List.getElem_mem hj))
        (hys _ (List.getElem_mem hj')) (hequal.get hi hi') (hequal.get hj hj')
    rw [Bool.eq_iff_iff, distinctItems_iff hxs, distinctItems_iff hys, pairwise_differ_iff, pairwise_differ_iff]
    constructor
    · intro h i j hi hj hne
      exact (hsame i j hi hj (hlength ▸ hi) (hlength ▸ hj)).trans (h i j _ _ hne)
    · intro h i j hi hj hne
      exact (hsame i j (hlength ▸ hi) (hlength ▸ hj) hi hj).symm.trans (h i j _ _ hne)

/-- Two spellings of a mapping are equal, and beside an infinity either of them makes a list without equal items. -/
theorem equal_equivalence_spelled :
    let u := dict [(.string "a", .int 1), (.string "b", .list [.null])]
    let v := dict [(.string "b", .list [.null]), (.string "a", .float (.finite false (2 ^ 52) (-52)))]
    let w := float (.infinity false)
    u.IsDefinite ∧ v.IsDefinite ∧ w.IsDefinite ∧ u.equal v = true ∧ v.equal u = true ∧
      (list [u, w]).distinctItems = true ∧ (list [w, v]).distinctItems = true := by
  intro u v w
  have hnull : (list [.null]).IsDefinite := .list (List.forall_mem_singleton.mpr (.leaf rfl rfl rfl))
  have hu : u.IsDefinite := .dict ⟨by simp, by simp⟩ (List.forall_mem_cons.mpr
    ⟨.leaf rfl rfl rfl, List.forall_mem_singleton.mpr hnull⟩)
  have hv : v.IsDefinite := .dict ⟨by simp, by simp⟩ (List.forall_mem_cons.mpr
    ⟨hnull, List.forall_mem_singleton.mpr (.leaf rfl rfl (by decide))⟩)
  have hw : w.IsDefinite := .leaf rfl rfl (by decide)
  have hequal : u.equal v = true := by decide +kernel
  obtain ⟨hself, hsymm, -, hlists⟩ := equal_equivalence
  obtain ⟨-, hperm, -⟩ := hlists [u, w] (List.forall_mem_cons.mpr ⟨hu, List.forall_mem_singleton.mpr hw⟩)
  obtain ⟨-, -, hreplaced⟩ := hlists [w, u] (List.forall_mem_cons.mpr ⟨hw, List.forall_mem_singleton.mpr hu⟩)
  have hfirst : (list [u, w]).distinctItems = true := by decide +kernel
  refine ⟨hu, hv, hw, hequal, hsymm u v hu hv hequal, hfirst, ?_⟩
  rw [hreplaced [w, v] (List.forall_mem_cons.mpr ⟨hw, List.forall_mem_singleton.mpr hv⟩)
    (.cons (hself w hw) (.cons hequal .nil)), hperm [w, u] (.swap ..), hfirst]

end

end Value

end Schemata
