import Schemata.Proofs.Validator.Safety
import Schemata.Proofs.Value.Respelling

/-!
# `Schemata.Proofs.Validator.Agreement` — conditions on respelled values

Two computations agree if whatever both answer is related, where either may end in a fault that the other does not
meet. Asked of respelled values, a condition agrees with itself, as long as the validators in it do.

## Contents
- **Agreement.** `Agree`, with a rule for every way of building a computation.
- **Traversals.** `agree_allSatisfy` and `agree_countSatisfying`.
- **Conditions.** `Suits.agree` and `IsUniversal.agree`.
-/

namespace Schemata

open Value

/-! ## Agreement -/

/-- Two computations agree if whatever both answer is related. -/
def Agree {ε α β : Type} (x : Except ε α) (y : Except ε β) (related : α → β → Prop) : Prop :=
  ∀ a b, x = .ok a → y = .ok b → related a b

namespace Agree

variable {ε α β γ δ : Type}

theorem ok {a : α} {b : β} {related : α → β → Prop} (h : related a b) :
    Agree (.ok a : Except ε α) (.ok b) related := by
  intro a' b' ha hb
  exact Except.ok.inj ha ▸ Except.ok.inj hb ▸ h

theorem pure {a : α} {b : β} {related : α → β → Prop} (h : related a b) :
    Agree (Pure.pure a : Except ε α) (Pure.pure b) related := ok h

/-- A computation agrees with itself. -/
theorem self (x : Except ε α) : Agree x x Eq := fun _ _ ha hb => Except.ok.inj (ha.symm.trans hb)

theorem mono {x : Except ε α} {y : Except ε β} {related other : α → β → Prop} (h : Agree x y related)
    (himp : ∀ a b, related a b → other a b) : Agree x y other :=
  fun a b ha hb => himp a b (h a b ha hb)

/-- What is known of either answer may be used. -/
theorem and {x : Except ε α} {y : Except ε β} {related : α → β → Prop} {left : α → Prop} {right : β → Prop}
    {sure : Prop} (h : Agree x y related) (hx : Answers sure x left) (hy : Answers sure y right) :
    Agree x y fun a b => related a b ∧ left a ∧ right b :=
  fun a b ha hb => ⟨h a b ha hb, hx.meets a ha, hy.meets b hb⟩

/-- **Two steps and what follows them.** -/
theorem bind {x : Except ε α} {y : Except ε β} {f : α → Except ε γ} {g : β → Except ε δ} {mid : α → β → Prop}
    {post : γ → δ → Prop} (h : Agree x y mid) (hf : ∀ a b, mid a b → Agree (f a) (g b) post) :
    Agree (x >>= f) (y >>= g) post := by
  intro c d hc hd
  obtain ⟨a, ha, hc⟩ := exists_of_bind_eq_ok hc
  obtain ⟨b, hb, hd⟩ := exists_of_bind_eq_ok hd
  exact hf a b (h a b ha hb) c d hc hd

theorem map {x : Except ε α} {y : Except ε β} {f : α → γ} {g : β → δ} {mid : α → β → Prop} {post : γ → δ → Prop}
    (h : Agree x y mid) (hf : ∀ a b, mid a b → post (f a) (g b)) : Agree (x.map f) (y.map g) post := by
  intro c d hc hd
  obtain ⟨a, ha, rfl⟩ := exists_of_map_eq_ok hc
  obtain ⟨b, hb, rfl⟩ := exists_of_map_eq_ok hd
  exact hf a b (h a b ha hb)

/-- Answers that are known agree if they are the same. -/
theorem of_answers {x : Except ε α} {y : Except ε β} {left : α → Prop} {right : β → Prop} {related : α → β → Prop}
    {sure : Prop} (hx : Answers sure x left) (hy : Answers sure y right) (h : ∀ a b, left a → right b → related a b) :
    Agree x y related :=
  fun a b ha hb => h a b (hx.meets a ha) (hy.meets b hb)

end Agree

/-! ## Traversals -/

section

variable {α β : Type} {test : α → Except Fault Bool} {other : β → Except Fault Bool}

/-- What a traversal answers: all elements satisfy the condition, or one does not. -/
theorem allSatisfy_spec (as : List α) : Answers False (allSatisfy test as) fun outcome =>
    if outcome then ∀ a ∈ as, test a = .ok true else ∃ a ∈ as, test a = .ok false := by
  induction as with
  | nil => exact .pure (List.forall_mem_nil _)
  | cons a as ih =>
    rw [allSatisfy]
    refine .bind (.of_meets fun b hb => hb) fun b hb => ?_
    cases b with
    | false => exact .pure ⟨a, List.mem_cons_self, hb⟩
    | true =>
      refine ih.mono fun outcome houtcome => ?_
      cases outcome with
      | true => exact List.forall_mem_cons.mpr ⟨hb, houtcome⟩
      | false =>
        obtain ⟨c, hc, hfalse⟩ := houtcome
        exact ⟨c, List.mem_cons_of_mem _ hc, hfalse⟩

/-- **Traversals agree** if every element has a counterpart in the other list, in whatever place. -/
theorem agree_allSatisfy {as : List α} {bs : List β} (left : ∀ a ∈ as, ∃ b ∈ bs, Agree (test a) (other b) Eq)
    (right : ∀ b ∈ bs, ∃ a ∈ as, Agree (test a) (other b) Eq) : Agree (allSatisfy test as) (allSatisfy other bs) Eq := by
  refine .of_answers (allSatisfy_spec as) (allSatisfy_spec bs) fun outcome outcome' h h' => ?_
  cases outcome with
  | true =>
    cases outcome' with
    | true => rfl
    | false =>
      obtain ⟨b, hb, hfalse⟩ := h'
      obtain ⟨a, ha, hagree⟩ := right b hb
      exact hagree _ _ (h a ha) hfalse
  | false =>
    cases outcome' with
    | false => rfl
    | true =>
      obtain ⟨a, ha, hfalse⟩ := h
      obtain ⟨b, hb, hagree⟩ := left a ha
      exact hagree _ _ hfalse (h' b hb)

theorem agree_allSatisfy_of_forall₂ {as : List α} {bs : List β}
    (h : List.Forall₂ (fun a b => Agree (test a) (other b) Eq) as bs) :
    Agree (allSatisfy test as) (allSatisfy other bs) Eq := by
  induction h with
  | nil => exact .pure rfl
  | cons hfirst _ ih =>
    rw [allSatisfy, allSatisfy]
    refine .bind hfirst ?_
    rintro b _ rfl
    cases b with
    | true => exact ih
    | false => exact .pure rfl

theorem agree_countSatisfying {as : List α} {bs : List β}
    (h : List.Forall₂ (fun a b => Agree (test a) (other b) Eq) as bs) :
    Agree (countSatisfying test as) (countSatisfying other bs) Eq := by
  induction h with
  | nil => exact .pure rfl
  | cons hfirst _ ih =>
    rw [countSatisfying, countSatisfying]
    refine .bind hfirst ?_
    rintro b _ rfl
    refine .bind ih ?_
    rintro n _ rfl
    exact .pure rfl

end

/-! ## Conditions -/

section

variable {v w : Value}

namespace Test

variable {sure : Prop} {kind : Kind} {test : Test}

theorem Suits.agree (htest : test.Suits sure kind) (h : Respelled v w) (hkind : v.kind = some kind) :
    Agree (test.holds v) (test.holds w) Eq := by
  cases htest with
  | integral =>
    rcases h.eq_or_spells hkind with rfl | ⟨n, hleft, hright⟩
    · exact .self _
    · rw [holds_integral, holds_integral, hleft.isIntegral, hright.isIntegral]
      exact .self _
  | compares relation hlimit =>
    obtain ⟨p, hp⟩ := quantity_of_kind hkind
    obtain ⟨q, hq⟩ := quantity_of_kind hlimit
    rw [holds_compares, holds_compares, related_of_quantities relation hp hq,
      related_of_quantities relation (h.quantity_eq ▸ hp) hq]
    exact .self _
  | multipleOf hdivisor _ =>
    rcases h.eq_or_spells hkind with rfl | ⟨n, hleft, hright⟩
    · exact .self _
    · rw [holds_multipleOf, holds_multipleOf]
      exact fun b c hb hc => (hleft.isMultipleOf hdivisor hb).trans (hright.isMultipleOf hdivisor hc).symm
  | characters | found =>
    obtain ⟨s, rfl⟩ := eq_string_of_kind hkind
    rw [h.eq_of_string]
    exact .self _
  | items relation limit =>
    obtain ⟨items, rfl⟩ := eq_array_of_kind hkind
    rw [holds_size rfl, holds_size h.length?_eq.symm]
    exact .self _
  | members relation limit =>
    obtain ⟨entries, rfl⟩ := eq_object_of_kind hkind
    rw [holds_size rfl, holds_size h.length?_eq.symm]
    exact .self _

theorem Suits.agree_of_tag (htest : test.Suits sure kind) (h : Respelled v w) (htag : tagAdmits kind.name v.kind = true) :
    Agree (test.holds v) (test.holds w) Eq :=
  htest.agree h (kind_of_tagAdmits htest.ne_tuple htag)

/-- What is left over is accepted alike. -/
theorem agree_acceptItems {additional : Additional} {vs ws : List Value} (h : List.Forall₂ Respelled vs ws)
    (hinside : ∀ c ∈ additional.validator?.toList, ∀ v w, Respelled v w → Agree (c.accepts v) (c.accepts w) Eq) :
    Agree (additional.acceptItems (m := Except Fault) (fun f => .ok f.size?) vs)
      (additional.acceptItems (m := Except Fault) (fun f => .ok f.size?) ws) Eq := by
  cases additional with
  | strict =>
    cases h with
    | nil => exact .pure rfl
    | cons => exact .pure rfl
  | passthrough => exact .pure rfl
  | checked c =>
    rw [acceptItems_checked, acceptItems_checked]
    exact agree_allSatisfy_of_forall₂ (h.imp fun v w hvw => hinside c (by simp [Additional.validator?]) v w hvw)

theorem agree_acceptMember {rules : List PatternRule} (key : String)
    (hinside : ∀ rule ∈ rules, Agree (rule.validator.accepts v) (rule.validator.accepts w) Eq) :
    Agree (PatternRule.acceptMember (m := Except Fault) (fun f => .ok f.size?) rules key v)
      (PatternRule.acceptMember (m := Except Fault) (fun f => .ok f.size?) rules key w) Eq := by
  rw [acceptMember_eq, acceptMember_eq]
  split
  · exact .ok rfl
  next hfitting =>
    refine (agree_allSatisfy_of_forall₂ (List.forall₂_same.mpr fun c hc => ?_)).map fun _ _ heq => congrArg some heq
    obtain ⟨rule, hrule, rfl⟩ := List.mem_map.mp hc
    exact hinside rule (List.mem_of_mem_filter hrule)

theorem agree_positional {validators : List Validator} {vs ws : List Value} (h : List.Forall₂ Respelled vs ws)
    (hinside : ∀ c ∈ validators, ∀ v w, Respelled v w → Agree (c.accepts v) (c.accepts w) Eq) :
    Agree (allSatisfy (fun p : Validator × Value => p.1.accepts p.2) (validators.zip vs))
      (allSatisfy (fun p : Validator × Value => p.1.accepts p.2) (validators.zip ws)) Eq := by
  refine agree_allSatisfy_of_forall₂ ?_
  induction validators generalizing vs ws with
  | nil => exact .nil
  | cons c cs ih =>
    obtain ⟨hfirst, hrest⟩ := List.forall_mem_cons.mp hinside
    cases h with
    | nil => exact .nil
    | cons hvw htail => exact .cons (hfirst _ _ hvw) (ih htail hrest)

/-- Members with the same key are accepted alike. -/
theorem agree_member {rules : List PatternRule} {declared : List Value} {others : Additional} (key : Value)
    (h : Respelled v w)
    (hrules : ∀ rule ∈ rules, ∀ v w, Respelled v w → Agree (rule.validator.accepts v) (rule.validator.accepts w) Eq)
    (hothers : ∀ c ∈ others.validator?.toList, ∀ v w, Respelled v w → Agree (c.accepts v) (c.accepts w) Eq) :
    let test : Value × Value → Except Fault Bool := fun e => do
      if declared.any fun name => name.alike e.1 then return true
      else
        match (← PatternRule.acceptMember (m := Except Fault) (fun f => .ok f.size?) rules e.1.plain e.2) with
        | some outcome => return outcome
        | none => others.acceptItems (m := Except Fault) (fun f => .ok f.size?) [e.2]
    Agree (test (key, v)) (test (key, w)) Eq := by
  intro test
  simp only [test]
  split
  · exact .pure rfl
  refine .bind (agree_acceptMember key.plain fun rule hrule => hrules rule hrule v w h) ?_
  rintro outcome _ rfl
  cases outcome with
  | some b => exact .pure rfl
  | none => exact agree_acceptItems (.cons h .nil) hothers

/-- A condition on lists that holds of everything else. -/
theorem agree_of_items {test : Test} (h : Respelled v w)
    (hlists : ∀ vs ws, List.Forall₂ Respelled vs ws → Agree (test.holds (.list vs)) (test.holds (.list ws)) Eq)
    (hothers : ∀ u : Value, u.items? = none → test.holds u = .ok true) : Agree (test.holds v) (test.holds w) Eq := by
  rcases h.lists_or_others with ⟨vs, ws, rfl, rfl, hitems⟩ | ⟨hv, hw⟩
  · exact hlists vs ws hitems
  · rw [hothers v hv, hothers w hw]
    exact .self _

/-- A condition on mappings that holds of everything else. -/
theorem agree_of_entries {test : Test} (h : Respelled v w)
    (hdicts : ∀ es fs, Respelled.Members es fs → Agree (test.holds (.dict es)) (test.holds (.dict fs)) Eq)
    (hothers : ∀ u : Value, u.entries? = none → test.holds u = .ok true) : Agree (test.holds v) (test.holds w) Eq := by
  rcases h.dicts_or_others with ⟨es, fs, rfl, rfl, hmembers⟩ | ⟨hv, hw⟩
  · exact hdicts es fs hmembers
  · rw [hothers v hv, hothers w hw]
    exact .self _

/-- **A condition for every value agrees** on respelled values if the validators in it do. -/
theorem IsUniversal.agree (htest : test.IsUniversal) (h : Respelled v w)
    (hinside : ∀ c ∈ test.validators, ∀ v w, Respelled v w → Agree (c.accepts v) (c.accepts w) Eq) :
    Agree (test.holds v) (test.holds w) Eq := by
  cases test with
  | amongComposites members =>
    have hany : (members.any fun member => v.equal member) = members.any fun member => w.equal member :=
      List.any_congr rfl fun member => (h.indistinct member).1
    cases h with
    | same => exact .self _
    | number n left right => cases left <;> cases right <;> exact .ok rfl
    | list => exact .ok hany
    | dict => exact .ok hany
  | equals value =>
    show Agree (.ok (v.equal value)) (.ok (w.equal value)) _
    exact .ok (h.indistinct value).1
  | distinct =>
    show Agree (.ok v.distinctItems) (.ok w.distinctItems) _
    exact .ok h.distinctItems_eq
  | rejectedBy negated =>
    rw [holds_rejectedBy, holds_rejectedBy]
    exact (hinside negated List.mem_cons_self v w h).map fun _ _ heq => congrArg not heq
  | positions validators extra =>
    refine agree_of_items h (fun vs ws hitems => ?_) fun u hu => by cases u <;> first | rfl | cases hu
    rw [holds_positions, holds_positions]
    refine .bind (agree_positional hitems fun c hc => hinside c (List.mem_append_left _ hc)) ?_
    rintro b _ rfl
    cases b with
    | false => exact .pure rfl
    | true => exact agree_acceptItems (List.forall₂_drop _ hitems) fun c hc => hinside c (List.mem_append_right _ hc)
  | counted item least most =>
    refine agree_of_items h (fun vs ws hitems => ?_) fun u hu => by cases u <;> first | rfl | cases hu
    rw [holds_counted, holds_counted]
    refine .bind (agree_countSatisfying (hitems.imp fun v w hvw => hinside item List.mem_cons_self v w hvw)) ?_
    rintro n _ rfl
    exact .self _
  | patterns rules declared others =>
    refine agree_of_entries h (fun es fs hmembers => ?_) fun u hu => by cases u <;> first | rfl | cases hu
    rw [holds_patterns, holds_patterns]
    have hrules : ∀ rule ∈ rules, ∀ v w, Respelled v w → Agree (rule.validator.accepts v) (rule.validator.accepts w) Eq :=
      fun rule hrule => hinside _ (List.mem_append_left _ (List.mem_map_of_mem hrule))
    have hothers := fun c hc => hinside c (List.mem_append_right _ hc)
    -- the members may be in another order on the other side, so each is compared with its counterpart
    refine agree_allSatisfy (fun e he => ?_) fun f hf => ?_
    · obtain ⟨f, hf, hkey, hvalue⟩ := hmembers.counterpart he
      exact ⟨f, hf, hkey ▸ agree_member e.1 hvalue hrules hothers⟩
    · obtain ⟨e, he, hkey, hvalue⟩ := hmembers.symm.counterpart hf
      exact ⟨e, he, hkey ▸ agree_member f.1 hvalue.symm hrules hothers⟩
  | hasKeys keys =>
    refine agree_of_entries h (fun es fs hmembers => ?_) fun u hu => by cases u <;> first | rfl | cases hu
    show Agree (allSatisfy _ keys) (allSatisfy _ keys) _
    simp only [hmembers.hasAlike_eq]
    exact .self _
  | _ => exact htest.elim

end Test

end

end Schemata
