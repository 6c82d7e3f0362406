import Schemata.Proofs.Validator.Acceptance
import Schemata.Proofs.Validator.Decision

/-!
# `Schemata.Proofs.Validator.Conditions` — what conditions answer

A condition with validators inside answers what these decide, put together as the condition says. Conditions on
lists or on mappings hold of everything else.

## Contents
- **Traversals.** Positional items and what is left over.
- **Conditions.** `answers_rejectedBy`, `answers_positions`, `answers_counted` and `answers_patterns`.
-/

namespace Schemata

variable {sure : Prop}

/-! ## Traversals -/

namespace Decides

variable {vd : Validator} {v w : Value} {b : Bool}

/-- Whether a value that is decided is accepted. -/
theorem answers_ok (h : Decides sure vd w b) :
    Answers sure (do return (← vd.checkWith (m := Except Fault) (fun f => .ok f.size?) w []).ok) (· = b) :=
  .bind (h []) fun _ hr => .pure hr.1

/-- What is left over is accepted if all of it is. -/
theorem answers_acceptItems {additional : Additional} {accepted : Value → Bool} (ws : List Value)
    (h : ∀ w ∈ ws, ofAdditional sure additional w (accepted w)) :
    Answers sure (additional.acceptItems (m := Except Fault) (fun f => .ok f.size?) ws) (· = ws.all accepted) := by
  cases additional with
  | strict =>
    refine .pure ?_
    cases ws with
    | nil => rfl
    | cons w ws => rw [List.all_cons, show accepted w = false from h w List.mem_cons_self]; rfl
  | passthrough =>
    exact .pure (List.all_eq_true.mpr h).symm
  | checked c =>
    exact answers_allSatisfy ws fun w hw => answers_ok (h w hw)

theorem answers_acceptPositional {ι : Type} {parts : List (ι × Validator)} (accepted : ι → Value → Bool) (ws : List Value)
    (h : ∀ p ∈ parts, ∀ w ∈ ws, Decides sure p.2 w (accepted p.1 w)) :
    Answers sure (Validator.acceptPositional (m := Except Fault) (fun f => .ok f.size?) (parts.map Prod.snd) ws)
      (· = ((parts.map Prod.fst).zip ws).all fun e => accepted e.1 e.2) := by
  induction parts generalizing ws with
  | nil =>
    exact .pure rfl
  | cons p ps ih =>
    cases ws with
    | nil =>
      exact .pure rfl
    | cons w ws =>
      obtain ⟨hfirst, hrest⟩ := List.forall_mem_cons.mp h
      rw [List.map_cons, List.map_cons, List.zip_cons_cons, List.all_cons]
      refine .bind (hfirst w List.mem_cons_self []) ?_
      rintro r ⟨hok, _⟩
      rw [hok]
      cases accepted p.1 w with
      | true => exact ih ws fun q hq u hu => hrest q hq u (List.mem_cons_of_mem _ hu)
      | false => exact .pure rfl

/-! ## Conditions -/

/-- A negation accepts what its validator rejects. -/
theorem answers_rejectedBy {negated : Validator} (h : Decides sure negated v b) :
    Answers sure ((Test.rejectedBy negated).holds v) (· = !b) := by
  refine .bind (h []) ?_
  rintro r ⟨hok, _⟩
  exact .pure (by rw [hok])

/-- Positional items are accepted one by one, and those beyond as what is left over. -/
theorem answers_positions {ι : Type} {parts : List (ι × Validator)} {extra : Additional} {items : List Value}
    (accepted : ι → Value → Bool) {others : Value → Bool}
    (hparts : ∀ p ∈ parts, ∀ w ∈ items, Decides sure p.2 w (accepted p.1 w))
    (hextra : ∀ w ∈ items, ofAdditional sure extra w (others w)) :
    Answers sure ((Test.positions (parts.map Prod.snd) extra).holds (.list items))
      (· = (((parts.map Prod.fst).zip items).all (fun e => accepted e.1 e.2) &&
        (items.drop parts.length).all others)) := by
  refine .bind (answers_acceptPositional accepted items hparts) ?_
  rintro _ rfl
  rw [List.length_map]
  cases ((parts.map Prod.fst).zip items).all fun e => accepted e.1 e.2 with
  | true => exact answers_acceptItems _ fun w hw => hextra w (List.mem_of_mem_drop hw)
  | false => exact .pure rfl

/-- The number of accepted items lies between limits that are integers. -/
theorem answers_counted {item : Validator} {items : List Value} (least : Int) {most : Option Value}
    {accepted : Value → Bool} (hitem : ∀ w ∈ items, Decides sure item w (accepted w))
    (hmost : ∀ limit, most = some limit → ∃ n, limit = .int n) :
    Answers sure ((Test.counted item (.int least) most).holds (.list items))
      (· = (decide (least ≤ (items.countP accepted : Int)) &&
        limitHolds most fun limit => decide ((items.countP accepted : Int) ≤ limit))) := by
  refine .bind (answers_countSatisfying items fun w hw => answers_ok (hitem w hw)) ?_
  rintro _ rfl
  rw [orFault_except, Value.related_int, Relation.ofInts]
  by_cases hleast : least ≤ (items.countP accepted : Int)
  · rw [decide_eq_true hleast, decide_eq_false (Int.not_lt.mpr hleast), Bool.true_and]
    cases most with
    | none => exact .pure rfl
    | some limit =>
      obtain ⟨n, rfl⟩ := hmost limit rfl
      refine (?_ : Answers sure (orFault (m := Except Fault) (Value.related .atMost (.int _) (.int n))) _)
      rw [orFault_except, Value.related_int]
      exact .ok rfl
  · rw [decide_eq_false hleast, decide_eq_true (Int.not_le.mp hleast), Bool.false_and]
    exact .pure rfl

/-- Undeclared members are accepted by all rules that fit, and as what is left over if none does. -/
theorem answers_patterns {rules : List PatternRule} {declared : List Value} {extra : Additional} {members : Entries}
    {fitting : Value × Value → Option Bool} {others : Value → Bool}
    (hrules : ∀ e ∈ members, Answers sure
      (PatternRule.acceptMember (m := Except Fault) (fun f => .ok f.size?) rules e.1.plain e.2) (· = fitting e))
    (hextra : ∀ e ∈ members, ofAdditional sure extra e.2 (others e.2)) :
    Answers sure ((Test.patterns rules declared extra).holds (.dict members))
      (· = members.all fun e => (declared.any fun name => name.alike e.1) || (fitting e).getD (others e.2)) := by
  refine answers_allSatisfy members fun e he => ?_
  cases declared.any fun name => name.alike e.1 with
  | true => exact .pure rfl
  | false =>
    refine .bind (hrules e he) ?_
    rintro _ rfl
    cases fitting e with
    | some outcome => exact .pure rfl
    | none =>
      have hone := answers_acceptItems [e.2] (List.forall_mem_singleton.mpr (hextra e he))
      rwa [List.all_cons, List.all_nil, Bool.and_true] at hone

end Decides

end Schemata
