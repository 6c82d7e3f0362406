import Schemata.Proofs.Validator.Parts

/-!
# `Schemata.Proofs.Validator.Acceptance` — conditions that ask validators

A condition with validators inside asks them only whether they accept certain values, and it asks one after the
other until the first that does not. So each is an instance of `allSatisfy` or `countSatisfying`, with acceptance as
what is to be satisfied.

## Contents
- **Traversals.** Positional items, what is left over, and members under patterns, as traversals of lists.
- **Conditions.** `Test.holds` of each condition with validators inside.
- **Answers.** `answers_allSatisfy`, `answers_countSatisfying`, `allSatisfy_eq_true`, and when a traversal answers at all.
-/

namespace Schemata

/-! ## Traversals -/

/-- Whether a validator accepts a value, as a step of a condition. -/
theorem accepts_eq (vd : Validator) (v : Value) :
    vd.accepts v = (do return (← vd.checkWith (m := Except Fault) (fun f => .ok f.size?) v []).ok) := by
  unfold Validator.accepts Validator.check
  cases vd.checkWith (m := Except Fault) (fun f => .ok f.size?) v [] <;> rfl

/-- A step that asks a validator. -/
theorem bind_accepts {β : Type} (vd : Validator) (v : Value) (f : Bool → Except Fault β) :
    (vd.accepts v >>= f) = (vd.check v [] >>= fun r => f r.ok) := by
  unfold Validator.accepts
  cases vd.check v [] <;> rfl

/-- Positional items are accepted one after the other. -/
theorem acceptPositional_eq (validators : List Validator) (items : List Value) :
    Validator.acceptPositional (m := Except Fault) (fun f => .ok f.size?) validators items =
      allSatisfy (fun p : Validator × Value => p.1.accepts p.2) (validators.zip items) := by
  induction validators generalizing items with
  | nil => rfl
  | cons c cs ih =>
    cases items with
    | nil => rfl
    | cons v vs =>
      rw [List.zip_cons_cons, allSatisfy, bind_accepts, ← ih]
      rfl

/-- Whether values are left over that may be. -/
theorem acceptItems_checked (c : Validator) (ws : List Value) :
    (Additional.checked c).acceptItems (m := Except Fault) (fun f => .ok f.size?) ws = allSatisfy c.accepts ws := by
  rw [show c.accepts = _ from funext (accepts_eq c)]
  rfl

/-- Whether the pattern of a rule fits a key. -/
def PatternRule.fits (key : String) : PatternRule → Bool
  | .mk pattern _ => pattern.search key

/-- The validators of the rules whose pattern fits a key. -/
def PatternRule.fitting (rules : List PatternRule) (key : String) : List Validator :=
  (rules.filter (PatternRule.fits key)).map PatternRule.validator

/-- A member is accepted by all rules that fit its key, if any does. -/
theorem acceptMember_eq (rules : List PatternRule) (key : String) (v : Value) :
    PatternRule.acceptMember (m := Except Fault) (fun f => .ok f.size?) rules key v =
      match PatternRule.fitting rules key with
      | [] => .ok none
      | fitting => (allSatisfy (fun c : Validator => c.accepts v) fitting).map some := by
  induction rules with
  | nil => rfl
  | cons rule rules ih =>
    obtain ⟨pattern, c⟩ := rule
    show (if pattern.search key then c.check v [] >>= fun r => if r.ok then
        PatternRule.acceptMember (m := Except Fault) (fun f => .ok f.size?) rules key v >>= fun rest =>
          .ok (some (rest.getD true)) else .ok (some false) else
      PatternRule.acceptMember (m := Except Fault) (fun f => .ok f.size?) rules key v) = _
    rw [ih]
    by_cases hfits : PatternRule.fits key (.mk pattern c) = true
    · have hfitting : PatternRule.fitting (.mk pattern c :: rules) key = c :: PatternRule.fitting rules key :=
        congrArg (List.map _) (List.filter_cons_of_pos hfits)
      rw [show pattern.search key = true from hfits, if_pos rfl, hfitting]
      show _ = (c.accepts v >>= fun b => if b then _ else Except.ok false).map some
      rw [bind_accepts]
      cases c.check v [] with
      | error e => rfl
      | ok r =>
        show (if r.ok then _ else _) = Except.map some (if r.ok then _ else _)
        cases r.ok with
        | false => rfl
        | true =>
          cases PatternRule.fitting rules key with
          | nil => rfl
          | cons d ds =>
            rw [if_pos rfl, if_pos rfl]
            dsimp only
            cases allSatisfy (fun c : Validator => c.accepts v) (d :: ds) <;> rfl
    · have hfitting : PatternRule.fitting (.mk pattern c :: rules) key = PatternRule.fitting rules key :=
        congrArg (List.map _) (List.filter_cons_of_neg hfits)
      rw [if_neg (show ¬ pattern.search key = true from hfits), hfitting]

/-! ## Conditions -/

namespace Test

theorem holds_rejectedBy (negated : Validator) (v : Value) :
    (rejectedBy negated).holds v = (negated.accepts v).map not := by
  show (negated.check v [] >>= fun r => Except.ok !r.ok) = _
  unfold Validator.accepts
  cases negated.check v [] <;> rfl

theorem holds_positions (validators : List Validator) (extra : Additional) (items : List Value) :
    (positions validators extra).holds (.list items) = (do
      if (← allSatisfy (fun p : Validator × Value => p.1.accepts p.2) (validators.zip items)) then
        extra.acceptItems (m := Except Fault) (fun f => .ok f.size?) (items.drop validators.length)
      else return false) := by
  rw [← acceptPositional_eq]
  rfl

theorem holds_counted (item : Validator) (least : Value) (most : Option Value) (items : List Value) :
    (counted item least most).holds (.list items) = (do
      let n ← countSatisfying item.accepts items
      if (← Value.related .less (.int n) least) then return false
      else
        match most with
        | none => return true
        | some most => Value.related .atMost (.int n) most) := by
  rw [show item.accepts = _ from funext (accepts_eq item)]
  show (countSatisfying _ items >>= fun n => orFault (m := Except Fault) (Value.related .less (.int n) least) >>= _) = _
  refine bind_congr fun n => ?_
  rw [orFault_except]
  refine bind_congr fun few => ?_
  cases few with
  | true => rfl
  | false =>
    cases most with
    | none => rfl
    | some most => exact orFault_except _

theorem holds_patterns (rules : List PatternRule) (declared : List Value) (others : Additional) (members : Entries) :
    (patterns rules declared others).holds (.dict members) = allSatisfy (fun e : Value × Value => do
      if declared.any fun name => name.alike e.1 then return true
      else
        match (← PatternRule.acceptMember (m := Except Fault) (fun f => .ok f.size?) rules e.1.plain e.2) with
        | some outcome => return outcome
        | none => others.acceptItems (m := Except Fault) (fun f => .ok f.size?) [e.2]) members := rfl

end Test

/-! ## Answers -/

variable {sure : Prop}

theorem answers_allSatisfy {α : Type} {test : α → Except Fault Bool} {holds : α → Bool} (as : List α)
    (h : ∀ a ∈ as, Answers sure (test a) (· = holds a)) : Answers sure (allSatisfy test as) (· = as.all holds) := by
  induction as with
  | nil => exact .pure rfl
  | cons a as ih =>
    obtain ⟨hfirst, hrest⟩ := List.forall_mem_cons.mp h
    rw [allSatisfy, List.all_cons]
    refine .bind hfirst ?_
    rintro _ rfl
    cases holds a with
    | true => exact ih hrest
    | false => exact .pure rfl

theorem answers_countSatisfying {α : Type} {test : α → Except Fault Bool} {holds : α → Bool} (as : List α)
    (h : ∀ a ∈ as, Answers sure (test a) (· = holds a)) :
    Answers sure (countSatisfying test as) (· = as.countP holds) := by
  induction as with
  | nil => exact .pure rfl
  | cons a as ih =>
    obtain ⟨hfirst, hrest⟩ := List.forall_mem_cons.mp h
    rw [countSatisfying, List.countP_cons]
    refine .bind hfirst ?_
    rintro _ rfl
    refine .bind (ih hrest) ?_
    rintro _ rfl
    exact .pure (Nat.add_comm _ _)

/-- A fault on the first element ends a traversal. -/
theorem allSatisfy_of_error {α : Type} {test : α → Except Fault Bool} {a : α} {as : List α} {fault : Fault}
    (h : test a = .error fault) : allSatisfy test (a :: as) = .error fault := by
  rw [allSatisfy, h]
  rfl

theorem allSatisfy_eq_true {α : Type} {test : α → Except Fault Bool} {as : List α} :
    allSatisfy test as = .ok true ↔ ∀ a ∈ as, test a = .ok true := by
  induction as with
  | nil => exact ⟨fun _ => List.forall_mem_nil _, fun _ => rfl⟩
  | cons a as ih =>
    rw [List.forall_mem_cons, ← ih, allSatisfy]
    cases htest : test a with
    | error e => simp [bind, Except.bind]
    | ok b => cases b <;> simp [bind, Except.bind, pure, Except.pure]

/-- Elements that pass at the end of a traversal are of no matter. -/
theorem allSatisfy_append {α : Type} {test : α → Except Fault Bool} (as : List α) {bs : List α}
    (h : ∀ b ∈ bs, test b = .ok true) : allSatisfy test (as ++ bs) = allSatisfy test as := by
  induction as with
  | nil => exact allSatisfy_eq_true.mpr h
  | cons a as ih => rw [List.cons_append, allSatisfy, allSatisfy, ih]

/-- A traversal answers if every step does. -/
theorem allSatisfy_answers {α : Type} {test : α → Except Fault Bool} (as : List α)
    (h : ∀ a ∈ as, Answers sure (test a) fun _ => True) : Answers sure (allSatisfy test as) fun _ => True := by
  induction as with
  | nil => exact .pure trivial
  | cons a as ih =>
    obtain ⟨hfirst, hrest⟩ := List.forall_mem_cons.mp h
    rw [allSatisfy]
    refine .bind hfirst fun b _ => ?_
    cases b with
    | true => exact ih hrest
    | false => exact .pure trivial

theorem countSatisfying_answers {α : Type} {test : α → Except Fault Bool} (as : List α)
    (h : ∀ a ∈ as, Answers sure (test a) fun _ => True) : Answers sure (countSatisfying test as) fun _ => True := by
  induction as with
  | nil => exact .pure trivial
  | cons a as ih =>
    obtain ⟨hfirst, hrest⟩ := List.forall_mem_cons.mp h
    rw [countSatisfying]
    exact .bind hfirst fun b _ => .bind (ih hrest) fun n _ => .pure trivial

end Schemata
