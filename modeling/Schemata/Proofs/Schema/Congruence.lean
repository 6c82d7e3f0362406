import Schemata.Pattern.Reader
import Schemata.Proofs.Schema.Regular
import Schemata.Proofs.Schema.Silence
import Schemata.Proofs.Validator.Congruence

/-!
# `Schemata.Proofs.Schema.Congruence` — equal values are validated alike

Values of JSON are equal whatever the order of their members and however their numbers are spelled, as integers or as
doubles. The validator of a well-formed schema accepts equal values alike, with equal outputs. It may end in a fault on
one of them and not on the other, for the first member to be refused settles a negation before a message is written;
but not if all integers in the schema can be written.

## Contents
- **Outcomes.** `SameOutcome`.
- **Congruence.** `validation_congruent`.
- **Faults.** `validation_order`: one order of members ends in a fault.
-/

namespace Schemata

open Value Validator

/-- Both values are accepted, with equal outputs, or neither is. -/
def SameOutcome : Outcome → Outcome → Prop
  | .ok output, .ok other => output.equal other = true
  | .error _, .error _ => True
  | _, _ => False

theorem SameVerdict.outcome {r s : Report} (h : SameVerdict r s) : SameOutcome r.outcome s.outcome := by
  unfold Report.outcome
  rw [← h.ok]
  split
  next hok => exact (h.output hok).equal
  next => trivial

/-- **Equal values are validated alike.** If the validator of a well-formed schema, whose defaults are values of JSON,
answers about two equal values with numbers of a magnitude of at most `2 ^ 53`, it accepts both, with equal outputs, or
neither; and it does answer about both if all integers in the schema can be written. -/
theorem validation_congruent [Pattern.Engine] {schema a b : Value} {vd : Validator} (hcompile : compile schema = .ok vd)
    (hschema : WellFormed schema) (htidy : Everywhere IsTidy schema) (ha : a.IsExactJson) (hb : b.IsExactJson)
    (hequal : a.equal b = true) :
    (∀ x y, vd.validate a = .ok x → vd.validate b = .ok y → SameOutcome x y) ∧
      (schema.isWritable = true → ∃ x y, vd.validate a = .ok x ∧ vd.validate b = .ok y) := by
  have hregular : Throughout (IsRegular (schema.isWritable = true) True) vd :=
    compile_regular hcompile hschema.shapes id fun _ => htidy
  refine ⟨?_, fun hwritable => ?_⟩
  · have hverdicts := congruent_regular hregular a b (ha.respelled hb hequal) [] []
    exact hverdicts.map fun r s hrs => hrs.outcome
  · have hregular : Throughout (IsRegular True True) vd :=
      compile_regular hcompile hschema.shapes (fun _ => hwritable) fun _ => htidy
    obtain ⟨r, hr, _⟩ := (answers_regular hregular a [] ha.isWritable).answer trivial
    obtain ⟨s, hs, _⟩ := (answers_regular hregular b [] hb.isWritable).answer trivial
    exact ⟨r.outcome, s.outcome, by rw [validate, hr]; rfl, by rw [validate, hs]; rfl⟩

attribute [local instance] Pattern.engine

/-- Members in another order, one and zero spelled as doubles, and a member filled in behind them. -/
theorem validation_congruent_spelled :
    let schema := Value.dict [(.string "properties", .dict
      [(.string "x", .dict [(.string "enum", .list [.list [.int 1]])]), (.string "z", .dict [(.string "default", .int 1)])])]
    let a := Value.dict [(.string "x", .list [.int 1]), (.string "w", .int 0)]
    let b := Value.dict [(.string "w", .float (.finite true 0 Double.minExponent)),
      (.string "x", .list [.float (.finite false (2 ^ 52) (-52))])]
    a.equal b = true ∧ ∃ vd x y, compile schema = .ok vd ∧ vd.validate a = .ok x ∧ vd.validate b = .ok y ∧ SameOutcome x y := by
  intro schema a b
  have hshapes : ∀ entries, (keywordShapes.all fun k => (Entries.get? entries k.1).all k.2.admits) = true → HasShapes entries :=
    fun _ => hasShapes_iff.mpr
  have hschema : WellFormed schema := ⟨rfl, .mapping (hshapes _ rfl) <| List.forall_mem_cons.mpr
    ⟨.mapping (hshapes _ rfl) (List.forall_mem_nil _),
      List.forall_mem_singleton.mpr (.mapping (hshapes _ rfl) (List.forall_mem_nil _))⟩⟩
  have hone : (Value.int 1).IsExactJson := .leaf rfl rfl ⟨rfl, fun _ => .int (by decide)⟩
  have htidy : Everywhere IsTidy schema := by
    refine .mapping ⟨nofun, ?_⟩ <| List.forall_mem_cons.mpr ⟨.mapping ⟨nofun, .nil⟩ (List.forall_mem_nil _),
      List.forall_mem_singleton.mpr (.mapping ⟨?_, .nil⟩ (List.forall_mem_nil _))⟩
    · show [Value.string "x", .string "z"].Nodup
      simp
    · intro value h
      obtain rfl : Value.int 1 = value := Option.some.inj h
      exact hone.isJson
  have hwritable : schema.isWritable = true := by
    simp [schema, Value.isWritable, areWritable, areWritableEntries, isWritableInt_of_le (n := 1) (by decide)]
  have ha : a.IsExactJson := by
    refine .dict ⟨by simp, by simp⟩ (List.forall_mem_cons.mpr ⟨.list (List.forall_mem_singleton.mpr hone),
      List.forall_mem_singleton.mpr (.leaf rfl rfl ⟨rfl, fun _ => .int (by decide)⟩)⟩)
  have hfloat : ∀ negative m e, Double.Legal m e → |Double.dyadic m e| ≤ 2 ^ 53 →
      (Value.float (.finite negative m e)).IsExactJson := by
    intro negative m e hlegal hlimit
    refine .leaf rfl rfl ⟨rfl, fun _ => .float hlegal (Double.toRat?_finite negative m e) ?_⟩
    cases negative <;> simpa using hlimit
  have hb : b.IsExactJson := by
    refine .dict ⟨by simp, by simp⟩ (List.forall_mem_cons.mpr ⟨hfloat _ _ _ ⟨by decide, by decide, by decide, by decide⟩ ?_,
      List.forall_mem_singleton.mpr (.list (List.forall_mem_singleton.mpr
        (hfloat _ _ _ ⟨by decide, by decide, by decide, by decide⟩ ?_)))⟩)
    · simp [Double.dyadic]
    · norm_num [Double.dyadic]
  have hequal : a.equal b = true := by decide +kernel
  obtain ⟨vd, hcompile⟩ : ∃ vd, compile schema = .ok vd := ⟨_, by with_unfolding_all rfl⟩
  obtain ⟨hsame, hanswers⟩ := validation_congruent hcompile hschema htidy ha hb hequal
  obtain ⟨x, y, hx, hy⟩ := hanswers hwritable
  exact ⟨hequal, vd, x, y, hcompile, hx, hy, hsame x y hx hy⟩

/-! ## Faults -/

/-- A member that is always refused, and one whose refusal is told by writing a number. -/
def refusedMembers (n : Int) : Entries := [(.string "patternProperties", .dict
  [(.string "x", .bool false), (.string "y", .dict [(.string "const", .int n)])])]

/-- What is compiled from `refusedMembers`, given its two patterns. -/
def refusesMembers (px py : Pattern) (n : Int) : Validator :=
  .refined everyKind (.patterns [.mk px .never, .mk py (.literal (.int n))] [] .passthrough)
    "Object properties do not match patternProperties"

section

variable {n : Int}

theorem compile_not_refusedMembers (n : Int) : ∃ px py,
    compile (.dict [(.string "not", .dict (refusedMembers n))]) = .ok (.refined everyKind
      (.rejectedBy (refusesMembers px py n)) "Value must not match the negated schema") ∧
    px.search "y" = false ∧ py.search "y" = true ∧
    (refusesMembers px py n).accepts (.dict [(.string "x", .null), (.string "y", .bool true)]) = .ok false :=
  ⟨_, _, by with_unfolding_all rfl, by with_unfolding_all rfl, by with_unfolding_all rfl, by with_unfolding_all rfl⟩

/-- If the member is asked first whose refusal is told, that is what happens. -/
theorem refusesMembers_error {px py : Pattern} (hpx : px.search "y" = false) (hpy : py.search "y" = true)
    (hlong : isWritableInt n = false) :
    (refusesMembers px py n).accepts (.dict [(.string "y", .bool true), (.string "x", .null)]) = .error .noValue := by
  have hfitting : PatternRule.fitting [.mk px .never, .mk py (.literal (.int n))] "y" = [.literal (.int n)] := by
    simp [PatternRule.fitting, PatternRule.fits, hpx, hpy, PatternRule.validator]
  have hmember : PatternRule.acceptMember (m := Except Fault) (fun f => .ok f.size?)
      [.mk px .never, .mk py (.literal (.int n))] "y" (.bool true) = .error .noValue := by
    rw [acceptMember_eq, hfitting]
    dsimp only
    have hfault : (Validator.literal (.int n)).accepts (.bool true) = .error .noValue := by
      rw [accepts, check_long hlong]
      rfl
    have hall : allSatisfy (fun c : Validator => c.accepts (.bool true)) [.literal (.int n)] = .error .noValue :=
      allSatisfy_of_error hfault
    rw [hall]
    rfl
  have hmembers : (Test.patterns [.mk px .never, .mk py (.literal (.int n))] [] .passthrough).holds
      (.dict [(.string "y", .bool true), (.string "x", .null)]) = .error .noValue := by
    rw [Test.holds_patterns]
    refine allSatisfy_of_error ?_
    show (PatternRule.acceptMember (m := Except Fault) _ _ "y" _ >>= _) = _
    rw [hmember]
    rfl
  rw [accepts, refusesMembers]
  show ((everyKind.check _ [] >>= _ : Except Fault Report).map _) = _
  rw [check_everyKind rfl]
  show ((Test.holds _ (.dict [(.string "y", .bool true), (.string "x", .null)]) >>= _ : Except Fault Report).map _) = _
  rw [hmembers]
  rfl

theorem wellFormed_not_refusedMembers (n : Int) : WellFormed (.dict [(.string "not", .dict (refusedMembers n))]) := by
  have hshapes : ∀ entries, (keywordShapes.all fun k => (Entries.get? entries k.1).all k.2.admits) = true → HasShapes entries :=
    fun _ => hasShapes_iff.mpr
  exact ⟨rfl, .mapping (hshapes _ rfl) <| List.forall_mem_singleton.mpr <| .mapping (hshapes _ rfl) <|
    List.forall_mem_cons.mpr ⟨.other rfl, List.forall_mem_singleton.mpr (.mapping (hshapes _ rfl) (List.forall_mem_nil _))⟩⟩

end

/-- **The order of members decides whether there is an answer.** In one order the first member is refused, and with it
the value, so the negation holds; in the other one the refusal of the first member is to be told, with a number that
has too many digits to be written. -/
theorem validation_order :
    let schema := Value.dict [(.string "not", .dict (refusedMembers (10 ^ digitLimit)))]
    let a := Value.dict [(.string "x", .null), (.string "y", .bool true)]
    let b := Value.dict [(.string "y", .bool true), (.string "x", .null)]
    WellFormed schema ∧ a.IsExactJson ∧ b.IsExactJson ∧ a.equal b = true ∧
      ∃ vd, compile schema = .ok vd ∧ vd.validate a = .ok (.ok a) ∧ vd.validate b = .error .noValue := by
  intro schema a b
  have hnull : Value.null.IsExactJson := .leaf rfl rfl ⟨rfl, nofun⟩
  have htrue : (Value.bool true).IsExactJson := .leaf rfl rfl ⟨rfl, nofun⟩
  have ha : a.IsExactJson := .dict ⟨by simp, by simp⟩
    (List.forall_mem_cons.mpr ⟨hnull, List.forall_mem_singleton.mpr htrue⟩)
  have hb : b.IsExactJson := .dict ⟨by simp, by simp⟩
    (List.forall_mem_cons.mpr ⟨htrue, List.forall_mem_singleton.mpr hnull⟩)
  obtain ⟨px, py, hcompile, hpx, hpy, hrefused⟩ := compile_not_refusedMembers (10 ^ digitLimit)
  have hvalidate : ∀ v : Value, v.isNode = true → ∀ message,
      (Validator.refined everyKind (.rejectedBy (refusesMembers px py (10 ^ digitLimit))) message).validate v =
        ((refusesMembers px py (10 ^ digitLimit)).accepts v).map fun accepted =>
          (if accepted then .error [⟨[], .refinement message⟩] else .ok v : Outcome) := by
    intro v hv message
    rw [validate]
    show ((everyKind.check v [] >>= _ : Except Fault Report).map _) = _
    rw [check_everyKind hv]
    show ((Test.holds (.rejectedBy _) v >>= _ : Except Fault Report).map _) = _
    rw [Test.holds_rejectedBy]
    cases (refusesMembers px py (10 ^ digitLimit)).accepts v with
    | error fault => rfl
    | ok accepted => cases accepted <;> rfl
  refine ⟨wellFormed_not_refusedMembers _, ha, hb, by decide +kernel, _, hcompile, ?_, ?_⟩
  · rw [hvalidate a rfl, hrefused]
    rfl
  · rw [hvalidate b rfl, refusesMembers_error hpx hpy isWritableInt_pow]
    rfl

end Schemata
