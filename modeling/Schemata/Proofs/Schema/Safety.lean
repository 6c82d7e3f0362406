import Schemata.Pattern.Reader
import Schemata.Proofs.Schema.Regular
import Schemata.Proofs.Validator.Streams

/-!
# `Schemata.Proofs.Schema.Safety` — validation never ends in a fault

The validator of a well-formed schema answers about every value, of JSON or not, as long as all integers in both can
be written. In particular no condition inside it is asked of an output for which it makes no sense, whatever was
joined or filled in before, and measuring open streams changes nothing.

## Contents
- `validation_answers`.
-/

namespace Schemata

open Validator

/-- **Validation never ends in a fault.** The validator of a well-formed schema answers about every value, with the
same outcome on open streams, which stay where they are; and each condition in it is answered on every output that it
is put to. -/
theorem validation_answers [Pattern.Engine] {schema v : Value} {vd : Validator} (hcompile : compile schema = .ok vd)
    (hschema : WellFormed schema) (hwritable : schema.isWritable = true) (hv : v.isWritable = true) :
    (∃ outcome, vd.validate v = .ok outcome ∧ ∀ positions, vd.validateOpen v positions = .ok (outcome, positions)) ∧
      ∀ inner test message, Inside (.refined inner test message) vd → ∀ (w : Value) (path : Pointer) (r : Report),
        w.isWritable = true → inner.check w path = .ok r → r.ok = true → ∃ b, test.holds r.output = .ok b := by
  have hregular : Throughout (IsRegular True False) vd :=
    compile_regular hcompile hschema.shapes (fun _ => hwritable) False.elim
  refine ⟨?_, fun inner test message hinside w path r hw hr hok => answers_asked hregular hinside hw hr hok⟩
  obtain ⟨r, hr, _⟩ := (answers_regular hregular v [] hv).answer trivial
  refine ⟨r.outcome, ?_, fun positions => ?_⟩
  · rw [validate, hr]
    rfl
  · rw [validateOpen, check_runsAs vd v [] positions, hr]
    rfl

attribute [local instance] Pattern.engine

/-- A mapping with a key that is no text, and an open stream under it. -/
theorem validation_answers_stream :
    let schema := Value.dict [(.string "type", .string "object"), (.string "properties", .dict
      [(.string "a", .dict [(.string "type", .string "string"), (.string "pattern", .string "b"),
        (.string "default", .string "b")])])]
    let v := Value.dict [(.null, .tuple [.file (.stream 0 [7] true)])]
    ∃ vd, compile schema = .ok vd ∧ schema.isWritable = true ∧ v.isWritable = true ∧
      ∃ outcome, vd.validate v = .ok outcome ∧ ∀ positions, vd.validateOpen v positions = .ok (outcome, positions) := by
  intro schema v
  have hshapes : ∀ entries, (keywordShapes.all fun k => (Entries.get? entries k.1).all k.2.admits) = true → HasShapes entries :=
    fun _ => hasShapes_iff.mpr
  have hschema : WellFormed schema := ⟨rfl, .mapping (hshapes _ rfl) <|
    List.forall_mem_singleton.mpr (.mapping (hshapes _ rfl) (List.forall_mem_nil _))⟩
  obtain ⟨vd, hcompile⟩ : ∃ vd, compile schema = .ok vd := ⟨_, by with_unfolding_all rfl⟩
  exact ⟨vd, hcompile, rfl, rfl, (validation_answers hcompile hschema rfl rfl).1⟩

end Schemata
