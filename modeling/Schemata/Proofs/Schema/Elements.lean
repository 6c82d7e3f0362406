import Schemata.Pattern.Reader
import Schemata.Proofs.Pointer.RoundTrip
import Schemata.Proofs.Schema.Silence
import Schemata.Proofs.Validator.Position
import Schemata.Proofs.Validator.Streams

/-!
# `Schemata.Proofs.Schema.Elements` — lists whose items all have one schema

A validator reports the same at every place, with the place in front of every path. So what an array reports on a list
is put together from what the schema of its elements reports on the items by themselves. The schema that nothing fits is
the exception. It is compiled to a bound on the length, and a list with items is refused as a whole.

## Contents
- **Items.** `itemReports`, `Report.ofItems`, and `check_array_items`.
- **Schemas.** `arrayOf`, and what it is compiled to.
- **Places.** `validation_placed`, with `items_refused_whole` for the exception.
-/

namespace Schemata

open Validator

/-! ## Items -/

/-- What a validator reports on each item of a list, with the position of the item in front. -/
def itemReports (vd : Validator) (items : List Value) : Except Fault (List Report) :=
  items.zipIdx.mapM fun item => (vd.check item.1 []).map (Report.under [toString item.2])

/-- The report on a list that consists of the reports on its items. -/
def Report.ofItems (reports : List Report) : Report := ⟨.list (reports.map Report.output), reports.flatMap Report.issues⟩

namespace Validator

/-- Items are checked as they are by themselves, each at its position. -/
theorem checkItems_eq (vd : Validator) (path : Pointer) (i : Nat) (items : List Value) :
    checkItems (m := Except Fault) (fun item place => vd.check item place) path i items =
      ((items.zipIdx i).mapM fun item => (vd.check item.1 []).map (Report.under (path ++ [toString item.2]))) >>=
        fun reports => .ok (gathered reports) := by
  induction items generalizing i with
  | nil => rfl
  | cons v vs ih =>
    rw [List.zipIdx_cons, List.mapM_cons, checkItems, ih, check_at (path ++ [toString i]), bind_assoc]
    refine bind_congr fun r => ?_
    rw [bind_assoc, bind_assoc]
    rfl

/-- **An array without bounds reports on a list what its element reports on the items.** -/
theorem check_array_items (element : Validator) (items : List Value) :
    (array element {}).check (.list items) [] = (itemReports element items).map Report.ofItems := by
  show (checkItems (m := Except Fault) (fun item place => element.check item place) [] 0 items >>= fun out =>
    Except.ok (Report.mk (.list out.1) ([] ++ out.2))) = _
  rw [checkItems_eq, bind_assoc]
  show (itemReports element items >>= fun reports => Except.ok (Report.ofItems reports)) = _
  cases itemReports element items <;> rfl

/-- An array that takes no items refuses a list that has some as a whole. -/
theorem check_array_empty (items : List Value) :
    (array .any ⟨none, some (.int 0)⟩).check (.list items) [] =
      .ok ⟨.list items, if items.isEmpty then [] else [⟨[], .tooManyItems "0"⟩]⟩ := by
  have hlength : lengthIssues (m := Except Fault) items.length ⟨none, some (.int 0)⟩ [] =
      .ok (if items.isEmpty then [] else [⟨[], .tooManyItems "0"⟩]) := by
    rw [lengthIssues_eq, limitIssues, limitIssues, Value.related_int]
    cases items with
    | nil => rfl
    | cons v vs =>
      have hmore : Relation.greater.ofInts (vs.length + 1 : Nat) 0 = true := by
        simp [Relation.ofInts]
      have hzero : (Value.int 0).plain? = .ok "0" := if_pos Value.isWritable_zero
      rw [List.length_cons, hmore, hzero]
      rfl
  show (lengthIssues (m := Except Fault) items.length ⟨none, some (.int 0)⟩ [] >>= fun counts =>
    checkItems (m := Except Fault) (fun item place => Validator.any.check item place) [] 0 items >>= fun out =>
      Except.ok (Report.mk (.list out.1) (counts ++ out.2))) = _
  rw [hlength, checkItems_any]
  show Except.ok (Report.mk (.list items) (_ ++ [])) = _
  rw [List.append_nil]

/-- What fits nothing is refused item by item, each at its position. -/
theorem itemReports_never (items : List Value) :
    itemReports .never items = .ok (items.zipIdx.map fun item => .reject item.1 [toString item.2] .never) := by
  rw [itemReports]
  induction items.zipIdx with
  | nil => rfl
  | cons item rest ih =>
    rw [List.mapM_cons, ih]
    rfl

end Validator

/-! ## Schemas -/

/-- The schema of arrays whose items all have one schema. -/
def arrayOf (element : Value) : Entries := [(.string "type", .string "array"), (.string "items", element)]

theorem compile_arrayOf_dict [Pattern.Engine] (element : Entries) :
    compile (.dict (arrayOf (.dict element))) = compile (.dict element) >>= fun c => .ok (.array c {}) := by
  -- only the rule of items compiles the schema of the elements; what the rules around it do is the same for any result
  let earlier := KindRule.all.take 18
  let later := KindRule.all.drop 19
  let slots : Admissibility := Admissibility.initial.apply (.disableAllExcept [.array, .tuple])
  let steps := fun c => [Step.update .array (withElement c)]
  have hall : KindRule.all = earlier ++ .items :: later := rfl
  refine compile_around slots steps hall ?earlier ?items ?later ?made
  case earlier => with_unfolding_all rfl
  case items => with_unfolding_all rfl
  case later =>
    intro c
    with_unfolding_all rfl
  case made =>
    intro c
    with_unfolding_all rfl

/-- **The schema of elements is compiled by itself**, unless it is the one that nothing fits. -/
theorem compile_arrayOf [Pattern.Engine] {element : Value} {c : Validator} (h : compile element = .ok c)
    (hsome : element ≠ .bool false) :
    compile (.dict (arrayOf element)) = .ok (.array c {}) := by
  cases element with
  | bool b =>
    cases b with
    | false => exact absurd rfl hsome
    | true =>
      obtain rfl := Except.ok.inj ((compile_bool true).symm.trans h)
      with_unfolding_all rfl
  | dict entries =>
    rw [compile_arrayOf_dict, h]
    rfl
  | _ => cases h

theorem compile_arrayOf_false [Pattern.Engine] : compile (.dict (arrayOf (.bool false))) = .ok
    (.array .any ⟨none, some (.int 0)⟩) := by
  with_unfolding_all rfl

/-! ## Places -/

/-- A note with the text of a place put in front of its path. -/
def Note.under (place : String) (note : Note) : Note := { note with path := place ++ note.path }

theorem note_under (place : Pointer) (issue : Issue) : (issue.under place).note = issue.note.under place.encode := by
  rw [Issue.note, Issue.under, Pointer.encode_append]
  rfl

/-- **A value is checked alike at every place**, on open streams as well. The output is the same, and so are the issues
and their order, with the place in front of every path. So an array reports on a list what the schema of its elements
reports on the items, one after the other and each at its position, and puts their outputs together. Only where nothing
fits the elements, a list with items is refused as a whole. -/
theorem validation_placed [Pattern.Engine] :
    (∀ (vd : Validator) (v : Value) (place : Pointer),
      vd.check v place = (vd.check v []).map (Report.under place) ∧
      ∀ positions, (vd.checkOpen v place).run positions =
        ((vd.checkOpen v []).run positions).map fun out => (out.1.under place, out.2)) ∧
    (∀ (issue : Issue) (place : Pointer), (issue.under place).note = issue.note.under place.encode) ∧
    (∀ (issue : Issue) (i : Nat), (issue.under [toString i]).note = issue.note.under ("/" ++ toString i)) ∧
    ∀ (element : Value) (c : Validator), compile element = .ok c →
      ∃ vd, compile (.dict (arrayOf element)) = .ok vd ∧ ∀ items : List Value,
        (element ≠ .bool false → vd.check (.list items) [] = (itemReports c items).map Report.ofItems) ∧
        (element = .bool false → ∃ reports, itemReports c items = .ok reports ∧ vd.check (.list items) [] =
          .ok ⟨(Report.ofItems reports).output, if items.isEmpty then [] else [⟨[], .tooManyItems "0"⟩]⟩) := by
  refine ⟨fun vd v place => ?_, fun issue place => note_under place issue, fun issue i => ?_, fun element c h => ?_⟩
  · refine ⟨check_at place vd v, fun positions => ?_⟩
    rw [check_runsAs vd v place positions, check_runsAs vd v [] positions, check_at place]
    cases vd.check v [] <;> rfl
  · rw [note_under, Pointer.encode_index]
  · by_cases hsome : element = .bool false
    · subst hsome
      obtain rfl := Except.ok.inj ((compile_bool false).symm.trans h)
      refine ⟨_, compile_arrayOf_false, fun items => ⟨fun hne => absurd rfl hne, fun _ => ?_⟩⟩
      refine ⟨_, itemReports_never items, ?_⟩
      have houtputs : (items.zipIdx.map fun item => Report.reject item.1 [toString item.2] .never).map Report.output =
          items := by
        rw [List.map_map]
        exact List.zipIdx_map_fst 0 items
      rw [check_array_empty, Report.ofItems, houtputs]
    · exact ⟨_, compile_arrayOf h hsome, fun items => ⟨fun _ => check_array_items c items, fun heq => absurd heq hsome⟩⟩

attribute [local instance] Pattern.engine

/-- Two items below a place: one member is filled in, and another one with an escaped name is wrong. -/
theorem validation_placed_members :
    let element := Value.dict [(.string "type", .string "object"), (.string "properties", .dict
      [(.string "a/b", .dict [(.string "type", .string "number"), (.string "default", .int 1)])])]
    let items := [Value.dict [], .dict [(.string "a/b", .null)]]
    let issue : Issue := ⟨["list", "1", "a/b"], .wrongType "number" "null"⟩
    element ≠ .bool false ∧ issue.note.path = "/list/1/a~1b" ∧
      ∃ c vd, compile element = .ok c ∧ compile (.dict (arrayOf element)) = .ok vd ∧ vd.check (.list items) ["list"] =
        .ok ⟨.list [.dict [(.string "a/b", .int 1)], .dict [(.string "a/b", .null)]], [issue]⟩ := by
  intro element items issue
  let object := Validator.object [.mk (.string "a/b") false (.defaulted .number (.int 1))] .passthrough {}
  have hcompile : compile element = .ok object := by with_unfolding_all rfl
  have hsome : element ≠ .bool false := Value.noConfusion
  obtain ⟨hplaced, _, _, helements⟩ := validation_placed
  obtain ⟨vd, hvd, hitems⟩ := helements element object hcompile
  refine ⟨hsome, by with_unfolding_all rfl, object, vd, hcompile, hvd, ?_⟩
  rw [(hplaced vd _ _).1, (hitems items).1 hsome]
  with_unfolding_all rfl

/-- **A list with items that nothing fits is refused as a whole**, while the schema by itself refuses each item. -/
theorem items_refused_whole :
    let items := [Value.int 1]
    ∃ c vd, compile (.bool false) = .ok c ∧ compile (.dict (arrayOf (.bool false))) = .ok vd ∧
      vd.check (.list items) [] = .ok ⟨.list items, [⟨[], .tooManyItems "0"⟩]⟩ ∧
      (itemReports c items).map Report.ofItems = .ok ⟨.list items, [⟨["0"], .never⟩]⟩ := by
  refine ⟨.never, _, rfl, compile_arrayOf_false, ?_, ?_⟩
  · rw [check_array_empty]
    rfl
  · rw [itemReports_never]
    with_unfolding_all rfl

end Schemata
