import Schemata.Proofs.Schema.Absence
import Schemata.Proofs.Schema.Reading

/-!
# `Schemata.Proofs.Schema.Editing` — schemas edited at every depth

An edit changes the mappings of keywords of a schema, one by one, wherever a sub-schema is; values that are no schemas,
such as literals and defaults, are left alone. Where the edit leaves a keyword alone, the edited schema reads as the
schema does, with its sub-schemas edited.

## Contents
- **Edits.** `Value.edited`, by structural recursion along the shapes of keywords.
- **Reading.** `edited_readsAs`, `mem_subSchemas_edited` and `everywhere_edited`.
- **Compilation.** `coreWith` and `coreValidator_edited`.
-/

namespace Schemata

/-! ## Edits -/

/-- The shape of the value under a key. -/
def keyShape (key : Value) : KeywordShape := (key.text?.map shapeOf).getD .any

section

variable (edit : Entries → Entries)

mutual

/-- A schema with every mapping of keywords in it edited, from the inside out. -/
def Value.edited : Value → Value
  | .dict schema => .dict (edit (editedKeywords schema))
  | v => v

/-- The keywords of a mapping, with their sub-schemas edited. -/
def editedKeywords : Entries → Entries
  | [] => []
  | (key, v) :: rest => (key, editedUnder (keyShape key) v) :: editedKeywords rest

/-- A value of a shape, with its sub-schemas edited. -/
def editedUnder : KeywordShape → Value → Value
  | .schema, .dict schema => .dict (edit (editedKeywords schema))
  | .schemas, .list items => .list (editedItems items)
  | .schemaOrSchemas, .list items => .list (editedItems items)
  | .schemaOrSchemas, .dict schema => .dict (edit (editedKeywords schema))
  | .schemaMap, .dict entries => .dict (editedMembers entries)
  | _, v => v

/-- Schemas edited one by one. -/
def editedItems : List Value → List Value
  | [] => []
  | v :: vs => v.edited :: editedItems vs

/-- The schemas of a mapping edited one by one. -/
def editedMembers : Entries → Entries
  | [] => []
  | (key, v) :: rest => (key, v.edited) :: editedMembers rest

end

end

section

variable {edit : Entries → Entries} {schema : Entries}

theorem editedItems_eq (items : List Value) : editedItems edit items = items.map (Value.edited edit) := by
  induction items with
  | nil => rfl
  | cons v vs ih => rw [editedItems, List.map_cons, ih]

theorem editedMembers_eq (entries : Entries) :
    editedMembers edit entries = entries.map fun e => (e.1, e.2.edited edit) := by
  induction entries with
  | nil => rfl
  | cons e es ih => rw [editedMembers, List.map_cons, ih]

theorem editedUnder_eq (shape : KeywordShape) (v : Value) : editedUnder edit shape v = shape.map (Value.edited edit) v := by
  cases shape with
  | schemas | schemaOrSchemas =>
    cases v <;> first | rfl | exact congrArg Value.list (editedItems_eq _)
  | schemaMap =>
    cases v <;> first | rfl | exact congrArg Value.dict (editedMembers_eq _)
  | _ => cases v <;> rfl

theorem editedKeywords_eq (schema : Entries) :
    editedKeywords edit schema = schema.map fun e => (e.1, (keyShape e.1).map (Value.edited edit) e.2) := by
  induction schema with
  | nil => rfl
  | cons e es ih => rw [editedKeywords, List.map_cons, ih, editedUnder_eq]

theorem keepsForm_edited : KeepsForm (Value.edited edit) where
  mapping := fun entries => ⟨_, rfl⟩
  other := fun v hv => by cases v <;> first | rfl | cases hv

/-! ## Reading -/

/-- Whether an edit leaves a keyword alone. -/
def Spares (edit : Entries → Entries) (keyword : String) : Prop :=
  ∀ entries, Entries.get? (edit entries) keyword = Entries.get? entries keyword

theorem get?_editedKeywords (schema : Entries) (keyword : String) : Entries.get? (editedKeywords edit schema) keyword =
    (Entries.get? schema keyword).map ((shapeOf keyword).map (Value.edited edit)) := by
  rw [editedKeywords_eq, Entries.get?, Entries.get?, List.find?_map, Option.map_map, Option.map_map]
  show Option.map _ (schema.find? fun e => e.1.isText keyword) = _
  cases hfind : schema.find? fun e => e.1.isText keyword with
  | none => rfl
  | some e =>
    have htext : e.1 = .string keyword := Value.isText_iff.mp (List.find?_some (p := fun e : Value × Value => e.1.isText keyword) hfind)
    show some ((keyShape e.1).map (Value.edited edit) e.2) = some ((shapeOf keyword).map (Value.edited edit) e.2)
    rw [htext]
    rfl

/-- **An edited schema reads as the schema does**, but for the keywords that the edit is about. -/
theorem edited_readsAs {keyword : String} (h : Spares edit keyword) :
    ReadsAs (Value.edited edit) schema (edit (editedKeywords edit schema)) keyword :=
  (h _).trans (get?_editedKeywords schema keyword)

theorem KeywordShape.subSchemas_map {f : Value → Value} (hf : KeepsForm f) (shape : KeywordShape) (v : Value) :
    shape.subSchemas (shape.map f v) = (shape.subSchemas v).map f := by
  cases shape with
  | schemas => cases v <;> rfl
  | schemaOrSchemas =>
    cases v with
    | dict entries =>
      obtain ⟨entries', heq⟩ := hf.mapping entries
      show KeywordShape.subSchemas .schemaOrSchemas (f (.dict entries)) = [f (.dict entries)]
      rw [heq]
      rfl
    | list items => rfl
    | _ =>
      show KeywordShape.subSchemas .schemaOrSchemas (f _) = [f _]
      rw [hf.other _ rfl]
      rfl
  | schemaMap =>
    cases v with
    | dict entries =>
      show List.map Prod.snd (List.map _ entries) = List.map f (List.map Prod.snd entries)
      rw [List.map_map, List.map_map]
      rfl
    | _ => rfl
  | _ => rfl

/-- A sub-schema of an edited schema is an edited sub-schema. -/
theorem mem_subSchemas_edited (h : ∀ k ∈ keywordShapes, ∀ entries v, Entries.get? (edit entries) k.1 = some v →
    Entries.get? entries k.1 = some v) {s : Value} (hs : s ∈ subSchemas (edit (editedKeywords edit schema))) :
    ∃ s' ∈ subSchemas schema, s = s'.edited edit := by
  have hshapes : ∀ k ∈ keywordShapes, shapeOf k.1 = k.2 := by decide
  obtain ⟨k, hk, hs⟩ := List.mem_flatMap.mp hs
  dsimp only at hs
  split at hs
  next v hget =>
    have hedited := h k hk _ _ hget
    rw [get?_editedKeywords, hshapes k hk] at hedited
    obtain ⟨w, hw, rfl⟩ := Option.map_eq_some_iff.mp hedited
    rw [KeywordShape.subSchemas_map keepsForm_edited] at hs
    obtain ⟨s', hs', rfl⟩ := List.mem_map.mp hs
    exact ⟨s', mem_subSchemas k.2 hw hk hs', rfl⟩
  next => cases hs

/-- **What holds of edited mappings everywhere**, if it holds of each of them. -/
theorem everywhere_edited {holds : Entries → Prop} (hedit : ∀ entries, holds (edit entries))
    (h : ∀ k ∈ keywordShapes, ∀ entries v, Entries.get? (edit entries) k.1 = some v → Entries.get? entries k.1 = some v)
    (v : Value) : Everywhere holds (v.edited edit) := by
  induction v using schema_induction with
  | mapping schema ih =>
    refine .mapping (hedit _) fun s hs => ?_
    obtain ⟨s', hs', rfl⟩ := mem_subSchemas_edited h hs
    exact ih s' hs'
  | other v hother =>
    rw [keepsForm_edited.other v hother]
    exact .other hother

section

variable (hspares : ∀ k ∈ keywordShapes, Spares edit k.1)
include hspares

/-- A keyword without sub-schemas is the same in an edited mapping. -/
theorem get?_edited_shallow (schema : Entries) (keyword : String) (hkeyword : keyword ∈ keywordShapes.map Prod.fst := by decide)
    (hshallow : (shapeOf keyword).isDeep = false := by decide) :
    Entries.get? (edit (editedKeywords edit schema)) keyword = Entries.get? schema keyword := by
  obtain ⟨k, hk, rfl⟩ := List.mem_map.mp hkeyword
  exact (edited_readsAs (hspares k hk)).same hshallow

/-- A list of sub-schemas is edited one by one. -/
theorem listedSchemas_edited (schema : Entries) (keyword : String) (hkeyword : keyword ∈ keywordShapes.map Prod.fst := by decide)
    (hshape : shapeOf keyword = .schemas := by decide) :
    listedSchemas (edit (editedKeywords edit schema)) keyword = (listedSchemas schema keyword).map (Value.edited edit) := by
  obtain ⟨k, hk, rfl⟩ := List.mem_map.mp hkeyword
  rw [listedSchemas, listedSchemas, (edited_readsAs (hspares k hk)).items hshape]
  cases (Entries.get? schema k.1).bind Value.items? <;> rfl

/-- An edit that leaves all keywords alone edits every sub-schema. -/
theorem edited_mem_subSchemas {s : Value} (hs : s ∈ subSchemas schema) :
    s.edited edit ∈ subSchemas (edit (editedKeywords edit schema)) := by
  have hshapes : ∀ k ∈ keywordShapes, shapeOf k.1 = k.2 := by decide
  obtain ⟨k, hk, hs⟩ := List.mem_flatMap.mp hs
  dsimp only at hs
  split at hs
  next v hget =>
    have hedited := (hspares k hk (editedKeywords edit schema)).trans (get?_editedKeywords schema k.1)
    rw [hget, hshapes k hk] at hedited
    refine mem_subSchemas k.2 hedited hk ?_
    rw [KeywordShape.subSchemas_map keepsForm_edited]
    exact List.mem_map_of_mem hs
  next => cases hs

/-- **What holds of mappings everywhere** holds of the edited mappings, if the edit does not change whether it holds. -/
theorem everywhere_edited_iff {holds : Entries → Prop} (v : Value)
    (hedit : ∀ schema, holds (edit (editedKeywords edit schema)) ↔ holds schema) :
    Everywhere holds (v.edited edit) ↔ Everywhere holds v := by
  induction v using schema_induction with
  | mapping schema ih =>
    constructor
    · intro h
      refine .mapping ((hedit schema).mp h.here) fun s hs => (ih s hs).mp ?_
      exact h.inside (edited_mem_subSchemas hspares hs)
    · intro h
      refine .mapping ((hedit schema).mpr h.here) fun s hs => ?_
      obtain ⟨s', hs', rfl⟩ := mem_subSchemas_edited (fun k hk entries v hget => (hspares k hk entries).symm.trans hget) hs
      exact (ih s' hs').mpr (h.inside hs')
  | other v hother => rw [keepsForm_edited.other v hother]

end

/-! ## Compilation -/

/-- The validator of a mapping before annotations, for a way of compiling sub-schemas. Whether there are constraints is
read off other entries. -/
def coreWith [Pattern.Engine] (convert : Value → Except CompileError Validator) (schema labels : Entries) :
    Except CompileError Validator := do
  let slots ← KindRule.runAll (fun _ => .ok ()) convert schema KindRule.all .initial
  Refinement.runAll (fun _ => .ok ()) convert schema Refinement.constraints (slots.assemble labels)

theorem coreValidator_eq [Pattern.Engine] (schema : Entries) :
    coreValidator schema = coreWith compile schema schema := by
  rw [coreValidator, baseValidator, bind_assoc]
  exact bind_congr fun slots => pure_bind _ _

/-- What a mapping is compiled to depends on what its sub-schemas are compiled to. -/
theorem coreWith_congr [Pattern.Engine] {convert other : Value → Except CompileError Validator} {labels labels' : Entries}
    (h : ∀ s ∈ subSchemas schema, convert s = other s) (hlabels : hasConstraints labels = hasConstraints labels') :
    coreWith convert schema labels = coreWith other schema labels' := by
  unfold coreWith
  rw [KindRule.runAll_congr h]
  refine bind_congr fun slots => ?_
  rw [Refinement.runAll_congr h, assemble_congr hlabels]

/-- **An edited mapping is compiled as the mapping is**, through its edited sub-schemas. -/
theorem coreValidator_edited [Pattern.Engine]
    (h : ∀ k ∈ keywordShapes, k.1 ∉ ["default", "description"] → Spares edit k.1) :
    coreValidator (edit (editedKeywords edit schema)) =
      coreWith (fun s => compile (s.edited edit)) schema (edit (editedKeywords edit schema)) := by
  have hspares : ∀ keyword ∈ speakingKeywords,
      ReadsAs (Value.edited edit) schema (edit (editedKeywords edit schema)) keyword := by
    intro keyword hkeyword
    obtain ⟨hmem, hspeaks⟩ := List.mem_filter.mp hkeyword
    obtain ⟨k, hk, rfl⟩ := List.mem_map.mp hmem
    exact edited_readsAs (h k hk (of_decide_eq_true hspeaks))
  rw [coreValidator, baseValidator, KindRule.runAll_readsAs keepsForm_edited _ fun rule hrule keyword hkeyword =>
    hspares keyword (keywords_rules rule hrule keyword hkeyword), bind_assoc]
  refine bind_congr fun slots => ?_
  exact Refinement.runAll_readsAs keepsForm_edited _ _ fun refinement hrefinement keyword hkeyword =>
    hspares keyword (keywords_constraints refinement hrefinement keyword hkeyword)

/-- Keys and not values make constraints. -/
theorem hasConstraints_editedKeywords (schema : Entries) :
    hasConstraints (editedKeywords edit schema) = hasConstraints schema := by
  rw [editedKeywords_eq, hasConstraints, hasConstraints, List.any_map]
  rfl

end

end Schemata
