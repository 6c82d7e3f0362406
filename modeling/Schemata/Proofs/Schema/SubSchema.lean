import Mathlib.Data.List.Basic
import Schemata.Proofs.Answer
import Schemata.Proofs.Value.Tree
import Schemata.Proofs.Value.Writable
import Schemata.Schema.Compile

/-!
# `Schemata.Proofs.Schema.SubSchema` — the schemas inside a schema

Every keyword that compilation reads has a shape, and the shape says where the sub-schemas are. Compilation and
everything that is said about schemas go down along them, so that a property of a schema is one of every mapping
of keywords in it (`Everywhere`) and what compilation makes of a schema is proved from what it makes of its
sub-schemas (`compile_induction`).

## Contents
- **Shapes.** `KeywordShape`, `keywordShapes`, and the values that have a shape.
- **Sub-schemas.** `subSchemas`, `Everywhere`, and `WellFormed` schemas.
- **Writing.** What goes down to sub-schemas, such as that a schema can be written.
- **Compilation.** `depth_lt_of_mem_subSchemas` and `compile_induction`.
-/

namespace Schemata

/-! ## Shapes -/

/-- What the value of a keyword may look like. -/
inductive KeywordShape
  | any
  | flag
  | text
  | texts
  | textOrTexts
  | values
  | count
  | number
  | numberOrFlag
  | schema
  | schemas
  | schemaOrSchemas
  | schemaMap
deriving DecidableEq, Repr

/-- The keywords that compilation reads, with their shapes. -/
def keywordShapes : List (String × KeywordShape) :=
  [("const", .any), ("enum", .values), ("type", .textOrTexts), ("format", .text), ("contentEncoding", .text),
    ("contentMediaType", .textOrTexts), ("minLength", .count), ("maxLength", .count), ("pattern", .text),
    ("minimum", .number), ("maximum", .number), ("exclusiveMinimum", .numberOrFlag),
    ("exclusiveMaximum", .numberOrFlag), ("multipleOf", .number), ("items", .schemaOrSchemas),
    ("additionalItems", .schema), ("prefixItems", .schemas), ("minItems", .count), ("maxItems", .count),
    ("uniqueItems", .flag), ("contains", .schema), ("minContains", .count), ("maxContains", .count),
    ("properties", .schemaMap), ("required", .texts), ("additionalProperties", .schema),
    ("patternProperties", .schemaMap), ("minProperties", .count), ("maxProperties", .count),
    ("allOf", .schemas), ("anyOf", .schemas), ("oneOf", .schemas), ("not", .schema), ("default", .any),
    ("description", .text)]

namespace Value

/-- Whether a value may be a schema. -/
def isSchema : Value → Bool
  | .bool _ => true
  | .dict _ => true
  | _ => false

/-- Whether a value is a text. -/
def isString (v : Value) : Bool := v.text?.isSome

/-- Whether a value is a finite number. -/
def isFiniteNumber : Value → Bool
  | .int _ => true
  | .float x => x.isFinite
  | _ => false

/-- Whether a value is a truth value. -/
def isFlag : Value → Bool
  | .bool _ => true
  | _ => false

/-- Whether a value is a list whose items satisfy a condition. -/
def isListOf (condition : Value → Bool) : Value → Bool
  | .list items => items.all condition
  | _ => false

end Value

namespace KeywordShape

/-- Whether a value has a shape. -/
def admits : KeywordShape → Value → Bool
  | .any, _ => true
  | .flag, v => v.isFlag
  | .text, v => v.isString
  | .texts, v => v.isListOf Value.isString
  | .textOrTexts, v => v.isString || v.isListOf Value.isString
  | .values, v => v.isListOf fun _ => true
  | .count, .int n => decide (0 ≤ n)
  | .count, _ => false
  | .number, v => v.isFiniteNumber
  | .numberOrFlag, v => v.isFiniteNumber || v.isFlag
  | .schema, v => v.isSchema
  | .schemas, v => v.isListOf Value.isSchema
  | .schemaOrSchemas, v => v.isSchema || v.isListOf Value.isSchema
  | .schemaMap, .dict entries => entries.all fun e => e.1.isString && e.2.isSchema
  | .schemaMap, _ => false

/-- The sub-schemas in a value of a shape. -/
def subSchemas : KeywordShape → Value → List Value
  | .schema, v => [v]
  | .schemas, v => v.items?.getD []
  | .schemaOrSchemas, .list items => items
  | .schemaOrSchemas, v => [v]
  | .schemaMap, v => (v.entries?.getD []).map Prod.snd
  | _, _ => []

end KeywordShape

/-! ## Sub-schemas -/

/-- The sub-schemas of a mapping of keywords. -/
def subSchemas (schema : Entries) : List Value :=
  keywordShapes.flatMap fun (keyword, shape) =>
    match Entries.get? schema keyword with
    | some v => shape.subSchemas v
    | none => []

/-- What holds of every mapping of keywords in a schema. -/
inductive Everywhere (holds : Entries → Prop) : Value → Prop
  | mapping {schema : Entries} (here : holds schema) (inside : ∀ s ∈ subSchemas schema, Everywhere holds s) :
      Everywhere holds (.dict schema)
  | other {v : Value} (noEntries : v.entries? = none) : Everywhere holds v

namespace Everywhere

variable {holds : Entries → Prop} {schema : Entries}

theorem here (h : Everywhere holds (.dict schema)) : holds schema := by
  cases h with
  | mapping here _ => exact here
  | other noEntries => cases noEntries

theorem inside (h : Everywhere holds (.dict schema)) {s : Value} (hs : s ∈ subSchemas schema) :
    Everywhere holds s := by
  cases h with
  | mapping _ inside => exact inside s hs
  | other noEntries => cases noEntries

theorem mono {other : Entries → Prop} (hmono : ∀ entries, holds entries → other entries) {v : Value}
    (h : Everywhere holds v) : Everywhere other v := by
  induction h with
  | mapping here _ ih => exact .mapping (hmono _ here) ih
  | other noEntries => exact .other noEntries

end Everywhere

/-- The values of keywords have their shapes. -/
def HasShapes (schema : Entries) : Prop :=
  ∀ k ∈ keywordShapes, ∀ v, Entries.get? schema k.1 = some v → k.2.admits v = true

theorem hasShapes_iff {schema : Entries} :
    HasShapes schema ↔ (keywordShapes.all fun k => (Entries.get? schema k.1).all k.2.admits) = true := by
  simp [HasShapes, List.all_eq_true, Option.all_eq_true]

/-- A schema in which every keyword that compilation reads has its shape. -/
structure WellFormed (schema : Value) : Prop where
  isSchema : schema.isSchema = true
  shapes : Everywhere HasShapes schema

/-- A schema in which no sub-schema has a default. -/
def NoDefaults (schema : Value) : Prop :=
  Everywhere (fun entries => Entries.has entries "default" = false) schema

/-- A sub-schema under a keyword. -/
theorem mem_subSchemas (shape : KeywordShape) {schema : Entries} {keyword : String} {v s : Value}
    (hget : Entries.get? schema keyword = some v) (hkeyword : (keyword, shape) ∈ keywordShapes)
    (hs : s ∈ shape.subSchemas v) : s ∈ subSchemas schema := by
  refine List.mem_flatMap.mpr ⟨_, hkeyword, ?_⟩
  simpa only [hget] using hs

/-- The entries of the mapping under a keyword. -/
theorem mem_subSchemas_of_entries {schema : Entries} (keyword : String) (hkeyword : (keyword, KeywordShape.schemaMap) ∈ keywordShapes)
    {e : Value × Value} (he : e ∈ ((Entries.get? schema keyword).bind Value.entries?).getD []) :
    e.2 ∈ subSchemas schema := by
  cases hget : Entries.get? schema keyword with
  | none => rw [hget] at he; cases he
  | some v =>
    rw [hget] at he
    exact mem_subSchemas .schemaMap hget hkeyword (List.mem_map_of_mem he)

/-- The items of the list under a keyword. -/
theorem mem_subSchemas_of_items {schema : Entries} {keyword : String} (hkeyword : (keyword, KeywordShape.schemas) ∈ keywordShapes)
    {items : List Value} (hitems : (Entries.get? schema keyword).bind Value.items? = some items) {s : Value}
    (hs : s ∈ items) : s ∈ subSchemas schema := by
  obtain ⟨v, hget, hv⟩ := Option.bind_eq_some_iff.mp hitems
  refine mem_subSchemas .schemas hget hkeyword ?_
  rw [KeywordShape.subSchemas, hv]
  exact hs

/-- What the shapes of a schema say about the value under a keyword. -/
theorem HasShapes.admits {schema : Entries} (h : HasShapes schema) {keyword : String} {w : Value} (shape : KeywordShape)
    (hget : Entries.get? schema keyword = some w) (hkeyword : (keyword, shape) ∈ keywordShapes) : shape.admits w = true :=
  h _ hkeyword w hget

/-- A keyword for lists of schemas under which no list is read is absent. -/
theorem HasShapes.has_eq_false_of_items {schema : Entries} (h : HasShapes schema) {keyword : String}
    (hkeyword : (keyword, KeywordShape.schemas) ∈ keywordShapes)
    (hitems : (Entries.get? schema keyword).bind Value.items? = none) : Entries.has schema keyword = false := by
  cases hget : Entries.get? schema keyword with
  | none => exact Entries.has_eq_false_iff.mpr hget
  | some w =>
    have hshape := h.admits .schemas hget hkeyword
    rw [hget] at hitems
    cases w with
    | list => cases hitems
    | _ => cases hshape

/-- A keyword for mappings to schemas under which no mapping is read is absent. -/
theorem HasShapes.has_eq_false_of_entries {schema : Entries} (h : HasShapes schema) {keyword : String}
    (hkeyword : (keyword, KeywordShape.schemaMap) ∈ keywordShapes)
    (hentries : (Entries.get? schema keyword).bind Value.entries? = none) : Entries.has schema keyword = false := by
  cases hget : Entries.get? schema keyword with
  | none => exact Entries.has_eq_false_iff.mpr hget
  | some w =>
    have hshape := h.admits .schemaMap hget hkeyword
    rw [hget] at hentries
    cases w with
    | dict => cases hentries
    | _ => cases hshape

theorem HasShapes.count {schema : Entries} (h : HasShapes schema) {keyword : String} {w : Value}
    (hget : Entries.get? schema keyword = some w) (hkeyword : (keyword, KeywordShape.count) ∈ keywordShapes) :
    ∃ n, w = .int n := by
  have hadmits := h.admits .count hget hkeyword
  cases w with
  | int n => exact ⟨n, rfl⟩
  | _ => cases hadmits

/-! ## Writing -/

namespace Value.GoesDown

variable {good : Value → Prop} (hdown : GoesDown good) {schema : Entries}

include hdown

/-- The value under a keyword. -/
theorem get? (h : good (.dict schema)) {keyword : String} {w : Value} (hget : Entries.get? schema keyword = some w) :
    good w := by
  obtain ⟨e, he, rfl⟩ := Option.map_eq_some_iff.mp hget
  exact hdown.member h e (List.mem_of_find?_eq_some he)

theorem shape {shape : KeywordShape} {v s : Value} (hv : good v) (h : s ∈ shape.subSchemas v) : good s := by
  have hself : s ∈ [v] → good s := fun hs => by rwa [List.mem_singleton.mp hs]
  cases shape with
  | schema => exact hself h
  | schemas =>
    cases v with
    | list items => exact hdown.item hv s h
    | _ => simp [KeywordShape.subSchemas, Value.items?] at h
  | schemaOrSchemas =>
    cases v with
    | list items => exact hdown.item hv s h
    | _ => exact hself h
  | schemaMap =>
    cases v with
    | dict entries =>
      obtain ⟨e, he, rfl⟩ := List.mem_map.mp h
      exact hdown.member hv e he
    | _ => simp [KeywordShape.subSchemas, Value.entries?] at h
  | _ => simp [KeywordShape.subSchemas] at h

/-- **Sub-schemas have what goes down from their schema.** -/
theorem subSchema (h : good (.dict schema)) {s : Value} (hs : s ∈ subSchemas schema) : good s := by
  obtain ⟨⟨keyword, shape⟩, _, hs⟩ := List.mem_flatMap.mp hs
  dsimp only at hs
  split at hs
  next v hget => exact hdown.shape (hdown.get? h hget) hs
  next => cases hs

end Value.GoesDown

theorem Value.goesDown_isWritable : GoesDown fun v => v.isWritable = true :=
  ⟨fun h _ => isWritable_item h, fun h _ => isWritable_member h⟩

/-- The value under a keyword of a schema that can be written. -/
theorem isWritable_get? {schema : Entries} (h : (Value.dict schema).isWritable = true) {keyword : String} {w : Value}
    (hget : Entries.get? schema keyword = some w) : w.isWritable = true :=
  Value.goesDown_isWritable.get? h hget

theorem isWritable_of_mem_subSchemas {schema : Entries} (hschema : (Value.dict schema).isWritable = true) {s : Value}
    (h : s ∈ subSchemas schema) : s.isWritable = true :=
  Value.goesDown_isWritable.subSchema hschema h

/-! ## Inside -/

theorem isSchema_of_mem_shape {shape : KeywordShape} {v s : Value} (hv : shape.admits v = true)
    (h : s ∈ shape.subSchemas v) : s.isSchema = true := by
  have hself : v.isSchema = true → s ∈ [v] → s.isSchema = true := fun hv hs => by rwa [List.mem_singleton.mp hs]
  cases shape with
  | schema => exact hself hv h
  | schemas =>
    cases v with
    | list items => exact List.all_eq_true.mp hv s h
    | _ => cases hv
  | schemaOrSchemas =>
    cases v with
    | list items => exact List.all_eq_true.mp hv s h
    | bool b => exact hself rfl h
    | dict entries => exact hself rfl h
    | _ => cases hv
  | schemaMap =>
    cases v with
    | dict entries =>
      obtain ⟨e, he, rfl⟩ := List.mem_map.mp h
      exact (Bool.and_eq_true_iff.mp (List.all_eq_true.mp hv e he)).2
    | _ => cases hv
  | _ => simp [KeywordShape.subSchemas] at h

/-- **The sub-schemas of a well-formed schema are well-formed.** -/
theorem WellFormed.inside {schema : Entries} (h : WellFormed (.dict schema)) {s : Value} (hs : s ∈ subSchemas schema) :
    WellFormed s := by
  refine ⟨?_, h.shapes.inside hs⟩
  obtain ⟨⟨keyword, shape⟩, hkeyword, hs⟩ := List.mem_flatMap.mp hs
  dsimp only at hs
  split at hs
  next v hget => exact isSchema_of_mem_shape (h.shapes.here.admits shape hget hkeyword) hs
  next => cases hs

/-! ## Compilation -/

namespace Value

theorem depth_le_depthItems {items : List Value} {v : Value} (h : v ∈ items) : v.depth ≤ depthItems items := by
  induction items with
  | nil => cases h
  | cons w ws ih =>
    rw [depthItems]
    rcases List.mem_cons.mp h with rfl | hws
    · omega
    · have := ih hws
      omega

theorem depth_le_depthEntries {entries : Entries} {e : Value × Value} (h : e ∈ entries) :
    e.2.depth ≤ depthEntries entries := by
  induction entries with
  | nil => cases h
  | cons f fs ih =>
    obtain ⟨k, w⟩ := f
    rw [depthEntries]
    rcases List.mem_cons.mp h with rfl | hfs
    · show w.depth ≤ _
      omega
    · have hle := ih hfs
      omega

end Value

theorem depth_le_of_mem_shape {shape : KeywordShape} {v s : Value} (h : s ∈ shape.subSchemas v) : s.depth ≤ v.depth := by
  have hself : s ∈ [v] → s.depth ≤ v.depth := fun hs => Nat.le_of_eq (by rw [List.mem_singleton.mp hs])
  have hitems : ∀ items, s ∈ items → s.depth ≤ (Value.list items).depth :=
    fun items hs => Nat.le_succ_of_le (Value.depth_le_depthItems hs)
  cases shape with
  | schema => exact hself h
  | schemas =>
    cases v with
    | list items => exact hitems items h
    | _ => simp [KeywordShape.subSchemas, Value.items?] at h
  | schemaOrSchemas =>
    cases v with
    | list items => exact hitems items h
    | _ => exact hself h
  | schemaMap =>
    cases v with
    | dict entries =>
      obtain ⟨e, he, rfl⟩ := List.mem_map.mp h
      exact Nat.le_succ_of_le (Value.depth_le_depthEntries he)
    | _ => simp [KeywordShape.subSchemas, Value.entries?] at h
  | _ => simp [KeywordShape.subSchemas] at h

/-- A sub-schema is nested less deep. -/
theorem depth_lt_of_mem_subSchemas {schema : Entries} {s : Value} (h : s ∈ subSchemas schema) :
    s.depth < (Value.dict schema).depth := by
  obtain ⟨⟨keyword, shape⟩, _, hs⟩ := List.mem_flatMap.mp h
  dsimp only at hs
  split at hs
  next v hget =>
    obtain ⟨e, he, rfl⟩ := Option.map_eq_some_iff.mp hget
    have hentry := Value.depth_le_depthEntries (List.mem_of_find?_eq_some he)
    have hshape := depth_le_of_mem_shape hs
    simp only [Value.depth]
    omega
  next => cases hs

/-- **Induction over a schema**, from the sub-schemas of every mapping of keywords. -/
@[elab_as_elim]
theorem schema_induction {motive : Value → Prop} (mapping : ∀ schema, (∀ s ∈ subSchemas schema, motive s) → motive (.dict schema))
    (other : ∀ v : Value, v.entries? = none → motive v) (v : Value) : motive v := by
  induction hdepth : v.depth using Nat.strongRecOn generalizing v with
  | ind depth ih =>
    cases v with
    | dict schema =>
      refine mapping schema fun s hs => ih s.depth ?_ s rfl
      have := depth_lt_of_mem_subSchemas hs
      omega
    | _ => exact other _ rfl

/-- **Induction over a compilation.** What compilation makes of truth values and, from what it makes of the
sub-schemas, of mappings, it makes of every schema. -/
@[elab_as_elim]
theorem compile_induction [Pattern.Engine] {motive : Value → Validator → Prop}
    (truth : ∀ b, motive (.bool b) (if b then .any else .never))
    (node : ∀ (convert : Value → Except CompileError Validator) (schema : Entries),
      (∀ s ∈ subSchemas schema, ∀ c, convert s = .ok c → motive s c) →
      ∀ vd, compileNode (fun _ => .ok ()) convert schema = .ok vd → motive (.dict schema) vd)
    {schema : Value} {vd : Validator} (h : compile schema = .ok vd) : motive schema vd := by
  have hwithin : ∀ depth s c, s.depth < depth →
      compileWithin (m := Except CompileError) (fun _ => .ok ()) depth s = .ok c → motive s c := by
    intro depth
    induction depth with
    | zero => intro s c hdepth; omega
    | succ depth ih =>
      intro s c hdepth hc
      cases s with
      | bool b =>
        obtain rfl := Except.ok.inj hc
        exact truth b
      | dict entries =>
        refine node _ entries (fun s hs c hc => ih s c ?_ hc) c hc
        have := depth_lt_of_mem_subSchemas hs
        omega
      | _ => cases hc
  exact hwithin _ schema vd (Nat.lt_succ_self _) h

/-- What a schema compiles from is a truth value or a mapping. -/
theorem compile_forms [Pattern.Engine] {schema : Value} {vd : Validator} (h : compile schema = .ok vd) :
    (∃ b, schema = .bool b ∧ vd = if b then .any else .never) ∨ ∃ entries, schema = .dict entries := by
  refine compile_induction (fun b => ?_) (fun convert entries _ vd _ => ?_) h
  · exact .inl ⟨b, rfl, rfl⟩
  · exact .inr ⟨entries, rfl⟩

end Schemata
