import Schemata.Proofs.Validator.Output

/-!
# `Schemata.Proofs.Validator.Nodes` — outputs made of nodes

The scalars of JSON, lists and mappings are the nodes of its values. A tree of nodes is checked to a tree of nodes, for
validation changes nothing but the members that it fills in. So the conditions of refinements, which are put on outputs,
are put on trees of nodes alone, if the defaults are such trees.

## Contents
- **Trees.** `Value.AllNodes`, whose mappings may have keys of any kind, and its joining.
- **Outputs.** `KeepsNodes`, with a rule for every validator, and `keepsNodes_of_defaults`.
-/

namespace Schemata

open Value Validator

/-! ## Trees -/

/-- A tree of lists and mappings over scalars of JSON. Unlike in a value of JSON, keys may be of any kind and occur
repeatedly. -/
inductive Value.AllNodes : Value → Prop
  | scalar {v : Value} (here : v.isJsonScalar = true) : AllNodes v
  | list {items : List Value} (each : ∀ v ∈ items, AllNodes v) : AllNodes (.list items)
  | dict {entries : Entries} (each : ∀ e ∈ entries, AllNodes e.2) : AllNodes (.dict entries)

theorem Value.IsJson.allNodes {v : Value} (h : v.IsJson) : v.AllNodes := by
  induction h with
  | leaf _ _ here => exact .scalar here
  | list _ ih => exact .list ih
  | dict _ _ ih => exact .dict ih

namespace Value.AllNodes

theorem item {items : List Value} (h : AllNodes (.list items)) {v : Value} (hv : v ∈ items) : v.AllNodes := by
  cases h with
  | scalar here => cases here
  | list each => exact each v hv

theorem member {entries : Entries} (h : AllNodes (.dict entries)) {e : Value × Value} (he : e ∈ entries) : e.2.AllNodes := by
  cases h with
  | scalar here => cases here
  | dict each => exact each e he

theorem ne_absent {v : Value} (h : v.AllNodes) : v ≠ .absent := by
  rintro rfl
  cases h with
  | scalar here => cases here

end Value.AllNodes

/-- What is put into a mapping of trees is such a tree. -/
theorem Entries.forall_insert {holds : Value → Prop} {es : Entries} (hes : ∀ e ∈ es, holds e.2) {key value : Value}
    (hvalue : holds value) : ∀ e ∈ Entries.insert es key value, holds e.2 := by
  induction es with
  | nil => exact List.forall_mem_singleton.mpr hvalue
  | cons f fs ih =>
    obtain ⟨hfirst, hrest⟩ := List.forall_mem_cons.mp hes
    rw [Entries.insert]
    split
    · exact List.forall_mem_cons.mpr ⟨hvalue, hrest⟩
    · exact List.forall_mem_cons.mpr ⟨hfirst, ih hrest⟩

theorem Entries.forall_union {holds : Value → Prop} {es fs : Entries} (hes : ∀ e ∈ es, holds e.2)
    (hfs : ∀ e ∈ fs, holds e.2) : ∀ e ∈ Entries.union es fs, holds e.2 := by
  unfold Entries.union
  induction fs generalizing es with
  | nil => exact hes
  | cons f fs ih =>
    obtain ⟨hfirst, hrest⟩ := List.forall_mem_cons.mp hfs
    exact ih (Entries.forall_insert hes hfirst) hrest

/-! ## Outputs -/

/-- The output of a value is a tree of nodes, or the absent value has stayed absent. -/
def Stays (v o : Value) : Prop := o.AllNodes ∨ v = .absent ∧ o = .absent

theorem Stays.self {v : Value} (h : Stays v v) : v.AllNodes ∨ v = .absent := h.imp_right And.left

theorem Stays.of_allNodes {v o : Value} (h : Stays v o) (hv : v.AllNodes) : o.AllNodes :=
  h.resolve_right fun habsent => hv.ne_absent habsent.1

theorem Stays.mergeOutputs {v l r : Value} (hl : Stays v l) (hr : Stays v r) : Stays v (mergeOutputs l r) := by
  rcases hl with hl | ⟨rfl, rfl⟩
  · left
    rcases hr with hr | ⟨rfl, rfl⟩
    · cases hl with
      | scalar here => cases l <;> first | exact .scalar here | cases here
      | list each => exact .list each
      | dict each =>
        cases r with
        | dict entries => exact .dict (Entries.forall_union each fun e he => hr.member he)
        | _ => exact .dict each
    · cases hl with
      | scalar here => cases l <;> exact .scalar here
      | list each => exact .list each
      | dict each => exact .dict each
  · exact hr

/-- Of a tree of nodes a validator makes a tree of nodes, and of the absent value one, or nothing. -/
def KeepsNodes (vd : Validator) : Prop :=
  ∀ v, Stays v v → ∀ path, Answers False (vd.check v path) fun r => r.ok = true → Stays v r.output

namespace KeepsNodes

variable {inner left right : Validator}

theorem node (h : KeepsNodes inner) {v : Value} (hv : v.AllNodes) (path : Pointer) :
    Answers False (inner.check v path) fun r => r.ok = true → r.output.AllNodes :=
  (h v (.inl hv) path).mono fun _ hr hok => (hr hok).of_allNodes hv

theorem leaf {vd : Validator} (h : vd.isLeaf = true) : KeepsNodes vd := fun v hv path =>
  (answers_leaf h v path).mono fun r hr _ => by rw [hr.output]; exact hv

theorem refined (h : KeepsNodes inner) (test : Test) (message : String) : KeepsNodes (.refined inner test message) :=
  fun v hv path => output_refined (Stays v) (h v hv path) fun _ _ => .trivial _

theorem optional (h : KeepsNodes inner) : KeepsNodes (.optional inner) := fun v hv path =>
  output_optional (Stays v) (h v hv path) fun habsent => .inr ⟨habsent, rfl⟩

theorem defaulted (h : KeepsNodes inner) {value : Value} (hvalue : value.AllNodes) : KeepsNodes (.defaulted inner value) :=
  fun v hv path => by
  by_cases habsent : v = .absent
  · subst habsent
    exact .ok fun _ => .inl hvalue
  · rw [check_defaulted habsent]
    exact h v hv path

theorem union {options : List Validator} (h : ∀ c ∈ options, KeepsNodes c) (tags : List String) :
    KeepsNodes (.union options tags) := fun v hv path =>
  output_union (Stays v) fun c hc => h c hc v hv path

theorem both (hleft : KeepsNodes left) (hright : KeepsNodes right) : KeepsNodes (.both left right) := fun v hv path =>
  output_both (Stays v) (hleft v hv path) (hright v hv path) fun _ _ => .mergeOutputs

theorem foldl {vd : Validator} (h : KeepsNodes vd) {others : List Validator} (hothers : ∀ c ∈ others, KeepsNodes c) :
    KeepsNodes (others.foldl .both vd) :=
  List.foldlRecOn others .both h fun _ hvd c hc => hvd.both (hothers c hc)

theorem unionOf {options : List Validator} (h : ∀ c ∈ options, KeepsNodes c) (tags : List String) :
    KeepsNodes (Validator.unionOf options tags) :=
  forall_unionOf (.leaf rfl) (.union h tags) h

/-- The outputs of a row of items without issues. -/
theorem allNodes_of_visits {α : Type} {args : List α} {done : List (α × Report)}
    (h : Visits args (fun _ r => r.ok = true → r.output.AllNodes) done) (hissues : done.flatMap (·.2.issues) = []) :
    ∀ o ∈ done.map (·.2.output), o.AllNodes :=
  List.forall_mem_map.mpr fun d hd =>
    h.fits d hd (Report.ok_iff.mpr (List.flatMap_eq_nil_iff.mp hissues d hd))

theorem array (h : KeepsNodes inner) (bounds : Bounds) : KeepsNodes (.array inner bounds) := fun v hv path => by
  cases v with
  | list items =>
    have hnodes : (Value.list items).AllNodes := hv.self.resolve_right nofun
    refine (answers_array (lengthIssues_at ..) fun i w hw =>
      h.node (hnodes.item (List.mem_of_getElem? hw)) _).mono ?_
    rintro out ⟨lengths, done, _, hdone, rfl⟩ hok
    have hissues := List.append_eq_nil_iff.mp (Report.ok_iff.mp hok)
    exact .inl (.list (allNodes_of_visits hdone hissues.2))
  | _ => exact .ok (by simp)

theorem tuple {items : List Validator} {rest : Option Validator} (hitems : ∀ c ∈ items, KeepsNodes c)
    (hrest : ∀ c, rest = some c → KeepsNodes c) (bounds : Bounds) : KeepsNodes (.tuple items rest bounds) :=
  fun v hv path => by
  cases v with
  | list vs =>
    have hnodes : (Value.list vs).AllNodes := hv.self.resolve_right nofun
    have hbeyond : ∀ c, rest = some c → ∀ (i : Nat) w, (vs.drop items.length)[i]? = some w →
        Answers False (c.check w (path ++ [toString (items.length + i)])) fun r => r.ok = true → r.output.AllNodes :=
      fun c hc i w hw => (hrest c hc).node (hnodes.item (List.mem_of_mem_drop (List.mem_of_getElem? hw))) _
    refine (answers_tuple (lengthIssues_at ..) (fun i c w hc hw =>
      (hitems c (List.mem_of_getElem? hc)).node (hnodes.item (List.mem_of_getElem? hw)) _) hbeyond).mono ?_
    rintro out (⟨_, cause, _, rfl⟩ | ⟨_, lengths, done, beyond, _, hdone, hmore, rfl⟩) hok
    · simp at hok
    have hissues := List.append_eq_nil_iff.mp (Report.ok_iff.mp hok)
    have hfirst := List.append_eq_nil_iff.mp hissues.1
    exact .inl (.list (List.forall_mem_append.mpr
      ⟨allNodes_of_visits hdone hfirst.2, allNodes_of_visits hmore hissues.2⟩))
  | _ => exact .ok (by simp)

theorem object {fields : List Field} {additional : Additional} (hfields : ∀ f ∈ fields, KeepsNodes f.validator)
    (hadditional : ∀ c, additional = .checked c → KeepsNodes c) (bounds : Bounds) :
    KeepsNodes (.object fields additional bounds) := fun v hv path => by
  cases v with
  | dict entries =>
    have hnodes : (Value.dict entries).AllNodes := hv.self.resolve_right nofun
    refine (answers_object (memberCountIssues_at ..)
      (fun e he f hf => (hfields f (List.mem_of_find?_eq_some hf)).node (hnodes.member he) _)
      (fun e he _ c hc => (hadditional c hc).node (hnodes.member he) _)
      (fun f hf => hfields f (List.mem_of_mem_filter hf) .absent (.inr ⟨rfl, rfl⟩) _)).mono ?_
    rintro out ⟨counts, done, gone, _, hdone, hgone, rfl⟩ hok
    have hissues := List.append_eq_nil_iff.mp (Report.ok_iff.mp hok)
    have hmembers := (List.append_eq_nil_iff.mp hissues.1).2
    refine .inl (.dict (List.forall_mem_append.mpr ⟨fun e he => ?_, fun e he => ?_⟩))
    · obtain ⟨d, hd, hkept⟩ := List.mem_filterMap.mp he
      obtain ⟨o, ho, rfl⟩ := Option.map_eq_some_iff.mp hkept
      have hnone : d.2.2 = [] := List.flatMap_eq_nil_iff.mp hmembers d hd
      rcases hdone.fits d hd with ⟨r, hr, heq⟩ | ⟨_, _, heq⟩ | ⟨_, _, heq⟩
      · rw [heq] at ho hnone
        exact Option.some.inj ho ▸ hr (Report.ok_iff.mpr hnone)
      · rw [heq] at ho
        exact Option.some.inj ho ▸ hnodes.member (hdone.mem hd)
      · rw [heq] at ho
        cases ho
    · obtain ⟨d, hd, rfl, hok, hpresent⟩ := mem_filled he
      exact (hgone.fits d hd hok).resolve_right fun habsent => hpresent habsent.2
  | _ => exact .ok (by simp)

end KeepsNodes

/-- **A validator whose defaults are trees of nodes** makes trees of nodes of such trees. -/
theorem keepsNodes_of_defaults {vd : Validator} (h : DefaultsAre AllNodes vd) : KeepsNodes vd := by
  induction vd using inductionOnChildren with
  | step vd ih =>
    have hpart : ∀ c ∈ vd.children, KeepsNodes c := fun c hc => ih c hc (h.part hc)
    cases vd with
    | refined inner test message => exact (hpart inner (by simp [children])).refined test message
    | optional inner => exact (hpart inner (by simp [children])).optional
    | defaulted inner value =>
      cases h with
      | intro here _ => exact (hpart inner (by simp [children])).defaulted (here inner value rfl)
    | described inner text => exact hpart inner (by simp [children])
    | union options tags => exact .union hpart tags
    | both left right => exact (hpart left (by simp [children])).both (hpart right (by simp [children]))
    | array element bounds => exact (hpart element (by simp [children])).array bounds
    | tuple items rest bounds =>
      exact .tuple (fun c hc => hpart c (List.mem_append_left _ hc))
        (fun c hc => hpart c (mem_children_rest hc)) bounds
    | object fields additional bounds =>
      exact .object (fun f hf => hpart _ (mem_children_field hf)) (fun c hc => hpart c (mem_children_additional hc)) bounds
    | _ => exact .leaf rfl

end Schemata
