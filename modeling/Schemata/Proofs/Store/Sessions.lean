import Mathlib.Data.List.DropRight
import Schemata.Metaschema.Check
import Schemata.Proofs.Store.Loading
import Schemata.Yaml.Value

/-!
# `Schemata.Proofs.Store.Sessions` — what is kept is what was read first

A session loads schemas, which are kept in one place, and documents through loaders, each of which keeps its own.
Between loads the files and the settings change, and what is kept is forgotten. What a load uses is told from the
history alone, without anything being kept: it is what the first load since the last forgetting has read.

## Contents
- **Histories.** `firstSince`, what was read first since the last forgetting.
- **Sessions.** `Scene`, `Action` and `Session`, whose loads are those of a store.
- **Moments.** What each action of a history reads or forgets: `Moment.readsSchema`, `Moment.readsDocument`.
- **Steps.** What one action does to what is kept.
- **Runs.** `loads_use_first_reads`, on all sequences of actions.
-/

namespace Schemata

/-! ## Histories -/

section Histories

variable {μ α : Type}

/-- What was read first since everything was forgotten for the last time. -/
def firstSince (forgets : μ → Bool) (reads : μ → Option α) (history : List μ) : Option α :=
  (history.rtakeWhile fun m => !forgets m).findSome? reads

/-- One moment more reads what nothing before it has read, or forgets. -/
theorem firstSince_concat (forgets : μ → Bool) (reads : μ → Option α) (history : List μ) (m : μ) :
    firstSince forgets reads (history ++ [m]) =
      if forgets m then none else (firstSince forgets reads history).or (reads m) := by
  unfold firstSince
  rw [List.rtakeWhile_concat]
  cases forgets m with
  | true => rfl
  | false =>
    change (_ ++ [m]).findSome? reads = _
    rw [List.findSome?_append, List.findSome?_singleton]
    rfl

end Histories

/-! ## Sessions -/

/-- What surrounds the loads: the files, the settings, and which loaders keep documents. -/
structure Scene (ι : Type) where
  files : Files
  settings : Settings
  keeps : ι → Bool

/-- A step of a session. -/
inductive Action (ι : Type)
  /-- The files become others, be it by writing, by deleting or in any other way. -/
  | changeFiles (files : Files)
  | changeSettings (settings : Settings)
  /-- A loader begins to keep documents, or no longer does. -/
  | changeKeeping (loader : ι) (keeps : Bool)
  | loadSchema (path : String) (check : Option Bool)
  | loadDocument (loader : ι) (path : String)
  | clearSchemas
  | clearDocuments (loader : ι)

/-- A scene with what is kept: schemas in one place, documents by each loader. -/
structure Session (ι : Type) where
  scene : Scene ι
  schemas : List (String × Value) := []
  documents : ι → List (String × Document) := fun _ => []
  records : List Log.Record := []

section

variable {ι : Type} [DecidableEq ι] [Yaml.Engine] [Metaschema.Engine]

namespace Scene

/-- The scene after an action: neither loading nor forgetting changes it. -/
def after (w : Scene ι) : Action ι → Scene ι
  | .changeFiles files => { w with files }
  | .changeSettings settings => { w with settings }
  | .changeKeeping loader keeps => { w with keeps := Function.update w.keeps loader keeps }
  | .loadSchema _ _ | .loadDocument _ _ | .clearSchemas | .clearDocuments _ => w

end Scene

namespace Session

/-- The store as a load sees it, through a loader of documents if it is one of a document. -/
def store (s : Session ι) (loader : Option ι) : Store where
  files := s.scene.files
  settings := s.scene.settings
  keepsDocuments := loader.elim false s.scene.keeps
  schemas := s.schemas
  documents := loader.elim [] s.documents
  records := s.records

/-- The session with the store that a load leaves. -/
def restore (s : Session ι) (loader : Option ι) (t : Store) : Session ι where
  scene := ⟨t.files, t.settings, loader.elim s.scene.keeps fun i => Function.update s.scene.keeps i t.keepsDocuments⟩
  schemas := t.schemas
  documents := loader.elim s.documents fun i => Function.update s.documents i t.documents
  records := t.records

/-- Loads the schema in a file. -/
def loadSchema (s : Session ι) (path : String) (check : Option Bool) : Except LoadError Value × Session ι :=
  let r := (Store.loadSchema path check).run.run (s.store none)
  (r.1, s.restore none r.2)

/-- Loads the document in a file through a loader. -/
def loadDocument (s : Session ι) (loader : ι) (path : String) : Except LoadError Document × Session ι :=
  let r := (Store.loadDocument path).run.run (s.store loader)
  (r.1, s.restore loader r.2)

/-- The session after an action. -/
def step (s : Session ι) : Action ι → Session ι
  | .changeFiles files => { s with scene := s.scene.after (.changeFiles files) }
  | .changeSettings settings => { s with scene := s.scene.after (.changeSettings settings) }
  | .changeKeeping loader keeps => { s with scene := s.scene.after (.changeKeeping loader keeps) }
  | .loadSchema path check => (s.loadSchema path check).2
  | .loadDocument loader path => (s.loadDocument loader path).2
  | .clearSchemas => s.restore none (s.store none).clearSchemas
  | .clearDocuments loader => s.restore loader (s.store loader).clearDocuments

/-- The session after actions. -/
def run (s : Session ι) (actions : List (Action ι)) : Session ι := actions.foldl step s

/-- All that is kept. -/
def kept (s : Session ι) : List (String × Value) × (ι → List (String × Document)) := (s.schemas, s.documents)

end Session

/-! ## Moments -/

/-- An action and the scene that it takes place in. -/
abbrev Moment (ι : Type) := Scene ι × Action ι

/-- The moments of actions, from a scene on. -/
def moments (w : Scene ι) : List (Action ι) → List (Moment ι)
  | [] => []
  | action :: rest => (w, action) :: moments (w.after action) rest

omit [Yaml.Engine] [Metaschema.Engine] in
theorem moments_concat (w : Scene ι) (actions : List (Action ι)) (action : Action ι) :
    moments w (actions ++ [action]) = moments w actions ++ [(actions.foldl Scene.after w, action)] := by
  induction actions generalizing w with
  | nil => rfl
  | cons first rest ih =>
    rw [List.cons_append, moments, ih]
    rfl

namespace Moment

/-- The schema that is read from a file in order to be kept: any file is read that holds one, and it is kept
whether it has the right form or not. -/
def readsSchema (path : String) : Moment ι → Option Value
  | (w, .loadSchema p _) =>
    if w.settings.cacheEnabled ∧ Path.resolve p = path then (schemaIn w.files path).toOption else none
  | _ => none

/-- The document that a loader reads from a file in order to keep it. -/
def readsDocument (loader : ι) (path : String) : Moment ι → Option Document
  | (w, .loadDocument i p) =>
    if i = loader ∧ w.keeps i ∧ Path.resolve p = path then (Document.read w.files path).toOption else none
  | _ => none

def forgetsSchemas : Moment ι → Bool
  | (_, .clearSchemas) => true
  | _ => false

def forgetsDocuments (loader : ι) : Moment ι → Bool
  | (_, .clearDocuments i) => i = loader
  | _ => false

end Moment

/-- The schema that was read first from a file since schemas were last forgotten. -/
def firstSchema (path : String) (history : List (Moment ι)) : Option Value :=
  firstSince Moment.forgetsSchemas (Moment.readsSchema path) history

/-- The document that a loader has read first from a file since it last forgot all. -/
def firstDocument (loader : ι) (path : String) (history : List (Moment ι)) : Option Document :=
  firstSince (Moment.forgetsDocuments loader) (Moment.readsDocument loader path) history

/-! ## Steps -/

namespace Session

/-- A load of a schema uses what is kept or what the file holds, and leaves all loaders as they are. -/
theorem loadSchema_eq (s : Session ι) (path : String) (check : Option Bool) :
    let found := schemaIn s.scene.files (Path.resolve path)
    let keeps := s.scene.settings.cacheEnabled
    ∃ records, s.loadSchema path check =
      ((used keeps s.schemas (Path.resolve path) found).bind (s.scene.settings.checked check),
        { s with schemas := settled keeps s.schemas (Path.resolve path) found, records }) := by
  obtain ⟨records, hrun⟩ := Store.loadSchema_run path check (s.store none)
  refine ⟨records, ?_⟩
  unfold loadSchema
  rw [hrun]
  rfl

omit [Metaschema.Engine] in
/-- A load of a document uses what its loader keeps or what the file holds, and leaves the other loaders and the
schemas as they are. -/
theorem loadDocument_eq (s : Session ι) (loader : ι) (path : String) :
    let found := Document.read s.scene.files (Path.resolve path)
    let after := settled (s.scene.keeps loader) (s.documents loader) (Path.resolve path) found
    ∃ records, s.loadDocument loader path =
      (used (s.scene.keeps loader) (s.documents loader) (Path.resolve path) found,
        { s with documents := Function.update s.documents loader after, records }) := by
  obtain ⟨records, hrun⟩ := Store.loadDocument_run path (s.store loader)
  refine ⟨records, ?_⟩
  -- A load writes back whether the loader keeps its documents, which leaves every loader as it is.
  have hkeeps : Function.update s.scene.keeps loader (s.scene.keeps loader) = s.scene.keeps :=
    Function.update_eq_self loader s.scene.keeps
  unfold loadDocument
  rw [hrun]
  dsimp only [restore, store, Option.elim]
  rw [hkeeps]

/-- An action changes the scene as if nothing were kept. -/
theorem step_scene (s : Session ι) (action : Action ι) : (s.step action).scene = s.scene.after action := by
  cases action with
  | changeFiles files => rfl
  | changeSettings settings => rfl
  | changeKeeping loader keeps => rfl
  | loadSchema path check =>
    obtain ⟨records, hload⟩ := s.loadSchema_eq path check
    change (s.loadSchema path check).2.scene = s.scene
    rw [hload]
  | loadDocument loader path =>
    obtain ⟨records, hload⟩ := s.loadDocument_eq loader path
    change (s.loadDocument loader path).2.scene = s.scene
    rw [hload]
  | clearSchemas => rfl
  | clearDocuments loader =>
    have hkeeps : Function.update s.scene.keeps loader (s.scene.keeps loader) = s.scene.keeps :=
      Function.update_eq_self loader s.scene.keeps
    change Scene.mk s.scene.files s.scene.settings (Function.update s.scene.keeps loader (s.scene.keeps loader)) = s.scene
    rw [hkeeps]

/-- One action forgets the schemas, or adds to them what it has read. -/
theorem step_schemas (s : Session ι) (action : Action ι) (path : String) :
    (s.step action).schemas.lookup path =
      if Moment.forgetsSchemas (s.scene, action) then none
      else (s.schemas.lookup path).or (Moment.readsSchema path (s.scene, action)) := by
  cases action with
  | loadSchema p check =>
    obtain ⟨records, hload⟩ := s.loadSchema_eq p check
    change (s.loadSchema p check).2.schemas.lookup path = _
    rw [hload]
    dsimp only
    rw [lookup_settled]
    change _ = (s.schemas.lookup path).or (if _ then (schemaIn s.scene.files path).toOption else none)
    -- A load of another file adds nothing under this path.
    by_cases hp : Path.resolve p = path
    · subst hp
      rfl
    · rw [if_neg fun h => hp h.2, if_neg fun h => hp h.2]
  | loadDocument loader p =>
    obtain ⟨records, hload⟩ := s.loadDocument_eq loader p
    change (s.loadDocument loader p).2.schemas.lookup path = (s.schemas.lookup path).or none
    rw [hload, Option.or_none]
  | clearSchemas => rfl
  | changeFiles _ => exact Option.or_none.symm
  | changeSettings _ => exact Option.or_none.symm
  | changeKeeping _ _ => exact Option.or_none.symm
  | clearDocuments _ => exact Option.or_none.symm

/-- One action makes a loader forget its documents, or adds to them what the loader has read. -/
theorem step_documents (s : Session ι) (action : Action ι) (loader : ι) (path : String) :
    ((s.step action).documents loader).lookup path =
      if Moment.forgetsDocuments loader (s.scene, action) then none
      else ((s.documents loader).lookup path).or (Moment.readsDocument loader path (s.scene, action)) := by
  cases action with
  | loadSchema p check =>
    obtain ⟨records, hload⟩ := s.loadSchema_eq p check
    change ((s.loadSchema p check).2.documents loader).lookup path = ((s.documents loader).lookup path).or none
    rw [hload, Option.or_none]
  | loadDocument i p =>
    obtain ⟨records, hload⟩ := s.loadDocument_eq i p
    change ((s.loadDocument i p).2.documents loader).lookup path = ((s.documents loader).lookup path).or
      (if _ then (Document.read s.scene.files path).toOption else none)
    rw [hload]
    dsimp only
    by_cases hi : i = loader
    · subst hi
      rw [Function.update_self, lookup_settled]
      by_cases hp : Path.resolve p = path
      · subst hp
        simp
      · rw [if_neg fun h => hp h.2, if_neg fun h => hp h.2.2]
    · rw [Function.update_of_ne (Ne.symm hi), if_neg fun h => hi h.1, Option.or_none]
  | clearDocuments i =>
    change ((Function.update s.documents i []) loader).lookup path =
      if decide (i = loader) then none else ((s.documents loader).lookup path).or none
    by_cases hi : i = loader
    · subst hi
      rw [Function.update_self, decide_eq_true rfl]
      rfl
    · rw [Function.update_of_ne (Ne.symm hi), decide_eq_false hi, Option.or_none]
      rfl
  | clearSchemas => exact Option.or_none.symm
  | changeFiles _ => exact Option.or_none.symm
  | changeSettings _ => exact Option.or_none.symm
  | changeKeeping _ _ => exact Option.or_none.symm

end Session

/-! ## Runs -/

/-- A session after a history keeps what was read first. -/
structure Session.Remembers (s : Session ι) (history : List (Moment ι)) : Prop where
  schemas (path : String) : s.schemas.lookup path = firstSchema path history
  documents (loader : ι) (path : String) : (s.documents loader).lookup path = firstDocument loader path history

/-- One action keeps what was read first in a history that ends with it. -/
theorem Session.Remembers.step {s : Session ι} {history : List (Moment ι)} (h : s.Remembers history)
    (action : Action ι) : (s.step action).Remembers (history ++ [(s.scene, action)]) where
  schemas path := by
    unfold firstSchema
    rw [s.step_schemas, firstSince_concat, h.schemas]
    rfl
  documents loader path := by
    unfold firstDocument
    rw [s.step_documents, firstSince_concat, h.documents]
    rfl

/-- A session in which nothing is kept yet. -/
def Session.fresh (w : Scene ι) : Session ι := { scene := w }

/-- A session keeps, after any actions, what was read first. -/
theorem Session.run_remembers (w : Scene ι) (actions : List (Action ι)) :
    ((Session.fresh w).run actions).scene = actions.foldl Scene.after w ∧
      ((Session.fresh w).run actions).Remembers (moments w actions) := by
  -- From the end: the last action meets the scene and the readings that the actions before it left.
  induction actions using List.reverseRecOn with
  | nil => exact ⟨rfl, fun _ => rfl, fun _ _ => rfl⟩
  | append_singleton before action ih =>
    obtain ⟨hscene, hremembers⟩ := ih
    have hrun : (Session.fresh w).run (before ++ [action]) = ((Session.fresh w).run before).step action :=
      List.foldl_concat _ _ _ _
    rw [hrun, moments_concat, List.foldl_concat]
    constructor
    · rw [Session.step_scene, hscene]
    · rw [← hscene]
      exact hremembers.step action

/-- **What is kept is what was read first.** After any actions, a load of a schema while schemas are kept uses what
was read first from its file since schemas were last forgotten, whether that had the right form or not; if nothing
was, and whenever schemas are not kept, it uses what the file holds now. Either way the schema is checked only then.
It is the same with documents, for each loader by itself. A load that keeps nothing, or whose file holds nothing to
be kept, leaves all that is kept as it is. -/
theorem loads_use_first_reads (w : Scene ι) (actions : List (Action ι)) :
    let s := (Session.fresh w).run actions
    let now := actions.foldl Scene.after w
    let history := moments w actions
    (∀ path check, (s.loadSchema path check).1 =
      ((if now.settings.cacheEnabled then firstSchema (Path.resolve path) history else none).elim
        (schemaIn now.files (Path.resolve path)) .ok).bind (now.settings.checked check)) ∧
    (∀ loader path, (s.loadDocument loader path).1 =
      (if now.keeps loader then firstDocument loader (Path.resolve path) history else none).elim
        (Document.read now.files (Path.resolve path)) .ok) ∧
    (∀ path check, now.settings.cacheEnabled = false ∨ (∃ e, schemaIn now.files (Path.resolve path) = .error e) →
      (s.loadSchema path check).2.kept = s.kept) ∧
    (∀ loader path, now.keeps loader = false ∨ (∃ e, Document.read now.files (Path.resolve path) = .error e) →
      (s.loadDocument loader path).2.kept = s.kept) := by
  intro s now history
  obtain ⟨hscene, hremembers⟩ := Session.run_remembers w actions
  change s.scene = now at hscene
  change s.Remembers history at hremembers
  refine ⟨?_, ?_, ?_, ?_⟩
  · intro path check
    obtain ⟨records, hload⟩ := s.loadSchema_eq path check
    rw [hload, hscene]
    dsimp only
    unfold used held
    rw [hremembers.schemas]
  · intro loader path
    obtain ⟨records, hload⟩ := s.loadDocument_eq loader path
    rw [hload, hscene]
    dsimp only
    unfold used held
    rw [hremembers.documents]
  · intro path check hnothing
    obtain ⟨records, hload⟩ := s.loadSchema_eq path check
    rw [hload, hscene, settled_eq_self hnothing]
    rfl
  · intro loader path hnothing
    obtain ⟨records, hload⟩ := s.loadDocument_eq loader path
    rw [hload, hscene, settled_eq_self hnothing, Function.update_eq_self]
    rfl

end

attribute [local instance] Yaml.engine Metaschema.engine

/-- A file that has been read and then written anew: while schemas are not kept the file is read, and when they are
kept again the first reading is used as before. -/
theorem loads_use_first_reads_rewritten :
    let w : Scene Unit := ⟨[("s.json", .file "true".toUTF8.toList)], {}, fun _ => true⟩
    let actions : List (Action Unit) :=
      [.loadSchema "s.json" none, .changeFiles [("s.json", .file "false".toUTF8.toList)],
        .changeSettings { cacheEnabled := false }]
    let s := (Session.fresh w).run actions
    (s.loadSchema "s.json" none).1 = .ok (.bool false) ∧ (s.loadSchema "s.json" none).2.kept = s.kept ∧
      ((s.step (.changeSettings {})).loadSchema "./s.json" none).1 = .ok (.bool true) := by
  intro w actions s
  obtain ⟨hschema, -, hkept, -⟩ := loads_use_first_reads w actions
  obtain ⟨hagain, -⟩ := loads_use_first_reads w (actions ++ [.changeSettings {}])
  refine ⟨?_, hkept "s.json" none (.inl rfl), ?_⟩
  · exact (hschema "s.json" none).trans (by with_unfolding_all rfl)
  · exact (hagain "./s.json" none).trans (by with_unfolding_all rfl)

end Schemata
