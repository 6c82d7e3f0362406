import Schemata.Store.Basic

/-!
# `Schemata.Proofs.Store.Loading` — what one load does to a store

A load either finds what is kept under the resolved path or reads the file. What it answers depends on the files,
the settings and what is kept; what it changes is one entry of what is kept, and the records.

## Contents
- **Steps.** What a step of loading does to a store: `run_bind` and a lemma for each step.
- **Keeping.** `used` and `settled`, what a load uses and what is kept after it, for whatever is loaded.
- **Schemas.** `schemaIn`, the schema that a file holds, and `Store.loadSchema_run`.
- **Documents.** `Store.loadDocument_run`.
-/

namespace Schemata

/-! ## Steps -/

section Steps

variable {ε α β : Type}

/-- Two steps of loading run one after the other; an error of the first keeps what it has done to the store. -/
theorem run_bind (x : ExceptT ε (StateM Store) α) (f : α → ExceptT ε (StateM Store) β) (s : Store) :
    (x >>= f).run.run s =
      match x.run.run s with
      | (.ok a, t) => (f a).run.run t
      | (.error e, t) => (.error e, t) := by
  dsimp only [bind, ExceptT.bind, ExceptT.mk, ExceptT.run, StateT.run, StateT.bind]
  rcases x s with ⟨_ | _, _⟩ <;> rfl

theorem run_get (s : Store) : (get : ExceptT ε (StateM Store) Store).run.run s = (.ok s, s) := rfl

theorem run_modify (f : Store → Store) (s : Store) :
    (modify f : ExceptT ε (StateM Store) Unit).run.run s = (.ok (), f s) := rfl

theorem run_orError (x : Except LoadError α) (s : Store) : (Store.orError x).run.run s = (x, s) := by
  cases x <;> rfl

/-- The store with one record more. -/
def Store.noting (s : Store) (source message : String) : Store :=
  { s with records := s.records ++ [⟨Settings.logRoot ++ "." ++ source, debugLevel, message⟩] }

theorem run_record (source message : String) (s : Store) :
    (record source message : ExceptT ε (StateM Store) Unit).run.run s = (.ok (), s.noting source message) := rfl

end Steps

/-! ## Keeping -/

section Keeping

variable {α : Type}

/-- What is kept under a path, while anything is kept. -/
def held (keeps : Bool) (entries : List (String × α)) (path : String) : Option α :=
  if keeps then entries.lookup path else none

/-- What a load uses: what is kept under its path, and otherwise what the file holds. -/
def used (keeps : Bool) (entries : List (String × α)) (path : String) (found : Except LoadError α) :
    Except LoadError α :=
  (held keeps entries path).elim found .ok

/-- What is kept after a load: also what it has read, while anything is kept. -/
def settled (keeps : Bool) (entries : List (String × α)) (path : String) (found : Except LoadError α) :
    List (String × α) :=
  match held keeps entries path, found with
  | none, .ok a => if keeps then (path, a) :: entries else entries
  | _, _ => entries

/-- A load that keeps nothing, or whose file holds nothing to be kept, leaves what is kept as it is. -/
theorem settled_eq_self {keeps : Bool} {found : Except LoadError α} (h : keeps = false ∨ ∃ e, found = .error e)
    (entries : List (String × α)) (path : String) : settled keeps entries path found = entries := by
  unfold settled
  rcases h with rfl | ⟨e, rfl⟩
  · cases found with
    | error e => rfl
    | ok a => rfl
  · cases held keeps entries path with
    | none => rfl
    | some a => rfl

/-- A load adds what it has read to what is found, and replaces nothing. -/
theorem lookup_settled (keeps : Bool) (entries : List (String × α)) (path : String) (found : Except LoadError α)
    (q : String) : (settled keeps entries path found).lookup q =
      (entries.lookup q).or (if keeps ∧ path = q then found.toOption else none) := by
  cases found with
  | error e =>
    rw [settled_eq_self (.inr ⟨e, rfl⟩)]
    change _ = (entries.lookup q).or (if _ then none else none)
    rw [ite_self, Option.or_none]
  | ok a =>
    cases keeps with
    | false =>
      rw [settled_eq_self (.inl rfl), if_neg (by simp), Option.or_none]
    | true =>
      by_cases hq : path = q
      · subst hq
        unfold settled held
        cases hkept : entries.lookup path with
        | some b =>
          rw [if_pos rfl]
          exact hkept
        | none =>
          rw [if_pos rfl, if_pos ⟨rfl, rfl⟩]
          exact List.lookup_cons_self
      · rw [if_neg fun h => hq h.2, Option.or_none]
        unfold settled
        split
        · -- the entry in front stands under another path
          have hne : (q == path) = false := beq_eq_false_iff_ne.mpr fun h => hq h.symm
          rw [if_pos rfl, List.lookup_cons, hne]
        · rfl

end Keeping

/-! ## Schemas -/

variable [Yaml.Engine]

/-- The schema that a file holds. -/
def schemaIn (files : Files) (path : String) : Except LoadError Value :=
  (readValue files path).bind (asSchema path)

/-- A schema, checked if that is asked for, or if nothing is asked and the settings say so. -/
def Settings.checked [Metaschema.Engine] (settings : Settings) (check : Option Bool) (schema : Value) :
    Except LoadError Value :=
  if check.getD settings.checkSchema then (checkForm schema).map fun _ => schema else .ok schema

namespace Store

theorem readSchema_run (path : String) (s : Store) :
    (readSchema path).run.run s =
      match schemaIn s.files path with
      | .ok schema =>
        (.ok schema, { s with schemas := if s.settings.cacheEnabled then (path, schema) :: s.schemas else s.schemas })
      | .error e => (.error e, s) := by
  unfold readSchema schemaIn
  rw [run_bind, run_get]
  dsimp only
  rw [run_bind, run_orError]
  cases (readValue s.files path).bind (asSchema path) with
  | error e => rfl
  | ok schema =>
    dsimp only
    split
    · rfl
    · rfl

/-- **A load of a schema.** The schema that is used is checked in the end, and has been kept before that. -/
theorem loadSchema_run [Metaschema.Engine] (path : String) (check : Option Bool) (s : Store) :
    let found := schemaIn s.files (Path.resolve path)
    ∃ records, (loadSchema path check).run.run s =
      ((used s.settings.cacheEnabled s.schemas (Path.resolve path) found).bind (s.settings.checked check),
        { s with schemas := settled s.settings.cacheEnabled s.schemas (Path.resolve path) found, records }) := by
  -- the last step of both branches, which leaves the store as it is
  have hchecked : ∀ (schema : Value) (t : Store),
      (if check.getD s.settings.checkSchema then orError (checkForm schema) >>= fun _ => pure schema
        else pure schema : Loading Value).run.run t = (s.settings.checked check schema, t) := by
    intro schema t
    unfold Settings.checked
    split
    · rw [run_bind, run_orError]
      cases checkForm schema with
      | error e => rfl
      | ok _ => rfl
    · rfl
  unfold loadSchema used settled held
  dsimp only
  rw [run_bind, run_get]
  dsimp only
  cases if s.settings.cacheEnabled then s.schemas.lookup (Path.resolve path) else none with
  | some schema =>
    dsimp only
    rw [run_bind, run_record]
    exact ⟨_, hchecked schema _⟩
  | none =>
    dsimp only
    rw [run_bind, run_record]
    dsimp only
    rw [run_bind, readSchema_run]
    have hfiles : (s.noting loaderSource s!"Loading schema file: {Path.resolve path}").files = s.files := rfl
    rw [hfiles]
    cases schemaIn s.files (Path.resolve path) with
    | error e => exact ⟨_, rfl⟩
    | ok schema => exact ⟨_, hchecked schema _⟩

/-! ## Documents -/

/-- **A load of a document.** -/
theorem loadDocument_run (path : String) (s : Store) :
    let found := Document.read s.files (Path.resolve path)
    ∃ records, (loadDocument path).run.run s =
      (used s.keepsDocuments s.documents (Path.resolve path) found,
        { s with documents := settled s.keepsDocuments s.documents (Path.resolve path) found, records }) := by
  unfold loadDocument used settled held
  dsimp only
  rw [run_bind, run_get]
  dsimp only
  cases if s.keepsDocuments then s.documents.lookup (Path.resolve path) else none with
  | some document => exact ⟨_, rfl⟩
  | none =>
    dsimp only
    rw [run_bind, run_record]
    dsimp only
    rw [run_bind, run_orError]
    cases Document.read s.files (Path.resolve path) with
    | error e => exact ⟨_, rfl⟩
    | ok document =>
      dsimp only
      change ∃ _, StateT.run (ExceptT.run (if s.keepsDocuments then _ else _)) _ = _
      split
      · exact ⟨_, rfl⟩
      · exact ⟨_, rfl⟩

end Store

end Schemata
