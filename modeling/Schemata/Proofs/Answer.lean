import Mathlib.Data.List.Forall2
import Schemata.Validator.Check

/-!
# `Schemata.Proofs.Answer` — what a computation answers

Validation and compilation may end in a fault. A statement about them has two halves: what they answer is right,
and under some condition they do answer. `Answers sure x post` states both, and its rules follow the way in which
computations are put together; with `sure` false it is the first half alone.

## Contents
- **Answers.** `Answers`, with a rule for every way of building a computation.
- **Visits.** `Visits`, the arguments of a traversal, each with a result that fits it, and `mapM_eq_ok_iff`.
-/

namespace Schemata

/-! ## Answers -/

/-- `Answers sure x post`: whatever `x` answers satisfies `post`, and if `sure` holds, then `x` answers. -/
structure Answers {ε α : Type} (sure : Prop) (x : Except ε α) (post : α → Prop) : Prop where
  meets : ∀ a, x = .ok a → post a
  returns : sure → ∃ a, x = .ok a

namespace Answers

variable {ε α β : Type} {sure : Prop}

theorem ok {a : α} {post : α → Prop} (h : post a) : Answers sure (.ok a : Except ε α) post where
  meets := by
    intro b hb
    obtain rfl : a = b := Except.ok.inj hb
    exact h
  returns := fun _ => ⟨a, rfl⟩

theorem pure {a : α} {post : α → Prop} (h : post a) : Answers sure (Pure.pure a : Except ε α) post := ok h

/-- A fault is no answer. -/
theorem error {e : ε} {post : α → Prop} (h : ¬ sure) : Answers sure (.error e : Except ε α) post where
  meets := by
    intro b hb
    cases hb
  returns := fun hsure => absurd hsure h

/-- **A step and what follows it**, for every result that the step may have. -/
theorem bind {x : Except ε α} {f : α → Except ε β} {mid : α → Prop} {post : β → Prop}
    (hx : Answers sure x mid) (hf : ∀ a, mid a → Answers sure (f a) post) : Answers sure (x >>= f) post where
  meets := by
    intro b hb
    cases hxa : x with
    | error e => rw [hxa] at hb; cases hb
    | ok a => rw [hxa] at hb; exact (hf a (hx.meets a hxa)).meets b hb
  returns := by
    intro hsure
    obtain ⟨a, ha⟩ := hx.returns hsure
    obtain ⟨b, hb⟩ := (hf a (hx.meets a ha)).returns hsure
    exact ⟨b, by rw [ha]; exact hb⟩

theorem mono {x : Except ε α} {mid post : α → Prop} (hx : Answers sure x mid) (h : ∀ a, mid a → post a) :
    Answers sure x post :=
  ⟨fun a ha => h a (hx.meets a ha), hx.returns⟩

/-- A step that only rearranges what it is given. -/
theorem map {x : Except ε α} {f : α → β} {mid : α → Prop} {post : β → Prop} (hx : Answers sure x mid)
    (h : ∀ a, mid a → post (f a)) : Answers sure (x.map f) post where
  meets := by
    intro b hb
    cases hxa : x with
    | error e => rw [hxa] at hb; cases hb
    | ok a =>
      rw [hxa] at hb
      obtain rfl : f a = b := Except.ok.inj hb
      exact h a (hx.meets a hxa)
  returns := by
    intro hsure
    obtain ⟨a, ha⟩ := hx.returns hsure
    exact ⟨f a, by rw [ha]; rfl⟩

/-- Two facts about the same answer. -/
theorem and {x : Except ε α} {post other : α → Prop} (h : Answers sure x post)
    (h' : ∀ a, x = .ok a → other a) : Answers sure x (fun a => post a ∧ other a) :=
  ⟨fun a ha => ⟨h.meets a ha, h' a ha⟩, h.returns⟩

/-- A statement about the answers alone. -/
theorem of_meets {x : Except ε α} {post : α → Prop} (h : ∀ a, x = .ok a → post a) : Answers False x post :=
  ⟨h, False.elim⟩

/-- What is known of the answers, if any. -/
theorem weaken {x : Except ε α} {post : α → Prop} (h : Answers sure x post) : Answers False x post := of_meets h.meets

/-- A statement that says nothing about the answers. -/
theorem trivial (x : Except ε α) : Answers False x fun _ => True := of_meets fun _ _ => True.intro

theorem answer {x : Except ε α} {post : α → Prop} (h : Answers sure x post) (hsure : sure) :
    ∃ a, x = .ok a ∧ post a := by
  obtain ⟨a, ha⟩ := h.returns hsure
  exact ⟨a, ha, h.meets a ha⟩

end Answers

/-- What a computation answers that has a step in it. -/
theorem exists_of_bind_eq_ok {ε α β : Type} {x : Except ε α} {f : α → Except ε β} {b : β} (h : x >>= f = .ok b) :
    ∃ a, x = .ok a ∧ f a = .ok b := by
  cases x with
  | error e => cases h
  | ok a => exact ⟨a, rfl, h⟩

theorem exists_of_map_eq_ok {ε α β : Type} {x : Except ε α} {f : α → β} {b : β} (h : x.map f = .ok b) :
    ∃ a, x = .ok a ∧ f a = b := by
  cases x with
  | error e => cases h
  | ok a => exact ⟨a, rfl, Except.ok.inj h⟩

/-! ## Visits -/

/-- The arguments of a traversal in their order, each beside a result that fits it. -/
structure Visits {α β : Type} (args : List α) (fits : α → β → Prop) (done : List (α × β)) : Prop where
  args : done.map Prod.fst = args
  fits : ∀ d ∈ done, fits d.1 d.2

namespace Visits

variable {α β : Type} {fits : α → β → Prop}

theorem nil : Visits [] fits [] := ⟨rfl, List.forall_mem_nil _⟩

theorem cons {a : α} {b : β} {as : List α} {done : List (α × β)} (hab : fits a b) (h : Visits as fits done) :
    Visits (a :: as) fits ((a, b) :: done) :=
  ⟨congrArg (a :: ·) h.args, List.forall_mem_cons.mpr ⟨hab, h.fits⟩⟩

/-- What is visited is one of the arguments. -/
theorem mem {as : List α} {done : List (α × β)} (h : Visits as fits done) {d : α × β} (hd : d ∈ done) :
    d.1 ∈ as :=
  h.args ▸ List.mem_map_of_mem hd

/-- Every argument is visited. -/
theorem exists_of_mem {as : List α} {done : List (α × β)} (h : Visits as fits done) {a : α} (ha : a ∈ as) :
    ∃ b, (a, b) ∈ done := by
  rw [← h.args] at ha
  obtain ⟨d, hd, rfl⟩ := List.mem_map.mp ha
  exact ⟨d.2, hd⟩

/-- A visit whose results are a function of the arguments. -/
theorem of_forall {as : List α} {f : α → β} (h : ∀ a ∈ as, fits a (f a)) :
    Visits as fits (as.map fun a => (a, f a)) where
  args := by rw [List.map_map]; exact List.map_id as
  fits := List.forall_mem_map.mpr h

/-- Two traversals of related arguments. -/
theorem forall₂ {γ δ : Type} {as : List α} {bs : List γ} {others : γ → δ → Prop} {done : List (α × β)}
    {done' : List (γ × δ)} {related : α → γ → Prop} (h : Visits as fits done) (h' : Visits bs others done')
    (hrelated : List.Forall₂ related as bs) :
    List.Forall₂ (fun d d' => related d.1 d'.1 ∧ fits d.1 d.2 ∧ others d'.1 d'.2) done done' := by
  rw [← h.args, ← h'.args, List.forall₂_map_left_iff, List.forall₂_map_right_iff, List.forall₂_iff_zip] at hrelated
  refine List.forall₂_iff_zip.mpr ⟨hrelated.1, fun hmem => ?_⟩
  obtain ⟨hd, hd'⟩ := List.of_mem_zip hmem
  exact ⟨hrelated.2 hmem, h.fits _ hd, h'.fits _ hd'⟩

/-- Traversals of the same arguments by a function. -/
theorem unique {as : List α} {done done' : List (α × β)} (hunique : ∀ a b c, fits a b → fits a c → b = c)
    (h : Visits as fits done) (h' : Visits as fits done') : done = done' := by
  have hpairs := h.forall₂ h' (List.forall₂_same.mpr fun a _ => Eq.refl a)
  refine List.forall₂_eq_eq_eq ▸ hpairs.imp ?_
  rintro ⟨a, b⟩ ⟨_, c⟩ ⟨rfl, hb, hc⟩
  exact congrArg (Prod.mk a) (hunique _ _ _ hb hc)

end Visits

/-- A traversal of a list by a step for every element. -/
theorem answers_mapM {ε α β : Type} {sure : Prop} {f : α → Except ε β} {fits : α → β → Prop} (as : List α)
    (each : ∀ a ∈ as, Answers sure (f a) (fits a)) :
    Answers sure (as.mapM f) fun bs => ∃ done, Visits as fits done ∧ bs = done.map Prod.snd := by
  induction as with
  | nil => exact .pure ⟨[], .nil, rfl⟩
  | cons a as ih =>
    rw [List.mapM_cons]
    refine .bind (each a List.mem_cons_self) fun b hb => ?_
    refine .bind (ih fun a' ha' => each a' (List.mem_cons_of_mem _ ha')) ?_
    rintro bs ⟨done, hdone, rfl⟩
    exact .pure ⟨(a, b) :: done, .cons hb hdone, rfl⟩

/-- A traversal answers with the answers of all its steps. -/
theorem mapM_eq_ok_iff {ε α β : Type} {f : α → Except ε β} {as : List α} {bs : List β} :
    as.mapM f = .ok bs ↔ List.Forall₂ (fun a b => f a = .ok b) as bs := by
  induction as generalizing bs with
  | nil =>
    rw [List.mapM_nil, List.forall₂_nil_left_iff]
    exact ⟨fun h => (Except.ok.inj h).symm, fun h => congrArg Except.ok h.symm⟩
  | cons a as ih =>
    rw [List.mapM_cons]
    constructor
    · intro h
      cases hfirst : f a with
      | error e => rw [hfirst] at h; cases h
      | ok b =>
        cases hrest : as.mapM f with
        | error e => rw [hfirst, hrest] at h; cases h
        | ok rest =>
          rw [hfirst, hrest] at h
          obtain rfl := Except.ok.inj h
          exact .cons hfirst (ih.mp hrest)
    · intro h
      cases h with
      | cons hfirst hrest =>
        rw [hfirst, ih.mpr hrest]
        rfl

/-- What a relation says of the left side alone. -/
theorem forall_of_forall₂ {α β : Type} {R : α → β → Prop} {p : α → Prop} {as : List α} {bs : List β}
    (h : List.Forall₂ R as bs) (hp : ∀ a b, R a b → p a) : ∀ a ∈ as, p a :=
  ((List.forall₂_and_left as bs).mp (h.imp fun a b hab => ⟨hp a b hab, hab⟩)).1

theorem exists_forall₂_iff {α β : Type} {R : α → β → Prop} {as : List α} :
    (∃ bs, List.Forall₂ R as bs) ↔ ∀ a ∈ as, ∃ b, R a b := by
  induction as with
  | nil => exact ⟨fun _ => List.forall_mem_nil _, fun _ => ⟨[], .nil⟩⟩
  | cons a as ih =>
    rw [List.forall_mem_cons, ← ih]
    constructor
    · rintro ⟨_, h⟩
      cases h with
      | cons hfirst hrest => exact ⟨⟨_, hfirst⟩, _, hrest⟩
    · rintro ⟨⟨b, hfirst⟩, bs, hrest⟩
      exact ⟨b :: bs, .cons hfirst hrest⟩

@[simp] theorem orFault_except {α : Type} (x : Except Fault α) : orFault (m := Except Fault) x = x := by
  cases x <;> rfl

end Schemata
