import Schemata.Proofs.Answer

/-!
# `Schemata.Proofs.Runs` — two computations side by side

What compilation makes of two schemas, and what two validators make of a value, is compared step by step. A
computation is followed by another if the other answers whenever it does (`Follows`), and two run in lockstep if they
end in the same fault or both answer (`Lockstep`). The answers are related in either case.

## Contents
- **Following.** `Follows`, with a rule for every way of building a computation, and `Follows.mapM` for a row of steps.
- **Lockstep.** `Lockstep`, with the same rules.
-/

namespace Schemata

variable {ε α β γ δ : Type}

/-! ## Following -/

/-- `Follows x y related`: if `x` answers, then so does `y`, and the answers are related. -/
def Follows (x : Except ε α) (y : Except ε β) (related : α → β → Prop) : Prop :=
  ∀ a, x = .ok a → ∃ b, y = .ok b ∧ related a b

namespace Follows

theorem ok {a : α} {b : β} {related : α → β → Prop} (h : related a b) :
    Follows (.ok a : Except ε α) (.ok b) related := by
  intro a' ha
  exact ⟨b, rfl, Except.ok.inj ha ▸ h⟩

theorem pure {a : α} {b : β} {related : α → β → Prop} (h : related a b) :
    Follows (Pure.pure a : Except ε α) (Pure.pure b) related := ok h

/-- A fault asks for nothing to follow. -/
theorem error {e : ε} {y : Except ε β} {related : α → β → Prop} : Follows (.error e) y related := by
  intro a ha
  cases ha

theorem self (x : Except ε α) : Follows x x Eq := fun a ha => ⟨a, ha, rfl⟩

theorem mono {x : Except ε α} {y : Except ε β} {related other : α → β → Prop} (h : Follows x y related)
    (himp : ∀ a b, related a b → other a b) : Follows x y other := by
  intro a ha
  obtain ⟨b, hb, hrelated⟩ := h a ha
  exact ⟨b, hb, himp a b hrelated⟩

/-- **Two steps and what follows them.** -/
theorem bind {x : Except ε α} {y : Except ε β} {f : α → Except ε γ} {g : β → Except ε δ} {mid : α → β → Prop}
    {post : γ → δ → Prop} (h : Follows x y mid) (hf : ∀ a b, mid a b → Follows (f a) (g b) post) :
    Follows (x >>= f) (y >>= g) post := by
  intro c hc
  obtain ⟨a, ha, hc⟩ := exists_of_bind_eq_ok hc
  obtain ⟨b, hb, hmid⟩ := h a ha
  obtain ⟨d, hd, hpost⟩ := hf a b hmid c hc
  exact ⟨d, by rw [hb]; exact hd, hpost⟩

/-- What is known of the first answer may be used. -/
theorem and {x : Except ε α} {y : Except ε β} {related : α → β → Prop} {sure : Prop} {left : α → Prop}
    (h : Follows x y related) (hx : Answers sure x left) : Follows x y fun a b => related a b ∧ left a := by
  intro a ha
  obtain ⟨b, hb, hrelated⟩ := h a ha
  exact ⟨b, hb, hrelated, hx.meets a ha⟩

/-- What is known of either answer may be used. -/
theorem both {x : Except ε α} {y : Except ε β} {related : α → β → Prop} {left : α → Prop} {right : β → Prop}
    {sure : Prop} (h : Follows x y related) (hx : Answers sure x left) (hy : Answers sure y right) :
    Follows x y fun a b => related a b ∧ left a ∧ right b := by
  intro a ha
  obtain ⟨b, hb, hrelated⟩ := h a ha
  exact ⟨b, hb, hrelated, hx.meets a ha, hy.meets b hb⟩

/-- Two rows of steps, one for every element. -/
theorem mapM {f : γ → Except ε α} {g : γ → Except ε β} {related : α → β → Prop} (cs : List γ)
    (each : ∀ c ∈ cs, Follows (f c) (g c) related) : Follows (cs.mapM f) (cs.mapM g) (List.Forall₂ related) := by
  induction cs with
  | nil => exact .pure .nil
  | cons c cs ih =>
    obtain ⟨hfirst, hrest⟩ := List.forall_mem_cons.mp each
    rw [List.mapM_cons, List.mapM_cons]
    exact .bind hfirst fun a b hab => .bind (ih hrest) fun as bs habs => .pure (.cons hab habs)

end Follows

/-! ## Lockstep -/

/-- Two computations end in the same fault, or both answer and the answers are related. -/
inductive Lockstep (related : α → β → Prop) : Except ε α → Except ε β → Prop
  | ok {a : α} {b : β} (h : related a b) : Lockstep related (.ok a) (.ok b)
  | error (e : ε) : Lockstep related (.error e) (.error e)

namespace Lockstep

theorem pure {a : α} {b : β} {related : α → β → Prop} (h : related a b) :
    Lockstep related (Pure.pure a : Except ε α) (Pure.pure b) := ok h

theorem self (x : Except ε α) : Lockstep Eq x x := by
  cases x with
  | ok a => exact ok rfl
  | error e => exact error e

theorem symm {x : Except ε α} {y : Except ε β} {related : α → β → Prop} (h : Lockstep related x y) :
    Lockstep (fun b a => related a b) y x := by
  cases h with
  | ok h => exact ok h
  | error e => exact error e

theorem mono {x : Except ε α} {y : Except ε β} {related other : α → β → Prop} (h : Lockstep related x y)
    (himp : ∀ a b, related a b → other a b) : Lockstep other x y := by
  cases h with
  | ok h => exact ok (himp _ _ h)
  | error e => exact error e

/-- What is known of either answer may be used. -/
theorem and {x : Except ε α} {y : Except ε β} {related : α → β → Prop} {left : α → Prop} {right : β → Prop}
    {sure : Prop} (h : Lockstep related x y) (hx : Answers sure x left) (hy : Answers sure y right) :
    Lockstep (fun a b => related a b ∧ left a ∧ right b) x y := by
  cases h with
  | ok h => exact ok ⟨h, hx.meets _ rfl, hy.meets _ rfl⟩
  | error e => exact error e

/-- **Two steps and what follows them.** -/
theorem bind {x : Except ε α} {y : Except ε β} {f : α → Except ε γ} {g : β → Except ε δ} {mid : α → β → Prop}
    {post : γ → δ → Prop} (h : Lockstep mid x y) (hf : ∀ a b, mid a b → Lockstep post (f a) (g b)) :
    Lockstep post (x >>= f) (y >>= g) := by
  cases h with
  | ok h => exact hf _ _ h
  | error e => exact error e

theorem map {x : Except ε α} {y : Except ε β} {f : α → γ} {g : β → δ} {mid : α → β → Prop} {post : γ → δ → Prop}
    (h : Lockstep mid x y) (hf : ∀ a b, mid a b → post (f a) (g b)) : Lockstep post (x.map f) (y.map g) := by
  cases h with
  | ok h => exact ok (hf _ _ h)
  | error e => exact error e

theorem trans {x : Except ε α} {y : Except ε β} {z : Except ε γ} {related : α → β → Prop} {other : β → γ → Prop}
    (h : Lockstep related x y) (h' : Lockstep other y z) : Lockstep (fun a c => ∃ b, related a b ∧ other b c) x z := by
  cases h with
  | ok h =>
    cases h' with
    | ok h' => exact ok ⟨_, h, h'⟩
  | error e =>
    cases h'
    exact error e

/-- Computations in lockstep with equal answers are the same. -/
theorem eq {x y : Except ε α} (h : Lockstep Eq x y) : x = y := by
  cases h with
  | ok h => rw [h]
  | error e => rfl

/-- What the first computation answers, the second one answers as well. -/
theorem exists_of_ok {x : Except ε α} {y : Except ε β} {related : α → β → Prop} (h : Lockstep related x y) {a : α}
    (ha : x = .ok a) : ∃ b, y = .ok b ∧ related a b := by
  cases h with
  | ok h => exact ⟨_, rfl, Except.ok.inj ha ▸ h⟩
  | error e => cases ha

end Lockstep

end Schemata
