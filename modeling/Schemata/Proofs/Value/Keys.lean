import Mathlib.Data.List.Basic
import Schemata.Value.Equality

/-!
# `Schemata.Proofs.Value.Keys` — mappings whose keys are distinct texts

On texts, likeness is equality. So a mapping whose keys are distinct texts is a finite function: looking a key
up finds the one entry that has it (`get?_of_mem`), and putting a value under a key of the mapping changes that
entry alone.

## Contents
- **Texts.** `alike_string_left` and `alike_string_right`, likeness to a text.
- **Look-up.** `DistinctTexts`, with membership and look-up under it.
- **Insertion.** Where `Entries.insert` puts an entry, and what joining two mappings leaves: `mem_union`, `get?_union_last`
  for keys that are repeated, and `union_of_keys_eq` for two mappings with the same leading keys.
-/

namespace Schemata

/-! ## Texts -/

namespace Value

theorem isText_iff {v : Value} {s : String} : v.isText s = true ↔ v = .string s := by
  cases v <;> simp [isText]

@[simp] theorem isText_string (s t : String) : (Value.string t).isText s = (t == s) := rfl

theorem alike_string_right (v : Value) (s : String) : v.alike (.string s) = v.isText s := by
  cases v <;> simp [alike, alikeScalars, isText, quantity?]

theorem alike_string_left (s : String) (v : Value) : (Value.string s).alike v = v.isText s := by
  cases v with
  | string t => simp [alike, alikeScalars, isText, eq_comm]
  | _ => simp [alike, alikeScalars, isText, quantity?]

end Value

/-! ## Look-up -/

/-- Keys that are texts, each of them there once. -/
structure DistinctTexts (keys : List Value) : Prop where
  texts : ∀ k ∈ keys, ∃ s, k = .string s
  distinct : keys.Nodup

namespace DistinctTexts

theorem tail {k : Value} {ks : List Value} (h : DistinctTexts (k :: ks)) : DistinctTexts ks :=
  ⟨fun l hl => h.texts l (List.mem_cons_of_mem _ hl), (List.nodup_cons.mp h.distinct).2⟩

/-- Two keys are alike only if they are the same. -/
theorem eq_of_alike {keys : List Value} (h : DistinctTexts keys) {k l : Value} (hk : k ∈ keys)
    (halike : k.alike l = true) : l = k := by
  obtain ⟨s, rfl⟩ := h.texts k hk
  rw [Value.alike_string_left] at halike
  exact Value.isText_iff.mp halike

theorem alike_self {keys : List Value} (h : DistinctTexts keys) {k : Value} (hk : k ∈ keys) :
    k.alike k = true := by
  obtain ⟨s, rfl⟩ := h.texts k hk
  simp [Value.alike_string_left]

end DistinctTexts

namespace Entries

theorem hasAlike_string (entries : Entries) (s : String) :
    Entries.hasAlike entries (.string s) = Entries.has entries s := by
  simp only [hasAlike, has, get?, Value.alike_string_right, Option.isSome_map]
  rw [Bool.eq_iff_iff, List.any_eq_true, List.find?_isSome]

/-- What is looked up stands under the key. -/
theorem mem_of_get? {entries : Entries} {s : String} {w : Value}
    (h : Entries.get? entries s = some w) : (.string s, w) ∈ entries := by
  obtain ⟨⟨k, u⟩, hfind, rfl⟩ := Option.map_eq_some_iff.mp h
  have htext : k.isText s = true := List.find?_some (p := fun e : Value × Value => e.1.isText s) hfind
  rw [← Value.isText_iff.mp htext]
  exact List.mem_of_find?_eq_some hfind

/-- What stands under a key is looked up. -/
theorem get?_of_mem {entries : Entries} (hkeys : DistinctTexts (entries.map Prod.fst)) {s : String}
    {w : Value} (h : (.string s, w) ∈ entries) : Entries.get? entries s = some w := by
  induction entries with
  | nil => simp at h
  | cons e es ih =>
    rw [List.map_cons] at hkeys
    rcases List.mem_cons.mp h with rfl | hes
    · simp [get?]
    · have hne : e.1.isText s = false := by
        rw [Bool.eq_false_iff, ne_eq, Value.isText_iff]
        intro heq
        refine (List.nodup_cons.mp hkeys.distinct).1 ?_
        rw [heq]
        exact List.mem_map_of_mem hes
      simpa [get?, hne] using ih hkeys.tail hes

theorem has_eq_false_iff {entries : Entries} {s : String} :
    Entries.has entries s = false ↔ Entries.get? entries s = none := by
  simp [has]

theorem has_of_get? {entries : Entries} {s : String} {v : Value} (h : Entries.get? entries s = some v) :
    Entries.has entries s = true := by
  rw [has, h]
  rfl

/-- A key under which something is read is present. -/
theorem has_of_bind {α : Type} {entries : Entries} {s : String} {read : Value → Option α} {x : α}
    (h : (Entries.get? entries s).bind read = some x) : Entries.has entries s = true := by
  obtain ⟨v, hget, _⟩ := Option.bind_eq_some_iff.mp h
  exact has_of_get? hget

/-- Whether a key is present depends on the keys alone. -/
theorem hasAlike_congr {es fs : Entries} (h : es.map Prod.fst = fs.map Prod.fst) (k : Value) :
    Entries.hasAlike es k = Entries.hasAlike fs k := by
  have hkeys : ∀ gs : Entries, Entries.hasAlike gs k = (gs.map Prod.fst).any fun l => l.alike k :=
    fun gs => by rw [List.any_map]; rfl
  rw [hkeys, hkeys, h]

/-! ## Insertion -/

/-- Behind entries whose keys are not like the new one, insertion goes on. -/
theorem insert_append {es fs : Entries} {k w : Value} (h : Entries.hasAlike es k = false) :
    Entries.insert (es ++ fs) k w = es ++ Entries.insert fs k w := by
  induction es with
  | nil => rfl
  | cons e es ih =>
    obtain ⟨hne, hes⟩ : e.1.alike k = false ∧ Entries.hasAlike es k = false := by
      simpa [hasAlike] using h
    rw [List.cons_append, insert, if_neg (by simp [hne]), ih hes, List.cons_append]

/-- What an insertion leaves: the new entry, and those with other keys. -/
theorem mem_insert {es : Entries} (hkeys : DistinctTexts (es.map Prod.fst)) {s : String} {w : Value} {e : Value × Value} :
    e ∈ Entries.insert es (.string s) w ↔ e = (.string s, w) ∨ e ∈ es ∧ e.1 ≠ .string s := by
  induction es with
  | nil => simp [insert]
  | cons f es ih =>
    rw [insert, Value.alike_string_right]
    have hnew := (List.nodup_cons.mp hkeys.distinct).1
    split
    next htext =>
      have hkey := Value.isText_iff.mp htext
      rw [hkey] at hnew
      have hothers : ∀ g ∈ es, g.1 ≠ .string s := fun g hg heq => hnew (heq ▸ List.mem_map_of_mem hg)
      rw [hkey, List.mem_cons, List.mem_cons]
      constructor
      · rintro (rfl | he)
        · exact .inl rfl
        · exact .inr ⟨.inr he, hothers e he⟩
      · rintro (rfl | ⟨rfl | he, hne⟩)
        · exact .inl rfl
        · exact absurd hkey hne
        · exact .inr he
    next htext =>
      have hne : f.1 ≠ .string s := fun heq => htext (Value.isText_iff.mpr heq)
      rw [List.mem_cons, List.mem_cons, ih hkeys.tail]
      constructor
      · rintro (rfl | rfl | ⟨he, hkey⟩)
        · exact .inr ⟨.inl rfl, hne⟩
        · exact .inl rfl
        · exact .inr ⟨.inr he, hkey⟩
      · rintro (rfl | ⟨rfl | he, hkey⟩)
        · exact .inr (.inl rfl)
        · exact .inl rfl
        · exact .inr (.inr ⟨he, hkey⟩)

/-- The keys after an insertion are the keys before it, and perhaps the new one. -/
theorem mem_keys_insert {es : Entries} {k w l : Value} (h : l ∈ (Entries.insert es k w).map Prod.fst) :
    l ∈ es.map Prod.fst ∨ l = k := by
  induction es with
  | nil => simpa [insert] using h
  | cons e es ih =>
    rw [insert] at h
    split at h
    · exact .inl h
    · rcases List.mem_cons.mp h with rfl | hl
      · exact .inl List.mem_cons_self
      · exact (ih hl).imp (List.mem_cons_of_mem _) id

/-- The keys after joining are keys of either side. -/
theorem mem_keys_union {es fs : Entries} {l : Value} (h : l ∈ (Entries.union es fs).map Prod.fst) :
    l ∈ es.map Prod.fst ∨ l ∈ fs.map Prod.fst := by
  induction fs generalizing es with
  | nil => exact .inl h
  | cons f fs ih =>
    rw [List.map_cons, List.mem_cons]
    have hrest : l ∈ (Entries.union (Entries.insert es f.1 f.2) fs).map Prod.fst := h
    rcases ih hrest with hins | hfs
    · exact (mem_keys_insert hins).imp_right .inl
    · exact .inr (.inr hfs)

theorem distinctTexts_insert {es : Entries} (hkeys : DistinctTexts (es.map Prod.fst)) (s : String) (w : Value) :
    DistinctTexts ((Entries.insert es (.string s) w).map Prod.fst) := by
  induction es with
  | nil => exact ⟨List.forall_mem_singleton.mpr ⟨s, rfl⟩, by simp [insert]⟩
  | cons e es ih =>
    rw [insert, Value.alike_string_right]
    split
    · exact hkeys
    next htext =>
      have htail := ih hkeys.tail
      refine ⟨List.forall_mem_cons.mpr ⟨hkeys.texts _ List.mem_cons_self, htail.texts⟩,
        List.nodup_cons.mpr ⟨fun hmem => ?_, htail.distinct⟩⟩
      rcases mem_keys_insert hmem with hold | hnew
      · exact (List.nodup_cons.mp hkeys.distinct).1 hold
      · exact htext (Value.isText_iff.mpr hnew)

/-- **What joining leaves:** the entries on the right, and those on the left with other keys. -/
theorem mem_union {es fs : Entries} (hes : DistinctTexts (es.map Prod.fst)) (hfs : DistinctTexts (fs.map Prod.fst))
    {e : Value × Value} : e ∈ Entries.union es fs ↔ e ∈ fs ∨ e ∈ es ∧ e.1 ∉ fs.map Prod.fst := by
  induction fs generalizing es with
  | nil => simp [union]
  | cons f fs ih =>
    obtain ⟨s, hs⟩ := hfs.texts f.1 List.mem_cons_self
    obtain ⟨k, w⟩ := f
    obtain rfl : k = .string s := hs
    have hnew := (List.nodup_cons.mp hfs.distinct).1
    have hstep : Entries.union es ((.string s, w) :: fs) = Entries.union (Entries.insert es (.string s) w) fs := rfl
    rw [hstep, ih (distinctTexts_insert hes s w) hfs.tail, mem_insert hes, List.map_cons, List.mem_cons, List.mem_cons]
    constructor
    · rintro (he | ⟨rfl | ⟨he, hne⟩, hother⟩)
      · exact .inl (.inr he)
      · exact .inl (.inl rfl)
      · exact .inr ⟨he, not_or.mpr ⟨hne, hother⟩⟩
    · rintro ((rfl | he) | ⟨he, hother⟩)
      · exact .inr ⟨.inl rfl, hnew⟩
      · exact .inl he
      · exact .inr ⟨.inr ⟨he, (not_or.mp hother).1⟩, (not_or.mp hother).2⟩

theorem mem_keys_union_iff {es fs : Entries} (hes : DistinctTexts (es.map Prod.fst)) (hfs : DistinctTexts (fs.map Prod.fst))
    {k : Value} : k ∈ (Entries.union es fs).map Prod.fst ↔ k ∈ es.map Prod.fst ∨ k ∈ fs.map Prod.fst := by
  refine ⟨mem_keys_union, fun hk => ?_⟩
  by_cases hright : k ∈ fs.map Prod.fst
  · obtain ⟨f, hf, rfl⟩ := List.mem_map.mp hright
    exact List.mem_map_of_mem ((mem_union hes hfs).mpr (.inl hf))
  · obtain ⟨e, he, rfl⟩ := List.mem_map.mp (hk.resolve_right hright)
    exact List.mem_map_of_mem ((mem_union hes hfs).mpr (.inr ⟨he, hright⟩))

theorem distinctTexts_union {es fs : Entries} (hes : DistinctTexts (es.map Prod.fst))
    (hfs : DistinctTexts (fs.map Prod.fst)) : DistinctTexts ((Entries.union es fs).map Prod.fst) := by
  induction fs generalizing es with
  | nil => exact hes
  | cons f fs ih =>
    obtain ⟨s, hs⟩ := hfs.texts f.1 List.mem_cons_self
    have hinsert := distinctTexts_insert hes s f.2
    rw [← show f.1 = .string s from hs] at hinsert
    exact ih hinsert hfs.tail

theorem get?_cons (e : Value × Value) (es : Entries) (s : String) :
    Entries.get? (e :: es) s = if e.1.isText s then some e.2 else Entries.get? es s := by
  unfold get?
  rw [List.find?_cons]
  cases e.1.isText s <;> rfl

theorem get?_insert (es : Entries) (s t : String) (w : Value) :
    Entries.get? (Entries.insert es (.string s) w) t = if s = t then some w else Entries.get? es t := by
  induction es with
  | nil => simp [insert, get?_cons]
  | cons e es ih =>
    rw [insert, Value.alike_string_right]
    by_cases hkey : e.1 = .string s
    · rw [if_pos (Value.isText_iff.mpr hkey), get?_cons, get?_cons, hkey, Value.isText_string]
      by_cases hst : s = t <;> simp [hst]
    · rw [if_neg (mt Value.isText_iff.mp hkey), get?_cons, get?_cons, ih]
      by_cases hst : s = t
      · obtain rfl := hst
        rw [if_neg (mt Value.isText_iff.mp hkey), if_pos rfl, if_pos rfl]
      · rw [if_neg hst, if_neg hst]

/-- Joining with entries under other keys leaves what stands under a key. -/
theorem get?_union_other (es : Entries) {fs : Entries} {s : String}
    (hother : ∀ f ∈ fs, ∃ t, f.1 = .string t ∧ t ≠ s) : Entries.get? (Entries.union es fs) s = Entries.get? es s := by
  induction fs generalizing es with
  | nil => rfl
  | cons f fs ih =>
    obtain ⟨⟨t, htext, hne⟩, hrest⟩ := List.forall_mem_cons.mp hother
    have hstep : Entries.union es (f :: fs) = Entries.union (Entries.insert es (.string t) f.2) fs := by
      rw [← htext]
      rfl
    rw [hstep, ih _ hrest, get?_insert, if_neg hne]

/-- Of entries under one key that are put in one by one, the last counts. -/
theorem get?_union_last (es before : Entries) {after : Entries} {s : String} (w : Value)
    (hafter : ∀ f ∈ after, ∃ t, f.1 = .string t ∧ t ≠ s) :
    Entries.get? (Entries.union es (before ++ (.string s, w) :: after)) s = some w := by
  have hsplit : Entries.union es (before ++ (.string s, w) :: after)
      = Entries.union (Entries.insert (Entries.union es before) (.string s) w) after := List.foldl_append
  rw [hsplit, get?_union_other _ hafter, get?_insert, if_pos rfl]

/-- Putting values under all keys that come next, one by one, behind entries with other keys. -/
theorem union_append_present (done rest : Entries) {es fs : Entries} (hkeys : es.map Prod.fst = fs.map Prod.fst)
    (hdistinct : DistinctTexts ((done ++ fs).map Prod.fst)) :
    Entries.union (done ++ es ++ rest) fs = done ++ fs ++ rest := by
  induction fs generalizing done es with
  | nil =>
    obtain rfl : es = [] := List.map_eq_nil_iff.mp hkeys
    rfl
  | cons f fs ih =>
    obtain ⟨⟨k, old⟩, es, rfl, rfl, htail⟩ := List.map_eq_cons_iff.mp hkeys
    have hmem : f.1 ∈ (done ++ f :: fs).map Prod.fst := List.mem_map_of_mem (by simp)
    have hnew : Entries.hasAlike done f.1 = false := by
      rw [Bool.eq_false_iff]
      intro hany
      obtain ⟨e, he, halike⟩ := List.any_eq_true.mp hany
      have heq := hdistinct.eq_of_alike (List.mem_map_of_mem (List.mem_append_left _ he)) halike
      have hnodup := hdistinct.distinct
      rw [List.map_append, List.nodup_append] at hnodup
      exact hnodup.2.2 e.1 (List.mem_map_of_mem he) f.1 (by simp) heq.symm
    have hstep : Entries.insert (done ++ (f.1, old) :: es ++ rest) f.1 f.2
        = done ++ [f] ++ es ++ rest := by
      rw [List.append_assoc, insert_append hnew, List.cons_append, insert,
        if_pos (hdistinct.alike_self hmem)]
      simp
    have hunion : Entries.union (done ++ (f.1, old) :: es ++ rest) (f :: fs)
        = Entries.union (done ++ [f] ++ es ++ rest) fs := by
      rw [← hstep]
      rfl
    rw [hunion, ih (done ++ [f]) htail (by simpa using hdistinct)]
    simp

/-- Joining with entries whose keys are all new changes only what stands behind. -/
theorem union_append_new {es fs gs : Entries} (h : ∀ e ∈ gs, Entries.hasAlike es e.1 = false) :
    Entries.union (es ++ fs) gs = es ++ Entries.union fs gs := by
  induction gs generalizing fs with
  | nil => rfl
  | cons g gs ih =>
    have hstep : Entries.union (es ++ fs) (g :: gs) = Entries.union (es ++ Entries.insert fs g.1 g.2) gs := by
      rw [← insert_append (h g List.mem_cons_self)]
      rfl
    rw [hstep, ih fun e he => h e (List.mem_cons_of_mem _ he)]
    rfl

/-- **Joining two mappings that begin with the same keys:** the right one counts for these, and behind them
comes what either has besides. -/
theorem union_of_keys_eq {es fs : Entries} (more : Entries) {others : Entries} (hkeys : es.map Prod.fst = fs.map Prod.fst)
    (hdistinct : DistinctTexts (fs.map Prod.fst))
    (hnew : ∀ e ∈ others, Entries.hasAlike fs e.1 = false) :
    Entries.union (es ++ more) (fs ++ others) = fs ++ Entries.union more others := by
  have hfs := union_append_present [] more hkeys (by simpa using hdistinct)
  rw [List.nil_append, List.nil_append] at hfs
  have hsplit : Entries.union (es ++ more) (fs ++ others)
      = Entries.union (Entries.union (es ++ more) fs) others := List.foldl_append
  rw [hsplit, hfs, union_append_new hnew]

theorem union_self {es : Entries} (h : DistinctTexts (es.map Prod.fst)) : Entries.union es es = es := by
  have hself := union_of_keys_eq [] rfl h (List.forall_mem_nil _)
  simpa [union] using hself

end Entries

end Schemata
