import Schemata.Proofs.Answer
import Schemata.Proofs.Source.Tree
import Schemata.Yaml.Value

/-!
# `Schemata.Proofs.Source.Supply` — keys that are written more than once

A mapping may be written with a key more than once. Every occurrence is walked when positions are noted, and the last
one supplies the data. A later note of a pointer replaces an earlier one, so that every pointer that resolves in the
data has the position of the node that supplies the value. But what was noted below an earlier occurrence stays where
the later one has nothing: the map then knows pointers that do not resolve (`ofNode_keeps_replaced`).

## Contents
- **Supplying nodes.** `Node.IsLast` and `Node.Supplies`, the ways through the last occurrences of keys.
- **Notes.** `get?_ofNode_supplies`: the last note of a pointer is that of the node which supplies it.
- **Loaded data.** `Loads`, the values of trees with such keys, and `loads_of_value`: reading gives one.
- **Positions of data.** `ofNode_describes`.
-/

namespace Schemata

/-! ## Last occurrences -/

/-- `LastBy key l a`: of the elements of a list with the same key as `a`, it is the last. -/
def LastBy {α κ : Type} (key : α → κ) (l : List α) (a : α) : Prop :=
  ∃ before after, l = before ++ a :: after ∧ ∀ later ∈ after, key later ≠ key a

namespace LastBy

variable {α κ : Type} {key : α → κ}

theorem mem {l : List α} {a : α} (h : LastBy key l a) : a ∈ l := by
  obtain ⟨before, after, rfl, _⟩ := h
  exact List.mem_append_right _ List.mem_cons_self

/-- Elements in front and elements with other keys behind do not matter. -/
theorem append {l : List α} {a : α} (h : LastBy key l a) (front : List α) {back : List α}
    (hback : ∀ later ∈ back, key later ≠ key a) : LastBy key (front ++ l ++ back) a := by
  obtain ⟨before, after, rfl, hafter⟩ := h
  refine ⟨front ++ before, after ++ back, by simp, fun later hlater => ?_⟩
  exact (List.mem_append.mp hlater).elim (hafter later) (hback later)

theorem prepend {l : List α} {a : α} (h : LastBy key l a) (front : List α) : LastBy key (front ++ l) a := by
  simpa using h.append front (List.forall_mem_nil _)

/-- Of the elements with a key, one is the last. -/
theorem exists_of_key {l : List α} {k : κ} (h : ∃ a ∈ l, key a = k) : ∃ a, LastBy key l a ∧ key a = k := by
  induction l with
  | nil => exact absurd h (by simp)
  | cons first rest ih =>
    by_cases hrest : ∃ a ∈ rest, key a = k
    · obtain ⟨last, hlast, hkey⟩ := ih hrest
      exact ⟨last, hlast.prepend [first], hkey⟩
    · obtain ⟨b, hb, rfl⟩ := h
      obtain rfl : b = first := (List.mem_cons.mp hb).resolve_right fun hmem => hrest ⟨b, hmem, rfl⟩
      exact ⟨b, ⟨[], rest, rfl, fun later hlater hkey => hrest ⟨later, hlater, hkey⟩⟩, rfl⟩

/-- If all keys differ, then each element is the last with its key. -/
theorem of_nodup {l : List α} (h : (l.map key).Nodup) {a : α} (ha : a ∈ l) : LastBy key l a := by
  obtain ⟨last, hlast, hkey⟩ := exists_of_key ⟨a, ha, rfl⟩
  obtain rfl := List.inj_on_of_nodup_map h hlast.mem ha hkey
  exact hlast

end LastBy

namespace Yaml.Node

/-! ## Supplying nodes -/

/-- The last entry that has its key. -/
def IsLast (entries : List (Node × Node)) (e : Node × Node) : Prop := LastBy (fun e => e.1.keyText) entries e

/-- `Supplies n place m`: from the node `n`, the place leads to `m` through the last occurrences of keys. -/
inductive Supplies : Node → Pointer → Node → Prop
  | here (n : Node) : Supplies n [] n
  | item {mark : Mark} {tag : Tag} {items : List Node} {i : Nat} {n m : Node} {place : Pointer}
      (hi : items[i]? = some n) (below : Supplies n place m) :
      Supplies (.sequence mark tag items) (toString i :: place) m
  | member {mark : Mark} {tag : Tag} {entries : List (Node × Node)} {e : Node × Node} {m : Node} {place : Pointer}
      (he : IsLast entries e) (below : Supplies e.2 place m) :
      Supplies (.mapping mark tag entries) (e.1.keyText :: place) m

theorem Supplies.leads {n m : Node} {place : Pointer} (h : Supplies n place m) : Leads n place m := by
  induction h with
  | here n => exact .here n
  | item hi _ ih => exact .item hi ih
  | member he _ ih => exact .member he.mem ih

/-- A place that leads to a node leads there through last occurrences, if no key is repeated. -/
theorem supplies_of_leads {n m : Node} {place : Pointer} (hn : DistinctKeys n) (h : Leads n place m) :
    Supplies n place m := by
  induction h with
  | here n => exact .here n
  | item hi _ ih =>
    cases hn with
    | sequence each => exact .item hi (ih (each _ (List.mem_of_getElem? hi)))
  | member he _ ih =>
    cases hn with
    | mapping keys each => exact .member (LastBy.of_nodup keys he) (ih (each _ he))

/-! ## Notes -/

/-- Nothing below a node has the pointer of the node. -/
theorem ne_of_below {base place : Pointer} {token p : String} (hp : p = Pointer.encode (base ++ token :: place)) :
    p ≠ Pointer.encode base := by
  rintro rfl
  simpa using Pointer.encode_injective hp

/-- Different tokens lead to different pointers. -/
theorem ne_of_tokens {base place place' : Pointer} {token token' p : String} (htokens : token ≠ token')
    (hp : p = Pointer.encode (base ++ token :: place)) : p ≠ Pointer.encode (base ++ token' :: place') := by
  rintro rfl
  have := Pointer.encode_injective hp
  rw [List.append_cancel_left_eq, List.cons.injEq] at this
  exact htokens this.1.symm

/-- The notes below items are those of the items, one after the other. -/
theorem lastNote_placesOfItems {items : List Node} {i : Nat} {n : Node} (hi : items[i]? = some n) (base : Pointer)
    (start : Nat) {place : Pointer} {position : Position}
    (h : LastBy Prod.fst (n.places (Pointer.encode (base ++ [toString (start + i)])))
      (Pointer.encode (base ++ toString (start + i) :: place), position)) :
    LastBy Prod.fst (placesOfItems (Pointer.encode base) start items)
      (Pointer.encode (base ++ toString (start + i) :: place), position) := by
  induction items generalizing i start with
  | nil => simp at hi
  | cons first rest ih =>
    rw [placesOfItems, ← Pointer.encode_concat]
    cases i with
    | zero =>
      obtain rfl : first = n := Option.some.inj hi
      refine h.append [] fun later hlater => ?_
      obtain ⟨j, _, _, _, _, _, hp, _⟩ := leads_of_mem_placesOfItems rest base (start + 1) hlater
      exact ne_of_tokens (fun htokens => absurd (toString_injective htokens) (by omega)) hp
    | succ i =>
      have hrest := ih hi (start + 1) (by rwa [Nat.add_assoc, Nat.add_comm 1 i])
      rw [Nat.add_assoc, Nat.add_comm 1 i] at hrest
      exact hrest.prepend _

theorem placesOfEntries_append (pointer : String) (before after : List (Node × Node)) :
    placesOfEntries pointer (before ++ after) = placesOfEntries pointer before ++ placesOfEntries pointer after := by
  induction before with
  | nil => rfl
  | cons e es ih =>
    obtain ⟨key, n⟩ := e
    rw [List.cons_append, placesOfEntries, placesOfEntries, ih, List.append_assoc]

/-- The notes below the last occurrence of a key are not replaced. -/
theorem lastNote_placesOfEntries {entries : List (Node × Node)} {e : Node × Node} (he : IsLast entries e)
    (base : Pointer) {place : Pointer} {position : Position}
    (h : LastBy Prod.fst (e.2.places (Pointer.encode (base ++ [e.1.keyText])))
      (Pointer.encode (base ++ e.1.keyText :: place), position)) :
    LastBy Prod.fst (placesOfEntries (Pointer.encode base) entries)
      (Pointer.encode (base ++ e.1.keyText :: place), position) := by
  obtain ⟨before, after, rfl, hafter⟩ := he
  obtain ⟨key, n⟩ := e
  rw [placesOfEntries_append, placesOfEntries, ← Pointer.encode_concat, ← List.append_assoc]
  refine h.append _ fun later hlater => ?_
  obtain ⟨other, _, _, hother, _, hp, _⟩ := leads_of_mem_placesOfEntries after base hlater
  exact ne_of_tokens (hafter other hother) hp

/-- **The last note of a place is that of the node that supplies it.** -/
theorem lastNote_places {node m : Node} {place : Pointer} (h : Supplies node place m) (base : Pointer) :
    LastBy Prod.fst (node.places (Pointer.encode base)) (Pointer.encode (base ++ place), m.mark.position) := by
  induction h generalizing base with
  | here n =>
    rw [List.append_nil]
    cases n with
    | scalar => exact ⟨[], [], by rw [places]; rfl, List.forall_mem_nil _⟩
    | sequence mark tag items =>
      refine ⟨[], _, by rw [places]; rfl, fun later hlater => ?_⟩
      obtain ⟨_, _, _, _, _, _, hp, _⟩ := leads_of_mem_placesOfItems items base 0 hlater
      exact ne_of_below hp
    | mapping mark tag entries =>
      refine ⟨[], _, by rw [places]; rfl, fun later hlater => ?_⟩
      obtain ⟨_, _, _, _, _, hp, _⟩ := leads_of_mem_placesOfEntries entries base hlater
      exact ne_of_below hp
  | @item mark tag items i n m place hi _ ih =>
    rw [places]
    have hbelow := lastNote_placesOfItems hi base 0 (by simpa using ih (base ++ [toString i]))
    rw [Nat.zero_add] at hbelow
    exact hbelow.prepend [(Pointer.encode base, mark.position)]
  | @member mark tag entries e m place he _ ih =>
    rw [places]
    have hbelow := lastNote_placesOfEntries he base (by simpa using ih (base ++ [e.1.keyText]))
    exact hbelow.prepend [(Pointer.encode base, mark.position)]

end Yaml.Node

namespace SourceMap

open Yaml

/-- The last note of a pointer counts. -/
theorem get?_ofList_last {notes : List (String × Position)} {p : String} {position : Position}
    (h : LastBy Prod.fst notes (p, position)) : (ofList notes).get? p = some position := by
  obtain ⟨before, after, rfl, hafter⟩ := h
  rw [ofList, List.foldl_append]
  refine get?_foldl (fun other hother => ?_) (.inl List.mem_cons_self)
  rcases List.mem_cons.mp hother with heq | hmem
  · exact (Prod.mk.inj heq).2
  · exact absurd rfl (hafter (p, other) hmem)

/-- A place that last occurrences lead to has the position of the node there. -/
theorem get?_ofNode_supplies {node m : Node} {place : Pointer} (h : node.Supplies place m) :
    (ofNode node).get? (Pointer.encode place) = some m.mark.position :=
  get?_ofList_last (Node.lastNote_places h [])

/-- **The pointers in the map** are those of all places, whichever occurrences of keys they go through. -/
theorem get?_ofNode_isSome_iff (node : Node) (p : String) :
    ((ofNode node).get? p).isSome = true ↔ ∃ place m, p = Pointer.encode place ∧ node.Leads place m := by
  constructor
  · intro hsome
    by_contra hnone
    have hget : (ofNode node).get? p = none := by
      refine get?_ofList_none fun position hmem => ?_
      obtain ⟨place, m, hleads, hp, _⟩ := Node.leads_of_mem_places node [] hmem
      exact hnone ⟨place, m, hp, hleads⟩
    rw [hget] at hsome
    cases hsome
  · rintro ⟨place, m, rfl, hleads⟩
    obtain ⟨⟨p, position⟩, hlast, rfl⟩ :
        ∃ note, LastBy Prod.fst (node.places "") note ∧ note.1 = Pointer.encode place :=
      LastBy.exists_of_key ⟨_, Node.mem_places_of_leads hleads [], rfl⟩
    rw [ofNode, get?_ofList_last hlast]
    rfl

end SourceMap

/-! ## Loaded data -/

/-- A tree and the data that it is loaded as: a mapping has the keys that are written in it, each with the data of its
last occurrence, a sequence is a list, and a scalar stands for any value that is neither. -/
inductive Loads : Yaml.Node → Value → Prop
  | scalar {mark : Yaml.Mark} {tag : Yaml.Tag} {text : String} {v : Value} (noItems : v.items? = none)
      (noEntries : v.entries? = none) : Loads (.scalar mark tag text) v
  | sequence {mark : Yaml.Mark} {tag : Yaml.Tag} {items : List Yaml.Node} {values : List Value}
      (length : items.length = values.length) (each : ∀ p ∈ items.zip values, Loads p.1 p.2) :
      Loads (.sequence mark tag items) (.list values)
  | mapping {mark : Yaml.Mark} {tag : Yaml.Tag} {entries : List (Yaml.Node × Yaml.Node)} {members : Entries}
      (keys : ∀ key, Entries.has members key = true ↔ ∃ e ∈ entries, e.1.keyText = key)
      (each : ∀ e w, Yaml.Node.IsLast entries e → Entries.get? members e.1.keyText = some w → Loads e.2 w) :
      Loads (.mapping mark tag entries) (.dict members)

namespace Loads

open Yaml

/-- **Every place of the data** is a place that the tree supplies. -/
theorem supplies {node : Node} {v w : Value} {place : Pointer} (h : Loads node v) (hleads : v.Leads place w) :
    ∃ m, node.Supplies place m ∧ Loads m w := by
  induction hleads generalizing node with
  | here => exact ⟨node, .here node, h⟩
  | @item items i v w place hi _ ih =>
    cases h with
    | scalar noItems _ => cases noItems
    | @sequence mark tag nodes _ length each =>
      obtain ⟨hlt, rfl⟩ := List.getElem?_eq_some_iff.mp hi
      have hpair : (nodes[i], items[i]) ∈ nodes.zip items :=
        List.mem_iff_getElem?.mpr ⟨i, by simp [length, hlt]⟩
      obtain ⟨m, hm, hloads⟩ := ih (each _ hpair)
      exact ⟨m, .item (List.getElem?_eq_getElem (length ▸ hlt)) hm, hloads⟩
  | @member members key v w place hkey _ ih =>
    cases h with
    | scalar _ noEntries => cases noEntries
    | @mapping mark tag entries _ keys each =>
      obtain ⟨e, he, rfl⟩ := LastBy.exists_of_key ((keys key).mp (Entries.has_of_get? hkey))
      obtain ⟨m, hm, hloads⟩ := ih (each e v he hkey)
      exact ⟨m, .member he hm, hloads⟩

/-- **Every place that the tree supplies** is a place of the data. -/
theorem resolves {node m : Node} {v : Value} {place : Pointer} (h : Loads node v) (hsupplies : node.Supplies place m) :
    ∃ w, v.Leads place w ∧ Loads m w := by
  induction hsupplies generalizing v with
  | here => exact ⟨v, .here v, h⟩
  | @item mark tag items i n m place hi _ ih =>
    cases h with
    | @sequence _ _ _ values length each =>
      obtain ⟨hlt, rfl⟩ := List.getElem?_eq_some_iff.mp hi
      have hpair : (items[i], values[i]) ∈ items.zip values :=
        List.mem_iff_getElem?.mpr ⟨i, by simp [← length, hlt]⟩
      obtain ⟨w, hw, hloads⟩ := ih (each _ hpair)
      exact ⟨w, .item (List.getElem?_eq_getElem (length ▸ hlt)) hw, hloads⟩
  | @member mark tag entries e m place he _ ih =>
    cases h with
    | mapping keys each =>
      obtain ⟨u, hu⟩ := Option.isSome_iff_exists.mp ((keys e.1.keyText).mpr ⟨e, he.mem, rfl⟩)
      obtain ⟨w, hw, hloads⟩ := ih (each e u he hu)
      exact ⟨w, .member hu hw, hloads⟩

end Loads

/-! ## Reading -/

namespace Yaml

/-- A tree whose keys are written texts, and whose collections are sequences and mappings. -/
inductive Node.TextKeys : Node → Prop
  | scalar (mark : Mark) (tag : Tag) (text : String) : TextKeys (.scalar mark tag text)
  | sequence {mark : Mark} {items : List Node} (each : ∀ n ∈ items, TextKeys n) :
      TextKeys (.sequence mark .sequence items)
  | mapping {mark : Mark} {entries : List (Node × Node)}
      (keys : ∀ e ∈ entries, ∃ mark text, e.1 = .scalar mark .text text) (each : ∀ e ∈ entries, TextKeys e.2) :
      TextKeys (.mapping mark .mapping entries)

theorem Attempt.both_eq_ok {α β : Type} {a : Attempt α} {b : Attempt β} {p : α × β} (h : Attempt.both a b = .ok p) :
    a = .ok p.1 ∧ b = .ok p.2 := by
  cases a with
  | error => cases b <;> cases h
  | ok x =>
    cases b with
    | error => cases h
    | ok y =>
      obtain rfl := Except.ok.inj h
      exact ⟨rfl, rfl⟩

theorem eq_ok_of_mapError {ε ε' α : Type} {x : Except ε α} {f : ε → ε'} {a : α} (h : x.mapError f = .ok a) :
    x = .ok a := by
  cases x with
  | error => cases h
  | ok b => exact congrArg Except.ok (Except.ok.inj h)

/-- No scalar stands for a list or a mapping. -/
theorem answers_scalarValue (tag : Tag) (text : String) :
    Answers False (scalarValue tag text) fun v => v.items? = none ∧ v.entries? = none := by
  cases tag with
  | null => exact .ok ⟨rfl, rfl⟩
  | text => exact .ok ⟨rfl, rfl⟩
  | bool => exact (Answers.trivial _).map fun _ _ => ⟨rfl, rfl⟩
  | int => exact (Answers.trivial _).map fun _ _ => ⟨rfl, rfl⟩
  | float => exact (Answers.trivial _).map fun _ _ => ⟨rfl, rfl⟩
  | binary =>
    rw [scalarValue, binaryValue]
    split
    · split
      · exact .ok ⟨rfl, rfl⟩
      · exact .error id
    · exact .error id
  | timestamp =>
    rw [scalarValue, timestampValue]
    split
    · exact .error id
    next parts _ =>
      split
      · split
        · exact .ok ⟨rfl, rfl⟩
        · exact .error id
      · -- the zone decides the offset only
        cases parts.zone <;> refine Answers.bind (.trivial _) fun _ _ => ?_
        all_goals
          split
          · exact .ok ⟨rfl, rfl⟩
          · exact .error id
  | _ => exact .error id

/-- The values of items, in their order. -/
theorem forall₂_of_valuesOf {value : Node → Attempt Value} {items : List Node} {values : List Value}
    (h : valuesOf value items = .ok values) : List.Forall₂ (fun n v => value n = .ok v) items values := by
  induction items generalizing values with
  | nil =>
    obtain rfl := Except.ok.inj h
    exact .nil
  | cons n ns ih =>
    obtain ⟨⟨v, vs⟩, hboth, rfl⟩ := exists_of_map_eq_ok h
    obtain ⟨hv, hvs⟩ := Attempt.both_eq_ok hboth
    exact .cons hv (ih hvs)

/-- The values of entries, in their order. -/
theorem forall₂_of_entriesOf {key value : Node → Attempt Value} {entries : List (Node × Node)} {pairs : Entries}
    (h : entriesOf key value entries = .ok pairs) :
    List.Forall₂ (fun e m => key e.1 = .ok m.1 ∧ value e.2 = .ok m.2) entries pairs := by
  induction entries generalizing pairs with
  | nil =>
    obtain rfl := Except.ok.inj h
    exact .nil
  | cons e es ih =>
    obtain ⟨⟨m, ms⟩, hboth, rfl⟩ := exists_of_map_eq_ok h
    obtain ⟨hm, hms⟩ := Attempt.both_eq_ok hboth
    exact .cons (Attempt.both_eq_ok hm) (ih hms)

/-- A mapping whose keys are texts has nothing merged in. -/
theorem mergedEntries_textKeys {entries : List (Node × Node)}
    (h : ∀ e ∈ entries, ∃ mark text, e.1 = Node.scalar mark .text text) : Node.mergedEntries entries = .ok ([], entries) := by
  induction entries with
  | nil => rfl
  | cons e es ih =>
    obtain ⟨⟨mark, text, hkey⟩, hrest⟩ := List.forall_mem_cons.mp h
    obtain ⟨key, value⟩ := e
    obtain rfl : key = .scalar mark .text text := hkey
    rw [Node.mergedEntries, ih hrest]
    rfl

/-- An entry of a mapping whose keys are texts, and the pair that is read from it. -/
def Reads (value : Node → Attempt Value) (e : Node × Node) (m : Value × Value) : Prop :=
  m.1 = .string e.1.keyText ∧ value e.2 = .ok m.2

variable {value : Node → Attempt Value} {entries : List (Node × Node)} {pairs : Entries}

theorem keys_of_reads (h : List.Forall₂ (Reads value) entries pairs) :
    pairs.map Prod.fst = entries.map fun e => Value.string e.1.keyText := by
  induction h with
  | nil => rfl
  | cons hm _ ih => rw [List.map_cons, List.map_cons, hm.1, ih]

/-- When pairs are put in one by one, the pair of the last occurrence of a key counts. -/
theorem get?_union_of_isLast (h : List.Forall₂ (Reads value) entries pairs) {e : Node × Node}
    (he : Node.IsLast entries e) (start : Entries) :
    ∃ w, Entries.get? (Entries.union start pairs) e.1.keyText = some w ∧ value e.2 = .ok w := by
  obtain ⟨before, after, rfl, hafter⟩ := he
  induction before generalizing pairs start with
  | nil =>
    obtain ⟨⟨k, w⟩, rest, ⟨rfl, hw⟩, hrest, rfl⟩ := List.forall₂_cons_left_iff.mp h
    refine ⟨w, Entries.get?_union_last start [] w fun f hf => ?_, hw⟩
    have hmem : f.1 ∈ after.map fun e => Value.string e.1.keyText := keys_of_reads hrest ▸ List.mem_map_of_mem hf
    obtain ⟨later, hlater, hkey⟩ := List.mem_map.mp hmem
    exact ⟨later.1.keyText, hkey.symm, hafter later hlater⟩
  | cons first before ih =>
    obtain ⟨m, rest, _, hrest, rfl⟩ := List.forall₂_cons_left_iff.mp h
    exact ih (Entries.insert start m.1 m.2) hrest

/-- The keys of the mapping are those that are written. -/
theorem has_ofPairs_iff (h : List.Forall₂ (Reads value) entries pairs) (key : String) :
    Entries.has (Entries.ofPairs pairs) key = true ↔ ∃ e ∈ entries, e.1.keyText = key := by
  constructor
  · intro hhas
    obtain ⟨w, hw⟩ := Option.isSome_iff_exists.mp hhas
    have hmem := Entries.mem_keys_union (List.mem_map_of_mem (f := Prod.fst) (Entries.mem_of_get? hw))
    rw [List.map_nil, keys_of_reads h] at hmem
    obtain ⟨e, he, hkey⟩ := List.mem_map.mp (hmem.resolve_left List.not_mem_nil)
    exact ⟨e, he, Value.string.inj hkey⟩
  · intro hwritten
    obtain ⟨e, he, rfl⟩ := LastBy.exists_of_key hwritten
    obtain ⟨w, hw, _⟩ := get?_union_of_isLast h he []
    exact Entries.has_of_get? hw

theorem keyValue_text {fuel depth depth' : Nat} {mark : Mark} {text : String} {k : Value}
    (h : keyValue depth (Node.valueWithin fuel depth') (.scalar mark .text text) = .ok k) : k = .string text := by
  cases fuel with
  | zero => cases h
  | succ fuel => exact (Except.ok.inj h).symm

/-- A scalar is read as the value of its text, if at all. -/
theorem valueWithin_scalar {fuel depth : Nat} {mark : Mark} {tag : Tag} {text : String} {v : Value}
    (h : Node.valueWithin (fuel + 1) depth (.scalar mark tag text) = .ok v) : scalarValue tag text = .ok v := by
  cases hform : tag.form? with
  | none =>
    simp only [Node.valueWithin, Node.tag, hform, Node.valueText?] at h
    exact eq_ok_of_mapError h
  | some form =>
    cases form <;> simp [Node.valueWithin, Node.tag, hform] at h <;> cases h

/-- **What a tree is read as** is loaded from it. -/
theorem loads_of_valueWithin {node : Node} (hnode : node.TextKeys) (fuel depth : Nat) {v : Value}
    (h : Node.valueWithin fuel depth node = .ok v) : Loads node v := by
  induction hnode generalizing fuel depth v with
  | scalar mark tag text =>
    cases fuel with
    | zero => cases h
    | succ fuel =>
      obtain ⟨noItems, noEntries⟩ := (answers_scalarValue tag text).meets v (valueWithin_scalar h)
      exact .scalar noItems noEntries
  | @sequence mark items _ ih =>
    cases fuel with
    | zero => cases h
    | succ fuel =>
      obtain ⟨values, hvalues, rfl⟩ := exists_of_map_eq_ok h
      have heach := forall₂_of_valuesOf hvalues
      refine .sequence heach.length_eq fun p hp => ?_
      exact ih p.1 (List.of_mem_zip hp).1 fuel (depth + 1) (List.forall₂_zip heach hp)
  | @mapping mark entries keys _ ih =>
    cases fuel with
    | zero => cases h
    | succ fuel =>
      -- keys that are texts are no merge keys, so the entries are taken as they are
      have hmerged : (Node.mapping mark .mapping entries).merged = .ok entries := by
        rw [Node.merged, mergedEntries_textKeys keys]
        rfl
      have h' : ((entriesOf (keyValue (depth + 1) (Node.valueWithin fuel (depth + 1)))
          (Node.valueWithin fuel (depth + 1)) entries).map fun es => Value.dict (Entries.ofPairs es)) = .ok v := by
        simpa [Node.valueWithin, Node.tag, Tag.form?, hmerged, Except.mapError, Except.bind] using h
      obtain ⟨pairs, hpairs, rfl⟩ := exists_of_map_eq_ok h'
      have heach := forall₂_of_entriesOf hpairs
      have hreads : List.Forall₂ (Reads (Node.valueWithin fuel (depth + 1))) entries pairs := by
        refine List.forall₂_iff_zip.mpr ⟨heach.length_eq, fun {e m} hp => ?_⟩
        obtain ⟨hkey, hvalue⟩ := List.forall₂_zip heach hp
        obtain ⟨keyMark, text, htext⟩ := keys e (List.of_mem_zip hp).1
        rw [htext] at hkey
        exact ⟨by rw [htext]; exact keyValue_text hkey, hvalue⟩
      refine .mapping (has_ofPairs_iff hreads) fun e w he hw => ?_
      obtain ⟨w', hw', hvalue⟩ := get?_union_of_isLast hreads he []
      obtain rfl : w' = w := Option.some.inj (hw'.symm.trans hw)
      exact ih e he.mem fuel (depth + 1) hvalue

theorem loads_of_value {node : Node} (hnode : node.TextKeys) {v : Value} (h : node.value = .ok v) : Loads node v :=
  loads_of_valueWithin hnode (node.height + 1) 0 (eq_ok_of_mapError h)

end Yaml

/-! ## Positions of data -/

namespace SourceMap

open Yaml

/-- **The source map has the position of all data.** A tree whose keys are texts, which may be repeated, is loaded as
data that has each key with the value of its last occurrence. Every pointer that resolves in such data is in the source
map, with the position where the node starts that supplies the value; these are the places of last occurrences. The
other pointers in the map are those of places below earlier occurrences, so that the map has the pointers that resolve
and no others if no key is repeated. -/
theorem ofNode_describes {node : Node} (hnode : node.TextKeys) :
    (∀ v, node.value = .ok v → Loads node v) ∧
      ∀ v, Loads node v →
        (∀ place w, v.Leads place w → ∃ m, node.Supplies place m ∧ Loads m w ∧
          (ofNode node).get? (Pointer.encode place) = some m.mark.position) ∧
        (∀ place m, node.Supplies place m → ∃ w, v.Leads place w ∧ Loads m w) ∧
        (∀ p, ((ofNode node).get? p).isSome = true ↔ ∃ place m, p = Pointer.encode place ∧ node.Leads place m) ∧
        (node.DistinctKeys →
          ∀ p, ((ofNode node).get? p).isSome = true ↔ ∃ place w, p = Pointer.encode place ∧ v.Leads place w) := by
  refine ⟨fun v => loads_of_value hnode, fun v hv => ⟨fun place w hleads => ?_, fun place m => hv.resolves,
    get?_ofNode_isSome_iff node, fun hdistinct p => ?_⟩⟩
  · obtain ⟨m, hm, hloads⟩ := hv.supplies hleads
    exact ⟨m, hm, hloads, get?_ofNode_supplies hm⟩
  · rw [get?_ofNode_isSome_iff]
    constructor
    · rintro ⟨place, m, rfl, hleads⟩
      obtain ⟨w, hw, _⟩ := hv.resolves (Node.supplies_of_leads hdistinct hleads)
      exact ⟨place, w, rfl, hw⟩
    · rintro ⟨place, w, rfl, hleads⟩
      obtain ⟨m, hm, _⟩ := hv.supplies hleads
      exact ⟨place, m, rfl, hm.leads⟩

/-- A mapping on one line. -/
def single : Node :=
  .mapping ⟨4, 0, 4⟩ .mapping [(.scalar ⟨5, 0, 5⟩ .text "b", .scalar ⟨8, 0, 8⟩ .text "c")]

/-- A mapping with a key twice, the second time with a text: `{a: {b: c}, a: d}`. -/
def replaced : Node :=
  .mapping ⟨0, 0, 0⟩ .mapping [
    (.scalar ⟨1, 0, 1⟩ .text "a", single), (.scalar ⟨12, 0, 12⟩ .text "a", .scalar ⟨15, 0, 15⟩ .text "d")]

theorem textKeys_single : single.TextKeys :=
  .mapping (List.forall_mem_singleton.mpr ⟨_, _, rfl⟩) (List.forall_mem_singleton.mpr (.scalar ..))

theorem distinctKeys_single : single.DistinctKeys :=
  .mapping (List.nodup_singleton _) (List.forall_mem_singleton.mpr (.scalar ..))

theorem textKeys_replaced : replaced.TextKeys := by
  refine .mapping (List.forall_mem_cons.mpr ⟨⟨_, _, rfl⟩, List.forall_mem_singleton.mpr ⟨_, _, rfl⟩⟩) ?_
  exact List.forall_mem_cons.mpr ⟨textKeys_single, List.forall_mem_singleton.mpr (.scalar ..)⟩

theorem value_replaced : replaced.value = .ok (.dict [(.string "a", .string "d")]) := by with_unfolding_all rfl

/-- The last occurrence of a key supplies value and position, and the map of a mapping without repeated keys has the
pointers that resolve. -/
theorem ofNode_describes_replaced :
    (∃ m, replaced.Supplies ["a"] m ∧ Loads m (.string "d") ∧
      (ofNode replaced).get? (Pointer.encode ["a"]) = some m.mark.position) ∧
      ∀ p, ((ofNode single).get? p).isSome = true ↔
        ∃ place w, p = Pointer.encode place ∧ (Value.dict [(.string "b", .string "c")]).Leads place w := by
  obtain ⟨hread, hdescribes⟩ := ofNode_describes textKeys_replaced
  obtain ⟨hread', hdescribes'⟩ := ofNode_describes textKeys_single
  refine ⟨(hdescribes _ (hread _ value_replaced)).1 ["a"] _ (.member rfl (.here _)), ?_⟩
  exact (hdescribes' _ (hread' _ (by with_unfolding_all rfl))).2.2.2 distinctKeys_single

/-- A pointer below an earlier occurrence of a key is in the map although it does not resolve. -/
theorem ofNode_keeps_replaced :
    replaced.TextKeys ∧ replaced.value = .ok (.dict [(.string "a", .string "d")]) ∧
      (ofNode replaced).get? "/a/b" = some ⟨some 1, some 9⟩ ∧
      ¬ ∃ place w, "/a/b" = Pointer.encode place ∧ (Value.dict [(.string "a", .string "d")]).Leads place w := by
  refine ⟨textKeys_replaced, value_replaced, by with_unfolding_all rfl, ?_⟩
  rintro ⟨place, w, hplace, hw⟩
  obtain rfl : ["a", "b"] = place := Pointer.encode_injective (Eq.trans (by rfl) hplace)
  cases hw with
  | member hkey below =>
    obtain rfl := Option.some.inj hkey
    cases below

end SourceMap

end Schemata
