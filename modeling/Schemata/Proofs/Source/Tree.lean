import Mathlib.Data.List.Forall2
import Mathlib.Data.List.Nodup
import Schemata.Proofs.Pointer.RoundTrip
import Schemata.Proofs.Value.Tree
import Schemata.Source.Map

/-!
# `Schemata.Proofs.Source.Tree` — the places of a text's tree

The walk that notes positions writes every place as validation does: a pointer stands in the source map exactly
if its tokens lead to a node, and then with the position of that node (`get?_ofNode`, `get?_ofNode_none`). For this
the keys of a mapping have to be told apart by their texts, and nothing is asked of the texts themselves.

## Contents
- **Maps.** What `SourceMap.ofList` finds: the position that all notes of a pointer agree on.
- **Nodes.** `Node.Leads`, `Node.DistinctKeys` and `leads_unique`: a place leads to one node.
- **Positions.** `mem_places_iff`, and `SourceMap.ofNode` by places.
- **Values.** `Mirrors`, the values that a tree stands for, and the places that both have.
-/

namespace Schemata

/-! ## Maps -/

namespace SourceMap

theorem get?_cons (p q : String) (position : Position) (rest : SourceMap) :
    get? ((p, position) :: rest) q = if q = p then some position else rest.get? q := by
  unfold get?
  rw [List.lookup_cons]
  by_cases hq : q = p
  · rw [if_pos hq, beq_iff_eq.mpr hq]
  · rw [if_neg hq, beq_eq_false_iff_ne.mpr hq]

theorem get?_insert (map : SourceMap) (p q : String) (position : Position) :
    (map.insert p position).get? q = if q = p then some position else map.get? q := by
  induction map with
  | nil => exact get?_cons p q position []
  | cons entry rest ih =>
    obtain ⟨r, old⟩ := entry
    rw [insert]
    by_cases hr : r = p
    · rw [if_pos hr, get?_cons, get?_cons]
      by_cases hq : q = p <;> simp [hr, hq]
    · rw [if_neg hr, get?_cons, get?_cons, ih]
      by_cases hq : q = r
      · rw [if_pos hq, if_pos hq, if_neg (hq ▸ hr)]
      · rw [if_neg hq, if_neg hq]

theorem get?_foldl {places : List (String × Position)} {p : String} {position : Position} {map : SourceMap}
    (hagree : ∀ other, (p, other) ∈ places → other = position)
    (h : (p, position) ∈ places ∨ map.get? p = some position) :
    (places.foldl (fun map place => map.insert place.1 place.2) map).get? p = some position := by
  induction places generalizing map with
  | nil => exact h.resolve_left List.not_mem_nil
  | cons place places ih =>
    refine ih (fun other ho => hagree other (List.mem_cons_of_mem _ ho)) ?_
    rw [get?_insert]
    by_cases hp : p = place.1
    · have hplace : place.2 = position := hagree place.2 (by rw [hp]; exact List.mem_cons_self)
      exact .inr (by rw [if_pos hp, hplace])
    · rw [if_neg hp]
      refine h.imp_left fun hmem => (List.mem_cons.mp hmem).resolve_left ?_
      rintro rfl
      exact hp rfl

/-- A pointer that is noted with one position only is found with it. -/
theorem get?_ofList {places : List (String × Position)} {p : String} {position : Position}
    (h : (p, position) ∈ places) (hagree : ∀ other, (p, other) ∈ places → other = position) :
    (ofList places).get? p = some position :=
  get?_foldl hagree (.inl h)

/-- A pointer that is not noted is not found. -/
theorem get?_ofList_none {places : List (String × Position)} {p : String}
    (h : ∀ position, (p, position) ∉ places) : (ofList places).get? p = none := by
  suffices hfold : ∀ map : SourceMap, map.get? p = none →
      (places.foldl (fun map place => map.insert place.1 place.2) map).get? p = none from hfold [] rfl
  induction places with
  | nil => exact fun map hmap => hmap
  | cons place places ih =>
    intro map hmap
    refine ih (fun position hmem => h position (List.mem_cons_of_mem _ hmem)) _ ?_
    rw [get?_insert, if_neg, hmap]
    rintro rfl
    exact h place.2 List.mem_cons_self

end SourceMap

/-! ## Nodes -/

namespace Yaml.Node

/-- `Leads n place m`: from the node `n`, the place leads to `m`. -/
inductive Leads : Node → Pointer → Node → Prop
  | here (n : Node) : Leads n [] n
  | item {mark : Mark} {tag : Tag} {items : List Node} {i : Nat} {n m : Node} {place : Pointer}
      (hi : items[i]? = some n) (below : Leads n place m) : Leads (.sequence mark tag items) (toString i :: place) m
  | member {mark : Mark} {tag : Tag} {entries : List (Node × Node)} {e : Node × Node} {m : Node} {place : Pointer}
      (he : e ∈ entries) (below : Leads e.2 place m) :
      Leads (.mapping mark tag entries) (e.1.keyText :: place) m

/-- The keys of every mapping in a tree have different texts. -/
inductive DistinctKeys : Node → Prop
  | scalar (mark : Mark) (tag : Tag) (text : String) : DistinctKeys (.scalar mark tag text)
  | sequence {mark : Mark} {tag : Tag} {items : List Node} (each : ∀ n ∈ items, DistinctKeys n) :
      DistinctKeys (.sequence mark tag items)
  | mapping {mark : Mark} {tag : Tag} {entries : List (Node × Node)}
      (keys : (entries.map fun e => e.1.keyText).Nodup) (each : ∀ e ∈ entries, DistinctKeys e.2) :
      DistinctKeys (.mapping mark tag entries)

theorem toString_injective {i j : Nat} (h : toString i = toString j) : i = j := by
  have hdigits := congrArg String.toList h
  rw [Nat.toString_eq_repr, Nat.toString_eq_repr, Nat.toList_repr, Nat.toList_repr] at hdigits
  calc i = Nat.ofDigitChars 10 (Nat.toDigits 10 i) 0 := (Nat.ofDigitChars_toDigits (by omega) (by omega)).symm
    _ = Nat.ofDigitChars 10 (Nat.toDigits 10 j) 0 := by rw [hdigits]
    _ = j := Nat.ofDigitChars_toDigits (by omega) (by omega)

/-- **A place leads to one node.** -/
theorem leads_unique {n m m' : Node} {place : Pointer} (hn : DistinctKeys n) (h : Leads n place m)
    (h' : Leads n place m') : m = m' := by
  induction h with
  | here n => cases h'; rfl
  | @item mark tag items i n m place hi below ih =>
    generalize htoken : toString i = token at h'
    cases hn with
    | sequence each =>
      cases h' with
      | @item _ _ _ j n' _ _ hj below' =>
        obtain rfl := toString_injective htoken
        obtain rfl : n = n' := Option.some.inj (hi.symm.trans hj)
        exact ih (each n (List.mem_of_getElem? hi)) below'
  | @member mark tag entries e m place he below ih =>
    generalize htoken : e.1.keyText = token at h'
    cases hn with
    | mapping keys each =>
      cases h' with
      | @member _ _ _ e' _ _ he' below' =>
        obtain rfl : e = e' := List.inj_on_of_nodup_map keys he he' htoken
        exact ih (each e he) below'

/-- The last step of a way. -/
theorem leads_concat {n m : Node} {place : Pointer} {key : String} (h : Leads n (place ++ [key]) m) :
    ∃ above, Leads n place above ∧ Leads above [key] m := by
  induction place generalizing n with
  | nil => exact ⟨n, .here n, h⟩
  | cons token tokens ih =>
    cases h with
    | item hi below =>
      obtain ⟨above, habove, hlast⟩ := ih below
      exact ⟨above, .item hi habove, hlast⟩
    | member he below =>
      obtain ⟨above, habove, hlast⟩ := ih below
      exact ⟨above, .member he habove, hlast⟩

/-! ## Positions -/

mutual

/-- Every noted position is that of a node, at the place that leads to it. -/
theorem leads_of_mem_places (node : Node) (base : Pointer) {p : String} {position : Position}
    (h : (p, position) ∈ node.places (Pointer.encode base)) :
    ∃ place m, Leads node place m ∧ p = Pointer.encode (base ++ place) ∧ position = m.mark.position := by
  cases node with
  | scalar mark tag text =>
    rw [places, List.mem_singleton] at h
    obtain ⟨rfl, rfl⟩ := Prod.mk.inj h
    exact ⟨[], _, .here _, by rw [List.append_nil], rfl⟩
  | sequence mark tag items =>
    rw [places, List.mem_cons] at h
    rcases h with heq | hbelow
    · obtain ⟨rfl, rfl⟩ := Prod.mk.inj heq
      exact ⟨[], _, .here _, by rw [List.append_nil], rfl⟩
    · obtain ⟨i, n, place, m, hi, hleads, hp, hposition⟩ := leads_of_mem_placesOfItems items base 0 hbelow
      rw [Nat.zero_add] at hp
      exact ⟨_, m, .item hi hleads, hp, hposition⟩
  | mapping mark tag entries =>
    rw [places, List.mem_cons] at h
    rcases h with heq | hbelow
    · obtain ⟨rfl, rfl⟩ := Prod.mk.inj heq
      exact ⟨[], _, .here _, by rw [List.append_nil], rfl⟩
    · obtain ⟨e, place, m, he, hleads, hp, hposition⟩ := leads_of_mem_placesOfEntries entries base hbelow
      exact ⟨_, m, .member he hleads, hp, hposition⟩

theorem leads_of_mem_placesOfItems (items : List Node) (base : Pointer) (start : Nat) {p : String}
    {position : Position} (h : (p, position) ∈ placesOfItems (Pointer.encode base) start items) :
    ∃ (i : Nat) (n : Node) (place : Pointer) (m : Node), items[i]? = some n ∧ Leads n place m ∧
      p = Pointer.encode (base ++ toString (start + i) :: place) ∧ position = m.mark.position := by
  cases items with
  | nil => rw [placesOfItems] at h; cases h
  | cons n ns =>
    rw [placesOfItems, List.mem_append, ← Pointer.encode_concat] at h
    rcases h with hfirst | hrest
    · obtain ⟨place, m, hleads, hp, hposition⟩ := leads_of_mem_places n _ hfirst
      exact ⟨0, n, place, m, rfl, hleads, by simpa using hp, hposition⟩
    · obtain ⟨i, n', place, m, hi, hleads, hp, hposition⟩ := leads_of_mem_placesOfItems ns base (start + 1) hrest
      rw [Nat.add_assoc, Nat.add_comm 1 i] at hp
      exact ⟨i + 1, n', place, m, hi, hleads, hp, hposition⟩

theorem leads_of_mem_placesOfEntries (entries : List (Node × Node)) (base : Pointer) {p : String}
    {position : Position} (h : (p, position) ∈ placesOfEntries (Pointer.encode base) entries) :
    ∃ (e : Node × Node) (place : Pointer) (m : Node), e ∈ entries ∧ Leads e.2 place m ∧
      p = Pointer.encode (base ++ e.1.keyText :: place) ∧ position = m.mark.position := by
  cases entries with
  | nil => rw [placesOfEntries] at h; cases h
  | cons e es =>
    obtain ⟨key, n⟩ := e
    rw [placesOfEntries, List.mem_append, ← Pointer.encode_concat] at h
    rcases h with hfirst | hrest
    · obtain ⟨place, m, hleads, hp, hposition⟩ := leads_of_mem_places n _ hfirst
      exact ⟨(key, n), place, m, List.mem_cons_self, hleads, by simpa using hp, hposition⟩
    · obtain ⟨e', place, m, he', hrest⟩ := leads_of_mem_placesOfEntries es base hrest
      exact ⟨e', place, m, List.mem_cons_of_mem _ he', hrest⟩

end

theorem mem_placesOfItems {items : List Node} {i : Nat} {n : Node} (hi : items[i]? = some n) (base : Pointer)
    (start : Nat) {entry : String × Position} (h : entry ∈ n.places (Pointer.encode (base ++ [toString (start + i)]))) :
    entry ∈ placesOfItems (Pointer.encode base) start items := by
  induction items generalizing i start with
  | nil => simp at hi
  | cons n' ns ih =>
    rw [placesOfItems, List.mem_append, ← Pointer.encode_concat]
    cases i with
    | zero =>
      obtain rfl : n' = n := Option.some.inj hi
      exact .inl h
    | succ i =>
      refine .inr (ih hi (start + 1) ?_)
      rwa [Nat.add_assoc, Nat.add_comm 1 i]

theorem mem_placesOfEntries {entries : List (Node × Node)} {e : Node × Node} (he : e ∈ entries) (base : Pointer)
    {entry : String × Position} (h : entry ∈ e.2.places (Pointer.encode (base ++ [e.1.keyText]))) :
    entry ∈ placesOfEntries (Pointer.encode base) entries := by
  induction entries with
  | nil => cases he
  | cons e' es ih =>
    obtain ⟨key, n⟩ := e'
    rw [placesOfEntries, List.mem_append, ← Pointer.encode_concat]
    rcases List.mem_cons.mp he with rfl | hes
    · exact .inl h
    · exact .inr (ih hes)

/-- Every node is noted at the place that leads to it. -/
theorem mem_places_of_leads {node m : Node} {place : Pointer} (h : Leads node place m) (base : Pointer) :
    (Pointer.encode (base ++ place), m.mark.position) ∈ node.places (Pointer.encode base) := by
  induction h generalizing base with
  | here n =>
    rw [List.append_nil]
    cases n with
    | scalar => rw [places]; exact List.mem_cons_self
    | sequence => rw [places]; exact List.mem_cons_self
    | mapping => rw [places]; exact List.mem_cons_self
  | @item mark tag items i n m place hi _ ih =>
    rw [places]
    refine List.mem_cons_of_mem _ (mem_placesOfItems hi base 0 ?_)
    rw [Nat.zero_add]
    simpa using ih (base ++ [toString i])
  | @member mark tag entries e m place he _ ih =>
    rw [places]
    refine List.mem_cons_of_mem _ (mem_placesOfEntries he base ?_)
    simpa using ih (base ++ [e.1.keyText])

end Yaml.Node

namespace SourceMap

open Yaml

/-- **The source map finds every node** under the pointer of its place. -/
theorem get?_ofNode {node m : Node} {place : Pointer} (hnode : node.DistinctKeys) (h : node.Leads place m) :
    (ofNode node).get? (Pointer.encode place) = some m.mark.position := by
  refine get?_ofList (Node.mem_places_of_leads h []) fun other hother => ?_
  obtain ⟨place', m', hleads, hp, rfl⟩ := Node.leads_of_mem_places node [] hother
  obtain rfl : place = place' := Pointer.encode_injective hp
  rw [Node.leads_unique hnode h hleads]

/-- **The source map finds nothing else.** -/
theorem get?_ofNode_none {node : Node} {place : Pointer} (h : ∀ m, ¬ node.Leads place m) :
    (ofNode node).get? (Pointer.encode place) = none := by
  refine get?_ofList_none fun position hmem => ?_
  obtain ⟨place', m, hleads, hp, _⟩ := Node.leads_of_mem_places node [] hmem
  obtain rfl : place = place' := Pointer.encode_injective hp
  exact h m hleads

/-- A pointer in the map is located where the map says. -/
theorem locate_of_get? {map : SourceMap} {place : Pointer} {position : Position} (file : Option String)
    (h : map.get? (Pointer.encode place) = some position) (hknown : position.isUnknown = false) :
    map.locate (some (Pointer.encode place)) file
      = ⟨file, some (Pointer.encode place), position.line, position.column⟩ := by
  obtain ⟨above, habove⟩ := Pointer.ancestors_encode place
  simp [locate, habove, h, Option.filter, hknown]

/-- A pointer that is not in the map is located at its parent, if that is in the map. -/
theorem locate_of_parent {map : SourceMap} {place : Pointer} {key : String} {position : Position}
    (file : Option String) (hnone : map.get? (Pointer.encode (place ++ [key])) = none)
    (h : map.get? (Pointer.encode place) = some position) (hknown : position.isUnknown = false) :
    map.locate (some (Pointer.encode (place ++ [key]))) file
      = ⟨file, some (Pointer.encode (place ++ [key])), position.line, position.column⟩ := by
  obtain ⟨above, habove⟩ := Pointer.ancestors_encode place
  simp [locate, Pointer.ancestors_encode_concat, habove, hnone, h, Option.filter, hknown]

end SourceMap

/-! ## Values -/

/-- A tree and the value that it stands for: a mapping is keyed by the texts of its keys, which all differ, a
sequence is a list, and a scalar stands for any value that is neither. -/
inductive Mirrors : Yaml.Node → Value → Prop
  | scalar {mark : Yaml.Mark} {tag : Yaml.Tag} {text : String} {v : Value} (noItems : v.items? = none)
      (noEntries : v.entries? = none) : Mirrors (.scalar mark tag text) v
  | sequence {mark : Yaml.Mark} {tag : Yaml.Tag} {items : List Yaml.Node} {values : List Value}
      (length : items.length = values.length) (each : ∀ p ∈ items.zip values, Mirrors p.1 p.2) :
      Mirrors (.sequence mark tag items) (.list values)
  | mapping {mark : Yaml.Mark} {tag : Yaml.Tag} {entries : List (Yaml.Node × Yaml.Node)} {members : Entries}
      (keys : members.map Prod.fst = entries.map fun e => Value.string e.1.keyText)
      (distinct : (entries.map fun e => e.1.keyText).Nodup)
      (each : ∀ p ∈ entries.zip members, Mirrors p.1.2 p.2.2) : Mirrors (.mapping mark tag entries) (.dict members)

namespace Mirrors

open Yaml

theorem exists_left {α β : Type} {as : List α} {bs : List β} (h : as.length = bs.length) {b : β} (hb : b ∈ bs) :
    ∃ a, (a, b) ∈ as.zip bs := by
  obtain ⟨i, hi, rfl⟩ := List.getElem_of_mem hb
  exact ⟨as[i], List.mem_iff_getElem?.mpr ⟨i, by simp [h, hi]⟩⟩

theorem exists_right {α β : Type} {as : List α} {bs : List β} (h : as.length = bs.length) {a : α} (ha : a ∈ as) :
    ∃ b, (a, b) ∈ as.zip bs := by
  obtain ⟨i, hi, rfl⟩ := List.getElem_of_mem ha
  exact ⟨bs[i], List.mem_iff_getElem?.mpr ⟨i, by simp [← h, hi]⟩⟩

/-- A mapping and its value have as many entries. -/
theorem length_eq {entries : List (Node × Node)} {members : Entries}
    (keys : members.map Prod.fst = entries.map fun e => Value.string e.1.keyText) :
    entries.length = members.length := by
  simpa using (congrArg List.length keys).symm

/-- The member beside an entry has the text of its key. -/
theorem key_eq {entries : List (Node × Node)} {members : Entries}
    (keys : members.map Prod.fst = entries.map fun e => Value.string e.1.keyText) {e : Node × Node}
    {m : Value × Value} (h : (e, m) ∈ entries.zip members) : m.1 = .string e.1.keyText := by
  obtain ⟨i, hi⟩ := List.mem_iff_getElem?.mp h
  obtain ⟨he, hm⟩ := List.getElem?_zip_eq_some.mp hi
  have hkey := congrArg (·[i]?) keys
  rw [List.getElem?_map, List.getElem?_map, he, hm] at hkey
  exact Option.some.inj hkey

/-- The value of a tree is a tree itself. -/
theorem treeOver {node : Node} {v : Value} (h : Mirrors node v) : v.TreeOver fun _ => True := by
  induction h with
  | scalar noItems noEntries => exact .leaf noItems noEntries trivial
  | sequence length _ ih =>
    refine .list fun v hv => ?_
    obtain ⟨n, hn⟩ := exists_left length hv
    exact ih _ hn
  | @mapping _ _ entries members keys distinct _ ih =>
    refine .dict ⟨?_, ?_⟩ fun e he => ?_
    · intro k hk
      rw [keys] at hk
      obtain ⟨e, _, rfl⟩ := List.mem_map.mp hk
      exact ⟨_, rfl⟩
    · have htexts := distinct.map (f := Value.string) fun s t h => Value.string.inj h
      rwa [List.map_map, Function.comp_def, ← keys] at htexts
    · obtain ⟨p, hp⟩ := exists_left (length_eq keys) he
      exact ih _ hp

/-- The keys of a tree that stands for a value are told apart by their texts. -/
theorem distinctKeys {node : Node} {v : Value} (h : Mirrors node v) : node.DistinctKeys := by
  induction h with
  | scalar => exact .scalar ..
  | sequence length _ ih =>
    refine .sequence fun n hn => ?_
    obtain ⟨w, hw⟩ := exists_right length hn
    exact ih _ hw
  | mapping keys distinct _ ih =>
    refine .mapping distinct fun e he => ?_
    obtain ⟨w, hw⟩ := exists_right (length_eq keys) he
    exact ih _ hw

/-- **Every place of the value is a place of the tree.** -/
theorem leads {node : Node} {v w : Value} {place : Pointer} (h : Mirrors node v) (hleads : v.Leads place w) :
    ∃ m, node.Leads place m ∧ Mirrors m w := by
  induction hleads generalizing node with
  | here => exact ⟨node, .here node, h⟩
  | @item items i v w place hi _ ih =>
    cases h with
    | scalar noItems _ => cases noItems
    | @sequence mark tag nodes _ length each =>
      obtain ⟨hlt, rfl⟩ := List.getElem?_eq_some_iff.mp hi
      have hpair : (nodes[i], items[i]) ∈ nodes.zip items :=
        List.mem_iff_getElem?.mpr ⟨i, by simp [length, hlt]⟩
      obtain ⟨m, hm, hmirrors⟩ := ih (each _ hpair)
      exact ⟨m, .item (List.getElem?_eq_getElem (length ▸ hlt)) hm, hmirrors⟩
  | @member members key v w place hkey _ ih =>
    cases h with
    | scalar _ noEntries => cases noEntries
    | @mapping mark tag entries _ keys distinct each =>
      obtain ⟨e, he⟩ := exists_left (length_eq keys) (Entries.mem_of_get? hkey)
      obtain rfl := Value.string.inj (key_eq keys he)
      obtain ⟨m, hm, hmirrors⟩ := ih (each _ he)
      exact ⟨m, .member (List.of_mem_zip he).1 hm, hmirrors⟩

/-- A key that a mapping of the value lacks is no key of the mapping in the tree. -/
theorem keyText_ne {mark : Mark} {tag : Tag} {entries : List (Node × Node)} {members : Entries}
    (h : Mirrors (.mapping mark tag entries) (.dict members)) {key : String}
    (hkey : Entries.has members key = false) : ∀ e ∈ entries, e.1.keyText ≠ key := by
  rintro e he rfl
  have hdistinct := h.treeOver.keys
  cases h with
  | mapping keys _ _ =>
    obtain ⟨⟨k, w⟩, hm⟩ := exists_right (length_eq keys) he
    obtain rfl : k = .string e.1.keyText := key_eq keys hm
    have hget := Entries.get?_of_mem hdistinct (List.of_mem_zip hm).2
    rw [Entries.has_eq_false_iff.mp hkey] at hget
    cases hget

end Mirrors

end Schemata
