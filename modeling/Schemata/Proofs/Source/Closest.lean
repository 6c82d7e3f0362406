import Schemata.Proofs.Pointer.RoundTrip

/-!
# `Schemata.Proofs.Source.Closest` — the closest ancestor that a map knows

A pointer that a source map does not know is looked up again without its last segment, until the map knows it or
nothing is left to remove. Removing a segment makes the text shorter only if there is a slash in it, so this ends for
texts that are empty or begin with a slash. The ancestors come in the order of their lengths, and so the first one that
is known is the closest.

## Contents
- **Segments.** `Segmented`, the texts that segments build up, and `Trims`, what is left when some are removed.
- **Climbing.** `SourceMap.Climbs`, the search from ancestor to ancestor; `climbs_iff`: it ends, and `not_climbs_of_not_mem`:
  it does not from a text without a slash.
- **The closest ancestor.** `SourceMap.IsClosest`, and `locate_closest`.
-/

namespace Schemata

/-! ## Segments -/

namespace Pointer

/-- The texts that segments build up: the empty one, and such a text with a slash and a token behind it. -/
inductive Segmented : String → Prop
  | root : Segmented ""
  | segment {above token : String} (h : Segmented above) (htoken : '/' ∉ token.toList) :
      Segmented (above ++ "/" ++ token)

/-- `Trims pointer above`: the second text is what is left of the first when segments, each a slash and a token, are
removed at its end. -/
inductive Trims (pointer : String) : String → Prop
  | nothing : Trims pointer pointer
  | segment {above token : String} (h : Trims pointer (above ++ "/" ++ token)) (htoken : '/' ∉ token.toList) :
      Trims pointer above

theorem toList_segment (above token : String) :
    (above ++ "/" ++ token).toList = above.toList ++ '/' :: token.toList := by
  simp

/-- A text that is empty or begins with a slash is built up of segments. -/
theorem segmented_of_slash {pointer : String} (h : pointer = "" ∨ pointer.toList.head? = some '/') : Segmented pointer := by
  rcases h with rfl | hhead
  · exact .root
  -- the last slash: the first one of the text read backwards
  have hslash : '/' ∈ pointer.toList.reverse := List.mem_reverse.mpr (List.mem_of_head? hhead)
  obtain ⟨last, rest, hsplit, hlast⟩ := List.eq_append_cons_of_mem hslash
  have hchars : pointer.toList = rest.reverse ++ '/' :: last.reverse := by
    simpa using congrArg List.reverse hsplit
  have hpointer : pointer = String.ofList rest.reverse ++ "/" ++ String.ofList last.reverse := by
    rw [← String.toList_inj, toList_segment, String.toList_ofList, String.toList_ofList, hchars]
  have hshorter : rest.length < pointer.toList.length := by
    have := congrArg List.length hchars
    simp only [List.length_append, List.length_cons, List.length_reverse] at this
    omega
  have habove : String.ofList rest.reverse = "" ∨ (String.ofList rest.reverse).toList.head? = some '/' := by
    rw [String.toList_ofList]
    cases hrest : rest.reverse with
    | nil => exact .inl rfl
    | cons c cs =>
      rw [hchars, hrest] at hhead
      exact .inr hhead
  rw [hpointer]
  exact .segment (segmented_of_slash habove) (by simpa using hlast)
termination_by pointer.toList.length
decreasing_by simpa using hshorter

/-- **The parent of a text is the text without its last segment.** -/
theorem parent?_segment {token : String} (htoken : '/' ∉ token.toList) (above : String) :
    parent? (above ++ "/" ++ token) = some above := by
  have hnonempty : (above ++ "/" ++ token).isEmpty = false := by
    rw [Bool.eq_false_iff, ne_eq, String.isEmpty_iff]
    intro h
    have := congrArg String.toList h
    simp at this
  rw [parent?, if_neg (by simp [hnonempty]), toList_segment, beforeLastSlash_append htoken, String.ofList_toList]

theorem ancestors_segment {token : String} (htoken : '/' ∉ token.toList) (above : String) :
    ancestors (above ++ "/" ++ token) = (above ++ "/" ++ token) :: ancestors above := by
  rw [ancestors, ancestors, toList_segment, List.count_append, List.count_cons_self,
    List.count_eq_zero.mpr htoken, Nat.zero_add, ancestorsWithin, parent?_segment htoken]

/-- Nothing can be removed from the empty text. -/
theorem Trims.eq_empty {above : String} (h : Trims "" above) : above = "" := by
  induction h with
  | nothing => rfl
  | segment _ _ ih =>
    have := congrArg String.toList ih
    simp at this

/-- What is left of a text is that text, or is left of it without its last segment. -/
theorem trims_segment_iff {token : String} (htoken : '/' ∉ token.toList) (above other : String) :
    Trims (above ++ "/" ++ token) other ↔ other = above ++ "/" ++ token ∨ Trims above other := by
  constructor
  · intro h
    induction h with
    | nothing => exact .inl rfl
    | @segment q t _ ht ih =>
      rcases ih with heq | htrims
      · -- the last segment of a text is determined by it
        have hparents := congrArg parent? heq
        rw [parent?_segment ht, parent?_segment htoken] at hparents
        exact .inr (Option.some.inj hparents ▸ .nothing)
      · exact .inr (.segment htrims ht)
  · rintro (rfl | h)
    · exact .nothing
    · induction h with
      | nothing => exact .segment .nothing htoken
      | segment _ ht ih => exact .segment ih ht

/-- **The ancestors are what is left of a text.** -/
theorem mem_ancestors_iff {pointer above : String} (h : Segmented pointer) :
    above ∈ ancestors pointer ↔ Trims pointer above := by
  induction h with
  | root =>
    rw [show ancestors "" = [""] from rfl, List.mem_singleton]
    exact ⟨fun h => h ▸ .nothing, Trims.eq_empty⟩
  | segment _ htoken ih => rw [ancestors_segment htoken, List.mem_cons, ih, trims_segment_iff htoken]

theorem Trims.length_le {pointer above : String} (h : Trims pointer above) : above.length ≤ pointer.length := by
  induction h with
  | nothing => exact Nat.le_refl _
  | segment _ _ ih =>
    rw [String.length_append, String.length_append] at ih
    omega

/-- The ancestors come in the order of their lengths, the longest first. -/
theorem pairwise_length_ancestors {pointer : String} (h : Segmented pointer) :
    (ancestors pointer).Pairwise fun longer shorter => shorter.length < longer.length := by
  induction h with
  | root => exact List.pairwise_singleton _ _
  | @segment above token habove htoken ih =>
    rw [ancestors_segment htoken]
    refine List.pairwise_cons.mpr ⟨fun other hother => ?_, ih⟩
    have hle := ((mem_ancestors_iff habove).mp hother).length_le
    rw [String.length_append, String.length_append, show "/".length = 1 from rfl]
    omega

end Pointer

/-! ## Climbing -/

namespace SourceMap

open Pointer

/-- A map has an entry for a text that says a line or a column. -/
def Knows (map : SourceMap) (pointer : String) (position : Position) : Prop :=
  map.get? pointer = some position ∧ position.isUnknown = false

/-- The search from ancestor to ancestor, step by step, with what it finds in the end: a text that the map knows ends
it, one that the map does not know leads to its parent, and one without a parent ends it as well. -/
inductive Climbs (map : SourceMap) : String → Option Position → Prop
  | found {pointer : String} {position : Position} (h : map.Knows pointer position) : Climbs map pointer (some position)
  | top {pointer : String} (hunknown : ∀ position, ¬ map.Knows pointer position) (htop : parent? pointer = none) :
      Climbs map pointer none
  | up {pointer above : String} {found : Option Position} (hunknown : ∀ position, ¬ map.Knows pointer position)
      (hup : parent? pointer = some above) (rest : Climbs map above found) : Climbs map pointer found

/-- What a map knows of a text, if it knows anything. -/
def known? (map : SourceMap) (pointer : String) : Option Position :=
  (map.get? pointer).filter fun position => !position.isUnknown

theorem known?_eq_some_iff {map : SourceMap} {pointer : String} {position : Position} :
    map.known? pointer = some position ↔ map.Knows pointer position := by
  simp [known?, Knows, Option.filter_eq_some_iff]

theorem known?_eq_none_iff {map : SourceMap} {pointer : String} :
    map.known? pointer = none ↔ ∀ position, ¬ map.Knows pointer position := by
  simp only [Option.eq_none_iff_forall_ne_some, ne_eq, known?_eq_some_iff]

theorem locate_eq (map : SourceMap) (pointer : String) (file : Option String) :
    map.locate (some pointer) file =
      ⟨file, some pointer, ((ancestors pointer).findSome? map.known?).bind Position.line,
        ((ancestors pointer).findSome? map.known?).bind Position.column⟩ := by
  have hsearch : (ancestors pointer).findSome? (fun above => (map.get? above).filter fun position => !position.isUnknown) =
      (ancestors pointer).findSome? map.known? := rfl
  unfold locate
  dsimp only
  rw [hsearch]
  cases (ancestors pointer).findSome? map.known? <;> rfl

/-- **The search ends**, and with the first of the ancestors that is known. -/
theorem climbs_iff (map : SourceMap) {pointer : String} (h : Segmented pointer) (found : Option Position) :
    map.Climbs pointer found ↔ found = (ancestors pointer).findSome? map.known? := by
  -- by induction on the segments: the parent of a pointer is what stands above its last one
  induction h with
  | root =>
    rw [show ancestors "" = [""] from rfl, List.findSome?_singleton]
    constructor
    · intro h
      cases h with
      | found h => exact (known?_eq_some_iff.mpr h).symm
      | top hunknown _ => exact (known?_eq_none_iff.mpr hunknown).symm
      | up _ hup _ => cases hup
    · rintro rfl
      cases hknown : map.known? "" with
      | some position => exact .found (known?_eq_some_iff.mp hknown)
      | none => exact .top (known?_eq_none_iff.mp hknown) rfl
  | @segment above token _ htoken ih =>
    rw [ancestors_segment htoken, List.findSome?_cons]
    cases hknown : map.known? (above ++ "/" ++ token) with
    | some position =>
      have hknows := known?_eq_some_iff.mp hknown
      constructor
      · intro h
        cases h with
        | found h => rw [← known?_eq_some_iff.mpr h, hknown]
        | top hunknown _ => exact (hunknown position hknows).elim
        | up hunknown _ _ => exact (hunknown position hknows).elim
      · rintro rfl
        exact .found hknows
    | none =>
      have hunknown := known?_eq_none_iff.mp hknown
      constructor
      · intro h
        cases h with
        | found h => exact (hunknown _ h).elim
        | top _ htop =>
          rw [parent?_segment htoken] at htop
          cases htop
        | up _ hup rest =>
          rw [parent?_segment htoken] at hup
          obtain rfl := Option.some.inj hup
          exact ih.mp rest
      · intro h
        exact .up hunknown (parent?_segment htoken above) (ih.mpr h)

/-- From a text without a slash that the map does not know, the search does not end: the parent is the text again. -/
theorem not_climbs_of_not_mem {map : SourceMap} {pointer : String} (hnonempty : pointer ≠ "")
    (hslash : '/' ∉ pointer.toList) (hunknown : ∀ position, ¬ map.Knows pointer position) (found : Option Position) :
    ¬ map.Climbs pointer found := by
  have hparent : parent? pointer = some pointer := by
    rw [parent?, if_neg (by simpa using hnonempty), beforeLastSlash, if_neg (by simpa using hslash), String.ofList_toList]
  intro h
  induction h with
  | found h => exact hunknown _ h
  | top _ htop =>
    rw [hparent] at htop
    cases htop
  | up _ hup _ ih =>
    obtain rfl := Option.some.inj (hparent.symm.trans hup)
    exact ih hnonempty hslash hunknown hparent

/-! ## The closest ancestor -/

/-- The position that a map has for the longest of the texts left of a pointer that it knows. -/
def IsClosest (map : SourceMap) (pointer : String) (position : Position) : Prop :=
  ∃ above, Trims pointer above ∧ map.Knows above position ∧
    ∀ other position', Trims pointer other → map.Knows other position' → other.length ≤ above.length

/-- The first of the ancestors that is known is the longest. -/
theorem findSome?_ancestors (map : SourceMap) {pointer : String} (h : Segmented pointer) (position : Position) :
    (ancestors pointer).findSome? map.known? = some position ↔ map.IsClosest pointer position := by
  have hlengths := pairwise_length_ancestors h
  constructor
  · intro hfound
    obtain ⟨before, closest, after, hsplit, hknown, hbefore⟩ := List.findSome?_eq_some_iff.mp hfound
    have hmem : closest ∈ ancestors pointer := hsplit ▸ List.mem_append_right _ List.mem_cons_self
    refine ⟨closest, (mem_ancestors_iff h).mp hmem, known?_eq_some_iff.mp hknown, fun other position' hother hknows => ?_⟩
    rw [← mem_ancestors_iff h, hsplit, List.mem_append, List.mem_cons] at hother
    rcases hother with hother | rfl | hother
    · exact (known?_eq_none_iff.mp (hbefore other hother) position' hknows).elim
    · exact Nat.le_refl _
    · rw [hsplit, List.pairwise_append, List.pairwise_cons] at hlengths
      exact Nat.le_of_lt (hlengths.2.1.1 other hother)
  · rintro ⟨closest, hclosest, hknows, hlongest⟩
    obtain ⟨before, after, hsplit⟩ := List.append_of_mem ((mem_ancestors_iff h).mpr hclosest)
    refine List.findSome?_eq_some_iff.mpr ⟨before, closest, after, hsplit, known?_eq_some_iff.mpr hknows, ?_⟩
    intro other hother
    refine known?_eq_none_iff.mpr fun position' hknows' => ?_
    have hmem : other ∈ ancestors pointer := hsplit ▸ List.mem_append_left _ hother
    have hshort := hlongest other position' ((mem_ancestors_iff h).mp hmem) hknows'
    rw [hsplit, List.pairwise_append] at hlengths
    have hlong := hlengths.2.2 other hother closest List.mem_cons_self
    omega

/-- Nothing is found if no text that is left is known. -/
theorem findSome?_ancestors_none (map : SourceMap) {pointer : String} (h : Segmented pointer) :
    (ancestors pointer).findSome? map.known? = none ↔
      ∀ above position, Trims pointer above → ¬ map.Knows above position := by
  rw [List.findSome?_eq_none_iff]
  constructor
  · intro hnone above position habove
    exact known?_eq_none_iff.mp (hnone above ((mem_ancestors_iff h).mpr habove)) position
  · intro hunknown above habove
    exact known?_eq_none_iff.mpr fun position => hunknown above position ((mem_ancestors_iff h).mp habove)

/-- **A pointer is located at its closest ancestor.** The search from a pointer that is empty or begins with a slash
ends, in one way only. The location keeps the file and the pointer that were asked for, and it has line and column of
the entry of the longest text that has one which says something, among the pointer and what is left of it when trailing
segments are removed. If there is no such entry, line and column are not known. -/
theorem locate_closest (map : SourceMap) {pointer : String} (hpointer : pointer = "" ∨ pointer.toList.head? = some '/')
    (file : Option String) :
    ∃ found, (∀ other, map.Climbs pointer other ↔ other = found) ∧
      map.locate (some pointer) file = ⟨file, some pointer, found.bind Position.line, found.bind Position.column⟩ ∧
      (∀ position, found = some position ↔ map.IsClosest pointer position) ∧
      (found = none ↔ ∀ above position, Trims pointer above → ¬ map.Knows above position) := by
  have hsegmented := segmented_of_slash hpointer
  exact ⟨(ancestors pointer).findSome? map.known?, map.climbs_iff hsegmented, map.locate_eq pointer file,
    map.findSome?_ancestors hsegmented, map.findSome?_ancestors_none hsegmented⟩

/-- Segments with empty tokens; the entry of the pointer itself says nothing. -/
theorem locate_closest_empty_tokens :
    let map : SourceMap := [("", ⟨some 1, some 1⟩), ("/", ⟨some 2, none⟩), ("//", ⟨none, none⟩)]
    ("//" = "" ∨ "//".toList.head? = some '/') ∧ map.Climbs "//" (some ⟨some 2, none⟩) ∧
      map.locate (some "//") none = ⟨none, some "//", some 2, none⟩ ∧ map.IsClosest "//" ⟨some 2, none⟩ := by
  intro map
  have hpointer : "//" = "" ∨ "//".toList.head? = some '/' := .inr rfl
  have hlocate : map.locate (some "//") none = ⟨none, some "//", some 2, none⟩ := by with_unfolding_all rfl
  obtain ⟨found, hclimbs, hfound, hclosest, -⟩ := locate_closest map hpointer none
  have hplace := hfound.symm.trans hlocate
  obtain ⟨position, hposition⟩ : ∃ position, found = some position := by
    cases found with
    | none => cases congrArg Location.line hplace
    | some position => exact ⟨position, rfl⟩
  obtain rfl : position = ⟨some 2, none⟩ := by
    rw [hposition] at hplace
    have hline : position.line = some 2 := congrArg Location.line hplace
    have hcolumn : position.column = none := congrArg Location.column hplace
    rw [← hline, ← hcolumn]
  exact ⟨hpointer, (hclimbs _).mpr hposition.symm, hlocate, (hclosest _).mp hposition⟩

end SourceMap

end Schemata
