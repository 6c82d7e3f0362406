import Mathlib.Data.List.Infix
import Mathlib.Logic.Relation
import Schemata.Proofs.Pointer.RoundTrip

/-!
# `Schemata.Proofs.Pointer.Ancestry` — written pointers and their tokens

Tokens can be escaped and read with whole replacements in the right order: tildes before slashes when writing, slashes
before tildes when reading. Done so, splitting a written pointer at its slashes gives its tokens back, and cutting the
last piece off again and again goes through the pointers with fewer and fewer tokens, down to the empty one.

## Contents
- **Passes.** `escapeChars_eq_passes` and `decode_eq_passes`, escaping and reading in passes over the whole text.
- **Ancestors.** `IsParent`, and `ancestors_encode_eq`, the ancestors of a written pointer.
- `encode_invertible`.
-/

namespace Schemata.Pointer

/-! ## Passes -/

/-- The text with every occurrence of a character replaced. -/
def replaceChar (old : Char) (new : List Char) (cs : List Char) : List Char :=
  cs.flatMap fun c => if c = old then new else [c]

theorem replaceChar_cons (old : Char) (new : List Char) (c : Char) (cs : List Char) :
    replaceChar old new (c :: cs) = (if c = old then new else [c]) ++ replaceChar old new cs := List.flatMap_cons

/-- **Escaping in one pass is replacing first the tildes and then the slashes.** -/
theorem escapeChars_eq_passes (cs : List Char) :
    escapeChars cs = replaceChar '/' ['~', '1'] (replaceChar '~' ['~', '0'] cs) := by
  fun_induction escapeChars cs with
  | case1 => rfl
  | case2 cs ih => simp [replaceChar_cons, ih]
  | case3 cs ih => simp [replaceChar_cons, ih]
  | case4 c cs hTilde hSlash ih =>
    have htilde : c ≠ '~' := fun h => hTilde h
    have hslash : c ≠ '/' := fun h => hSlash h
    rw [replaceChar_cons, if_neg htilde, List.singleton_append, replaceChar_cons, if_neg hslash, ih]
    rfl

/-- The pieces of a text between slashes are what it is split into. -/
theorem pieces_eq_splitOn (cs : List Char) : pieces [] cs = cs.splitOn '/' := by
  by_cases hslash : '/' ∈ cs
  · obtain ⟨first, rest, hsplit, hfirst⟩ := List.eq_append_cons_of_mem hslash
    have hshorter : rest.length < cs.length := by
      rw [hsplit, List.length_append, List.length_cons]
      omega
    rw [hsplit, pieces_append_slash hfirst, List.splitOn_append_cons_self_of_not_mem hfirst, pieces_eq_splitOn rest]
    rfl
  · rw [pieces_of_not_mem hslash, List.splitOn_eq_singleton hslash]
    rfl
termination_by cs.length

/-- The pointer that a text stands for, read in passes: the text is split at its slashes, what stands in front of the
first one is dropped, and in every piece the slashes and then the tildes are put back. -/
def decodeInPasses (text : String) : Pointer :=
  ((text.toList.splitOn '/').drop 1).map fun piece => String.ofList (replaceTildes (replaceSlashes piece))

theorem decode_eq_passes (text : String) : decode text = decodeInPasses text := by
  rw [decode, decodeInPasses, pieces_eq_splitOn]
  exact List.map_congr_left fun piece _ => congrArg String.ofList (unescapeChars_eq_passes piece)

/-! ## Ancestors -/

/-- The second text is left of the first when its last token is cut off. -/
def IsParent (text above : String) : Prop := parent? text = some above

/-- The texts that a written pointer leads to, when its last token is cut off again and again. -/
theorem reaches_encode_iff (pointer : Pointer) (text : String) :
    Relation.ReflTransGen IsParent (encode pointer) text ↔ ∃ above, above <+: pointer ∧ text = encode above := by
  induction pointer using List.reverseRecOn with
  | nil =>
    -- the empty text has no parent
    rw [Relation.ReflTransGen.cases_head_iff]
    constructor
    · rintro (rfl | ⟨above, hparent, _⟩)
      · exact ⟨[], List.prefix_refl _, rfl⟩
      · cases hparent
    · rintro ⟨above, hprefix, rfl⟩
      rw [List.prefix_nil.mp hprefix]
      exact .inl rfl
  | append_singleton tokens token ih =>
    have hparent : ∀ above, IsParent (encode (tokens ++ [token])) above ↔ encode tokens = above := fun above => by
      rw [IsParent, parent?_encode_concat, Option.some.injEq]
    rw [Relation.ReflTransGen.cases_head_iff]
    simp only [hparent, exists_eq_left', ih, List.prefix_concat_iff]
    constructor
    · rintro (rfl | ⟨above, hprefix, htext⟩)
      · exact ⟨_, .inl rfl, rfl⟩
      · exact ⟨above, .inr hprefix, htext⟩
    · rintro ⟨above, rfl | hprefix, htext⟩
      · exact .inl htext.symm
      · exact .inr ⟨above, hprefix, htext⟩

/-- **The ancestors of a written pointer** are the pointers of its first tokens, the longest first. -/
theorem ancestors_encode_eq (pointer : Pointer) : ancestors (encode pointer) = (pointer.inits.map encode).reverse := by
  induction pointer using List.reverseRecOn with
  | nil => rfl
  | append_singleton tokens token ih =>
    rw [ancestors_encode_concat, ih, List.inits_append]
    simp

/-! ## Both ways -/

/-- **Written pointers can be read back.** With tokens escaped by replacing tildes and then slashes, splitting a written
pointer at its slashes and putting slashes and then tildes back gives its tokens. So different tokens are never written
the same, and one written pointer is reached from another by cutting tokens off at the end if and only if its tokens are
the first ones of the other; these are the ancestors that are looked up. -/
theorem encode_invertible (pointer : Pointer) :
    (∀ token, escape token = String.ofList (replaceChar '/' ['~', '1'] (replaceChar '~' ['~', '0'] token.toList))) ∧
      decodeInPasses (pointer.foldl extend "") = pointer ∧
      (∀ other, encode other = encode pointer ↔ other = pointer) ∧
      (∀ above, Relation.ReflTransGen IsParent (encode pointer) (encode above) ↔ above <+: pointer) ∧
      ancestors (encode pointer) = (pointer.inits.map encode).reverse := by
  refine ⟨fun token => congrArg String.ofList (escapeChars_eq_passes token.toList), ?_, fun other => encode_injective.eq_iff,
    fun above => ?_, ancestors_encode_eq pointer⟩
  · rw [← decode_eq_passes]
    exact decode_encode pointer
  · rw [reaches_encode_iff]
    constructor
    · rintro ⟨other, hprefix, heq⟩
      rwa [encode_injective heq]
    · exact fun hprefix => ⟨above, hprefix, rfl⟩

/-- Tokens that look like escapes, and empty ones. -/
example : encode ["~1", "", "a/b"] = "/~01//a~1b" ∧ decodeInPasses "/~01//a~1b" = ["~1", "", "a/b"] := by decide +kernel

end Schemata.Pointer
