import Mathlib.Data.List.Basic
import Mathlib.Logic.Function.Basic
import Schemata.Source.Location

/-!
# `Schemata.Proofs.Pointer.RoundTrip` — written pointers read back

A written pointer is the concatenation of its escaped tokens, each behind a slash, and no escaped token holds a
slash. So the slashes of the text are exactly the boundaries between tokens: reading gives the tokens back
(`decode_encode`), different places are written differently (`encode_injective`), and cutting at the last slash
leaves the place one token shorter (`parent?_encode_concat`).

## Contents
- **Tokens.** Escaping loses nothing and leaves no slash; unescaping is the same in one pass and in two.
- **Pointers.** `toList_encode`, `encode_append` and `encode_index`, `decode_encode`, `encode_injective`.
- **Ancestors.** `parent?_encode_concat` and `ancestors_encode_concat`, one token less at every step.
-/

namespace Schemata.Pointer

/-! ## Tokens -/

theorem unescapeChars_escapeChars (cs : List Char) : unescapeChars (escapeChars cs) = cs := by
  fun_induction escapeChars cs with
  | case1 => rfl
  | case2 cs ih => rw [unescapeChars, ih]
  | case3 cs ih => rw [unescapeChars, ih]
  | case4 c cs hTilde hSlash ih =>
    have hc : c ≠ '~' := fun h => hTilde h
    rw [unescapeChars.eq_4 c _ (fun _ h _ => hc h) (fun _ h _ => hc h), ih]

theorem slash_not_mem_escapeChars (cs : List Char) : '/' ∉ escapeChars cs := by
  fun_induction escapeChars cs with
  | case1 => simp
  | case2 cs ih => simpa using ih
  | case3 cs ih => simpa using ih
  | case4 c cs _ hSlash ih =>
    simp only [List.mem_cons, not_or]
    exact ⟨fun h => hSlash h.symm, ih⟩

/-- The text with every `~1` replaced by a slash. -/
def replaceSlashes : List Char → List Char
  | [] => []
  | '~' :: '1' :: cs => '/' :: replaceSlashes cs
  | c :: cs => c :: replaceSlashes cs

/-- The text with every `~0` replaced by a tilde. -/
def replaceTildes : List Char → List Char
  | [] => []
  | '~' :: '0' :: cs => '~' :: replaceTildes cs
  | c :: cs => c :: replaceTildes cs

/-- Replacing slashes brings no digit zero to the front. -/
theorem head?_replaceSlashes_ne {cs : List Char} (h : cs.head? ≠ some '0') :
    (replaceSlashes cs).head? ≠ some '0' := by
  fun_cases replaceSlashes cs with
  | case1 => simp
  | case2 cs => simp
  | case3 c cs _ => simpa using h

/-- **Unescaping in one pass is replacing first the slashes and then the tildes.** -/
theorem unescapeChars_eq_passes (cs : List Char) :
    unescapeChars cs = replaceTildes (replaceSlashes cs) := by
  fun_induction unescapeChars cs with
  | case1 => rfl
  | case2 cs ih => rw [replaceSlashes, replaceSlashes, replaceTildes, ih] <;> simp
  | case3 cs ih => rw [replaceSlashes, replaceTildes, ih]; simp
  | case4 c cs hZero hOne ih =>
    rw [replaceSlashes.eq_3 c cs hOne, ih]
    refine (replaceTildes.eq_3 c _ ?_).symm
    -- a tilde in front of something else stays: the next character is no zero, not even afterwards
    rintro rest rfl hrest
    have hhead : cs.head? ≠ some '0' := by
      intro hhead
      obtain ⟨tail, rfl⟩ : ∃ tail, cs = '0' :: tail := List.head?_eq_some_iff.mp hhead
      exact hZero tail rfl rfl
    exact head?_replaceSlashes_ne hhead (by rw [hrest]; rfl)

/-! ## Pointers -/

theorem toList_extend (base token : String) :
    (extend base token).toList = base.toList ++ '/' :: escapeChars token.toList := by
  simp [extend, escape]

/-- The characters of a written pointer: every token behind a slash. -/
theorem toList_encode (pointer : Pointer) :
    (encode pointer).toList = pointer.flatMap fun token => '/' :: escapeChars token.toList := by
  suffices h : ∀ base, (pointer.foldl extend base).toList
      = base.toList ++ pointer.flatMap fun token => '/' :: escapeChars token.toList by
    simpa [encode] using h ""
  induction pointer with
  | nil => simp
  | cons token tokens ih =>
    intro base
    rw [List.foldl_cons, ih, toList_extend, List.flatMap_cons, List.append_assoc]

theorem encode_concat (pointer : Pointer) (token : String) :
    encode (pointer ++ [token]) = extend (encode pointer) token := by
  simp [encode, List.foldl_append]

/-- **A place below another one** is written behind it. -/
theorem encode_append (above below : Pointer) : encode (above ++ below) = encode above ++ encode below := by
  rw [← String.toList_inj, String.toList_append, toList_encode, toList_encode, toList_encode, List.flatMap_append]

/-- Digits are written as they are. -/
theorem escapeChars_digits {cs : List Char} (h : ∀ c ∈ cs, c.isDigit = true) : escapeChars cs = cs := by
  fun_induction escapeChars cs with
  | case1 => rfl
  | case2 cs _ => cases h '~' List.mem_cons_self
  | case3 cs _ => cases h '/' List.mem_cons_self
  | case4 c cs _ _ ih => rw [ih fun d hd => h d (List.mem_cons_of_mem _ hd)]

/-- The position of an item is written behind a slash. -/
theorem encode_index (i : Nat) : encode [toString i] = "/" ++ toString i := by
  have hdigits : ∀ c ∈ (toString i).toList, c.isDigit = true := by
    intro c hc
    rw [Nat.toString_eq_repr, Nat.toList_repr] at hc
    exact Nat.isDigit_of_mem_toDigits (by decide) (by decide) hc
  rw [← String.toList_inj, toList_encode, List.flatMap_singleton, escapeChars_digits hdigits, String.toList_append]
  rfl

/-- A text without slashes is a single piece. -/
theorem pieces_of_not_mem {cs : List Char} (h : '/' ∉ cs) (current : List Char) :
    pieces current cs = [current ++ cs] := by
  induction cs generalizing current with
  | nil => simp [pieces]
  | cons c cs ih =>
    rw [List.mem_cons, not_or] at h
    obtain ⟨hc, hcs⟩ := h
    rw [pieces.eq_3 _ _ _ (fun hslash => hc hslash.symm), ih hcs, List.append_assoc]
    rfl

/-- A text without slashes in front of a slash is the first piece. -/
theorem pieces_append_slash {cs : List Char} (h : '/' ∉ cs) (current rest : List Char) :
    pieces current (cs ++ '/' :: rest) = (current ++ cs) :: pieces [] rest := by
  induction cs generalizing current with
  | nil => simp [pieces]
  | cons c cs ih =>
    rw [List.mem_cons, not_or] at h
    obtain ⟨hc, hcs⟩ := h
    rw [List.cons_append, pieces.eq_3 _ _ _ (fun hslash => hc hslash.symm), ih hcs, List.append_assoc]
    rfl

/-- The pieces of tokens written one after the other, behind a text without slashes. -/
theorem pieces_flatMap {cs : List Char} (h : '/' ∉ cs) (pointer : Pointer) :
    pieces [] (cs ++ pointer.flatMap fun token => '/' :: escapeChars token.toList)
      = cs :: pointer.map fun token => escapeChars token.toList := by
  induction pointer generalizing cs with
  | nil => simpa using pieces_of_not_mem h []
  | cons token tokens ih =>
    rw [List.flatMap_cons, List.cons_append, pieces_append_slash h,
      ih (slash_not_mem_escapeChars token.toList), List.map_cons]
    rfl

/-- **Reading a written pointer gives the pointer back.** -/
@[simp] theorem decode_encode (pointer : Pointer) : decode (encode pointer) = pointer := by
  have hpieces := pieces_flatMap (List.not_mem_nil : '/' ∉ []) pointer
  rw [List.nil_append] at hpieces
  rw [decode, toList_encode, hpieces, List.drop_one, List.tail_cons, List.map_map]
  refine (List.map_congr_left fun token _ => ?_).trans (List.map_id pointer)
  simp [unescapeChars_escapeChars]

/-- **Different places are written differently.** -/
theorem encode_injective : Function.Injective encode :=
  Function.LeftInverse.injective decode_encode

/-! ## Ancestors -/

theorem encode_concat_ne_empty (pointer : Pointer) (token : String) :
    (encode (pointer ++ [token])).isEmpty = false := by
  rw [encode_concat, Bool.eq_false_iff, ne_eq, String.isEmpty_iff]
  intro h
  have := congrArg String.toList h
  simp [toList_extend] at this

theorem beforeLastSlash_append {cs ds : List Char} (h : '/' ∉ ds) :
    beforeLastSlash (cs ++ '/' :: ds) = cs := by
  have hds : (ds.reverse ++ ['/'] ++ cs.reverse).dropWhile (· != '/') = '/' :: cs.reverse := by
    rw [List.append_assoc, List.dropWhile_append_of_pos]
    · simp
    · intro c hc
      simpa using fun hslash : c = '/' => h (hslash ▸ List.mem_reverse.mp hc)
  have hrev : (cs ++ '/' :: ds).reverse = ds.reverse ++ ['/'] ++ cs.reverse := by simp
  rw [beforeLastSlash, if_pos (by simp), hrev, hds]
  simp

/-- **The parent of a written pointer is the pointer without its last token.** -/
theorem parent?_encode_concat (pointer : Pointer) (token : String) :
    parent? (encode (pointer ++ [token])) = some (encode pointer) := by
  rw [parent?, if_neg (by simp [encode_concat_ne_empty]), encode_concat, toList_extend,
    beforeLastSlash_append (slash_not_mem_escapeChars token.toList)]
  simp

theorem count_slash_encode (pointer : Pointer) :
    (encode pointer).toList.count '/' = pointer.length := by
  rw [toList_encode]
  induction pointer with
  | nil => rfl
  | cons token tokens ih =>
    rw [List.flatMap_cons, List.count_append, ih, List.count_cons_self,
      List.count_eq_zero.mpr (slash_not_mem_escapeChars token.toList), List.length_cons]
    omega

/-- **The ancestors of a written pointer** are the pointer itself and those of the place above it. -/
theorem ancestors_encode_concat (pointer : Pointer) (token : String) :
    ancestors (encode (pointer ++ [token]))
      = encode (pointer ++ [token]) :: ancestors (encode pointer) := by
  rw [ancestors, ancestors, count_slash_encode, count_slash_encode, List.length_append,
    List.length_singleton, ancestorsWithin, parent?_encode_concat]

/-- The first ancestor of a written pointer is the pointer itself. -/
theorem ancestors_encode (pointer : Pointer) :
    ∃ above, ancestors (encode pointer) = encode pointer :: above := by
  rw [ancestors]
  cases (encode pointer).toList.count '/' with
  | zero => exact ⟨[], rfl⟩
  | succ fuel =>
    rw [ancestorsWithin]
    cases parent? (encode pointer) with
    | none => exact ⟨[], rfl⟩
    | some above => exact ⟨_, rfl⟩

end Schemata.Pointer
