import Schemata.Value.Text

/-!
# `Schemata.Proofs.Text.Unbroken` — texts on one line

A line ends at a line feed or a carriage return. Whatever is written between quotes stands on one line, since both are
escaped there. So do the values that are written in messages, except that a text which is not quoted is written as it
is.

## Contents
- **Texts.** `Unbroken`, with joined texts.
- **Lines.** `IsLines`, and how such a text is split.
- **Digits and quotes.** Whole numbers, and texts and bytes between quotes.
- **Numbers and moments.** Doubles, dates and timestamps.
- **Values.** `Value.unbroken_quoted` and `Value.unbroken_plain`.
-/

namespace Schemata

/-! ## Texts -/

/-- Line feeds and carriage returns end lines. -/
def isLineBreak (c : Char) : Bool := c == '\n' || c == '\r'

/-- Characters none of which ends a line. -/
def NoBreak (cs : List Char) : Prop := ∀ c ∈ cs, isLineBreak c = false

instance (cs : List Char) : Decidable (NoBreak cs) :=
  decidable_of_iff ((cs.all fun c => !isLineBreak c) = true) (by simp [NoBreak])

/-- A text without line breaks. -/
def Unbroken (s : String) : Prop := NoBreak s.toList

instance (s : String) : Decidable (Unbroken s) := inferInstanceAs (Decidable (NoBreak s.toList))

@[simp] theorem noBreak_nil : NoBreak [] := List.forall_mem_nil _

@[simp] theorem noBreak_cons {c : Char} {cs : List Char} : NoBreak (c :: cs) ↔ isLineBreak c = false ∧ NoBreak cs :=
  List.forall_mem_cons

@[simp] theorem noBreak_append {cs ds : List Char} : NoBreak (cs ++ ds) ↔ NoBreak cs ∧ NoBreak ds :=
  List.forall_mem_append

@[simp] theorem noBreak_flatMap {α : Type} {as : List α} {f : α → List Char} :
    NoBreak (as.flatMap f) ↔ ∀ a ∈ as, NoBreak (f a) := by
  simp only [NoBreak, List.mem_flatMap, forall_exists_index, and_imp]
  exact ⟨fun h a ha c hc => h c a ha hc, fun h c a ha hc => h a ha c hc⟩

theorem NoBreak.replicate {c : Char} (h : isLineBreak c = false) (n : Nat) : NoBreak (List.replicate n c) :=
  fun _ hmem => List.eq_of_mem_replicate hmem ▸ h

@[simp] theorem unbroken_append {s t : String} : Unbroken (s ++ t) ↔ Unbroken s ∧ Unbroken t := by
  rw [Unbroken, String.toList_append, noBreak_append]
  rfl

theorem Unbroken.between {front s back : String} (hfront : Unbroken front) (h : Unbroken s) (hback : Unbroken back) :
    Unbroken (front ++ s ++ back) :=
  unbroken_append.mpr ⟨unbroken_append.mpr ⟨hfront, h⟩, hback⟩

@[simp] theorem unbroken_toString {s : String} : Unbroken (toString s) ↔ Unbroken s := Iff.rfl

@[simp] theorem unbroken_ofList {cs : List Char} : Unbroken (String.ofList cs) ↔ NoBreak cs := by
  rw [Unbroken, String.toList_ofList]

theorem noBreak_intercalate {separator : List Char} (hseparator : NoBreak separator) {parts : List (List Char)} :
    NoBreak (separator.intercalate parts) ↔ ∀ part ∈ parts, NoBreak part := by
  induction parts with
  | nil => simp
  | cons part rest ih =>
    cases rest with
    | nil => simp
    | cons next others =>
      rw [List.intercalate_cons_cons, noBreak_append, noBreak_append, ih, List.forall_mem_cons (l := next :: others)]
      exact ⟨fun h => ⟨h.1.1, h.2⟩, fun h => ⟨⟨h.1, hseparator⟩, h.2⟩⟩

theorem Unbroken.intercalate {separator : String} {parts : List String} (hseparator : Unbroken separator)
    (h : ∀ part ∈ parts, Unbroken part) : Unbroken (separator.intercalate parts) := by
  rw [Unbroken, String.toList_intercalate]
  exact (noBreak_intercalate hseparator).mpr (List.forall_mem_map.mpr h)

/-! ## Lines -/

/-- A text that is made of lines, each of them ended by a line feed. -/
structure IsLines (text : String) (lines : List String) : Prop where
  joined : text = String.join (lines.map (· ++ "\n"))
  unbroken : ∀ line ∈ lines, Unbroken line

theorem Unbroken.not_mem {s : String} (h : Unbroken s) : '\n' ∉ s.toList :=
  fun hmem => Bool.noConfusion (h '\n' hmem)

/-- Such a text is split at its line feeds into the lines, and nothing is left behind the last one. -/
theorem IsLines.splitOn {text : String} {lines : List String} (h : IsLines text lines) :
    text.toList.splitOn '\n' = lines.map String.toList ++ [[]] := by
  obtain ⟨rfl, hlines⟩ := h
  induction lines with
  | nil => exact List.splitOn_nil _
  | cons line rest ih =>
    obtain ⟨hline, hrest⟩ := List.forall_mem_cons.mp hlines
    have hjoin : (String.join ((line :: rest).map (· ++ "\n"))).toList =
        line.toList ++ '\n' :: (String.join (rest.map (· ++ "\n"))).toList := by
      simp [String.toList_join]
    rw [hjoin, List.splitOn_append_cons_self_of_not_mem hline.not_mem, ih hrest]
    rfl

/-! ## Digits and quotes -/

theorem isLineBreak_digitChar (n : Nat) : isLineBreak n.digitChar = false := by
  simp [isLineBreak, Nat.digitChar_ne '\n' (by decide), Nat.digitChar_ne '\r' (by decide)]

theorem noBreak_toDigits {base : Nat} (hbase : 1 < base) (n : Nat) : NoBreak (Nat.toDigits base n) := by
  rw [Nat.toDigits_eq_if hbase]
  split
  · exact noBreak_cons.mpr ⟨isLineBreak_digitChar n, noBreak_nil⟩
  next hn =>
    rw [noBreak_append]
    exact ⟨noBreak_toDigits hbase (n / base), noBreak_cons.mpr ⟨isLineBreak_digitChar _, noBreak_nil⟩⟩
termination_by n
decreasing_by exact Nat.div_lt_self (by omega) hbase

theorem unbroken_nat (n : Nat) : Unbroken (toString n) := by
  rw [Nat.toString_eq_ofList_toDigits, unbroken_ofList]
  exact noBreak_toDigits (by decide) n

theorem unbroken_int (n : Int) : Unbroken (toString n) := by
  cases n with
  | ofNat n => exact unbroken_nat n
  | negSucc n => exact unbroken_append.mpr ⟨by decide, unbroken_nat (n + 1)⟩

namespace Text

theorem noBreak_hexPadded (width n : Nat) : NoBreak (hexPadded width n) :=
  noBreak_append.mpr ⟨.replicate (by decide) _, noBreak_toDigits (by decide) n⟩

theorem noBreak_escapeCode (n : Nat) : NoBreak (escapeCode n) := by
  have hcode : ∀ {c : Char} {width : Nat}, isLineBreak c = false → NoBreak ('\\' :: c :: hexPadded width n) :=
    fun hc => noBreak_cons.mpr ⟨by decide, noBreak_cons.mpr ⟨hc, noBreak_hexPadded _ n⟩⟩
  unfold escapeCode
  split
  · exact hcode (by decide)
  · split <;> exact hcode (by decide)

theorem isLineBreak_chooseQuote (cs : List Char) : isLineBreak (chooseQuote cs) = false := by
  unfold chooseQuote
  split <;> decide

/-- **A character between quotes** is written on one line. -/
theorem noBreak_escapeChar {quote : Char} (hquote : isLineBreak quote = false) (c : Char) :
    NoBreak (escapeChar quote c) := by
  unfold escapeChar
  split
  next h =>
    rcases h with rfl | rfl
    · exact noBreak_cons.mpr ⟨by decide, noBreak_cons.mpr ⟨hquote, noBreak_nil⟩⟩
    · decide
  split
  · decide
  next hfeed =>
    split
    · decide
    next hreturn =>
      split
      · decide
      split
      · simp [isLineBreak, hfeed, hreturn]
      · exact noBreak_escapeCode _

theorem noBreak_escapeByte {quote : Char} (hquote : isLineBreak quote = false) (b : UInt8) :
    NoBreak (escapeByte quote b) := by
  unfold escapeByte
  dsimp only
  split
  · exact noBreak_escapeChar hquote _
  · exact noBreak_escapeCode _

/-- What stands between two quotes. -/
theorem noBreak_quoted {quote : Char} (hquote : isLineBreak quote = false) {cs : List Char} (h : NoBreak cs) :
    NoBreak (quote :: cs ++ [quote]) :=
  noBreak_append.mpr ⟨noBreak_cons.mpr ⟨hquote, h⟩, noBreak_cons.mpr ⟨hquote, noBreak_nil⟩⟩

theorem unbroken_quoteText (s : String) : Unbroken (quoteText s) := by
  have hquote := isLineBreak_chooseQuote s.toList
  exact unbroken_ofList.mpr (noBreak_quoted hquote (noBreak_flatMap.mpr fun c _ => noBreak_escapeChar hquote c))

theorem unbroken_quoteBytes (bytes : List UInt8) : Unbroken (quoteBytes bytes) := by
  have hquote := isLineBreak_chooseQuote (bytes.map fun b => Char.ofNat b.toNat)
  refine unbroken_ofList.mpr (noBreak_cons.mpr ⟨by decide, ?_⟩)
  exact noBreak_quoted hquote (noBreak_flatMap.mpr fun b _ => noBreak_escapeByte hquote b)

end Text

/-! ## Numbers and moments -/

namespace Double

theorem noBreak_positional {digits : List Char} (h : NoBreak digits) (whole : Int) :
    NoBreak (positional digits whole) := by
  have htake : ∀ k, NoBreak (digits.take k) := fun k c hmem => h c (List.mem_of_mem_take hmem)
  have hdrop : ∀ k, NoBreak (digits.drop k) := fun k c hmem => h c (List.mem_of_mem_drop hmem)
  have hzeros : ∀ k, NoBreak (List.replicate k '0') := NoBreak.replicate (by decide)
  have hmarks : isLineBreak '0' = false ∧ isLineBreak '.' = false := by decide
  unfold positional
  split
  · simp [h, hzeros, hmarks]
  · dsimp only
    split <;> simp [htake, hdrop, hzeros, hmarks]

theorem noBreak_scientific {digits : List Char} (h : NoBreak digits) (exponent : Int) :
    NoBreak (scientific digits exponent) := by
  have hsize := noBreak_toDigits (show 1 < 10 by decide) exponent.natAbs
  have hmarks : isLineBreak '.' = false ∧ isLineBreak '0' = false ∧ isLineBreak 'e' = false := by decide
  unfold scientific
  simp only [noBreak_append, noBreak_cons]
  refine ⟨?_, hmarks.2.2, ?_, ?_⟩
  · split
    · obtain ⟨hd, hrest⟩ := noBreak_cons.mp h
      exact noBreak_cons.mpr ⟨hd, noBreak_cons.mpr ⟨hmarks.1, hrest⟩⟩
    · exact h
  · split <;> decide
  · split
    · exact noBreak_cons.mpr ⟨hmarks.2.1, hsize⟩
    · exact hsize

theorem unbroken_text (x : Double) : Unbroken x.text := by
  cases x with
  | nan => decide
  | infinity negative => cases negative <;> decide
  | finite negative m e =>
    have hdigits := noBreak_toDigits (show 1 < 10 by decide) (shortest m e).1
    have hbody : NoBreak (if (shortest m e).1 = 0 then ['0', '.', '0']
        else if -4 < (shortest m e).2 + (Nat.toDigits 10 (shortest m e).1).length ∧
          (shortest m e).2 + (Nat.toDigits 10 (shortest m e).1).length ≤ 16
        then positional (Nat.toDigits 10 (shortest m e).1) ((shortest m e).2 + (Nat.toDigits 10 (shortest m e).1).length)
        else scientific (Nat.toDigits 10 (shortest m e).1)
          ((shortest m e).2 + (Nat.toDigits 10 (shortest m e).1).length - 1)) := by
      split
      · decide
      · split
        · exact noBreak_positional hdigits _
        · exact noBreak_scientific hdigits _
    rw [text, unbroken_ofList]
    cases negative with
    | true => exact noBreak_cons.mpr ⟨by decide, hbody⟩
    | false => exact hbody

end Double

theorem Date.unbroken_padded (width n : Nat) : Unbroken (padded width n) := by
  exact unbroken_ofList.mpr (noBreak_append.mpr ⟨.replicate (by decide) _, noBreak_toDigits (by decide) n⟩)

theorem Date.unbroken_text (d : Date) : Unbroken d.text := by
  simp only [text, unbroken_append, unbroken_toString, unbroken_padded, true_and, and_true]
  decide

theorem Date.unbroken_quoted (d : Date) : Unbroken d.quoted := by
  have hyear := unbroken_nat d.year
  have hmonth := unbroken_nat d.month
  have hday := unbroken_nat d.day
  unfold Date.quoted
  simp only [unbroken_append, unbroken_toString, hyear, hmonth, hday, and_true]
  decide

namespace Timestamp

theorem unbroken_offsetText (seconds : Int) : Unbroken (offsetText seconds) := by
  have hsign : Unbroken (if seconds < 0 then "-" else "+") := by split <;> decide
  unfold offsetText
  dsimp only
  have hcolon : Unbroken ":" := by decide
  split
  · simp only [unbroken_append, hsign, hcolon, Date.unbroken_padded, and_self]
  · simp only [unbroken_append, hsign, hcolon, Date.unbroken_padded, and_self]

theorem unbroken_text (t : Timestamp) : Unbroken t.text := by
  have hmicro : Unbroken (if t.micro = 0 then "" else "." ++ Date.padded 6 t.micro) := by
    split
    · decide
    · exact unbroken_append.mpr ⟨by decide, Date.unbroken_padded _ _⟩
  have hoffset : Unbroken ((t.offset.map offsetText).getD "") := by
    cases t.offset with
    | none => decide
    | some seconds => exact unbroken_offsetText seconds
  simp only [text, unbroken_append, unbroken_toString, Date.unbroken_text, Date.unbroken_padded, hmicro, hoffset,
    true_and, and_true]
  decide

theorem unbroken_durationText (seconds : Int) : Unbroken (durationText seconds) := by
  have hpart : ∀ (label : String) (n : Int), Unbroken label →
      ∀ part ∈ (if n = 0 then [] else [label ++ toString n]), Unbroken part := by
    intro label n hlabel
    split
    · exact List.forall_mem_nil _
    · exact List.forall_mem_singleton.mpr (unbroken_append.mpr ⟨hlabel, unbroken_int n⟩)
  have hparts := List.forall_mem_append.mpr
    ⟨hpart "days=" (Int.fdiv seconds 86400) (by decide), hpart "seconds=" (Int.fmod seconds 86400) (by decide)⟩
  have hbody : ∀ parts : List String, (∀ part ∈ parts, Unbroken part) →
      Unbroken (if parts.isEmpty then "0" else ", ".intercalate parts) := by
    intro parts h
    split
    · decide
    · exact .intercalate (by decide) h
  exact .between (by decide) (hbody _ hparts) (by decide)

theorem unbroken_quoted (t : Timestamp) : Unbroken t.quoted := by
  unfold quoted
  dsimp only
  refine .between (by decide) (.intercalate (by decide) ?_) (by decide)
  refine List.forall_mem_append.mpr ⟨List.forall_mem_map.mpr fun n _ => unbroken_nat n, ?_⟩
  -- the zone
  split
  · exact List.forall_mem_nil _
  · split
    · exact List.forall_mem_singleton.mpr (by decide)
    · exact List.forall_mem_singleton.mpr (.between (by decide) (unbroken_durationText _) (by decide))

end Timestamp

/-! ## Values -/

namespace Value

theorem unbroken_quotedFile (f : File) : Unbroken (quotedFile f) := by
  cases f with
  | bytes form content =>
    cases form with
    | fixed => exact Text.unbroken_quoteBytes content
    | growable => exact .between (by decide) (Text.unbroken_quoteBytes content) (by decide)
    | view => exact (by decide : Unbroken "<memory>")
  | stream => exact (by decide : Unbroken "<stream>")
  | upload => exact (by decide : Unbroken "<upload>")

/-- Parts between brackets, with commas between them. -/
theorem unbroken_bracketed {front back : String} {parts : List String} (hfront : Unbroken front) (hback : Unbroken back)
    (h : ∀ part ∈ parts, Unbroken part) : Unbroken (front ++ ", ".intercalate parts ++ back) :=
  hfront.between (.intercalate (by decide) h) hback

mutual

/-- **A quoted value stands on one line.** -/
theorem unbroken_quoted (v : Value) : Unbroken v.quoted := by
  cases v with
  | absent | null => decide
  | bool b => cases b <;> decide
  | int n => exact unbroken_int n
  | float x => exact x.unbroken_text
  | string s => exact Text.unbroken_quoteText s
  | list items => exact unbroken_bracketed (by decide) (by decide) (unbroken_quotedItems items)
  | tuple items =>
    rcases items with _ | ⟨item, _ | ⟨next, rest⟩⟩
    · decide
    · exact .between (by decide) (unbroken_quoted item) (by decide)
    · exact unbroken_bracketed (by decide) (by decide) (unbroken_quotedItems (item :: next :: rest))
  | set items =>
    cases items with
    | nil => decide
    | cons item rest => exact unbroken_bracketed (by decide) (by decide) (unbroken_quotedItems (item :: rest))
  | dict entries => exact unbroken_bracketed (by decide) (by decide) (unbroken_quotedEntries entries)
  | file f => exact unbroken_quotedFile f
  | date d => exact d.unbroken_quoted
  | timestamp t => exact t.unbroken_quoted

theorem unbroken_quotedItems (items : List Value) : ∀ part ∈ quotedItems items, Unbroken part := by
  cases items with
  | nil => exact List.forall_mem_nil _
  | cons v vs => exact List.forall_mem_cons.mpr ⟨unbroken_quoted v, unbroken_quotedItems vs⟩

theorem unbroken_quotedEntries (entries : Entries) : ∀ part ∈ quotedEntries entries, Unbroken part := by
  cases entries with
  | nil => exact List.forall_mem_nil _
  | cons e es =>
    obtain ⟨k, v⟩ := e
    refine List.forall_mem_cons.mpr ⟨?_, unbroken_quotedEntries es⟩
    exact .between (unbroken_quoted k) (by decide) (unbroken_quoted v)

end

/-- In running text, only texts are written as they are. -/
theorem unbroken_plain {v : Value} (h : ∀ s, v = .string s → Unbroken s) : Unbroken v.plain := by
  cases v with
  | string s => exact h s rfl
  | date d => exact d.unbroken_text
  | timestamp t => exact t.unbroken_text
  | _ => exact unbroken_quoted _

end Value

end Schemata
