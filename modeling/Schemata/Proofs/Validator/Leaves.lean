import Schemata.Proofs.Validator.Rules

/-!
# `Schemata.Proofs.Validator.Leaves` — reports on a value as a whole

A validator without parts reports on the value at its own place and leaves it as it is, and so does one for
arrays or objects on a value of another kind. Limits on sizes are reported at the place of what has the size.

## Contents
- **Sizes.** The issues of lengths, of numbers of members, and of files.
- **Values.** `answers_leaf`, with reports that are `IsAt`, and the structures on values of other kinds.
-/

namespace Schemata

/-- Issues at a place. -/
abbrev AllAt (path : Pointer) (issues : List Issue) : Prop := ∀ issue ∈ issues, issue.IsAt path

/-! ## Sizes -/

/-- The issue of a size that stands in a relation to a limit in which it may not. -/
def limitIssues (relation : Relation) (n : Int) (limit : Option Value) (path : Pointer) (cause : String → Cause) :
    Except Fault (List Issue) :=
  match limit with
  | none => .ok []
  | some limit => do
    if (← Value.related relation (.int n) limit) then return [⟨path, cause (← limit.plain?)⟩] else return []

/-- The issues of one check, or else those of another. -/
def firstIssues (x y : Except Fault (List Issue)) : Except Fault (List Issue) := do
  let issues ← x
  if issues.isEmpty then y else return issues

/-- Where a limit is passed, nothing is checked behind it. -/
theorem firstIssues_limitIssues (relation : Relation) (n : Int) (limit : Value) (path : Pointer) (cause : String → Cause)
    (rest : Except Fault (List Issue)) :
    firstIssues (limitIssues relation n (some limit) path cause) rest =
      Value.related relation (.int n) limit >>= fun passed =>
        if passed = true then limit.plain? >>= fun text => pure [⟨path, cause text⟩] else rest := by
  simp only [limitIssues, firstIssues]
  cases Value.related relation (.int n) limit with
  | error e => rfl
  | ok passed =>
    cases passed with
    | false => rfl
    | true => cases limit.plain? <;> rfl

theorem lengthIssues_eq (length : Nat) (bounds : Bounds) (path : Pointer) :
    lengthIssues (m := Except Fault) length bounds path =
      firstIssues (limitIssues .less length bounds.least path .tooFewItems)
        (limitIssues .greater length bounds.most path .tooManyItems) := by
  obtain ⟨least, most⟩ := bounds
  cases least with
  | none => cases most <;> simp only [lengthIssues, limitIssues, firstIssues, orFault_except] <;> rfl
  | some least =>
    rw [firstIssues_limitIssues]
    cases most <;> simp only [lengthIssues, limitIssues, orFault_except] <;> rfl

theorem memberCountIssues_eq (count : Nat) (bounds : Bounds) (path : Pointer) :
    memberCountIssues (m := Except Fault) count bounds path = (do
      let few ← limitIssues .less count bounds.least path .tooFewMembers
      let many ← limitIssues .greater count bounds.most path .tooManyMembers
      return few ++ many) := by
  obtain ⟨least, most⟩ := bounds
  have hjoin : ∀ (x : Except Fault Bool) (p : Except Fault String) (issue : String → Issue)
      (next : List Issue → Except Fault (List Issue)),
      (x >>= fun b => if b = true then p >>= fun text => pure [issue text] >>= next else pure [] >>= next)
        = (x >>= fun b => if b = true then p >>= fun text => pure [issue text] else pure []) >>= next := by
    intro x p issue next
    cases x with
    | error e => rfl
    | ok b => cases b <;> cases p <;> rfl
  cases least <;> cases most <;> simp only [memberCountIssues, limitIssues, orFault_except]
  · rfl
  · exact hjoin _ _ _ _
  · exact hjoin _ _ _ _
  · exact (hjoin _ _ _ _).trans (bind_congr fun few => hjoin _ _ _ _)

theorem fileSizeIssues_eq (size : Int) (bounds : Bounds) (path : Pointer) :
    fileSizeIssues (m := Except Fault) (some size) bounds path =
      firstIssues (limitIssues .less size bounds.least path .fileTooSmall)
        (limitIssues .greater size bounds.most path .fileTooBig) := by
  obtain ⟨least, most⟩ := bounds
  cases least with
  | none => cases most <;> simp only [fileSizeIssues, limitIssues, firstIssues, orFault_except] <;> rfl
  | some least =>
    rw [firstIssues_limitIssues]
    cases most <;> simp only [fileSizeIssues, limitIssues, orFault_except] <;> rfl

theorem limitIssues_at (relation : Relation) (n : Int) (limit : Option Value) (path : Pointer)
    (cause : String → Cause) (h : ∀ text, cause text ≠ .noOption := by nofun) :
    Answers False (limitIssues relation n limit path cause) (AllAt path) := by
  cases limit with
  | none => exact .ok (List.forall_mem_nil _)
  | some limit =>
    refine .bind (.trivial _) fun outside _ => ?_
    cases outside with
    | true => exact .bind (.trivial _) fun text _ => .pure (List.forall_mem_singleton.mpr ⟨rfl, h text⟩)
    | false => exact .pure (List.forall_mem_nil _)

theorem firstIssues_at {x y : Except Fault (List Issue)} {path : Pointer} (hx : Answers False x (AllAt path))
    (hy : Answers False y (AllAt path)) : Answers False (firstIssues x y) (AllAt path) := by
  refine .bind hx fun issues hissues => ?_
  by_cases hempty : issues.isEmpty = true
  · rw [if_pos hempty]
    exact hy
  · rw [if_neg hempty]
    exact .pure hissues

/-- The length of a list is reported at the list. -/
theorem lengthIssues_at (length : Nat) (bounds : Bounds) (path : Pointer) :
    Answers False (lengthIssues (m := Except Fault) length bounds path) (AllAt path) := by
  rw [lengthIssues_eq]
  exact firstIssues_at (limitIssues_at ..) (limitIssues_at ..)

/-- The number of members is reported at the object. -/
theorem memberCountIssues_at (count : Nat) (bounds : Bounds) (path : Pointer) :
    Answers False (memberCountIssues (m := Except Fault) count bounds path) (AllAt path) := by
  rw [memberCountIssues_eq]
  refine .bind (limitIssues_at ..) fun few hfew => .bind (limitIssues_at ..) fun many hmany => ?_
  exact .pure (List.forall_mem_append.mpr ⟨hfew, hmany⟩)

/-- The size of a file is reported at the file. -/
theorem fileSizeIssues_at (size : Option Int) (bounds : Bounds) (path : Pointer) :
    Answers False (fileSizeIssues (m := Except Fault) size bounds path) (AllAt path) := by
  cases size with
  | none => exact .pure (List.forall_mem_singleton.mpr ⟨rfl, nofun⟩)
  | some size =>
    rw [fileSizeIssues_eq]
    exact firstIssues_at (limitIssues_at ..) (limitIssues_at ..)

theorem mediaTypeIssues_at (f : File) (allowed : List String) (path : Pointer) :
    AllAt path (mediaTypeIssues f allowed path) := by
  intro issue hissue
  have honly : mediaTypeIssues f allowed path ⊆ [⟨path, .mediaType allowed⟩] := by
    unfold mediaTypeIssues
    by_cases hallowed : allowed.isEmpty = true
    · simp [hallowed]
    · rw [if_neg hallowed]
      cases f.mediaType? with
      | none => simp
      | some mediaType => dsimp only; split <;> simp
  rw [List.mem_singleton.mp (honly hissue)]
  exact ⟨rfl, nofun⟩

/-! ## Values -/

namespace Validator

open Report

/-- Whether a validator has no parts and asks for a kind without any. -/
def isLeaf : Validator → Bool
  | .any | .never | .string | .number | .boolean | .null | .literal _ | .enumeration _ | .file _ => true
  | _ => false

/-- A validator for files asks for the size only if it is bounded. -/
theorem answers_file (limits : FileLimits) (v : Value) (path : Pointer) :
    Answers False ((file limits).check v path) (IsAt v path) := by
  cases v with
  | file f =>
    have hreport : ∀ issues, AllAt path issues →
        IsAt (.file f) path ⟨.file f, issues ++ mediaTypeIssues f limits.mediaTypes path⟩ := fun issues hissues =>
      ⟨rfl, List.forall_mem_append.mpr ⟨hissues, mediaTypeIssues_at f _ path⟩⟩
    show Answers False (if !f.isFile then _ else _) _
    by_cases hfile : (!f.isFile) = true
    · rw [if_pos hfile]
      exact .pure (isAt_reject _ path _)
    rw [if_neg hfile]
    by_cases hbounded : (limits.size.least.isSome || limits.size.most.isSome) = true
    · simp only [if_pos hbounded]
      refine .bind (.trivial _) fun size _ => ?_
      exact .bind (fileSizeIssues_at size _ path) fun issues hissues => .pure (hreport issues hissues)
    · simp only [if_neg hbounded]
      exact .pure (hreport [] (List.forall_mem_nil _))
  | _ => exact .pure (isAt_reject _ path _)

/-- **A validator without parts** reports at its own place and leaves the value as it is. -/
theorem answers_leaf {vd : Validator} (h : vd.isLeaf = true) (v : Value) (path : Pointer) :
    Answers False (vd.check v path) (IsAt v path) := by
  unfold check
  cases vd with
  | any => exact .pure (isAt_accept v path)
  | never => exact .pure (isAt_reject v path _)
  | string =>
    cases v with
    | string s => exact .pure (isAt_accept _ path)
    | _ => exact .pure (isAt_reject _ path _)
  | number =>
    cases v with
    | int n => exact .pure (isAt_accept _ path)
    | float x =>
      show Answers False (.ok (if x.isFinite then Report.accept (.float x) else .reject (.float x) path .notFinite)) _
      by_cases hfinite : x.isFinite = true
      · rw [if_pos hfinite]
        exact .ok (isAt_accept _ path)
      · rw [if_neg hfinite]
        exact .ok (isAt_reject _ path _)
    | _ => exact .pure (isAt_reject _ path _)
  | boolean =>
    cases v with
    | bool b => exact .pure (isAt_accept _ path)
    | _ => exact .pure (isAt_reject _ path _)
  | null =>
    cases v with
    | null => exact .pure (isAt_accept _ path)
    | _ => exact .pure (isAt_reject _ path _)
  -- literals are quoted in their messages, which may end in a fault: nothing is claimed then
  | literal value =>
    by_cases hv : v = .absent
    · rw [hv]
      exact .pure (isAt_reject _ path _)
    · show Answers False ((literal value).check v path) _
      rw [check_literal hv]
      by_cases hequal : v.equal value = true
      · rw [if_pos hequal]
        exact .ok (isAt_accept v path)
      · rw [if_neg hequal]
        exact .bind (.trivial _) fun text _ => .pure (isAt_reject v path _)
  | enumeration values =>
    by_cases hv : v = .absent
    · rw [hv]
      exact .pure (isAt_reject _ path _)
    · show Answers False ((enumeration values).check v path) _
      rw [check_enumeration hv]
      by_cases hequal : (values.any fun value => v.equal value) = true
      · rw [if_pos hequal]
        exact .ok (isAt_accept v path)
      · rw [if_neg hequal]
        exact .bind (.trivial _) fun texts _ => .pure (isAt_reject v path _)
  | file limits => exact answers_file limits v path
  | _ => simp [isLeaf] at h

theorem check_array_other {v : Value} (h : v.items? = none) (element : Validator) (bounds : Bounds) (path : Pointer) :
    ∃ cause, (array element bounds).check v path = .ok (.reject v path cause) := by
  cases v with
  | list items => simp [Value.items?] at h
  | _ => exact ⟨_, rfl⟩

theorem check_tuple_other {v : Value} (h : v.items? = none) (items : List Validator) (rest : Option Validator)
    (bounds : Bounds) (path : Pointer) :
    ∃ cause, (tuple items rest bounds).check v path = .ok (.reject v path cause) := by
  cases v with
  | list items => simp [Value.items?] at h
  | _ => exact ⟨_, rfl⟩

theorem check_object_other {v : Value} (h : v.entries? = none) (fields : List Field) (additional : Additional)
    (bounds : Bounds) (path : Pointer) :
    ∃ cause, (object fields additional bounds).check v path = .ok (.reject v path cause) := by
  cases v with
  | dict entries => simp [Value.entries?] at h
  | _ => exact ⟨_, rfl⟩

end Validator

end Schemata
