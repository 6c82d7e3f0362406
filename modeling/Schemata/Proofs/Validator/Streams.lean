import Schemata.Proofs.Validator.Parts

/-!
# `Schemata.Proofs.Validator.Streams` — validation on open streams

The size of an open stream is found by moving it to its end and back. So a measurement leaves the positions of all
streams as they were. Wherever measuring a file does nothing but give its size, validation is validation with the sizes
known: it ends in the same report or fault, and if it runs on streams, these stand as before.

## Contents
- **Runs.** `RunsAs`, with a rule for every way of building a computation.
- **Parts.** The traversals and the issues of sizes.
- **Validation.** `checkWith_runsAs`, for any way of measuring files that only gives their sizes.
- **Streams.** `File.measure_eq`, and validation on streams: `check_runsAs` and `Validator.validateMoving_eq`.
-/

namespace Schemata

/-! ## Runs -/

/-- Computations that a fault ends, whatever was to follow. -/
class EndsAtFaults (m : Type → Type) [Monad m] [MonadExceptOf Fault m] : Prop where
  throw_bind {α β : Type} (fault : Fault) (f : α → m β) : (MonadExcept.throw fault : m α) >>= f = MonadExcept.throw fault

variable {m : Type → Type} [Monad m] [MonadExceptOf Fault m]

/-- `RunsAs x y`: `y` does nothing but answer what `x` answers, or end in the fault in which `x` ends. -/
def RunsAs {α : Type} (x : Except Fault α) (y : m α) : Prop := y = orFault x

/-- The measuring of files with sizes known. -/
abbrev known : File → Except Fault (Option Int) := fun f => .ok f.size?

namespace RunsAs

variable {α β : Type}

theorem eq {x : Except Fault α} {y : m α} (h : RunsAs x y) : y = orFault x := h

theorem pure (a : α) : RunsAs (Pure.pure a) (Pure.pure a : m α) := rfl

theorem throw (fault : Fault) :
    RunsAs (MonadExcept.throw fault : Except Fault α) (MonadExcept.throw fault : m α) := rfl

theorem ite {c : Prop} [Decidable c] {x z : Except Fault α} {x' z' : m α} (h : RunsAs x x') (h' : RunsAs z z') :
    RunsAs (if c then x else z) (if c then x' else z') := by
  split
  · exact h
  · exact h'

theorem orFault (x : Except Fault α) : RunsAs (Schemata.orFault x) (Schemata.orFault x : m α) := by
  cases x with
  | error fault => exact throw fault
  | ok a => exact pure a

variable [LawfulMonad m] [EndsAtFaults m]

/-- A step and what follows it. -/
theorem bind {x : Except Fault α} {y : m α} {f : α → Except Fault β} {g : α → m β} (h : RunsAs x y)
    (hf : ∀ a, RunsAs (f a) (g a)) : RunsAs (x >>= f) (y >>= g) := by
  rw [RunsAs, show y = Schemata.orFault x from h]
  cases x with
  | error fault => exact EndsAtFaults.throw_bind fault g
  | ok a => exact (pure_bind a g).trans (hf a)

/-! ## Parts -/

theorem checkItems {check : Value → Pointer → Except Fault Report} {check' : Value → Pointer → m Report}
    (path : Pointer) (i : Nat) (items : List Value)
    (h : ∀ v path, RunsAs (check v path) (check' v path)) :
    RunsAs (Schemata.checkItems check path i items) (Schemata.checkItems check' path i items) := by
  induction items generalizing i with
  | nil => exact pure _
  | cons v vs ih => exact bind (h v _) fun r => bind (ih (i + 1)) fun more => pure _

theorem checkEntries {check : Value → Value → Except Fault (Option Value × List Issue)}
    {check' : Value → Value → m (Option Value × List Issue)} (entries : Entries)
    (h : ∀ k v, RunsAs (check k v) (check' k v)) :
    RunsAs (Schemata.checkEntries check entries) (Schemata.checkEntries check' entries) := by
  induction entries with
  | nil => exact pure _
  | cons e es ih =>
    obtain ⟨k, v⟩ := e
    exact bind (h k v) fun one => bind ih fun more => pure _

theorem allSatisfy {test : α → Except Fault Bool} {test' : α → m Bool} (as : List α)
    (h : ∀ a ∈ as, RunsAs (test a) (test' a)) : RunsAs (Schemata.allSatisfy test as) (Schemata.allSatisfy test' as) := by
  induction as with
  | nil => exact pure _
  | cons a as ih =>
    obtain ⟨hfirst, hrest⟩ := List.forall_mem_cons.mp h
    exact bind hfirst fun b => ite (ih hrest) (pure _)

theorem countSatisfying {test : α → Except Fault Bool} {test' : α → m Bool} (as : List α)
    (h : ∀ a ∈ as, RunsAs (test a) (test' a)) :
    RunsAs (Schemata.countSatisfying test as) (Schemata.countSatisfying test' as) := by
  induction as with
  | nil => exact pure _
  | cons a as ih =>
    obtain ⟨hfirst, hrest⟩ := List.forall_mem_cons.mp h
    exact bind hfirst fun b => bind (ih hrest) fun n => pure _

/-- An issue that is reported if a limit is given and passed, and otherwise what follows. -/
theorem passing (limit : Option Value) {test : Value → Except Fault Bool} {text : Except Fault String} {issues : String → β}
    {z : Except Fault β} {z' : m β} (h : RunsAs z z') :
    let reported {n : Type → Type} [Monad n] [MonadExceptOf Fault n] (z : n β) (passed : Bool) : n β :=
      if passed then Schemata.orFault text >>= fun t => Pure.pure (issues t) else z
    RunsAs (match limit with | some l => Schemata.orFault (test l) >>= reported z | none => Pure.pure false >>= reported z)
      (match limit with | some l => Schemata.orFault (test l) >>= reported z' | none => Pure.pure false >>= reported z') := by
  intro reported
  have hreported : ∀ passed, RunsAs (reported z passed) (reported z' passed) := fun _ =>
    ite (bind (orFault text) fun _ => pure _) h
  cases limit with
  | none => exact bind (pure _) hreported
  | some l => exact bind (orFault _) hreported

theorem lengthIssues (length : Nat) (bounds : Bounds) (path : Pointer) :
    RunsAs (Schemata.lengthIssues length bounds path) (Schemata.lengthIssues (m := m) length bounds path) :=
  passing bounds.least (passing bounds.most (pure _))

theorem fileSizeIssues (size : Option Int) (bounds : Bounds) (path : Pointer) :
    RunsAs (Schemata.fileSizeIssues size bounds path) (Schemata.fileSizeIssues (m := m) size bounds path) := by
  cases size with
  | none => exact pure _
  | some size => exact passing bounds.least (passing bounds.most (pure _))

/-- An issue that is reported if a limit is given and passed, and what follows in any case. -/
theorem counting (limit : Option Value) {test : Value → Except Fault Bool} {text : Value → Except Fault String}
    {issues : String → List Issue} {next : List Issue → Except Fault β} {next' : List Issue → m β}
    (h : ∀ few, RunsAs (next few) (next' few)) :
    let counted {n : Type → Type} [Monad n] [MonadExceptOf Fault n] (next : List Issue → n β) (l : Value) (passed : Bool) :=
      if passed then Schemata.orFault (text l) >>= fun t => Pure.pure (issues t) >>= next else Pure.pure [] >>= next
    RunsAs (match limit with | some l => Schemata.orFault (test l) >>= counted next l | none => Pure.pure [] >>= next)
      (match limit with | some l => Schemata.orFault (test l) >>= counted next' l | none => Pure.pure [] >>= next') := by
  intro counted
  cases limit with
  | none => exact bind (pure _) h
  | some l => exact bind (orFault _) fun _ => ite (bind (orFault _) fun _ => bind (pure _) h) (bind (pure _) h)

theorem memberCountIssues (count : Nat) (bounds : Bounds) (path : Pointer) :
    RunsAs (Schemata.memberCountIssues count bounds path) (Schemata.memberCountIssues (m := m) count bounds path) :=
  counting bounds.least fun _ => counting bounds.most fun _ => pure _

/-! ## Validation -/

/-- A validator that reports with a way of measuring what it reports with sizes known. -/
abbrev Steady (measure : File → m (Option Int)) (vd : Validator) : Prop :=
  ∀ v path, RunsAs (vd.check v path) (vd.checkWith measure v path)

variable {measure : File → m (Option Int)}

theorem checkOptions {options : List Validator} (h : ∀ c ∈ options, Steady measure c) (admitted : List Bool) (v : Value)
    (path : Pointer) :
    RunsAs (Validator.checkOptions known options admitted v path)
      (Validator.checkOptions measure options admitted v path) := by
  induction options generalizing admitted with
  | nil => exact pure _
  | cons c cs ih =>
    obtain ⟨hfirst, hrest⟩ := List.forall_mem_cons.mp h
    cases admitted with
    | nil => exact pure _
    | cons b bs =>
      cases b with
      | false => exact ih hrest bs
      | true =>
        refine bind (hfirst v path) fun r => ?_
        cases r.ok with
        | true => exact pure _
        | false =>
          refine bind (ih hrest bs) fun found => ?_
          cases found with
          | inl output => exact pure _
          | inr issues => exact pure _

theorem checkPositional {validators : List Validator} (h : ∀ c ∈ validators, Steady measure c) (i : Nat)
    (items : List Value) (path : Pointer) :
    RunsAs (Validator.checkPositional known validators i items path)
      (Validator.checkPositional measure validators i items path) := by
  induction validators generalizing i items with
  | nil => exact pure _
  | cons c cs ih =>
    obtain ⟨hfirst, hrest⟩ := List.forall_mem_cons.mp h
    cases items with
    | nil => exact pure _
    | cons v vs => exact bind (hfirst v _) fun r => bind (ih hrest (i + 1) vs) fun more => pure _

theorem checkRest {rest : Option Validator} (h : ∀ c ∈ rest.toList, Steady measure c) (i : Nat) (items : List Value)
    (path : Pointer) :
    RunsAs (Validator.checkRest known rest i items path) (Validator.checkRest measure rest i items path) := by
  cases rest with
  | none => exact pure _
  | some c => exact checkItems path i items (h c (by simp))

theorem fieldMember {fields : List Field} (h : ∀ f ∈ fields, Steady measure f.validator) (key item : Value)
    (place : Pointer) :
    RunsAs (Field.checkMember known fields key item place) (Field.checkMember measure fields key item place) := by
  induction fields with
  | nil => exact pure _
  | cons f fs ih =>
    obtain ⟨hfirst, hrest⟩ := List.forall_mem_cons.mp h
    obtain ⟨name, required, validator⟩ := f
    exact ite (bind (hfirst item place) fun r => pure _) (ih hrest)

theorem otherMember {additional : Additional} (h : ∀ c ∈ additional.validator?.toList, Steady measure c)
    (key item : Value) (place : Pointer) :
    RunsAs (additional.checkMember known key item place) (additional.checkMember measure key item place) := by
  cases additional with
  | strict => exact pure _
  | passthrough => exact pure _
  | checked c => exact bind (h c (by simp [Additional.validator?]) item place) fun r => pure _

theorem checkAbsent {fields : List Field} (h : ∀ f ∈ fields, Steady measure f.validator) (entries : Entries)
    (path : Pointer) :
    RunsAs (Field.checkAbsent known fields entries path) (Field.checkAbsent measure fields entries path) := by
  induction fields with
  | nil => exact pure _
  | cons f fs ih =>
    obtain ⟨hfirst, hrest⟩ := List.forall_mem_cons.mp h
    obtain ⟨name, required, validator⟩ := f
    refine ite (ih hrest) (bind (hfirst .absent _) fun r => bind (ih hrest) fun more => ?_)
    exact ite (pure _) (ite (pure _) (pure _))

theorem mapM {f : α → Except Fault β} {f' : α → m β} (as : List α) (h : ∀ a, RunsAs (f a) (f' a)) :
    RunsAs (as.mapM f) (as.mapM f') := by
  induction as with
  | nil => exact pure _
  | cons a as ih =>
    rw [List.mapM_cons, List.mapM_cons]
    exact bind (h a) fun b => bind ih fun bs => pure _

/-- A file is measured only if its size is bounded. -/
theorem file (hmeasure : ∀ f, RunsAs (known f) (measure f)) (f : File) (limits : FileLimits) (path : Pointer) :
    RunsAs ((Validator.file limits).check (.file f) path) ((Validator.file limits).checkWith measure (.file f) path) := by
  refine ite (pure _) (ite ?_ (bind (pure _) fun _ => pure _))
  exact bind (hmeasure f) fun size => bind (fileSizeIssues size _ path) fun issues => pure _

/-! ### Conditions -/

theorem accepted {c : Validator} (h : Steady measure c) (v : Value) :
    RunsAs (do return (← c.checkWith known v []).ok) (do return (← c.checkWith measure v []).ok) :=
  bind (h v []) fun _ => pure _

theorem acceptPositional {validators : List Validator} (h : ∀ c ∈ validators, Steady measure c) (items : List Value) :
    RunsAs (Validator.acceptPositional known validators items) (Validator.acceptPositional measure validators items) := by
  induction validators generalizing items with
  | nil => exact pure _
  | cons c cs ih =>
    obtain ⟨hfirst, hrest⟩ := List.forall_mem_cons.mp h
    cases items with
    | nil => exact pure _
    | cons v vs =>
      exact bind (hfirst v []) fun r => ite (ih hrest vs) (pure _)

theorem acceptItems {additional : Additional} (h : ∀ c ∈ additional.validator?.toList, Steady measure c)
    (items : List Value) :
    RunsAs (additional.acceptItems known items) (additional.acceptItems measure items) := by
  cases additional with
  | strict => exact pure _
  | passthrough => exact pure _
  | checked c => exact allSatisfy items fun v _ => accepted (h c (by simp [Additional.validator?])) v

theorem acceptMember {rules : List PatternRule} (h : ∀ rule ∈ rules, Steady measure rule.validator) (key : String)
    (v : Value) :
    RunsAs (PatternRule.acceptMember known rules key v) (PatternRule.acceptMember measure rules key v) := by
  induction rules with
  | nil => exact pure _
  | cons rule rules ih =>
    obtain ⟨hfirst, hrest⟩ := List.forall_mem_cons.mp h
    obtain ⟨pattern, c⟩ := rule
    refine ite (bind (hfirst v []) fun r => ?_) (ih hrest)
    exact ite (bind (ih hrest) fun rest => pure _) (pure _)

/-- A condition answers with a way of measuring what it answers with sizes known. -/
theorem holds {test : Test} (h : ∀ c ∈ test.validators, Steady measure c) (v : Value) :
    RunsAs (test.holdsWith known v) (test.holdsWith measure v) := by
  -- only validators inside of a condition may measure, and these do so as they would with sizes known
  cases test with
  | amongComposites | equals | distinct => exact pure _
  | custom | integral | compares | multipleOf => exact orFault _
  | characters relation limit =>
    cases v with
    | string s => exact orFault _
    | _ => exact throw _
  | found pattern =>
    cases v with
    | string s => exact pure _
    | _ => exact throw _
  | size relation limit =>
    unfold Test.holdsWith
    cases v.length? with
    | some n => exact orFault _
    | none => exact throw _
  | positions items extra =>
    cases v with
    | list vs =>
      refine bind (acceptPositional (fun c hc => h c (List.mem_append_left _ hc)) vs) fun b => ?_
      cases b with
      | true => exact acceptItems (fun c hc => h c (List.mem_append_right _ hc)) _
      | false => exact pure _
    | _ => exact pure _
  | counted item least most =>
    cases v with
    | list vs =>
      refine bind (countSatisfying vs fun w _ => accepted (h item List.mem_cons_self) w) fun n => ?_
      refine bind (orFault _) fun few => ?_
      cases few with
      | true => exact pure _
      | false =>
        cases most with
        | none => exact pure _
        | some most => exact orFault _
    | _ => exact pure _
  | patterns rules declared others =>
    cases v with
    | dict entries =>
      refine allSatisfy entries fun e _ => ?_
      split
      · exact pure _
      have hrules : ∀ rule ∈ rules, Steady measure rule.validator := fun rule hrule =>
        h rule.validator (List.mem_append_left _ (List.mem_map_of_mem hrule))
      refine bind (acceptMember hrules _ e.2) fun outcome => ?_
      cases outcome with
      | some b => exact pure _
      | none => exact acceptItems (fun c hc => h c (List.mem_append_right _ hc)) _
    | _ => exact pure _
  | rejectedBy negated => exact bind (h negated List.mem_cons_self v []) fun r => pure _
  | hasKeys keys =>
    cases v with
    | dict entries =>
      refine allSatisfy keys fun key _ => ?_
      split
      · exact pure _
      · exact throw _
    | _ => exact pure _

end RunsAs

namespace Validator

/-! ### Validators -/

/-- What a union makes of the options that it tries. -/
def answer {m : Type → Type} [Monad m] [MonadExceptOf Fault m] (measure : File → m (Option Int)) (options : List Validator)
    (byTags : Bool) (admitted : List Bool) (v : Value) (path : Pointer) (none several : Cause) : m Report := do
  if byTags && !(options.zip admitted).any Prod.snd then return .reject v path none
  else
    match (← checkOptions measure options admitted v path) with
    | .inl output => return .accept output
    | .inr [issues] => return ⟨v, issues⟩
    | .inr _ => return .reject v path several

variable [LawfulMonad m] [EndsAtFaults m] {measure : File → m (Option Int)}

/-- **Validation does the same however files are measured**, if that does nothing but give their sizes. -/
theorem checkWith_runsAs (hmeasure : ∀ f, RunsAs (known f) (measure f)) (vd : Validator) (v : Value) (path : Pointer) :
    RunsAs (vd.check v path) (vd.checkWith measure v path) := by
  -- Over all parts, because conditions run validators too.
  induction vd using inductionOnParts generalizing v path with
  | step vd ih =>
    cases vd with
    | any | never | string | number | boolean | null => exact .pure _
    | literal value =>
      cases v with
      | absent => exact .pure _
      | _ => exact .ite (.pure _) (.bind (.orFault _) fun _ => .pure _)
    | enumeration values =>
      cases v with
      | absent => exact .pure _
      | _ => exact .ite (.pure _) (.bind (.mapM values fun _ => .orFault _) fun _ => .pure _)
    | refined inner test message =>
      refine .bind (ih inner List.mem_cons_self v path) fun r => ?_
      cases hok : r.ok with
      | false => exact .pure _
      | true =>
        refine .bind (.holds (fun c hc => ih c (List.mem_cons_of_mem _ hc)) r.output) fun b => ?_
        cases b with
        | true => exact .pure _
        | false => exact .pure _
    | optional inner =>
      refine .bind (ih inner List.mem_cons_self v path) fun r => ?_
      cases v with
      | absent => cases r.ok <;> exact .pure _
      | _ => exact .pure _
    | defaulted inner value =>
      cases v with
      | absent => exact .pure _
      | _ => exact ih inner List.mem_cons_self _ path
    | described inner text => exact ih inner List.mem_cons_self v path
    | union options tags =>
      have hanswer : ∀ (byTags : Bool) (admitted : List Bool) (none several : Cause),
          RunsAs (answer known options byTags admitted v path none several)
            (answer measure options byTags admitted v path none several) := by
        intro byTags admitted none several
        refine .ite (.pure _) (.bind (.checkOptions ih admitted v path) fun found => ?_)
        rcases found with _ | _ | ⟨_, _ | _⟩ <;> exact .pure _
      cases v <;> exact hanswer _ _ _ _
    | both left right =>
      refine .bind (ih left (by simp [parts, children]) v path) fun l =>
        .bind (ih right (by simp [parts, children]) v path) fun r => ?_
      exact .ite (.pure _) (.pure _)
    | file limits =>
      cases v with
      | file f => exact .file hmeasure f limits path
      | _ => exact .pure _
    | array element bounds =>
      cases v with
      | list items =>
        exact .bind (.lengthIssues _ _ _) fun lengths =>
          .bind (.checkItems path 0 items (ih element List.mem_cons_self)) fun more => .pure _
      | _ => exact .pure _
    | tuple validators rest bounds =>
      cases v with
      | list items =>
        have hitems : ∀ c ∈ validators, RunsAs.Steady measure c := fun c hc => ih c (List.mem_append_left _ hc)
        have hrest : ∀ c ∈ rest.toList, RunsAs.Steady measure c := fun c hc => ih c (List.mem_append_right _ hc)
        refine .ite (.pure _) (.ite (.pure _) (.ite (.pure _) ?_))
        exact .bind (.lengthIssues _ _ _) fun lengths => .bind (.checkPositional hitems _ _ path) fun done =>
          .bind (.checkRest hrest _ _ path) fun more => .pure _
      | _ => exact .pure _
    | object fields additional bounds =>
      cases v with
      | dict entries =>
        have hfields : ∀ f ∈ fields, RunsAs.Steady measure f.validator := fun f hf =>
          ih f.validator (List.mem_append_left _ (List.mem_map_of_mem hf))
        have hothers : ∀ c ∈ additional.validator?.toList, RunsAs.Steady measure c := fun c hc =>
          ih c (List.mem_append_right _ hc)
        refine .bind (.memberCountIssues _ _ _) fun counts => .bind (.checkEntries entries fun key item => ?_) fun done =>
          .bind (.checkAbsent hfields entries path) fun gone => .pure _
        refine .bind (.fieldMember hfields key item _) fun report => ?_
        cases report with
        | some r => exact .pure _
        | none => exact .otherMember hothers key item _
      | _ => exact .pure _

end Validator

/-! ## Streams -/

/-- Moving a stream to its end and back leaves it where it stood. -/
theorem File.probe_eq (handle : Nat) (content : List UInt8) (positions : File.Positions) :
    File.probe handle content positions = (content.length, positions) := by
  refine Prod.ext (if_pos rfl) (funext fun h => ?_)
  show (if h = handle then positions handle else if h = handle then content.length else positions h) = positions h
  split
  next heq => rw [heq]
  next => rfl

theorem File.measure_eq (f : File) (positions : File.Positions) : f.measure positions = (f.size?, positions) := by
  cases f with
  | bytes form content => rfl
  | stream handle content seekable =>
    rw [File.measure, File.probe_eq, File.size?]
    cases seekable <;> rfl
  | upload handle content reported =>
    rw [File.measure, File.probe_eq, File.size?]
    cases reported.size with
    | some size => rfl
    | none => cases reported.seekable <;> rfl

/-- Computations that may move streams. -/
abbrev OnStreams := StateT File.Positions (Except Fault)

/-- Computations that may move streams, and that leave them where they are if a fault ends the computation. -/
abbrev OnMovedStreams := ExceptT Fault (StateM File.Positions)

instance : EndsAtFaults OnStreams := ⟨fun _ _ => rfl⟩

instance : EndsAtFaults OnMovedStreams := ⟨fun _ _ => rfl⟩

namespace Validator

/-- **Validation on open streams** reports what validation with their sizes known does, and leaves them where they
stand. -/
theorem check_runsAs (vd : Validator) (v : Value) (path : Pointer) (positions : File.Positions) :
    (vd.checkOpen v path).run positions = (vd.check v path).map fun r => (r, positions) := by
  have hmeasure : ∀ f, RunsAs (m := OnStreams) (known f) fun positions => .ok (f.measure positions) :=
    fun f => funext fun positions => congrArg Except.ok (f.measure_eq positions)
  rw [checkOpen, (checkWith_runsAs hmeasure vd v path).eq]
  cases vd.check v path <;> rfl

/-- Validates a value on open streams; the positions afterwards come with the outcome, and with a fault as well. -/
def validateMoving (vd : Validator) (v : Value) (positions : File.Positions) : Except Fault Outcome × File.Positions :=
  ((vd.checkWith (m := OnMovedStreams) (fun f => ExceptT.lift f.measure) v []).run.run positions).map
    (Except.map Report.outcome) id

/-- **Streams stand as before after a fault, too.** -/
theorem validateMoving_eq (vd : Validator) (v : Value) (positions : File.Positions) :
    vd.validateMoving v positions = (vd.validate v, positions) := by
  have hmeasure : ∀ f, RunsAs (m := OnMovedStreams) (known f) (ExceptT.lift f.measure) := by
    intro f
    funext positions
    show (Except.ok (f.measure positions).1, (f.measure positions).2) = (Except.ok f.size?, positions)
    rw [f.measure_eq]
  rw [validateMoving, (checkWith_runsAs hmeasure vd v []).eq, validate]
  cases vd.check v [] <;> rfl

end Validator

end Schemata
