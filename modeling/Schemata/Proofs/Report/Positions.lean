import Schemata.Proofs.Report.Independence
import Schemata.Proofs.Source.Tree

/-!
# `Schemata.Proofs.Report.Positions` — errors at the right lines

A document is checked on its value and reported on its text. When the value mirrors the tree of the text, every
error is reported at the start of the node that its pointer leads to, or, for a key that is missing, at the start
of the mapping that lacks it.

## Contents
- **Findings.** `StartsAt`, the mark that an issue is about, and `issueFinding_position`.
- **Documents.** `places_of_parse`, the positions of a document from its text, and `checkDocument_positions`, on the
  whole check of a file.
-/

namespace Schemata

open Yaml

/-! ## Findings -/

/-- The mark that an issue is about: the start of the node at its pointer, or of the mapping that lacks the
required key which is the last token of the pointer. -/
def StartsAt (node : Node) (note : Note) (mark : Mark) : Prop :=
  (∃ m, node.Leads (Pointer.decode note.path) m ∧ m.mark = mark) ∨
  (note.code = "required" ∧ ∃ place key tag entries, Pointer.decode note.path = place ++ [key] ∧
    node.Leads place (.mapping mark tag entries) ∧ ∀ e ∈ entries, e.1.keyText ≠ key)

/-- A finding that says what a note says, with line and column of a mark counted from one. -/
structure Finding.Reports (note : Note) (mark : Mark) (finding : Finding) : Prop where
  message : finding.message = note.message
  pointer : finding.pointer = some note.path
  line : finding.line = some (mark.line + 1)
  column : finding.column = some (mark.column + 1)

/-- **The finding of an issue has the position of what the issue is about.** -/
theorem issueFinding_position {node : Node} {v : Value} (hmirrors : Mirrors node v) {issue : Issue}
    (hissue : Located v issue) (file : String) :
    ∃ mark, StartsAt node issue.note mark ∧
      (issueFinding (SourceMap.ofNode node) file issue).Reports issue.note mark := by
  have hdecode : Pointer.decode issue.note.path = issue.path := Pointer.decode_encode issue.path
  unfold StartsAt issueFinding
  rw [hdecode]
  rcases hissue with ⟨w, hw⟩ | ⟨place, key, members, rfl, hplace, hkey⟩
  · obtain ⟨m, hm, _⟩ := hmirrors.leads hw
    have hlocate := SourceMap.locate_of_get? (some file) (SourceMap.get?_ofNode hmirrors.distinctKeys hm) rfl
    refine ⟨m.mark, .inl ⟨m, hm, rfl⟩, rfl, rfl, ?_, ?_⟩
    · exact congrArg Location.line hlocate
    · exact congrArg Location.column hlocate
  · obtain ⟨m, hm, hmembers⟩ := hmirrors.leads hplace
    cases hmembers with
    | scalar _ noEntries => cases noEntries
    | @mapping mark tag entries _ keys distinct each =>
      have hlacks := (@Mirrors.mapping mark tag _ _ keys distinct each).keyText_ne hkey
      have hnone : ∀ n, ¬ node.Leads (place ++ [key]) n := by
        intro n hn
        obtain ⟨above, habove, hlast⟩ := Node.leads_concat hn
        obtain rfl := Node.leads_unique hmirrors.distinctKeys hm habove
        cases hlast with
        | member he _ => exact hlacks _ he rfl
      have hlocate := SourceMap.locate_of_parent (some file) (SourceMap.get?_ofNode_none hnone)
        (SourceMap.get?_ofNode hmirrors.distinctKeys hm) rfl
      refine ⟨mark, .inr ⟨rfl, place, key, tag, entries, rfl, hm, hlacks⟩, rfl, rfl, ?_, ?_⟩
      · exact congrArg Location.line hlocate
      · exact congrArg Location.column hlocate

/-! ## Documents -/

section

variable [Yaml.Engine]

/-- The positions of a document that is read are those of the tree of its text. -/
theorem places_of_parse {path content : String} {document : Document} (h : Document.parse path content = .ok document)
    {node : Node} (hnode : Engine.compose content = .ok (some node)) : document.places = SourceMap.ofNode node := by
  have hplaces : SourceMap.ofText? content = .ok (SourceMap.ofNode node) := by
    unfold SourceMap.ofText?
    rw [hnode]
  unfold Document.parse at h
  rw [hplaces] at h
  cases hvalue : parseContent path content with
  | error e => rw [hvalue] at h; cases h
  | ok value =>
    rw [hvalue] at h
    obtain rfl := Except.ok.inj h
    rfl

/-- A text with a tree and a value is a document with that value. -/
theorem parse_of_compose {path content : String} {node : Node} (hnode : Engine.compose content = .ok (some node))
    {value : Value} (hvalue : parseContent path content = .ok value) :
    ∃ document, Document.parse path content = .ok document ∧ document.value = value := by
  unfold Document.parse SourceMap.ofText?
  rw [hvalue, hnode]
  exact ⟨_, rfl, rfl⟩

/-- **Errors carry the right position.** Let a file hold a text with a tree, let the value of the text mirror the tree,
and let its validation have an outcome. Checking the file then reports one error for every issue, in the order of the
issues, and each has the line and column, counted from one, where the node at the issue's pointer starts, or the mapping
that lacks the key which is missing. This holds for every validator, and so for that of every schema, and whatever has
been loaded before. -/
theorem checkDocument_positions {vd : Validator} {files : Files} {store : Store} (hstore : store.Faithful files)
    {path content : String} (hcontent : files.content (Path.resolve (Path.plain path)) = .ok content)
    {node : Node} (hnode : Engine.compose content = .ok (some node))
    {value : Value} (hvalue : parseContent (Path.resolve (Path.plain path)) content = .ok value)
    (hmirrors : Mirrors node value) {outcome : Outcome} (hvalidate : vd.validate value = .ok outcome) :
    ∃ report, ((Store.checkDocument vd path).run.run store).1 = .ok report ∧
      List.Forall₂ (fun issue finding => ∃ mark, StartsAt node issue.note mark ∧ finding.Reports issue.note mark)
        outcome.issues report.errors := by
  obtain ⟨document, hparse, rfl⟩ := parse_of_compose hnode hvalue
  have hread : Document.read files (Path.resolve (Path.plain path)) = .ok document := by
    unfold Document.read
    rw [hcontent]
    dsimp only [bind, Except.bind]
    exact hparse
  obtain ⟨_, hrun, -⟩ := Store.checkDocument_run hstore vd path
  have hreport := (Files.report_document hread vd _).mpr ⟨outcome, hvalidate, rfl⟩
  rw [hrun]
  refine ⟨_, hreport, ?_⟩
  rw [places_of_parse hparse hnode, List.forall₂_map_right_iff, List.forall₂_same]
  intro issue hissue
  exact issueFinding_position hmirrors (validate_located hmirrors.treeOver hvalidate issue hissue) _

end

attribute [local instance] Yaml.engine

/-- A file that holds a mapping with an unknown key that has to be escaped, and without a required key that is empty. -/
theorem checkDocument_positions_escaped :
    let vd := Validator.object [.mk (.string "") true .any] .strict {}
    let node := Node.mapping ⟨0, 0, 0⟩ .mapping [(.scalar ⟨0, 0, 0⟩ .text "a~/b", .scalar ⟨6, 0, 6⟩ .int "1")]
    let value := Value.dict [(.string "a~/b", .int 1)]
    let files : Files := [("d.yaml", .file "a~/b: 1".toUTF8.toList)]
    let store : Store := .ofFiles files {}
    let outcome : Outcome := .error [⟨["a~/b"], .unknownMember "a~/b"⟩, ⟨[""], .missingMember ""⟩]
    store.Faithful files ∧ files.content (Path.resolve (Path.plain "d.yaml")) = .ok "a~/b: 1" ∧
      Engine.compose "a~/b: 1" = .ok (some node) ∧
      parseContent (Path.resolve (Path.plain "d.yaml")) "a~/b: 1" = .ok value ∧ Mirrors node value ∧
      vd.validate value = .ok outcome ∧
      ∃ report, ((Store.checkDocument vd "d.yaml").run.run store).1 = .ok report ∧
        List.Forall₂ (fun issue finding => ∃ mark, StartsAt node issue.note mark ∧ finding.Reports issue.note mark)
          outcome.issues report.errors := by
  intro vd node value files store outcome
  have hstore : store.Faithful files := ⟨rfl, nofun⟩
  have hcontent : files.content (Path.resolve (Path.plain "d.yaml")) = .ok "a~/b: 1" := by with_unfolding_all rfl
  let tokens : List Token :=
    [⟨.blockMappingStart, ⟨0, 0, 0⟩, ⟨0, 0, 0⟩⟩, ⟨.key, ⟨0, 0, 0⟩, ⟨0, 0, 0⟩⟩,
      ⟨.scalar "a~/b" true false, ⟨0, 0, 0⟩, ⟨4, 0, 4⟩⟩, ⟨.value, ⟨4, 0, 4⟩, ⟨5, 0, 5⟩⟩,
      ⟨.scalar "1" true false, ⟨6, 0, 6⟩, ⟨7, 0, 7⟩⟩, ⟨.blockEnd, ⟨7, 0, 7⟩, ⟨7, 0, 7⟩⟩, ⟨.streamEnd, ⟨7, 0, 7⟩, ⟨7, 0, 7⟩⟩]
  have htokens : Token.ofText? "a~/b: 1" = .ok tokens := by decide +kernel
  have hnode : Engine.compose "a~/b: 1" = .ok (some node) := by
    change (Token.ofText? "a~/b: 1" >>= Node.ofTokens?) = _
    rw [htokens]
    with_unfolding_all rfl
  have hvalue : parseContent (Path.resolve (Path.plain "d.yaml")) "a~/b: 1" = .ok value := by
    rw [parseContent, if_neg (by with_unfolding_all decide), parseYaml, Yaml.load, hnode]
    with_unfolding_all rfl
  have hmirrors : Mirrors node value :=
    .mapping rfl (List.nodup_singleton _) (List.forall_mem_singleton.mpr (.scalar rfl rfl))
  have hvalidate : vd.validate value = .ok outcome := by with_unfolding_all rfl
  exact ⟨hstore, hcontent, hnode, hvalue, hmirrors, hvalidate,
    checkDocument_positions hstore hcontent hnode hvalue hmirrors hvalidate⟩

end Schemata
