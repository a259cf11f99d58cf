import CrossDoc.CommandLine.Slug
import CrossDoc.Proofs.CrossReference
import CrossDoc.Proofs.Embed.Answers
import CrossDoc.Proofs.Index
import CrossDoc.Proofs.Node.Section

/-!
# Embeds of targets by their anchors

A target is found by its identifier, or else by its anchor. What is copied is then looked for in the
tree by the identifier that was asked for, and not by that of the target. Under its own identifier
every target of an enumerated page has content, unless it is a page without children
(`contentOf_enumerate_eq_nil_iff`); under an identifier that is only an anchor nothing has
(`contentOf_enumerate_of_get?_eq_none`).
-/

namespace CrossDoc

namespace SourceDocument

variable {numbering : Numbering} {document : SourceDocument} {identifier : String}

theorem contentOf_enumerate_eq_nil_iff [Text.Slugger] {target : Target}
    (h : (document.enumerate numbering).targets.targets.get? identifier = some target) :
    Embed.contentOf (document.enumerate numbering).targets identifier
        (document.enumerate numbering).content = [] ↔
      (document.enumerate numbering).targets.isFileTarget identifier = true ∧
        (document.enumerate numbering).content.children = [] := by
  unfold Embed.contentOf
  by_cases hfile : (document.enumerate numbering).targets.isFileTarget identifier = true
  · rw [if_pos hfile]
    exact ⟨fun hnone => ⟨hfile, hnone⟩, fun hboth => hboth.2⟩
  · rw [if_neg hfile]
    have hother : (document.enumerate numbering).targets.fileTarget ≠ some identifier := by
      intro hsame
      exact hfile (by simp [PageTargets.isFileTarget, hsame])
    obtain ⟨node, hnode, hkey, hdescribes⟩ := describes_enumerate hother h
    have hmem : node ∈ (document.enumerate numbering).content.nodes :=
      List.mem_of_find?_eq_some hnode
    have hidentifier : node.targetIdentifier? = some identifier := by
      simpa using List.find?_some hnode
    have htargeted := hdescribes.isTargetFor (hkey.symm ▸ hidentifier)
    rw [hkey] at htargeted
    constructor
    · intro hnone
      have hfalse := Node.selectTarget_eq_nil_iff.1 hnone node hmem
      rw [htargeted] at hfalse
      exact absurd hfalse (by simp)
    · intro hboth
      exact absurd hboth.1 hfile

theorem contentOf_enumerate_of_get?_eq_none [Text.Slugger]
    (h : (document.enumerate numbering).targets.targets.get? identifier = none) :
    Embed.contentOf (document.enumerate numbering).targets identifier
      (document.enumerate numbering).content = [] := by
  have hfree : ¬ (document.enumerate numbering).targets.contains identifier = true := by
    unfold PageTargets.contains SortedMap.contains
    rw [h]
    simp
  rw [contains_enumerate, not_or] at hfree
  obtain ⟨hfile, hnodes⟩ := hfree
  have hother : ¬ (document.enumerate numbering).targets.isFileTarget identifier = true := by
    unfold PageTargets.isFileTarget
    simpa using hfile
  unfold Embed.contentOf
  rw [if_neg hother]
  apply Node.selectTarget_eq_nil_iff.2
  intro node hnode
  by_cases htargeted : node.isTargetFor identifier = true
  · have hidentifier := Attributes.targetIdentifier?_of_isTargetFor htargeted
    exact absurd ⟨node, hnode, hidentifier⟩ hnodes
  · simpa using htargeted

end SourceDocument

namespace Embed

/--
An embed whose identifier finds a target copies what the target denotes just if this is the
identifier of the target. Found by its anchor, the target is reported to have no content; found by
its identifier only if it is a page without children.
-/
theorem resolveLocal_copies_target_iff [Text.Slugger] {numbering : Numbering}
    {documents : List SourceDocument} {scope : EmbedScope}
    (hindex : scope.index = SourceDocument.indexOf numbering documents)
    (htrees : scope.trees = WorkingDocument.trees
      (documents.map (SourceDocument.enumerate numbering)))
    {label identifier owner : String} {target : Target}
    (hidentifier : Label.identifier? (localParts scope.file label).2 = some identifier)
    (htarget : scope.index.resolve? identifier (localParts scope.file label).1 =
      some (owner, target)) :
    ∃ page tree, scope.index.get? owner = some page ∧ scope.trees.get? owner = some tree ∧
      let content := contentOf page.targets target.identifier tree
      let noContent :=
        unresolved label ("\"" ++ identifier ++ "\" has no content in " ++ owner)
      (content = [] ↔
        page.targets.isFileTarget target.identifier = true ∧ tree.children = []) ∧
      ((resolveLocal scope label).result = some (copied scope label owner page content) ↔
        target.identifier = identifier ∧ content ≠ []) ∧
      (resolveLocal scope label = noContent ↔ target.identifier ≠ identifier ∨ content = []) := by
  obtain ⟨page, howner, hresolved⟩ := ProjectIndex.resolve?_eq_some_iff.1 htarget
  have hpage := ProjectIndex.get?_of_owner? howner
  have hindexed := hpage
  rw [hindex] at hindexed
  obtain ⟨document, -, -, rfl, htree⟩ := SourceDocument.exists_document_of_get?_indexOf hindexed
  rw [← htrees] at htree
  have hkeyed := document.isKeyed_enumerate numbering
  have hkey : (document.enumerate numbering).targets.targets.get? target.identifier =
      some target := by
    obtain ⟨key, hget⟩ := PageTargets.exists_get?_of_resolve? hresolved
    exact hkeyed key target hget ▸ hget
  refine ⟨_, _, hpage, htree, SourceDocument.contentOf_enumerate_eq_nil_iff hkey, ?_⟩
  have hresult := resolveLocal_eq hidentifier howner htree
  by_cases hsame : target.identifier = identifier
  · rw [hsame]
    cases hcontent : contentOf (document.enumerate numbering).targets identifier
        (document.enumerate numbering).content with
    | nil =>
        rw [hcontent] at hresult
        rw [hresult]
        simp [unresolved]
    | cons first rest =>
        rw [hcontent] at hresult
        rw [hresult]
        simp [unresolved]
  · have hfree := PageTargets.get?_eq_none_of_identifier_ne hkeyed hresolved hsame
    have hnone := SourceDocument.contentOf_enumerate_of_get?_eq_none hfree
    rw [hnone] at hresult
    rw [hresult]
    simp [unresolved, hsame]

def pictured : SourceDocument where
  path := "a.md"
  page := { slug := "a", url := "/a" }
  content := .ofType NodeType.root
    [{ type := NodeType.container, identifier := some "fig:one", children := [.text "picture"] }]

def picturedScope : EmbedScope where
  file := "b.md"
  index := SourceDocument.indexOf {} [pictured]
  trees := WorkingDocument.trees ([pictured].map (SourceDocument.enumerate {}))
  projects := []

/-- By its anchor the figure is found, and then said to have no content. -/
theorem pictured_denies_figure : ∃ page tree target,
    picturedScope.index.resolve? "fig-one" (some "a.md") = some ("a.md", target) ∧
    picturedScope.index.get? "a.md" = some page ∧ picturedScope.trees.get? "a.md" = some tree ∧
    contentOf page.targets target.identifier tree ≠ [] ∧
    resolveLocal picturedScope "a.md#fig-one" = unresolved "a.md#fig-one"
      ("\"" ++ "fig-one" ++ "\" has no content in " ++ "a.md") := by
  have hdocument : (localParts picturedScope.file "a.md#fig-one").1 = some "a.md" := by
    decide +kernel
  have hname : Label.identifier? (localParts picturedScope.file "a.md#fig-one").2 =
      some "fig-one" := by
    decide +kernel
  have hfound : (picturedScope.index.resolve? "fig-one" (some "a.md")).map
      (fun found => (found.1, found.2.identifier)) = some ("a.md", "fig:one") := by
    decide +kernel
  obtain ⟨⟨owner, target⟩, htarget, hnames⟩ := Option.map_eq_some_iff.1 hfound
  obtain ⟨howner, hidentifier⟩ := Prod.mk.inj hnames
  rw [show owner = "a.md" from howner] at htarget
  obtain ⟨page, tree, hpage, htree, hcontent, -, hdenied⟩ :=
    resolveLocal_copies_target_iff rfl rfl hname (hdocument ▸ htarget)
  have hother : target.identifier ≠ "fig-one" := by
    rw [show target.identifier = "fig:one" from hidentifier]
    decide
  have hfile : (picturedScope.index.get? "a.md").all (fun page =>
      !page.targets.isFileTarget "fig:one") = true := by
    decide +kernel
  refine ⟨page, tree, target, htarget, hpage, htree, fun hnone => ?_, hdenied.2 (Or.inl hother)⟩
  obtain ⟨hisFile, -⟩ := hcontent.1 hnone
  rw [show target.identifier = "fig:one" from hidentifier] at hisFile
  rw [hpage, Option.all_some, hisFile] at hfile
  exact absurd hfile (by simp)

end Embed

end CrossDoc
