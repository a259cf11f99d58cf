import CrossDoc.CommandLine.Slug
import CrossDoc.Proofs.Embed.Content
import CrossDoc.Proofs.Index
import CrossDoc.Proofs.Link.Outcome

/-!
# Embeds of content of the page itself

A label that does not name a document is looked up on all pages in the order of their paths, and the
page of the embed is one of them. A cross-reference looks at its own page first. So an embed copies
the target that a cross-reference leads to only where no page before its own resolves the identifier
(`copies_own_target_iff`).
-/

namespace CrossDoc.Embed

variable {scope : EmbedScope} {label identifier owner : String} {page : IndexedPage} {tree : Node}

theorem remoteBaseUrl_of_remoteAnswer {answers : RemoteCache.PageAnswers} {embedded : Embedded}
    (h : (remoteAnswer scope label answers).result = some embedded) :
    embedded.source.remoteBaseUrl ≠ none := by
  obtain ⟨reference, dataUrl, page, nodes, hreference, -, -, -, rfl⟩ :=
    exists_rebased_of_remoteAnswer h
  obtain ⟨project, entry, rfl⟩ := ExternalLink.resolve_cases hreference
  rw [remoteBaseUrl_rebased, ExternalLink.remoteBaseUrl_toEntry]
  exact Option.some_ne_none project.url

theorem eq_of_copied_eq_own {nodes others : List Node} {found : IndexedPage}
    (h : copied scope label owner found others = copied scope label scope.file page nodes) :
    owner = scope.file ∧ others = nodes := by
  have hlocal := congrArg Embedded.localFile h
  have htarget := congrArg Embedded.target h
  rw [localFile_copied, localFile_copied, if_pos rfl] at hlocal
  rw [target_copied, target_copied, if_pos rfl] at htarget
  by_cases hown : owner = scope.file
  · rw [if_pos hown] at htarget
    exact ⟨hown, congrArg Node.children htarget⟩
  · rw [if_neg hown] at hlocal
    exact absurd hlocal (Option.some_ne_none owner)

/-! ## Labels without a document -/

theorem copies_own_iff (source : RemoteSource) (cache : RemoteCache) {nodes : List Node}
    (htree : scope.trees.get? scope.file = some tree)
    (hpage : scope.index.get? scope.file = some page) :
    (resolve source scope label cache).1.result = some (copied scope label scope.file page nodes) ↔
      ExternalLink.claims scope.projects label = false ∧ ∃ identifier,
        Label.identifier? (localParts scope.file label).2 = some identifier ∧
        scope.index.owner? identifier (localParts scope.file label).1 = some (scope.file, page) ∧
        contentOf page.targets identifier tree = nodes ∧ nodes ≠ [] := by
  rw [(readsPages_resolve source scope label).result]
  unfold answer
  cases hclaims : ExternalLink.claims scope.projects label with
  | true =>
      simp only [if_true, Bool.true_eq_false, false_and, iff_false]
      intro hremote
      exact remoteBaseUrl_of_remoteAnswer hremote rfl
  | false =>
      simp only [Bool.false_eq_true, if_false, true_and]
      constructor
      · intro hresult
        obtain ⟨identifier, owner, found, other, hidentifier, howner, hother, hne, heq⟩ :=
          exists_owner_of_result hresult
        obtain ⟨hown, hnodes⟩ := eq_of_copied_eq_own heq.symm
        rw [hown] at howner hother
        have hsameTree : other = tree := Option.some.inj (hother.symm.trans htree)
        have hsamePage : found = page := by
          have hindexed := ProjectIndex.get?_of_owner? howner
          exact Option.some.inj (hindexed.symm.trans hpage)
        rw [hsamePage] at howner hnodes hne
        rw [hsameTree] at hnodes hne
        exact ⟨identifier, hidentifier, howner, hnodes, hnodes ▸ hne⟩
      · rintro ⟨identifier, hidentifier, howner, hnodes, hne⟩
        rw [result_resolveLocal_eq hidentifier howner htree, hnodes, if_neg hne]

/--
A label without a document names a target of its own page for a cross-reference. An embed under that
label copies this target just if no page before its own resolves the identifier, and the identifier
denotes what the target does.
-/
theorem copies_own_target_iff (source : RemoteSource) (cache : RemoteCache) {target : Target}
    {name : String} (hpage : scope.index.get? scope.file = some page)
    (htree : scope.trees.get? scope.file = some tree)
    (hlabel : label = "#" ++ name ∨ label = name ∧ '#' ∉ name.toList)
    (htarget : page.targets.resolve? name = some target) :
    let content := contentOf page.targets target.identifier tree
    CrossReference.lookUp? scope.index scope.file name = some (scope.file, target) ∧
    ((resolve source scope label cache).1.result =
        some (copied scope label scope.file page content) ↔
      ExternalLink.claims scope.projects label = false ∧ ∃ identifier,
        Label.identifier? name = some identifier ∧
        (page.targets.resolve? identifier).isSome = true ∧
        (∀ other found, other < scope.file → scope.index.get? other = some found →
          found.targets.resolve? identifier = none) ∧
        contentOf page.targets identifier tree = content ∧ content ≠ []) := by
  intro content
  have hparts : localParts scope.file label = (none, name) := by
    rcases hlabel with hhash | ⟨hbare, hnone⟩
    · rw [hhash]
      exact localParts_hash scope.file name
    · rw [hbare]
      exact localParts_bare hnone scope.file
  refine ⟨CrossReference.lookUp?_own hpage htarget, ?_⟩
  rw [copies_own_iff source cache htree hpage, hparts]
  apply and_congr_right
  intro _
  apply exists_congr
  intro identifier
  apply and_congr_right
  intro _
  rw [ProjectIndex.owner?_none_eq_some_iff]
  constructor
  · rintro ⟨⟨-, hresolves, hfirst⟩, hcontent⟩
    exact ⟨hresolves, hfirst, hcontent⟩
  · rintro ⟨hresolves, hfirst, hcontent⟩
    exact ⟨⟨hpage, hresolves, hfirst⟩, hcontent⟩

def sharing : List SourceDocument :=
  [{ path := "a.md", page := { slug := "a", url := "/a" }
     content := .ofType NodeType.root
       [{ type := NodeType.heading, identifier := some "shared", children := [.text "of a"] }] },
   { path := "b.md", page := { slug := "b", url := "/b" }
     content := .ofType NodeType.root
       [{ type := NodeType.heading, identifier := some "shared", children := [.text "of b"] }] }]

def sharingScope : EmbedScope where
  file := "b.md"
  index := SourceDocument.indexOf {} sharing
  trees := WorkingDocument.trees (sharing.map (SourceDocument.enumerate {}))
  projects := []

/-- On the second page an embed does not copy the section of that page. -/
theorem sharing_misses_own_target : ∃ page tree target,
    sharingScope.index.get? "b.md" = some page ∧ sharingScope.trees.get? "b.md" = some tree ∧
    CrossReference.lookUp? sharingScope.index "b.md" "shared" = some ("b.md", target) ∧
    (resolve (fun _ => none) sharingScope "#shared" {}).1.result ≠
      some (copied sharingScope "#shared" "b.md" page
        (contentOf page.targets target.identifier tree)) := by
  obtain ⟨page, hpage⟩ : ∃ page, sharingScope.index.get? "b.md" = some page :=
    Option.isSome_iff_exists.1 (by decide +kernel)
  obtain ⟨tree, htree⟩ : ∃ tree, sharingScope.trees.get? "b.md" = some tree :=
    Option.isSome_iff_exists.1 (by decide +kernel)
  obtain ⟨first, hfirst⟩ : ∃ first, sharingScope.index.get? "a.md" = some first :=
    Option.isSome_iff_exists.1 (by decide +kernel)
  have hboth : ((sharingScope.index.get? "b.md").all (fun page =>
      (page.targets.resolve? "shared").isSome) &&
      (sharingScope.index.get? "a.md").all (fun page =>
        (page.targets.resolve? "shared").isSome)) = true := by
    decide +kernel
  rw [hpage, hfirst, Option.all_some, Option.all_some, Bool.and_eq_true] at hboth
  obtain ⟨target, htarget⟩ := Option.isSome_iff_exists.1 hboth.1
  obtain ⟨hlookUp, hcopies⟩ := copies_own_target_iff (fun _ => none) {} hpage htree
    (Or.inl rfl) htarget
  refine ⟨page, tree, target, hpage, htree, hlookUp, fun hresult => ?_⟩
  obtain ⟨-, identifier, hidentifier, -, hbefore, -⟩ := hcopies.1 hresult
  have hname : Label.identifier? "shared" = some "shared" := by decide +kernel
  have hsame : identifier = "shared" := Option.some.inj (hidentifier.symm.trans hname)
  have hnone := hbefore "a.md" first (by decide) hfirst
  rw [hsame] at hnone
  rw [hnone] at hboth
  exact absurd hboth.2 (by simp)

end CrossDoc.Embed
