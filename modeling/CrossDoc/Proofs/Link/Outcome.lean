import CrossDoc.Proofs.CrossReference
import CrossDoc.Proofs.Index

/-!
# What becomes of a link

A link that is resolved went to one of two rules (`offer_cases`). Into another project it leads to
an entry of that project's index; inside the project it leads to a page as a whole or to a target of
the page it names. Neither pass over references moves a node (`at?_linked`).
-/

namespace CrossDoc

/--
The target that a link in the document `file` names, with the path of the page that the link names;
none if the link names a page as a whole.
-/
def InternalLink.target? (index : ProjectIndex) (file : String) (link : Attributes) :
    Option (String × Target) :=
  let (path, fragment) := parts (link.writtenUrl.getD "")
  (index.targets? (targetFile file path)).bind (fun page =>
    ((fragment.bind Label.identifier?).bind page.resolve?).bind (fun target =>
      if page.isFileTarget target.identifier then none
      else some (targetFile file path, target)))

namespace InternalLink

variable {index : ProjectIndex} {file : String} {link link' : Attributes}

theorem resolve_cases (h : resolve index file link = .ok link') :
    (target? index file link = none ∧ ∃ url, link' = toPage link url) ∨
    (∃ owner target, target? index file link = some (owner, target) ∧
      link' = toTarget link target (CrossReference.urlFrom file owner target)) := by
  unfold resolve at h
  unfold target?
  simp only at h ⊢
  cases hpage : index.targets? (targetFile file (parts (link.writtenUrl.getD "")).1) with
  | none => simp [hpage] at h
  | some page =>
      rw [hpage] at h
      cases hfragment : (parts (link.writtenUrl.getD "")).2.bind Label.identifier? with
      | none => exact Or.inl ⟨rfl, page.url, by simpa [hfragment] using h.symm⟩
      | some identifier =>
          rw [hfragment] at h
          cases htarget : page.resolve? identifier with
          | none => simp [htarget] at h
          | some target =>
              simp only [htarget] at h
              cases hfile : page.isFileTarget target.identifier with
              | true =>
                  exact Or.inl ⟨by simp [htarget, hfile], page.url,
                    by simpa [hfile] using h.symm⟩
              | false =>
                  exact Or.inr ⟨targetFile file (parts (link.writtenUrl.getD "")).1, target,
                    by simp [htarget, hfile],
                    by simpa [hfile, CrossReference.urlFrom] using h.symm⟩

theorem exists_page_of_target? {owner : String} {target : Target}
    (h : target? index file link = some (owner, target)) :
    ∃ page identifier, index.get? owner = some page ∧
      page.targets.resolve? identifier = some target := by
  simp only [target?, ProjectIndex.targets?, Option.bind_eq_some_iff, Option.map_eq_some_iff] at h
  obtain ⟨_, ⟨page, hpage, rfl⟩, found, ⟨identifier, -, hfound⟩, hsome⟩ := h
  split at hsome
  · simp at hsome
  · obtain ⟨rfl, rfl⟩ := Prod.mk.inj (Option.some.inj hsome)
    exact ⟨page, identifier, hpage, hfound⟩

end InternalLink

theorem ExternalLink.resolve_alike (projects : List LoadedProject) {link other : Attributes}
    (h : other.writtenUrl = link.writtenUrl) :
    (∃ message, resolve projects link = .error (failure message link) ∧
      resolve projects other = .error (failure message other)) ∨
    ∃ project entry, resolve projects link = .ok (toEntry link project entry) ∧
      resolve projects other = .ok (toEntry other project entry) := by
  unfold resolve
  simp only [h]
  cases XrefUri.parse (XrefUri.modernize (link.writtenUrl.getD "")) with
  | error fault => exact Or.inl ⟨_, rfl, rfl⟩
  | ok parsed =>
      dsimp only
      cases projects.find? (fun project => project.key == parsed.key) with
      | none => exact Or.inl ⟨_, rfl, rfl⟩
      | some project =>
          dsimp only
          cases RemoteIndex.find? project.entries parsed.page parsed.identifier with
          | none => exact Or.inl ⟨_, rfl, rfl⟩
          | some entry => exact Or.inr ⟨project, entry, rfl, rfl⟩

theorem ExternalLink.resolve_cases {projects : List LoadedProject} {link link' : Attributes}
    (h : resolve projects link = .ok link') :
    ∃ project entry, link' = toEntry link project entry := by
  obtain ⟨message, herror, -⟩ | ⟨project, entry, hok, -⟩ :=
    resolve_alike projects (rfl : link.writtenUrl = link.writtenUrl)
  · exact absurd (h.symm.trans herror) (by simp)
  · exact ⟨project, entry, Except.ok.inj (h.symm.trans hok)⟩

theorem ExternalLink.exists_failure_of_resolve {projects : List LoadedProject} {link : Attributes}
    {diagnostic : Diagnostic} (h : resolve projects link = .error diagnostic) :
    ∃ message, diagnostic = failure message link := by
  obtain ⟨message, herror, -⟩ | ⟨project, entry, hok, -⟩ :=
    resolve_alike projects (rfl : link.writtenUrl = link.writtenUrl)
  · exact ⟨message, Except.error.inj (h.symm.trans herror)⟩
  · exact absurd (h.symm.trans hok) (by simp)

theorem ExternalLink.remoteBaseUrl_toEntry (link : Attributes) (project : LoadedProject)
    (entry : IndexEntry) : (toEntry link project entry).remoteBaseUrl = some project.url := by
  unfold toEntry
  cases entry.isPage with
  | true => rfl
  | false => rfl

theorem ExternalLink.dataUrl_toEntry (link : Attributes) (project : LoadedProject)
    (entry : IndexEntry) :
    (toEntry link project entry).dataUrl = some (project.url ++ entry.data) := by
  unfold toEntry
  cases entry.isPage with
  | true => rfl
  | false => rfl

theorem Attributes.type_ne_of_is_link {link : Attributes} (h : link.is NodeType.link = true) :
    link.type ≠ NodeType.crossReference := by
  have htype : link.type = NodeType.link := by simpa [Attributes.is] using h
  rw [htype]
  decide

theorem ExternalLink.wanted?_toEntry {link : Attributes} (hlink : link.is NodeType.link = true)
    (project : LoadedProject) (entry : IndexEntry) :
    CrossReference.wanted? (toEntry link project entry) = none := by
  unfold toEntry
  cases hpage : entry.isPage with
  | true => exact CrossReference.wanted?_eq_none_of_type_ne (Attributes.type_ne_of_is_link hlink)
  | false => exact CrossReference.wanted?_eq_none_of_isRemote rfl

section Offers

variable {rules : LinkRules} {link turned : Attributes} {uri : String} {rule : LinkRule}
  {diagnostic : Diagnostic}

theorem LinkRules.offer_of_unclaimed
    (h : ∀ uri, link.writtenUrl = some uri → rules.owner? uri = none) :
    rules.offer link = { outcome := .unhandled, link } := by
  unfold offer
  cases hwritten : link.writtenUrl with
  | none => rfl
  | some uri => simp only [h uri hwritten]

theorem LinkRules.offer_of_error (hwritten : link.writtenUrl = some uri)
    (howner : rules.owner? uri = some rule)
    (h : (rule.resolve { link with urlSource := some uri }).result = .error diagnostic) :
    rules.offer link =
      { outcome := .failed
        link := { link with urlSource := some uri }
        found := (rule.resolve { link with urlSource := some uri }).warnings ++ [diagnostic] } := by
  unfold offer
  simp only [hwritten, howner, h, LinkAnswer.found]

theorem LinkRules.offer_of_ok (hwritten : link.writtenUrl = some uri)
    (howner : rules.owner? uri = some rule)
    (h : (rule.resolve { link with urlSource := some uri }).result = .ok turned) :
    rules.offer link =
      { outcome := .resolved
        link := { turned with protocol := some rule.protocol }
        found := (rule.resolve { link with urlSource := some uri }).warnings } := by
  unfold offer
  simp only [hwritten, howner, h, LinkAnswer.found]

/-- Either no rule claims a link, or the first rule that does fails, or it resolves the link. -/
theorem LinkRules.owner_cases (rules : LinkRules) (link : Attributes) :
    (∀ uri, link.writtenUrl = some uri → rules.owner? uri = none) ∨
    ∃ uri rule, link.writtenUrl = some uri ∧ rules.owner? uri = some rule ∧
      ((∃ diagnostic,
          (rule.resolve { link with urlSource := some uri }).result = .error diagnostic) ∨
        ∃ turned, (rule.resolve { link with urlSource := some uri }).result = .ok turned) := by
  cases hwritten : link.writtenUrl with
  | none => exact Or.inl (by simp)
  | some uri =>
      cases howner : rules.owner? uri with
      | none => exact Or.inl (by simpa using howner)
      | some rule =>
          refine Or.inr ⟨uri, rule, rfl, howner, ?_⟩
          cases (rule.resolve { link with urlSource := some uri }).result with
          | error diagnostic => exact Or.inl ⟨diagnostic, rfl⟩
          | ok turned => exact Or.inr ⟨turned, rfl⟩

end Offers

theorem LinkRules.offer_cases (rules : LinkRules) (link : Attributes) :
    ((rules.offer link).outcome ≠ .resolved ∧
      ∃ urlSource, (rules.offer link).link = { link with urlSource }) ∨
    ((rules.offer link).outcome = .resolved ∧ ∃ uri, ∃ rule ∈ rules, ∃ turned,
      link.writtenUrl = some uri ∧
      (rule.resolve { link with urlSource := some uri }).result = .ok turned ∧
      (rules.offer link).link = { turned with protocol := some rule.protocol }) := by
  obtain hnone | ⟨uri, rule, hwritten, howner, ⟨diagnostic, hresult⟩ | ⟨turned, hresult⟩⟩ :=
    rules.owner_cases link
  · rw [offer_of_unclaimed hnone]
    exact Or.inl ⟨by simp, link.urlSource, rfl⟩
  · rw [offer_of_error hwritten howner hresult]
    exact Or.inl ⟨by simp, some uri, rfl⟩
  · rw [offer_of_ok hwritten howner hresult]
    exact Or.inr ⟨rfl, uri, rule, List.mem_of_find?_eq_some howner, turned, hwritten, hresult, rfl⟩

/-- A link that was resolved went to one of the two rules, which says what it was turned into. -/
theorem WorkingDocument.offer_cases {index : ProjectIndex} {projects : List LoadedProject}
    {file : String} {link : Attributes}
    (h : ((linkRules index projects file).offer link).outcome = .resolved) :
    ∃ uri turned, link.writtenUrl = some uri ∧
      ((ExternalLink.resolve projects { link with urlSource := some uri } = .ok turned ∧
          ((linkRules index projects file).offer link).link =
            { turned with protocol := some ExternalLink.protocol }) ∨
        (InternalLink.resolve index file { link with urlSource := some uri } = .ok turned ∧
          ((linkRules index projects file).offer link).link =
            { turned with protocol := some "file" })) := by
  rcases LinkRules.offer_cases (linkRules index projects file) link with
    ⟨hnot, -⟩ | ⟨-, uri, rule, hmem, turned, hwritten, hresult, hoffer⟩
  · exact absurd h hnot
  · simp only [linkRules, List.mem_cons, List.not_mem_nil, or_false] at hmem
    rcases hmem with rfl | rfl
    · exact ⟨uri, turned, hwritten, Or.inl ⟨hresult, hoffer⟩⟩
    · exact ⟨uri, turned, hwritten, Or.inr ⟨hresult, hoffer⟩⟩

/-! ## Both passes -/

namespace SourceDocument

variable [Text.Slugger] (numbering : Numbering) (references : List ProjectReference)
  (documents : List SourceDocument) (document : SourceDocument)

def linkRules : LinkRules :=
  WorkingDocument.linkRules (indexOf numbering documents) (ExternalLink.projects references)
    document.path

def linked : WorkingDocument :=
  (document.enumerate numbering).resolveReferences (indexOf numbering documents)
    (ExternalLink.projects references)

/-- The attributes of a node after both passes over references. -/
def treat (attributes : Attributes) : Attributes :=
  CrossReference.treat (indexOf numbering documents) document.path
    ((document.linkRules numbering references documents).treat attributes)

theorem at?_linked {path : Path} {node : Node}
    (h : (document.enumerate numbering).content.at? path = some node) :
    ∃ changed, (document.linked numbering references documents).content.at? path = some changed ∧
      changed.toAttributes = document.treat numbering references documents node.toAttributes := by
  let rules := document.linkRules numbering references documents
  have hrules : (rules.apply (document.enumerate numbering).content).at? path =
      some (node.mapAttributes rules.treat) := by
    rw [LinkRules.apply, Node.at?_mapAttributes, h]
    rfl
  refine ⟨_, CrossReference.at?_resolve hrules, ?_⟩
  rw [CrossReference.toAttributes_resolve, Node.toAttributes_mapAttributes]
  rfl

end SourceDocument

end CrossDoc
