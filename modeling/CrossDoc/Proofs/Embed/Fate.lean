import CrossDoc.Proofs.Embed.Content
import CrossDoc.Proofs.Link.Outcome

/-!
# What becomes of the embeds of a page

Only the outermost embeds of a page are asked for. Each of them is filled, or there is a finding on
its label (`exists_finding_of_answer`). Whatever other embed stands in the page once it is filled
stands below one of these: in an embed that was not filled, or in the copy that one was filled with
(`fate_of_at?_fillAll`). The copies are taken as they are, so an embed in them is not filled again.
-/

namespace CrossDoc

/-- What is reported when the content of an embed with a label is not found. -/
inductive Diagnostic.RaisedFor (label : String) : Diagnostic → Prop
  | unresolved {diagnostic : Diagnostic} (note : String) :
      diagnostic ∈ (Embed.unresolved label note).found → RaisedFor label diagnostic
  | noEntry (message : String) :
      RaisedFor label (ExternalLink.failure message (Node.link label).toAttributes)
  | noPage : RaisedFor label (RemoteReference.noPage label)
  | noTarget (identifier : String) : RaisedFor label (RemoteReference.noTarget label identifier)

namespace Embed

variable {source : RemoteSource} {scope : EmbedScope} {tree node : Node} {cache : RemoteCache}
  {answers : RemoteCache.PageAnswers} {label : String}

/-! ## Findings on labels -/

theorem exists_note_of_resolveLocal (h : (resolveLocal scope label).result = none) :
    ∃ note, resolveLocal scope label = unresolved label note := by
  unfold resolveLocal at h ⊢
  simp only at h ⊢
  split at h
  · exact ⟨_, rfl⟩
  · split at h
    · exact ⟨_, rfl⟩
    · split at h
      · exact ⟨_, rfl⟩
      · split at h
        · exact ⟨_, rfl⟩
        · simp at h

theorem raisedFor_of_resolveRemote {reference : Attributes} {page? : Option RemotePage}
    {diagnostic : Diagnostic} (h : resolveRemote label reference page? = .error diagnostic) :
    diagnostic.RaisedFor label := by
  cases page? with
  | none =>
      have hsame : RemoteReference.noPage label = diagnostic := Except.error.inj h
      exact hsame ▸ .noPage
  | some page =>
      unfold resolveRemote at h
      cases hidentifier : reference.identifier with
      | none =>
          rw [hidentifier] at h
          simp [bind, Except.bind] at h
      | some identifier =>
          simp only [hidentifier, RemoteReference.content] at h
          split at h
          · have hsame : RemoteReference.noTarget label identifier = diagnostic :=
              Except.error.inj h
            exact hsame ▸ .noTarget identifier
          · simp [bind, Except.bind] at h

theorem exists_finding_of_remoteAnswer (h : (remoteAnswer scope label answers).result = none) :
    ∃ diagnostic ∈ (remoteAnswer scope label answers).found, diagnostic.RaisedFor label := by
  unfold remoteAnswer at h ⊢
  simp only at h ⊢
  cases hlink : ExternalLink.resolve scope.projects (Node.link label).toAttributes with
  | error diagnostic =>
      obtain ⟨message, hfailure⟩ := ExternalLink.exists_failure_of_resolve hlink
      have hresult : ((ExternalLink.rule scope.projects).resolve
          (Node.link label).toAttributes).result = .error diagnostic := hlink
      refine ⟨diagnostic, ?_, hfailure ▸ .noEntry message⟩
      simp [hresult, LinkAnswer.found]
  | ok reference =>
      have hresult : ((ExternalLink.rule scope.projects).resolve
          (Node.link label).toAttributes).result = .ok reference := hlink
      obtain ⟨project, entry, hentry⟩ := ExternalLink.resolve_cases hlink
      have hdata : reference.dataUrl = some (project.url ++ entry.data) :=
        hentry ▸ ExternalLink.dataUrl_toEntry _ project entry
      simp only [hresult, hdata] at h ⊢
      cases hpage : resolveRemote label reference (answers (project.url ++ entry.data)) with
      | ok embedded =>
          rw [hpage] at h
          simp at h
      | error diagnostic =>
          exact ⟨diagnostic, by simp, raisedFor_of_resolveRemote hpage⟩

theorem exists_finding_of_answer (h : (answer scope label answers).result = none) :
    ∃ diagnostic ∈ (answer scope label answers).found, diagnostic.RaisedFor label := by
  unfold answer at h ⊢
  by_cases hclaims : ExternalLink.claims scope.projects label = true
  · rw [if_pos hclaims] at h ⊢
    exact exists_finding_of_remoteAnswer h
  · rw [if_neg hclaims] at h ⊢
    obtain ⟨note, hnote⟩ := exists_note_of_resolveLocal h
    rw [hnote]
    exact ⟨_, List.mem_singleton_self _, .unresolved note (List.mem_singleton_self _)⟩

/-! ## Labels of copies -/

theorem label?_congr {attributes others : Attributes} (htype : attributes.type = others.type)
    (hsource : attributes.source = others.source) : label? attributes = label? others := by
  unfold label? Attributes.is
  rw [htype, hsource]

theorem exists_original_of_at?_fillWith {embedded : Embedded} {embed : Node} {path : Path}
    (hpath : path ≠ []) (hat : (fillWith embedded embed).at? path = some node) :
    ∃ original ∈ embedded.target.nodes,
      label? original.toAttributes = label? node.toAttributes := by
  cases path with
  | nil => exact absurd rfl hpath
  | cons place rest =>
      obtain ⟨child, hchild, hrest⟩ := Node.at?_cons_eq_some_iff.1 hat
      have hmem : child ∈ (Node.fill (some embedded.target) embed).children :=
        List.mem_of_getElem? hchild
      have hbelow : node ∈ child.nodes := Node.mem_nodes_iff_exists_at?.2 ⟨rest, hrest⟩
      obtain ⟨original, horiginal, htype, hsource⟩ :=
        Node.supplies_children_fill embedded.target embed child hmem node hbelow
      exact ⟨original, horiginal, (label?_congr htype hsource).symm⟩

/-! ## Every embed -/

/--
What became of the embed with a label that stands at a path of the filled page. `tree` is the page
before it was filled, and `found` what was found on it.
-/
inductive Fate (scope : EmbedScope) (tree : Node) (answers : RemoteCache.PageAnswers)
    (found : List Diagnostic) (label : String) (path : Path) (node : Node) : Prop
  | filled {embed : Node} {embedded : Embedded} : (path, label) ∈ requests tree →
      tree.at? path = some embed → (answer scope label answers).result = some embedded →
      node = fillWith embedded embed → Fate scope tree answers found label path node
  | reported {diagnostic : Diagnostic} : (path, label) ∈ requests tree →
      (answer scope label answers).result = none → diagnostic ∈ found →
      diagnostic.RaisedFor label → Fate scope tree answers found label path node
  | inside {outer : Path} {outerLabel : String} {diagnostic : Diagnostic} :
      (outer, outerLabel) ∈ requests tree → outer <+: path → outer ≠ path →
      (answer scope outerLabel answers).result = none → diagnostic ∈ found →
      diagnostic.RaisedFor outerLabel → Fate scope tree answers found label path node
  | copied {outer : Path} {outerLabel : String} {embedded : Embedded} {original : Node} :
      (outer, outerLabel) ∈ requests tree → outer <+: path → outer ≠ path →
      (answer scope outerLabel answers).result = some embedded →
      original ∈ embedded.target.nodes → label? original.toAttributes = some label →
      Fate scope tree answers found label path node

theorem Fate.mono {found others : List Diagnostic} {path : Path} (hfound : found ⊆ others)
    (h : Fate scope tree answers found label path node) :
    Fate scope tree answers others label path node := by
  cases h with
  | filled hrequest hembed hanswer hnode => exact .filled hrequest hembed hanswer hnode
  | reported hrequest hanswer hmem hraised =>
      exact .reported hrequest hanswer (hfound hmem) hraised
  | inside hrequest habove hne hanswer hmem hraised =>
      exact .inside hrequest habove hne hanswer (hfound hmem) hraised
  | copied hrequest habove hne hanswer horiginal hlabel =>
      exact .copied hrequest habove hne hanswer horiginal hlabel

theorem exists_request_of_at? {path : Path} (hat : tree.at? path = some node)
    (hlabel : label? node.toAttributes = some label) :
    ∃ outer outerLabel, outer <+: path ∧ (outer, outerLabel) ∈ requests tree ∧
      (outer = path → outerLabel = label) := by
  have hsome : (label? node.toAttributes).isSome = true := by
    rw [hlabel]
    rfl
  obtain ⟨outer, habove, hcollected⟩ := Node.exists_mem_collectPaths_of_at?
    (p := fun node => (label? node.toAttributes).isSome) hat hsome
  obtain ⟨⟨embed, hembed, hasked⟩, -⟩ := Node.mem_collectPaths_iff.1 hcollected
  obtain ⟨outerLabel, houter⟩ := Option.isSome_iff_exists.1 hasked
  refine ⟨outer, outerLabel, habove, mem_requests_iff.2 ⟨hcollected, embed, hembed, houter⟩, ?_⟩
  intro hsame
  rw [hsame] at hembed
  have hnode : embed = node := Option.some.inj (hembed.symm.trans hat)
  rw [hnode] at houter
  exact Option.some.inj (houter.symm.trans hlabel)

theorem fate_of_filled_above {path outer : Path} {found : EmbedAnswer} {embedded : Embedded}
    {others : List Diagnostic} (hmem : (outer, found) ∈ contents source scope tree cache)
    (hfound : found.result = some embedded) (habove : outer <+: path)
    (hat : (fillAll tree (contents source scope tree cache)).at? path = some node)
    (hlabel : label? node.toAttributes = some label) :
    Fate scope tree (cache.pageAt source) others label path node := by
  obtain ⟨outerLabel, hrequest, hanswer⟩ := mem_contents_iff.1 hmem
  obtain ⟨-, embed, hembed, houter⟩ := mem_requests_iff.1 hrequest
  have hresult : (answer scope outerLabel (cache.pageAt source)).result = some embedded :=
    hanswer ▸ hfound
  have hfilled := at?_fillAll_of_found hmem hfound
  rw [hembed, Option.map_some] at hfilled
  obtain ⟨below, hbelow⟩ := habove
  rw [← hbelow, Node.at?_append, hfilled, Option.bind_some] at hat
  by_cases hnil : below = []
  · rw [hnil] at hat hbelow
    rw [List.append_nil] at hbelow
    have hnode : fillWith embedded embed = node := Option.some.inj hat
    have hkept := label?_fillWith (label_of_answer hresult) houter
    rw [hnode, hlabel] at hkept
    have hsame : label = outerLabel := Option.some.inj hkept
    subst hsame hbelow
    exact .filled hrequest hembed hresult hnode.symm
  · obtain ⟨original, horiginal, hcopy⟩ := exists_original_of_at?_fillWith hnil hat
    have hne : outer ≠ path := by
      intro hsame
      exact hnil (List.append_right_eq_self.1 (hbelow.trans hsame.symm))
    exact .copied hrequest ⟨below, hbelow⟩ hne hresult horiginal (hcopy.trans hlabel)

/--
An embed that stands in a filled page was asked for, and filled or reported; or it stands below one
that was.
-/
theorem fate_of_at?_fillAll {path : Path}
    (hat : (fillAll tree (contents source scope tree cache)).at? path = some node)
    (hlabel : label? node.toAttributes = some label) :
    Fate scope tree (cache.pageAt source)
      ((contents source scope tree cache).flatMap (·.2.found)) label path node := by
  by_cases hfilled : ∃ entry ∈ contents source scope tree cache,
      entry.2.result.isSome = true ∧ entry.1 <+: path
  · obtain ⟨⟨outer, found⟩, hmem, hsome, habove⟩ := hfilled
    obtain ⟨embedded, hfound⟩ := Option.isSome_iff_exists.1 hsome
    exact fate_of_filled_above hmem hfound habove hat hlabel
  · have hclear : ∀ entry ∈ contents source scope tree cache, entry.2.result.isSome = true →
        ¬ entry.1 <+: path := fun entry hmem hsome habove => hfilled ⟨entry, hmem, hsome, habove⟩
    obtain ⟨before, hbefore, hsame⟩ := exists_at?_of_at?_fillAll hclear hat
    rw [hsame] at hlabel
    obtain ⟨outer, outerLabel, habove, hrequest, hown⟩ := exists_request_of_at? hbefore hlabel
    have hmem : (outer, answer scope outerLabel (cache.pageAt source)) ∈
        contents source scope tree cache := mem_contents_iff.2 ⟨outerLabel, hrequest, rfl⟩
    have hnone : (answer scope outerLabel (cache.pageAt source)).result = none := by
      by_contra hsome
      exact hclear _ hmem (Option.isSome_iff_ne_none.2 hsome) habove
    obtain ⟨diagnostic, hdiagnostic, hraised⟩ := exists_finding_of_answer hnone
    have hreported : diagnostic ∈ (contents source scope tree cache).flatMap (·.2.found) :=
      List.mem_flatMap.2 ⟨_, hmem, hdiagnostic⟩
    by_cases hpath : outer = path
    · have hsameLabel := hown hpath
      subst hpath hsameLabel
      exact .reported hrequest hnone hreported hraised
    · exact .inside hrequest habove hpath hnone hreported hraised

end Embed

end CrossDoc
