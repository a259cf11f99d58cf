import CrossDoc.Proofs.Link.Outcome

/-!
# What link rules promise

The pass over links relies on little of a rule: what it says besides an error is no error, a failure
is one, and a link that it resolves keeps the url it was written with and, if it stays a link, is
resolved to itself again (`LinkRule.Reliable`). Both rules of a project read nothing of a link but
its url (`resolve_alike`), and both keep these promises (`LinkRule.OfProject.reliable`).
-/

namespace CrossDoc

/-! ## Errors among findings -/

namespace Diagnostic

def errorCount (found : List Diagnostic) : Nat :=
  found.countP (fun entry => entry.severity == .error)

@[simp] theorem errorCount_append (found others : List Diagnostic) :
    errorCount (found ++ others) = errorCount found + errorCount others :=
  List.countP_append

theorem errorCount_singleton {entry : Diagnostic} (h : entry.severity = .error) :
    errorCount [entry] = 1 := by
  unfold errorCount
  rw [List.countP_singleton, h]
  rfl

end Diagnostic

theorem XrefUri.errorCount_deprecation (uri : String) (link : Option Attributes) :
    Diagnostic.errorCount (deprecation uri link) = 0 := by
  unfold deprecation
  split
  · rfl
  · rfl

/-! ## Rules -/

namespace LinkRule

/-- What the pass over links relies on. -/
structure Reliable (rule : LinkRule) : Prop where
  errorCount_warnings : ∀ link, Diagnostic.errorCount (rule.resolve link).warnings = 0
  severity_of_error : ∀ {link diagnostic}, (rule.resolve link).result = .error diagnostic →
    diagnostic.severity = .error
  urlSource_of_ok : ∀ {link turned}, (rule.resolve link).result = .ok turned →
    turned.urlSource = link.urlSource
  /-- A link that the rule made is resolved to itself, whatever protocol it was given since. -/
  resolve_again : ∀ {link turned other : Attributes} {protocol : Option String},
    (rule.resolve link).result = .ok turned → turned.is NodeType.link = true →
    other = { turned with protocol } → other.writtenUrl = link.writtenUrl →
    (rule.resolve other).result = .ok other

/-- The two rules of a project: for links into other projects and for links inside it. -/
inductive OfProject : LinkRule → Prop
  | external (references : List ProjectReference) :
      OfProject (ExternalLink.rule (ExternalLink.projects references))
  | internal (index : ProjectIndex) (file : String) : OfProject (InternalLink.rule index file)

end LinkRule

/-! ## Links into other projects -/

namespace ExternalLink

variable {projects : List LoadedProject} {link turned : Attributes}
  {project : LoadedProject} {entry : IndexEntry}

theorem urlSource_of_resolve (h : resolve projects link = .ok turned) :
    turned.urlSource = link.urlSource := by
  obtain ⟨project, entry, rfl⟩ := resolve_cases h
  unfold toEntry
  cases entry.isPage with
  | true => rfl
  | false => rfl

theorem type_toEntry (h : entry.isPage = false) (link : Attributes) (project : LoadedProject) :
    (toEntry link project entry).type = NodeType.crossReference := by
  unfold toEntry
  rw [h]
  rfl

theorem toEntry_again (h : (toEntry link project entry).is NodeType.link = true)
    (protocol : Option String) :
    toEntry { toEntry link project entry with protocol } project entry =
      { toEntry link project entry with protocol } := by
  cases hpage : entry.isPage with
  | false => exact absurd (type_toEntry hpage link project) (Attributes.type_ne_of_is_link h)
  | true =>
      unfold toEntry
      rw [hpage]
      rfl

theorem result_resolve_rule (projects : List LoadedProject) (link : Attributes) :
    ((rule projects).resolve link).result = resolve projects link := by
  unfold rule
  rfl

theorem reliable_rule (projects : List LoadedProject) : (rule projects).Reliable where
  errorCount_warnings link := XrefUri.errorCount_deprecation _ _
  severity_of_error h := by
    rw [result_resolve_rule] at h
    obtain ⟨message, rfl⟩ := exists_failure_of_resolve h
    rfl
  urlSource_of_ok h := by
    rw [result_resolve_rule] at h
    exact urlSource_of_resolve h
  resolve_again {link turned other protocol} h hlink hother hwritten := by
    rw [result_resolve_rule] at h ⊢
    obtain ⟨message, herror, -⟩ | ⟨project, entry, hok, hagain⟩ := resolve_alike projects hwritten
    · exact absurd (h.symm.trans herror) (by simp)
    · obtain rfl := Except.ok.inj (h.symm.trans hok)
      rw [hother, toEntry_again hlink] at hagain
      rw [hother]
      exact hagain

end ExternalLink

/-! ## Links inside a project -/

namespace InternalLink

variable {link other turned : Attributes}

theorem resolve_alike (index : ProjectIndex) (file : String)
    (h : other.writtenUrl = link.writtenUrl) :
    (∃ message, resolve index file link = .error (failure message link) ∧
      resolve index file other = .error (failure message other)) ∨
    (∃ url, resolve index file link = .ok (toPage link url) ∧
      resolve index file other = .ok (toPage other url)) ∨
    ∃ target url, resolve index file link = .ok (toTarget link target url) ∧
      resolve index file other = .ok (toTarget other target url) := by
  unfold resolve
  simp only [h]
  generalize parts (link.writtenUrl.getD "") = written
  cases index.targets? (targetFile file written.1) with
  | none => exact Or.inl ⟨_, rfl, rfl⟩
  | some page =>
      dsimp only
      cases written.2.bind Label.identifier? with
      | none => exact Or.inr (Or.inl ⟨page.url, rfl, rfl⟩)
      | some identifier =>
          dsimp only
          cases page.resolve? identifier with
          | none => exact Or.inl ⟨_, rfl, rfl⟩
          | some target =>
              dsimp only
              cases page.isFileTarget target.identifier with
              | true => exact Or.inr (Or.inl ⟨page.url, rfl, rfl⟩)
              | false => exact Or.inr (Or.inr ⟨target, _, rfl, rfl⟩)

theorem reliable_rule (index : ProjectIndex) (file : String) : (rule index file).Reliable where
  errorCount_warnings link := rfl
  severity_of_error {link diagnostic} h := by
    obtain ⟨message, herror, -⟩ | ⟨url, hok, -⟩ | ⟨target, url, hok, -⟩ :=
      resolve_alike index file (rfl : link.writtenUrl = link.writtenUrl)
    · rw [Except.error.inj (h.symm.trans herror)]
      rfl
    · exact absurd (h.symm.trans hok) (by simp)
    · exact absurd (h.symm.trans hok) (by simp)
  urlSource_of_ok h := by
    obtain ⟨-, url, rfl⟩ | ⟨owner, target, -, rfl⟩ := resolve_cases h
    · rfl
    · rfl
  resolve_again {link turned other protocol} h hlink hother hwritten := by
    obtain ⟨message, herror, -⟩ | ⟨url, hok, hagain⟩ | ⟨target, url, hok, -⟩ :=
      resolve_alike index file hwritten
    · exact absurd (h.symm.trans herror) (by simp)
    · obtain rfl := Except.ok.inj (h.symm.trans hok)
      rw [hother] at hagain ⊢
      exact hagain
    · obtain rfl := Except.ok.inj (h.symm.trans hok)
      exact absurd rfl (Attributes.type_ne_of_is_link hlink)

end InternalLink

theorem LinkRule.OfProject.reliable {rule : LinkRule} (h : rule.OfProject) : rule.Reliable := by
  cases h with
  | external references => exact ExternalLink.reliable_rule _
  | internal index file => exact InternalLink.reliable_rule index file

end CrossDoc
