import CrossDoc.Proofs.Link.External

/-!
# The order of link rules

A link goes to the first rule that claims its url, so the order of rules matters only where two of
them claim one url (`owner?_eq_of_perm`). The two rules of a project never do: a link into another
project starts with a scheme, and a link inside the project has none, even where the path of a page
has a colon in it (`external_internal_comm`).
-/

namespace CrossDoc

/-- No url is claimed by both of two rules. -/
def LinkRule.Apart (rule other : LinkRule) : Prop :=
  ∀ uri, ¬ (rule.claims uri = true ∧ other.claims uri = true)

theorem LinkRule.Apart.symm {rule other : LinkRule} (h : rule.Apart other) : other.Apart rule :=
  fun uri hclaims => h uri hclaims.symm

theorem ExternalLink.apart_internal (projects : List LoadedProject) (index : ProjectIndex)
    (file : String) : (rule projects).Apart (InternalLink.rule index file) := by
  rintro uri ⟨hexternal, hinternal⟩
  obtain ⟨project, -, hclaims⟩ := List.any_eq_true.1 hexternal
  have hstarts : (XrefUri.scheme ++ project.key).toList <+: (XrefUri.modernize uri).toList := by
    simp only [Bool.and_eq_true, List.isPrefixOf_iff_prefix] at hclaims
    exact hclaims.2
  rw [String.toList_append] at hstarts
  have hscheme := (List.prefix_append XrefUri.scheme.toList project.key.toList).trans hstarts
  have hunclaimed : InternalLink.claims index file uri = false :=
    InternalLink.claims_eq_false_of_prefix hscheme index file
  exact absurd (hinternal.symm.trans hunclaimed) (by simp)

namespace LinkRules

variable {rules others : LinkRules}

theorem owner?_eq_of_perm (hperm : rules.Perm others) (hapart : rules.Pairwise LinkRule.Apart)
    (uri : String) : rules.owner? uri = others.owner? uri := by
  unfold owner?
  induction hperm with
  | nil => rfl
  | cons rule _ ih =>
      rw [List.find?_cons, List.find?_cons, ih (List.pairwise_cons.1 hapart).2]
  | swap rule other rest =>
      have hnot := (List.pairwise_cons.1 hapart).1 rule List.mem_cons_self uri
      cases hrule : rule.claims uri with
      | false => simp [List.find?_cons, hrule]
      | true =>
          have hother : other.claims uri = false := by simpa [hrule] using hnot
          simp [List.find?_cons, hother]
  | trans hleft _ ihleft ihright =>
      have hmiddle := (hleft.pairwise_iff LinkRule.Apart.symm).1 hapart
      exact (ihleft hapart).trans (ihright hmiddle)

theorem offer_congr (h : ∀ uri, rules.owner? uri = others.owner? uri) (link : Attributes) :
    rules.offer link = others.offer link := by
  unfold offer
  simp only [h]

theorem pass_congr (h : ∀ link, rules.offer link = others.offer link) (tree : Node) :
    rules.apply tree = others.apply tree ∧ rules.summary tree = others.summary tree ∧
      rules.findings tree = others.findings tree := by
  have htreat : rules.treat = others.treat := by
    funext attributes
    unfold treat
    rw [h]
  refine ⟨?_, ?_, ?_⟩
  · unfold apply
    rw [htreat]
  · unfold summary count
    simp only [h]
  · unfold findings
    simp only [h]

/--
The rule for links into other projects and the rule for links inside the project never claim one
url. So they can be asked in either order: the tree, the counts and the findings are the same.
-/
theorem external_internal_comm (references : List ProjectReference) (index : ProjectIndex)
    (file : String) :
    let external := ExternalLink.rule (ExternalLink.projects references)
    let internal := InternalLink.rule index file
    (∀ uri, ¬ (external.claims uri = true ∧ internal.claims uri = true)) ∧
      ∀ tree,
        apply [external, internal] tree = apply [internal, external] tree ∧
        summary [external, internal] tree = summary [internal, external] tree ∧
        findings [external, internal] tree = findings [internal, external] tree := by
  intro external internal
  have hapart : external.Apart internal := ExternalLink.apart_internal _ index file
  have howner := owner?_eq_of_perm (List.Perm.swap internal external [])
    (List.pairwise_pair.2 hapart)
  exact ⟨hapart, pass_congr (offer_congr howner)⟩

end LinkRules

end CrossDoc
