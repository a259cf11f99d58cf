import CrossDoc.CommandLine.Slug
import CrossDoc.Proofs.CrossReference
import CrossDoc.Proofs.Target.Url

/-!
# Where resolved cross-references lead

A browser reads a url that starts with `#` as a place on the page it stands on (`absolute`). On the
target's own page a reference is written as the bare anchor, elsewhere as the url of the target. The
two agree for every target that stands on a page. They do not for a page that is a target itself:
its url has no anchor, so a reference to the page from the page points at an anchor
(`absolute_urlFrom_own_iff`).
-/

namespace CrossDoc.CrossReference

/-- Whether a url is a place on the page it stands on. -/
def isAnchor (url : String) : Bool := "#".toList.isPrefixOf url.toList

/-- Where a url leads that stands on the page at `pageUrl`. -/
def absolute (pageUrl url : String) : String := if isAnchor url then pageUrl ++ url else url

theorem isAnchor_hash_append (anchor : String) : isAnchor ("#" ++ anchor) = true := by
  unfold isAnchor
  rw [String.toList_append]
  rfl

theorem absolute_of_isAnchor {url : String} (h : isAnchor url = true) (pageUrl : String) :
    absolute pageUrl url = pageUrl ++ url := by
  unfold absolute
  rw [if_pos h]

theorem absolute_of_not_isAnchor {url : String} (h : ¬ isAnchor url = true) (pageUrl : String) :
    absolute pageUrl url = url := by
  unfold absolute
  rw [if_neg h]

/-! ## From the target's own page -/

theorem append_hash_ne (pageUrl anchor : String) : pageUrl ++ "#" ++ anchor ≠ pageUrl := by
  intro h
  have hlength := congrArg String.length h
  have hhash : "#".length = 1 := rfl
  rw [String.length_append, String.length_append, hhash] at hlength
  omega

variable {page : PageTargets} {identifier : String} {target : Target}

theorem absolute_urlFrom_own_iff [Text.Slugger] (hpage : page.Reachable)
    (h : page.resolve? identifier = some target) (file : String) :
    absolute page.url (urlFrom file file target) = target.url ↔ target.kind ≠ .page := by
  have hurl := hpage.url_eq_of_resolve? h
  have hwritten : absolute page.url (urlFrom file file target) =
      page.url ++ "#" ++ target.htmlId := by
    unfold urlFrom
    rw [if_pos rfl, absolute_of_isAnchor (isAnchor_hash_append target.htmlId), String.append_assoc]
  rw [hwritten, hurl]
  unfold Target.urlOn
  by_cases hkind : target.kind = .page
  · rw [if_pos hkind]
    constructor
    · intro heq
      exact absurd heq (append_hash_ne page.url target.htmlId)
    · intro hne
      exact absurd hkind hne
  · rw [if_neg hkind]
    exact ⟨fun _ => hkind, fun _ => rfl⟩

/-! ## From any other page -/

theorem append_eq_self_iff (pageUrl url : String) : pageUrl ++ url = url ↔ pageUrl = "" := by
  constructor
  · intro h
    have hlength := congrArg String.length h
    rw [String.length_append] at hlength
    have hzero : pageUrl.length = 0 := by omega
    exact String.length_eq_zero_iff.1 hzero
  · rintro rfl
    exact String.empty_append

theorem absolute_urlFrom_iff_of_ne {file owner : String} (hne : owner ≠ file) (pageUrl : String)
    (target : Target) : absolute pageUrl (urlFrom file owner target) = target.url ↔
      (isAnchor target.url = true → pageUrl = "") := by
  have hwritten : urlFrom file owner target = target.url := by
    unfold urlFrom
    rw [if_neg hne]
  rw [hwritten]
  by_cases hanchor : isAnchor target.url = true
  · rw [absolute_of_isAnchor hanchor, append_eq_self_iff]
    exact ⟨fun hempty _ => hempty, fun hempty => hempty hanchor⟩
  · rw [absolute_of_not_isAnchor hanchor]
    exact ⟨fun _ hyes => absurd hyes hanchor, fun _ => rfl⟩

/-! ## The pass over a page -/

variable {index : ProjectIndex} {file owner : String} {tree node : Node} {path : Path}

theorem exists_at?_resolve_of_target? (hnode : tree.at? path = some node)
    (htarget : target? index file node.toAttributes = some (owner, target)) :
    ∃ reference, (resolve index file tree).at? path = some reference ∧
      reference.identifier = some target.identifier ∧
      reference.url = some (urlFrom file owner target) := by
  have hresolved : treat index file node.toAttributes =
      resolved file owner target node.toAttributes := by
    unfold treat
    rw [htarget]
  refine ⟨resolve index file node, at?_resolve hnode, ?_, ?_⟩
  · rw [toAttributes_resolve, hresolved]
    rfl
  · rw [toAttributes_resolve, hresolved]
    rfl

/--
A resolved cross-reference leads where its target is, with two exceptions: a reference to a page
from that page, and a reference to a target of another page whose url is a bare anchor.
-/
theorem absolute_url_resolve_iff [Text.Slugger] {page : IndexedPage}
    (hpage : index.get? file = some page) (hreachable : page.targets.Reachable)
    (hnode : tree.at? path = some node)
    (htarget : target? index file node.toAttributes = some (owner, target)) :
    ∃ reference url, (resolve index file tree).at? path = some reference ∧
      reference.identifier = some target.identifier ∧ reference.url = some url ∧
      (absolute page.targets.url url = target.url ↔
        if owner = file then target.kind ≠ .page
        else isAnchor target.url = true → page.targets.url = "") := by
  obtain ⟨reference, hreference, hidentifier, hurl⟩ := exists_at?_resolve_of_target? hnode htarget
  refine ⟨reference, _, hreference, hidentifier, hurl, ?_⟩
  by_cases hown : owner = file
  · subst hown
    rw [if_pos rfl]
    obtain ⟨identifier, -, hlookUp⟩ := Option.bind_eq_some_iff.1 htarget
    obtain ⟨found, hfound, hresolves⟩ := exists_of_lookUp? hlookUp
    have hsame : page = found := Option.some.inj (hpage.symm.trans hfound)
    rw [← hsame] at hresolves
    exact absolute_urlFrom_own_iff hreachable hresolves owner
  · rw [if_neg hown]
    exact absolute_urlFrom_iff_of_ne hown page.targets.url target

def selfReferring : SourceDocument where
  path := "a.md"
  page :=
    { slug := "a", url := "/a"
      frontmatter := { label := some "whole", title := some "All" } }
  content := .ofType NodeType.root
    [{ type := NodeType.crossReference, identifier := some "whole" }]

/-- The reference points at an anchor of the page and not at the page. -/
theorem selfReferring_leads_elsewhere :
    ∃ reference url, (resolve (SourceDocument.indexOf {} [selfReferring]) "a.md"
        selfReferring.content).at? [0] = some reference ∧
      reference.identifier = some "whole" ∧ reference.url = some url ∧
      absolute "/a" url ≠ "/a" := by
  have hpage : (SourceDocument.indexOf {} [selfReferring]).get? "a.md" = some
      { targets := (selfReferring.enumerate {}).targets, page := selfReferring.page } :=
    SourceDocument.get?_indexOf_of_mem (by decide) (List.mem_singleton_self selfReferring)
  have hreachable := SourceDocument.reachable_of_get?_indexOf hpage
  obtain ⟨node, hnode⟩ : ∃ node, selfReferring.content.at? [0] = some node := ⟨_, rfl⟩
  have htarget : target? (SourceDocument.indexOf {} [selfReferring]) "a.md" node.toAttributes =
      some ("a.md", { identifier := "whole", kind := .page, htmlId := "whole", url := "/a",
                      title := some "All" }) := by
    have hsame := Option.some.inj hnode
    rw [← hsame]
    decide +kernel
  obtain ⟨reference, url, hreference, hidentifier, hurl, hleads⟩ :=
    absolute_url_resolve_iff hpage hreachable hnode htarget
  have hpageUrl : (selfReferring.enumerate {}).targets.url = "/a" := by decide +kernel
  refine ⟨reference, url, hreference, hidentifier, hurl, ?_⟩
  intro hsame
  rw [hpageUrl, if_pos rfl] at hleads
  exact hleads.1 hsame rfl

end CrossDoc.CrossReference
